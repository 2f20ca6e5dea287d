/-
Reading the arguments of the command line.

The first argument names a command, and the others are a path and options in any order. An option begins with two
hyphens; its value follows an equals sign or is the next argument, which must not look like an option itself. After
`--` everything is a path. Every option may be given once, a command takes only its own options, and the compact
layout excludes an indentation. The command `help` takes nothing but the name of one command.
-/
import TaggedText.Document.Layout
import TaggedText.Document.Rules

namespace TaggedText.CommandLine

/-- what a command does with a file -/
inductive Verb where
  | check
  | tokens
  | format
  | tree
deriving DecidableEq, Repr

inductive Flag where
  | trimText
  | maxDepth
  | indent
  | compact
  | json
deriving DecidableEq, Repr

inductive Command where
  /-- says whether the file holds a document -/
  | check (path : Text) (rules : BuildRules)
  /-- lists the tokens of the file -/
  | tokens (path : Text)
  /-- writes the document of the file -/
  | format (path : Text) (layout : Layout) (rules : BuildRules)
  /-- outlines the tree of the file, or prints its document as JSON -/
  | tree (path : Text) (json : Bool) (rules : BuildRules)
  /-- tells the version -/
  | version
  /-- tells how the program is used -/
  | help
deriving DecidableEq, Repr

inductive UsageError where
  | noCommand
  | unknownCommand (name : Text)
  | unexpectedArgument (argument : Text)
  | missingPath
  | missingValue (flag : Flag)
  | unexpectedValue (flag : Flag)
  | badNumber (flag : Flag) (value : Text)
  | repeated (flag : Flag)
  | conflict (one other : Flag)
deriving DecidableEq, Repr

namespace Verb

def ofName? (name : Text) : Option Verb :=
  if name = "check".toList then some .check
  else if name = "tokens".toList then some .tokens
  else if name = "fmt".toList then some .format
  else if name = "tree".toList then some .tree
  else none

def takes : Verb → Flag → Bool
  | .check, .trimText | .check, .maxDepth => true
  | .format, .trimText | .format, .maxDepth | .format, .indent | .format, .compact => true
  | .tree, .trimText | .tree, .maxDepth | .tree, .json => true
  | _, _ => false

end Verb

namespace Flag

/-- the option as it is written, without its hyphens -/
def name : Flag → String
  | .trimText => "trim-text"
  | .maxDepth => "max-depth"
  | .indent => "indent"
  | .compact => "compact"
  | .json => "json"

def ofName? (name : Text) : Option Flag :=
  [trimText, maxDepth, indent, compact, json].find? fun flag => flag.name.toList == name

def hasValue : Flag → Bool
  | .maxDepth | .indent => true
  | .trimText | .compact | .json => false

end Flag

def UsageError.message : UsageError → String
  | .noCommand => "a command is required"
  | .unknownCommand name => s!"unknown command '{String.ofList name}'"
  | .unexpectedArgument argument => s!"unexpected argument '{String.ofList argument}'"
  | .missingPath => "a path is required"
  | .missingValue flag => s!"a value is required for '--{flag.name}'"
  | .unexpectedValue flag => s!"'--{flag.name}' takes no value"
  | .badNumber flag value => s!"invalid value '{String.ofList value}' for '--{flag.name}'"
  | .repeated flag => s!"'--{flag.name}' cannot be used more than once"
  | .conflict one other => s!"'--{one.name}' cannot be used with '--{other.name}'"

/-- a size: decimal digits, with a plus sign before them or not, below 2^64 -/
def size? (t : Text) : Option Nat :=
  let digits := if t.head? = some '+' then t.tail else t
  if digits = [] ∨ digits.any (!·.isDigit) then none
  else
    let n := digits.foldl (fun n c => 10 * n + (c.toNat - '0'.toNat)) 0
    if n < Size.limit then some n else none

inductive Shape where
  /-- a path, or the value of an option -/
  | plain
  /-- the two hyphens after which there are only paths -/
  | separator
  /-- an option by its name, perhaps with a value after an equals sign -/
  | long (name : Text) (value : Option Text)
  /-- options of one letter after a single hyphen -/
  | short (letters : Text)
deriving DecidableEq, Repr

def Shape.of : Text → Shape
  | ['-', '-'] => .separator
  | '-' :: '-' :: t =>
    match t.dropWhile (· != '=') with
    | [] => .long t none
    | _ :: value => .long (t.takeWhile (· != '=')) (some value)
  | ['-'] => .plain
  | '-' :: letters => .short letters
  | _ => .plain

structure Given where
  path : Option Text
  /-- the options that were given, with the values of those that have one -/
  flags : List (Flag × Option Nat)
deriving DecidableEq, Repr

namespace Given

def nothing : Given :=
  ⟨none, []⟩

def has (g : Given) (flag : Flag) : Bool :=
  g.flags.any (·.1 == flag)

def value? (g : Given) (flag : Flag) : Option Nat :=
  (g.flags.find? (·.1 == flag)).bind (·.2)

def addPath (g : Given) (path : Text) : Except UsageError Given :=
  match g.path with
  | none => .ok { g with path := some path }
  | some _ => .error (.unexpectedArgument path)

/-- takes several paths, of which there may be only one in all -/
def addPaths (g : Given) : List Text → Except UsageError Given
  | [] => .ok g
  | path :: paths =>
    match g.addPath path with
    | .ok g => addPaths g paths
    | .error e => .error e

def addFlag (g : Given) (flag : Flag) (value : Option Nat) : Except UsageError Given :=
  if g.has flag then .error (.repeated flag) else .ok { g with flags := g.flags ++ [(flag, value)] }

def addValue (g : Given) (flag : Flag) (t : Text) : Except UsageError Given :=
  match size? t with
  | some n => g.addFlag flag (some n)
  | none => .error (.badNumber flag t)

def rules (g : Given) : BuildRules :=
  ⟨g.has .trimText, g.value? .maxDepth, none⟩

def layout (g : Given) : Layout :=
  if g.has .compact then .compact else .indented ((g.value? .indent).getD 2)

def command (g : Given) (verb : Verb) : Except UsageError Command :=
  match g.path with
  | none => .error .missingPath
  | some path =>
    if g.has .compact && g.has .indent then .error (.conflict .compact .indent)
    else
      match verb with
      | .check => .ok (.check path g.rules)
      | .tokens => .ok (.tokens path)
      | .format => .ok (.format path g.layout g.rules)
      | .tree => .ok (.tree path (g.has .json) g.rules)

end Given

/-- reads the arguments of a command, `g` being what was given before; a request for help goes before what follows -/
def readArguments (verb : Verb) (g : Given) : List Text → Except UsageError Command
  | [] => g.command verb
  | argument :: rest =>
    match Shape.of argument with
    | .plain =>
      match g.addPath argument with
      | .ok g => readArguments verb g rest
      | .error e => .error e
    | .separator =>
      match g.addPaths rest with
      | .ok g => g.command verb
      | .error e => .error e
    | .short letters => if letters.head? = some 'h' then .ok .help else .error (.unexpectedArgument argument)
    | .long name value =>
      match (Flag.ofName? name).filter verb.takes with
      | none =>
        if name = "help".toList ∧ value = none then .ok .help else .error (.unexpectedArgument argument)
      | some flag =>
        if flag.hasValue then
          match value with
          | some t =>
            match g.addValue flag t with
            | .ok g => readArguments verb g rest
            | .error e => .error e
          | none =>
            match rest with
            | [] => .error (.missingValue flag)
            | t :: rest =>
              if Shape.of t = .plain then
                match g.addValue flag t with
                | .ok g => readArguments verb g rest
                | .error e => .error e
              else .error (.missingValue flag)
        else if value.isSome then .error (.unexpectedValue flag)
        else
          match g.addFlag flag none with
          | .ok g => readArguments verb g rest
          | .error e => .error e

/-- a request for help about the program, about one of its commands, or about the command `help` itself -/
def Command.ofTopics : List Text → Except UsageError Command
  | [] => .ok .help
  | topic :: rest =>
    if topic ≠ "help".toList ∧ (Verb.ofName? topic).isNone then .error (.unknownCommand topic)
    else
      match rest with
      | [] => .ok .help
      | extra :: _ => .error (.unknownCommand extra)

/-- the command that the arguments stand for -/
def Command.ofArguments : List Text → Except UsageError Command
  | [] => .error .noCommand
  | argument :: rest =>
    match Shape.of argument with
    | .short letters =>
      if letters.head? = some 'V' then .ok .version
      else if letters.head? = some 'h' then .ok .help
      else .error (.unexpectedArgument argument)
    | .long name value =>
      if name = "version".toList ∧ value = none then .ok .version
      else if name = "help".toList ∧ value = none then .ok .help
      else .error (.unexpectedArgument argument)
    | .separator => .error (.unexpectedArgument argument)
    | .plain =>
      if argument = "help".toList then Command.ofTopics rest
      else
        match Verb.ofName? argument with
        | some verb => readArguments verb .nothing rest
        | none => .error (.unknownCommand argument)

def Command.path? : Command → Option Text
  | .check path _ | .tokens path | .format path _ _ | .tree path _ _ => some path
  | .version | .help => none

end TaggedText.CommandLine
