/-
Running a command.

A command reads one file and either answers on the standard output, or says on the standard error what is wrong;
the exit code is then 1. `Outcome.ofArguments` runs the command that arguments stand for; arguments that make no
command have the exit code 2.
-/
import TaggedText.Document.Builder
import TaggedText.CommandLine.Arguments
import TaggedText.Document.Json
import TaggedText.Text.Columns

namespace TaggedText.CommandLine

/-- what is found at a path -/
inductive FileState where
  /-- there is nothing -/
  | missing
  /-- there is something, but no text can be read from it -/
  | unreadable (reason : String)
  /-- there is a file with this text -/
  | text (t : Text)
deriving DecidableEq, Repr

namespace FileState

def directory : FileState :=
  .unreadable "Is a directory (os error 21)"

/-- a file with the given bytes, which are a text if they are valid UTF-8 -/
def ofBytes (bytes : ByteArray) : FileState :=
  match String.fromUTF8? bytes with
  | some s => .text s.toList
  | none => .unreadable "stream did not contain valid UTF-8"

end FileState

structure Outcome where
  exit : Nat
  stdout : Text
  stderr : Text
  events : List Event

namespace Outcome

def printed (t : Text) (events : List Event) : Outcome :=
  ⟨0, t, [], events⟩

def failed (message : String) (events : List Event) : Outcome :=
  ⟨1, [], s!"Error: {message}\n".toList, events⟩

end Outcome

/-- the deepest document that is printed as JSON -/
def maxJsonDepth : Nat :=
  2048

/-- the text of a file, or what is wrong with it -/
def sourceOf (path : Text) : FileState → Except String Text
  | .missing => .error s!"file not found: {String.ofList path}"
  | .unreadable reason => .error s!"reading {String.ofList path}: {reason}"
  | .text t => .ok t

def readDocument (path : Text) (rules : BuildRules) (file : FileState) : Logged (Except String Document) :=
  match sourceOf path file with
  | .error message => ⟨.error message, []⟩
  | .ok source =>
    match Document.ofText rules source with
    | ⟨.error e, events⟩ => ⟨.error s!"parsing {String.ofList path}: {e.message}", events⟩
    | ⟨.ok d, events⟩ => ⟨.ok d, events ++ [.parsed path d.count]⟩

/-! ## Listings -/

/-- one token on a line of its own: its location, its kind and its text -/
def tokenLine (t : Token) : Text :=
  Text.padLeft 4 (Text.decimal t.span.location.line) ++ ':' ::
    Text.padRight 4 (Text.decimal t.span.location.column) ++ ' ' ::
    Text.padRight 22 t.kind.label.toList ++ ' ' :: Text.quoted t.text ++ ['\n']

def attributesText (a : Attributes) : Text :=
  a.entries.flatMap fun e => ' ' :: e.1 ++ '=' :: Text.quoted e.2

/-- one element on a line of its own, after two spaces for each element around it -/
def outlineLine (depth : Nat) (e : Element) : Text :=
  List.replicate (2 * depth) ' ' ++ e.name ++ attributesText e.attributes ++
    (match e.content with
      | .text t => ':' :: ' ' :: Text.quoted t
      | _ => []) ++
    ['\n']

/-- the outline's part at one moment of the walk around a tree -/
def outlineVisit : Element.Visit → Text
  | .enter depth e => outlineLine depth e
  | .leave _ _ => []

def outline (e : Element) : Text :=
  e.tour.flatMap outlineVisit

/-- the line about instructions at the head of an outline -/
def instructionsLine (i : Instructions) : Text :=
  if i.isEmpty then [] else '?' :: i.target ++ attributesText i.attributes ++ ['\n']

/-! ## Commands -/

def runCheck (path : Text) (rules : BuildRules) (file : FileState) : Outcome :=
  match readDocument path rules file with
  | ⟨.error message, events⟩ => .failed message events
  | ⟨.ok _, events⟩ => ⟨0, [], s!"OK: {String.ofList path}\n".toList, events⟩

def runTokens (path : Text) (file : FileState) : Outcome :=
  match sourceOf path file with
  | .error message => .failed message []
  | .ok source =>
    match source.tokens with
    | ⟨.error e, events⟩ => .failed s!"tokenizing {String.ofList path}: {e.message}" events
    | ⟨.ok tokens, events⟩ => .printed (tokens.flatMap tokenLine) events

/-- what a layout puts after a whole document: a line end if it puts none itself -/
def lastNewline : Layout → Text
  | .compact => ['\n']
  | .indented _ => []

def runFormat (path : Text) (layout : Layout) (rules : BuildRules) (file : FileState) : Outcome :=
  match readDocument path rules file with
  | ⟨.error message, events⟩ => .failed message events
  | ⟨.ok d, events⟩ =>
    match d.write layout with
    | .error e => .failed s!"writing {String.ofList path}: {e.message}" events
    | .ok t => .printed (t ++ lastNewline layout) events

def runOutline (path : Text) (rules : BuildRules) (file : FileState) : Outcome :=
  match readDocument path rules file with
  | ⟨.error message, events⟩ => .failed message events
  | ⟨.ok d, events⟩ => .printed (instructionsLine d.instructions ++ outline d.root) events

def runJson (path : Text) (rules : BuildRules) (file : FileState) : Outcome :=
  match readDocument path rules file with
  | ⟨.error message, events⟩ => .failed message events
  | ⟨.ok d, events⟩ =>
    if maxJsonDepth < d.root.depth then
      let levels := d.root.depth
      .failed s!"{String.ofList path} is nested {levels} levels deep; JSON output supports at most {maxJsonDepth}"
        events
    else .printed (d.toJson.print .pretty ++ ['\n']) events

def usage : List String :=
  ["Tokenize, check and reformat XML-shaped markup",
   "",
   "Usage: markup <COMMAND>",
   "",
   "Commands:",
   "  check   Check a file for errors without producing output",
   "  tokens  Print the token stream of a file",
   "  fmt     Re-emit a file as normalized markup",
   "  tree    Print the element tree of a file"]

/-- runs a command, `files` telling what is found at a path -/
def Command.run (files : Text → FileState) : Command → Outcome
  | .check path rules => runCheck path rules (files path)
  | .tokens path => runTokens path (files path)
  | .format path layout rules => runFormat path layout rules (files path)
  | .tree path false rules => runOutline path rules (files path)
  | .tree path true rules => runJson path rules (files path)
  | .version => .printed "markup 0.7.0\n".toList []
  | .help => .printed (usage.flatMap fun line => line.toList ++ ['\n']) []

def Outcome.ofArguments (files : Text → FileState) (arguments : List Text) : Outcome :=
  match Command.ofArguments arguments with
  | .ok command => command.run files
  | .error e => ⟨2, [], s!"error: {e.message}\n".toList, []⟩

end TaggedText.CommandLine
