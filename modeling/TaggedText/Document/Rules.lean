/-
Rules for building documents, and how they are read from a configuration.

A configuration gives the rules as a table with the keys `trim-text`, `max-depth` and `token-reserve`, or as a list
of up to three values in that order. What is missing keeps its default; unknown keys mean nothing.
-/
import TaggedText.Size

namespace TaggedText

structure BuildRules where
  /-- whether blanks around texts are dropped, and texts that are all blank with them -/
  trimText : Bool
  /-- how many levels a document may have; any number if there is no limit -/
  maxDepth : Option Nat
  /-- how many tokens to make room for; if it is not told, one for every eight bytes of the text -/
  tokenReserve : Option Nat
deriving DecidableEq, Repr

inductive Setting where
  | null
  | flag (b : Bool)
  | natural (n : Nat)
  | list (settings : List Setting)
  | table (settings : List (Text × Setting))
  /-- a text, or a number that is not a natural one -/
  | other

namespace BuildRules

/-- texts are kept as they are, and there is no limit -/
def default : BuildRules :=
  ⟨false, none, none⟩

def setTrimText (rules : BuildRules) (trimText : Bool) : BuildRules :=
  { rules with trimText }

def setMaxDepth (rules : BuildRules) (maxDepth : Nat) : BuildRules :=
  { rules with maxDepth := some maxDepth }

def setTokenReserve (rules : BuildRules) (tokenReserve : Nat) : BuildRules :=
  { rules with tokenReserve := some tokenReserve }

def readFlag : Setting → Option Bool
  | .flag b => some b
  | _ => none

/-- reads a size, which may be null for none -/
def readSize : Setting → Option (Option Nat)
  | .null => some none
  | .natural n => if n < Size.limit then some (some n) else none
  | _ => none

/-- the value under a key that occurs at most once, `default` if it does not occur -/
def readKey {α : Type} (key : Text) (default : α) (read : Setting → Option α) (settings : List (Text × Setting)) :
    Option α :=
  match settings.filter (·.1 == key) with
  | [] => some default
  | [(_, setting)] => read setting
  | _ => none

/-- the value at a place of a list, `default` if the list is too short -/
def readPlace {α : Type} (place : Nat) (default : α) (read : Setting → Option α) (settings : List Setting) :
    Option α :=
  match settings[place]? with
  | none => some default
  | some setting => read setting

/-- reads rules from a configuration; `none` if they are not in order -/
def ofSetting? : Setting → Option BuildRules
  | .table settings => do
    let trimText ← readKey "trim-text".toList false readFlag settings
    let maxDepth ← readKey "max-depth".toList none readSize settings
    let tokenReserve ← readKey "token-reserve".toList none readSize settings
    return ⟨trimText, maxDepth, tokenReserve⟩
  | .list settings => do
    let trimText ← readPlace 0 false readFlag settings
    let maxDepth ← readPlace 1 none readSize settings
    let tokenReserve ← readPlace 2 none readSize settings
    if settings.length ≤ 3 then return ⟨trimText, maxDepth, tokenReserve⟩ else none
  | _ => none

end BuildRules

end TaggedText
