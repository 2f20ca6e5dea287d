/-
Which events go to the log.

A filter is written as parts between commas. A part is a level, for all events, or an origin, an equals sign and a
level, for the events whose origin begins with the one given; an origin alone stands for every level. The part with
the longest origin decides, of equal origins the last; events that no part is about are left out. Parts that are
neither mean nothing.
-/
import TaggedText.Event
import TaggedText.Text.Split

namespace TaggedText

/-- one part of a filter: events of this origin are logged from this level on, or not at all -/
structure LogRule where
  origin : Text
  level : Option Level
deriving DecidableEq, Repr

structure LogFilter where
  rules : List LogRule
deriving DecidableEq, Repr

namespace LogRule

/-- the level written in lower-case letters or as a digit; `off` is the level of no event -/
def levelOf? (t : Text) : Option (Option Level) :=
  match String.ofList (t.map Char.toLower) with
  | "trace" | "5" => some (some .trace)
  | "debug" | "4" => some (some .debug)
  | "info" | "3" => some (some .info)
  | "warn" | "2" => some (some .warn)
  | "error" | "1" => some (some .error)
  | "off" | "0" => some none
  | _ => none

def ofText? (t : Text) : Option LogRule :=
  match levelOf? t with
  | some level => some ⟨[], level⟩
  | none =>
    let origin := t.takeWhile (· != '=')
    if origin = [] then none
    else
      match t.dropWhile (· != '=') with
      | [] => some ⟨origin, some .trace⟩
      | _ :: level =>
        if level = [] then some ⟨origin, some .trace⟩
        else (levelOf? level).map fun level => ⟨origin, level⟩

def isAbout (r : LogRule) (origin : Text) : Bool :=
  r.origin.isPrefixOf origin

def lets (r : LogRule) (level : Level) : Bool :=
  match r.level with
  | some least => level.rank ≤ least.rank
  | none => false

/-- the later rule, unless the earlier one has the longer origin -/
def closer (earlier : Option LogRule) (later : LogRule) : Option LogRule :=
  match earlier with
  | some r => if later.origin.length < r.origin.length then some r else some later
  | none => some later

end LogRule

namespace LogFilter

def ofText (t : Text) : LogFilter :=
  ⟨(Text.split (· == ',') t).filterMap LogRule.ofText?⟩

/-- the filter of two settings, of which the first goes before the second; none if neither is there -/
def ofSettings? (first second : Option Text) : Option LogFilter :=
  match first with
  | some t => some (ofText t)
  | none => second.map ofText

def lets (f : LogFilter) (e : Event) : Bool :=
  match (f.rules.filter (·.isAbout e.origin.toList)).foldl LogRule.closer none with
  | some r => r.lets e.level
  | none => false

def lines (f : LogFilter) (events : List Event) : List String :=
  (events.filter f.lets).map Event.line

end LogFilter

end TaggedText
