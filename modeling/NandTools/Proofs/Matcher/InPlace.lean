import NandTools.Parser

/-! Matchers that are changed in place. The places of a production stand in groups, which are made for
the first child that is offered; a place is marked by the search that finds it. To ask for a place
that is not there is a fault. All this comes to the same as a matcher that is replaced with every
child it takes. -/
namespace NandTools

namespace Matcher

/-- What can be asked of a matcher. -/
inductive Call where
  | offer (tree : Tree)
  | pop

inductive Reply where
  | taken
  | refused (tree : Tree)
  | popped (tree? : Option Tree)

/-- The answer, and the matcher after it. A tree that is refused is handed back. -/
def answer (m : Matcher) : Call → Reply × Matcher
  | .offer tree =>
    match m.offer? tree with
    | some m' => (.taken, m')
    | none => (.refused tree, m)
  | .pop => (.popped m.pop.1, m.pop.2)

def answers (m : Matcher) : List Call → List Reply × Matcher
  | [] => ([], m)
  | call :: rest =>
    let out := m.answer call
    let later := answers out.2 rest
    (out.1 :: later.1, later.2)

/-- What can be seen of a matcher. -/
structure View where
  rule : Rule
  closed : Bool
  stage : Stage
  group : Nat
  children : List Tree
  complete : Bool
  expected : String

def view (m : Matcher) : View where
  rule := m.rule
  closed := m.closed
  stage := m.stage
  group := m.group
  children := m.children
  complete := m.isComplete
  expected := (Parser.expectation m).text

end Matcher

/-- A field, how often it has matched, and whether it takes no more. -/
structure Place where
  field : Field
  bound : Bool
  count : Nat
  full : Bool
deriving DecidableEq

namespace Place

def ofFields (bound : Bool) : List Field → List Place
  | [] => []
  | field :: rest => ⟨field, bound, 0, false⟩ :: ofFields field.demandsNext rest

def matched (place : Place) : Place :=
  { place with count := place.count + 1, full := !place.field.repeatable }

/-- Try to take a tree, which marks the place if it succeeds. -/
def take (place : Place) (tree : Tree) : Bool × Place :=
  if place.full || !place.field.acceptance.accepts tree then (false, place)
  else (true, place.matched)

def isSatisfied (place : Place) : Bool := 0 < place.count || !place.field.required

def slot (place : Place) : Slot := ⟨place.field, place.bound, 0 < place.count⟩

def cleared (place : Place) : Place := { place with count := 0, full := false }

/-- A place takes no more once a field that cannot be repeated has matched. -/
def Sound (place : Place) : Prop :=
  place.full = (decide (0 < place.count) && !place.field.repeatable)

variable {place : Place} {tree : Tree}

@[simp] theorem slot_field (place : Place) : place.slot.field = place.field := rfl

@[simp] theorem matched_field (place : Place) : place.matched.field = place.field := rfl

theorem sound_matched (place : Place) : place.matched.Sound := by
  simp [Sound, matched]

theorem take_eq (sound : place.Sound) (tree : Tree) :
    place.take tree =
      if place.slot.takes tree then (true, place.matched) else (false, place) := by
  have same : (place.full || !place.field.acceptance.accepts tree) = !place.slot.takes tree := by
    rw [sound, Slot.takes, slot]
    simp [Bool.not_or, Bool.and_comm]
  rw [take, same]
  cases place.slot.takes tree <;> rfl

end Place

/-- Places in their groups. -/
abbrev Layout := List (List Place)

namespace Layout

def ofRule (rule : Rule) : Layout :=
  (List.range rule.groups).map fun group => Place.ofFields false (rule.fieldsIn group)

/-- The place with this number in the group with that number. -/
def at? (layout : Layout) (spot : Nat × Nat) : Option Place :=
  layout[spot.1]?.bind fun places => places[spot.2]?

def put (layout : Layout) (spot : Nat × Nat) (place : Place) : Layout :=
  layout.modify spot.1 fun places => places.set spot.2 place

/-- What the search through one group comes to: a place has taken the child, a required one has
refused it, or it has to be searched on. -/
inductive Finding where
  | taken (i : Nat)
  | barred
  | passed

def Finding.later : Finding → Finding
  | taken i => taken (i + 1)
  | barred => barred
  | passed => passed

def searchGroup (tree : Tree) : List Place → Finding × List Place
  | [] => (.passed, [])
  | place :: rest =>
    let behind := searchGroup tree rest
    if place.bound then (behind.1.later, place :: behind.2)
    else
      match place.take tree with
      | (true, place) => (.taken 0, place :: rest)
      | (false, place) =>
        if !place.isSatisfied then (.barred, place :: rest)
        else if place.field.chained && place.count == 0 then (.passed, place :: rest)
        else (behind.1.later, place :: behind.2)

/-- Search for a place that takes the child, leaving out so many groups at the beginning. -/
def search (tree : Tree) : Nat → Layout → Option (Nat × Nat) × Layout
  | _, [] => (none, [])
  | skipped + 1, places :: rest =>
    let behind := search tree skipped rest
    (behind.1.map fun spot => (spot.1 + 1, spot.2), places :: behind.2)
  | 0, places :: rest =>
    match searchGroup tree places with
    | (.taken i, places) => (some (0, i), places :: rest)
    | (.barred, places) => (none, places :: rest)
    | (.passed, places) =>
      let behind := search tree 0 rest
      (behind.1.map fun spot => (spot.1 + 1, spot.2), places :: behind.2)

end Layout

/-- A production that is being read, changed in place. -/
structure Attempt where
  rule : Rule
  children : List Tree
  closed : Bool
  stage : Stage
  group : Nat
  lastGroup? : Option Nat
  demanded? : Option (Nat × Nat)
  layout? : Option Layout

namespace Attempt

open Matcher (Call Reply View)

def ofRule (rule : Rule) : Attempt where
  rule
  children := []
  closed := false
  stage := .initial
  group := 0
  lastGroup? := none
  demanded? := none
  layout? := none

/-- The places, which are made where there are none yet. -/
def layout (a : Attempt) : Layout := a.layout?.getD (.ofRule a.rule)

/-- The place that has taken the child, and all places after that. -/
def find (a : Attempt) (tree : Tree) : Option (Option (Nat × Nat) × Layout) :=
  match a.demanded? with
  | none => some (a.layout.search tree a.group)
  | some spot => (a.layout.at? spot).map fun place =>
    let out := place.take tree
    (if out.1 then some spot else none, a.layout.put spot out.2)

/-- Offer a child. There is no outcome where a place is asked for that does not exist. -/
def offer (a : Attempt) (tree : Tree) : Option (Reply × Attempt) :=
  if a.closed then some (.refused tree, a)
  else (a.find tree).bind fun
    | (none, layout) => some (.refused tree, { a with layout? := some layout })
    | (some spot, layout) => (layout.at? spot).map fun place =>
      let field := place.field
      (.taken,
        { a with
          children := a.children ++ [tree]
          closed := a.closed || field.closes
          stage := field.stage?.getD a.stage
          group := if field.leavesGroup then spot.1 + 1 else spot.1
          lastGroup? := some spot.1
          demanded? := if field.demandsNext then some (spot.1, spot.2 + 1) else none
          layout? := some layout })

def answer (a : Attempt) : Call → Option (Reply × Attempt)
  | .offer tree => a.offer tree
  | .pop => some (.popped a.children.getLast?, { a with children := a.children.dropLast })

def answers (a : Attempt) : List Call → Option (List Reply × Attempt)
  | [] => some ([], a)
  | call :: rest =>
    (a.answer call).bind fun (reply, a) =>
      (answers a rest).map fun (replies, a) => (reply :: replies, a)

def demandedField (a : Attempt) : Option (Option Field) :=
  match a.demanded?, a.layout? with
  | some spot, some layout => (layout.at? spot).map fun place => some place.field
  | _, _ => some none

def unsatisfied? (a : Attempt) : Option Field :=
  match a.layout? with
  | some layout => (layout.flatten.find? fun place => !place.isSatisfied).map (·.field)
  | none => a.rule.fields.find? (·.required)

def closer? (a : Attempt) : Option Field :=
  if a.closed then none
  else a.lastGroup?.bind fun group => (a.rule.fieldsIn group).find? (·.closes)

/-- The field that is waited for: one demanded, one required, one that closes. -/
def awaited (a : Attempt) : Option (Option Field) :=
  a.demandedField.map fun demanded? => (demanded?.or a.unsatisfied?).or a.closer?

def isComplete (a : Attempt) : Option Bool :=
  a.demandedField.map fun demanded? =>
    demanded?.isNone && a.unsatisfied?.isNone && a.closer?.isNone

def expected (a : Attempt) : Option String :=
  a.awaited.map fun
    | some field => field.acceptance.text
    | none => "nothing"

def view (a : Attempt) : Option View :=
  a.isComplete.bind fun complete => a.expected.map fun expected =>
    ⟨a.rule, a.closed, a.stage, a.group, a.children, complete, expected⟩

end Attempt

end NandTools
