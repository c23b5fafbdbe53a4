import NandTools.Grammar.Schema

/-! A matcher is one production being read. Children are offered to it one at a time; each is
taken by the first field that may have it, or refused. -/
namespace NandTools

/-- A field of the production, whether it has matched, and whether the field before it has to
demand it. -/
structure Slot where
  field : Field
  bound : Bool
  matched : Bool
deriving Repr

namespace Slot

/-- A field that is not repeatable takes one child only. -/
def takes (slot : Slot) (tree : Tree) : Bool :=
  (slot.field.repeatable || !slot.matched) && slot.field.acceptance.accepts tree

def isSatisfied (slot : Slot) : Bool := slot.matched || !slot.field.required

/-- Fresh slots for `fields`; the first one is bound if `bound`. -/
def ofFields (bound : Bool) : List Field → List Slot
  | [] => []
  | field :: rest => ⟨field, bound, false⟩ :: ofFields field.demandsNext rest

end Slot

structure Matcher where
  rule : Rule
  slots : List Slot
  taken : List Tree
  closed : Bool
  stage : Stage
  group : Nat
  lastGroup? : Option Nat
  demanded? : Option Nat
deriving Repr

namespace Matcher

def ofRule (rule : Rule) : Matcher where
  rule
  slots := Slot.ofFields false rule.fields
  taken := []
  closed := false
  stage := .initial
  group := 0
  lastGroup? := none
  demanded? := none

def children (m : Matcher) : List Tree := m.taken.reverse

/-- The first slot from group `start` on that is free to take `tree`, counted from `i`. A required
field that cannot take it refuses it for all that follow; a chained field that has never matched
ends the search of its group. -/
def seek (tree : Tree) (start i : Nat) : List Slot → Option Nat
  | [] => none
  | slot :: rest =>
    if slot.field.group < start || slot.bound then seek tree start (i + 1) rest
    else if slot.takes tree then some i
    else if !slot.isSatisfied then none
    else if slot.field.chained && !slot.matched then
      seek tree (slot.field.group + 1) (i + 1) rest
    else seek tree start (i + 1) rest

/-- The slot for the next child: while a field is demanded, that one or none. -/
def slotFor? (m : Matcher) (tree : Tree) : Option Nat :=
  match m.demanded? with
  | some i => if (m.slots[i]?.map (·.takes tree)).getD false then some i else none
  | none => seek tree m.group 0 m.slots

/-- Offer a child. A matcher that refuses it is left as it was. -/
def offer? (m : Matcher) (tree : Tree) : Option Matcher :=
  if m.closed then none
  else
    match m.slotFor? tree with
    | none => none
    | some i =>
      match m.slots[i]? with
      | none => none
      | some slot =>
        let field := slot.field
        some
          { m with
            slots := m.slots.set i { slot with matched := true }
            taken := tree :: m.taken
            closed := field.closes
            stage := field.stage?.getD m.stage
            group := if field.leavesGroup then field.group + 1 else field.group
            lastGroup? := some field.group
            demanded? := if field.demandsNext then some (i + 1) else none }

/-- Take the newest child away again. What its field has matched stays matched. -/
def pop (m : Matcher) : Option Tree × Matcher :=
  match m.taken with
  | [] => (none, m)
  | tree :: rest => (some tree, { m with taken := rest })

def demandedField? (m : Matcher) : Option Field :=
  m.demanded?.bind fun i => m.slots[i]?.map (·.field)

def unsatisfied? (m : Matcher) : Option Field :=
  (m.slots.find? fun slot => !slot.isSatisfied).map (·.field)

/-- The field that would close the group matched last. -/
def closer? (m : Matcher) : Option Field :=
  if m.closed then none
  else m.lastGroup?.bind fun group => (m.rule.fieldsIn group).find? (·.closes)

/-- The field the production still waits for: one demanded, one required, one that closes. -/
def awaited? (m : Matcher) : Option Field :=
  m.demandedField?.or (m.unsatisfied?.or m.closer?)

def isComplete (m : Matcher) : Bool := m.awaited?.isNone

def toTree (m : Matcher) : Tree := .branch m.rule m.children m.closed

end Matcher

end NandTools
