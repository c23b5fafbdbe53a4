import NandTools.Parser.Matcher
import NandTools.Proofs.Grammar.Pattern

/-! What a matcher takes next depends on its posture: everything about it but the children that it
has taken. -/
namespace NandTools

def Slot.marked (slot : Slot) (matched : Bool) : Slot := { slot with matched }

structure Posture where
  marks : List Bool
  closed : Bool
  stage : Stage
  group : Nat
  lastGroup? : Option Nat
  demanded? : Option Nat
deriving Repr, DecidableEq

namespace Posture

/-- The matcher of a rule in this posture. -/
def matcher (rule : Rule) (q : Posture) (taken : List Tree) : Matcher where
  rule
  slots := List.zipWith Slot.marked (Slot.ofFields false rule.fields) q.marks
  taken
  closed := q.closed
  stage := q.stage
  group := q.group
  lastGroup? := q.lastGroup?
  demanded? := q.demanded?

end Posture

namespace Matcher

def posture (m : Matcher) : Posture where
  marks := m.slots.map (·.matched)
  closed := m.closed
  stage := m.stage
  group := m.group
  lastGroup? := m.lastGroup?
  demanded? := m.demanded?

end Matcher

namespace Posture

def start (rule : Rule) : Posture := (Matcher.ofRule rule).posture

/-- The posture after a child that is seen as `s`, unless it is refused. -/
def step (rule : Rule) (q : Posture) (s : Symbol) : Option Posture :=
  ((q.matcher rule []).offer? s.face).map Matcher.posture

def isComplete (rule : Rule) (q : Posture) : Bool := (q.matcher rule []).isComplete

end Posture

namespace Matcher

private theorem takes_congr {a b : Tree} (alike : a.symbol = b.symbol) (slot : Slot) :
    slot.takes a = slot.takes b := by
  rw [Slot.takes, Slot.takes, Acceptance.accepts_eq, Acceptance.accepts_eq, alike]

private theorem seek_congr {a b : Tree} (alike : a.symbol = b.symbol) (start i : Nat)
    (slots : List Slot) : seek a start i slots = seek b start i slots := by
  induction slots generalizing start i with
  | nil => rfl
  | cons slot rest ih => simp only [seek, takes_congr alike, ih]

private theorem slotFor_congr {a b : Tree} (alike : a.symbol = b.symbol) (m : Matcher)
    (taken : List Tree) : m.slotFor? a = { m with taken }.slotFor? b := by
  simp only [slotFor?, seek_congr alike, takes_congr alike]

/-- Neither what has been taken nor the inside of a child decides where it goes. -/
theorem offer_congr {a b : Tree} (alike : a.symbol = b.symbol) (m : Matcher) (taken : List Tree) :
    (m.offer? a).map posture = ({ m with taken }.offer? b).map posture := by
  simp only [offer?, slotFor_congr alike m taken]
  split
  · rfl
  · split
    · rfl
    · split <;> rfl

/-- The slots are those of the production. -/
def Regular (m : Matcher) : Prop :=
  m.slots.map (·.marked false) = Slot.ofFields false m.rule.fields

theorem regular_ofRule (rule : Rule) : (ofRule rule).Regular := by
  suffices fresh : ∀ bound fields,
      (Slot.ofFields bound fields).map (·.marked false) = Slot.ofFields bound fields from
    fresh false rule.fields
  intro bound fields
  induction fields generalizing bound with
  | nil => rfl
  | cons field rest ih =>
    rw [Slot.ofFields, List.map_cons, ih]
    rfl

theorem matcher_posture {m : Matcher} (regular : m.Regular) :
    m.posture.matcher m.rule m.taken = m := by
  have slots : List.zipWith Slot.marked (Slot.ofFields false m.rule.fields) m.posture.marks =
      m.slots := by
    rw [← regular, posture, List.zipWith_map, List.zipWith_self]
    exact List.map_id m.slots
  rw [Posture.matcher, slots]
  rfl

/-- What an offer that is accepted leaves in place. -/
theorem offer_eq_some {m m' : Matcher} {tree : Tree} (taken : m.offer? tree = some m') :
    m'.rule = m.rule ∧ m'.taken = tree :: m.taken ∧ (m.Regular → m'.Regular) := by
  unfold offer? at taken
  split at taken
  · cases taken
  · split at taken
    · cases taken
    · next i _ =>
      split at taken
      · cases taken
      · next slot found =>
        cases taken
        refine ⟨rfl, rfl, fun regular => ?_⟩
        rw [Regular, ← regular, List.map_set]
        obtain ⟨inside, same⟩ := List.getElem?_eq_some_iff.mp found
        have there : i < (m.slots.map (·.marked false)).length := by simpa using inside
        have kept : (m.slots.map (·.marked false))[i] = slot.marked false := by simp [same]
        rw [show Slot.marked { slot with matched := true } false = slot.marked false from rfl, ← kept]
        exact List.set_getElem_self _

/-- Nothing is taken once the production has been closed. -/
theorem unclosed_of_offer {m m' : Matcher} {tree : Tree} (taken : m.offer? tree = some m') :
    m.closed = false := by
  cases closed : m.closed with
  | false => rfl
  | true =>
    rw [offer?, if_pos closed] at taken
    cases taken

theorem children_of_offer {m m' : Matcher} {tree : Tree}
    (taken : m.offer? tree = some m') :
    m'.children = m.children ++ [tree] := by
  rw [children, (offer_eq_some taken).2.1, List.reverse_cons]
  rfl

theorem offer_posture {m : Matcher} (regular : m.Regular) (tree : Tree) :
    (m.offer? tree).map posture = m.posture.step m.rule tree.symbol := by
  have bare : m.posture.matcher m.rule [] = { m with taken := [] } := by
    conv => rhs; rw [← matcher_posture regular]
    rfl
  rw [Posture.step, bare]
  exact offer_congr tree.symbol.symbol_face.symm m []

theorem isComplete_posture {m : Matcher} (regular : m.Regular) :
    m.isComplete = m.posture.isComplete m.rule := by
  conv => lhs; rw [← matcher_posture regular]
  rfl

private theorem seek_takes {tree : Tree} {start i j : Nat} {slots : List Slot}
    (found : seek tree start i slots = some j) : ∃ slot ∈ slots, slot.takes tree = true := by
  induction slots generalizing start i with
  | nil => cases found
  | cons slot rest ih =>
    by_cases taken : slot.takes tree = true
    · exact ⟨slot, List.mem_cons_self, taken⟩
    · have later : ∃ slot ∈ rest, slot.takes tree = true := by
        unfold seek at found
        rw [if_neg taken] at found
        split at found
        · exact ih found
        · split at found
          · cases found
          · split at found <;> exact ih found
      obtain ⟨other, member, taken⟩ := later
      exact ⟨other, List.mem_cons_of_mem slot member, taken⟩

private theorem slotFor_takes {m : Matcher} {tree : Tree} {i : Nat}
    (found : m.slotFor? tree = some i) : ∃ slot ∈ m.slots, slot.takes tree = true := by
  unfold slotFor? at found
  split at found
  · next j _ =>
    split at found
    · next taken =>
      cases inside : m.slots[j]? with
      | none =>
        rw [inside] at taken
        cases taken
      | some slot =>
        rw [inside] at taken
        exact ⟨slot, List.mem_of_getElem? inside, taken⟩
    · cases found
  · exact seek_takes found

private theorem field_mem {m : Matcher} (regular : m.Regular) {slot : Slot}
    (member : slot ∈ m.slots) : slot.field ∈ m.rule.fields := by
  have fields : ∀ bound list, (Slot.ofFields bound list).map (·.field) = list := by
    intro bound list
    induction list generalizing bound with
    | nil => rfl
    | cons field rest ih => rw [Slot.ofFields, List.map_cons, ih]
  rw [← fields false m.rule.fields, ← regular, List.map_map]
  exact List.mem_map_of_mem member

/-- A child that is accepted is one that some field admits. -/
theorem exists_field_of_offer {m m' : Matcher} (regular : m.Regular) {tree : Tree}
    (taken : m.offer? tree = some m') :
    ∃ field ∈ m.rule.fields, tree.symbol ∈ field.acceptance.symbols := by
  unfold offer? at taken
  split at taken
  · cases taken
  · split at taken
    · cases taken
    · next found =>
      obtain ⟨slot, member, accepted⟩ := slotFor_takes found
      refine ⟨slot.field, field_mem regular member, Acceptance.mem_symbols ?_⟩
      rw [← Acceptance.accepts_eq]
      exact (Bool.and_eq_true _ _ ▸ accepted).2

/-- The matcher has been offered this word, child by child. A child that is taken away again has
been read all the same. -/
inductive Reads : Matcher → List Symbol → Prop where
  | start (rule : Rule) : Reads (ofRule rule) []
  | take {m m' : Matcher} {word : List Symbol} {tree : Tree} (read : Reads m word)
      (taken : m.offer? tree = some m') : Reads m' (word ++ [tree.symbol])
  | pop {m : Matcher} {word : List Symbol} (read : Reads m word) : Reads m.pop.2 word

theorem pop_rule (m : Matcher) : m.pop.2.rule = m.rule := by
  unfold Matcher.pop
  split <;> rfl

theorem pop_posture (m : Matcher) : m.pop.2.posture = m.posture := by
  unfold Matcher.pop
  split <;> rfl

theorem Reads.regular {m : Matcher} {word : List Symbol} (read : m.Reads word) : m.Regular := by
  induction read with
  | start rule => exact regular_ofRule rule
  | take _ taken ih => exact (offer_eq_some taken).2.2 ih
  | @pop m _ _ ih =>
    unfold Matcher.pop
    split <;> exact ih

end Matcher

end NandTools
