import NandTools.Proofs.Parser.Soundness
import NandTools.Proofs.Tree.Shape

/-! No more productions are nested in a tree than there was room for when it was read. -/
namespace NandTools

open NandTools.Source

namespace Tree

theorem tallest_append (first second : List Tree) :
    tallest (first ++ second) = max (tallest first) (tallest second) := by
  induction first with
  | nil => simp [tallest]
  | cons tree rest ih => simp [tallest, ih, Nat.max_assoc]

theorem height_pos_of_rule {tree : Tree} {rule : Rule} (named : tree.rule? = some rule) :
    0 < tree.height := by
  cases tree with
  | leaf token => cases named
  | branch rule children closed =>
    rw [height]
    exact Nat.succ_pos _

end Tree

namespace Matcher

variable {m m' : Matcher} {tree : Tree} {word : List Symbol}

/-- How many productions are nested in one of the children. -/
def depth (m : Matcher) : Nat := Tree.tallest m.children

theorem depth_ofRule (rule : Rule) : (ofRule rule).depth = 0 := rfl

theorem depth_of_offer (taken : m.offer? tree = some m') : m'.depth = max m.depth tree.height := by
  simp [depth, children_of_offer taken, Tree.tallest_append, Tree.tallest]

theorem height_toTree (m : Matcher) : m.toTree.height = m.depth + 1 := by
  rw [toTree, Tree.height, depth]

/-- A term has read but a name where a call may begin. -/
theorem Filling.taken_of_opened_call (filling : m.Filling word) (unclosed : m.closed = false)
    (inTerm : m.rule = .term) (stage : m.stage = .afterIdentifier) :
    ∃ name, m.taken = [.leaf name] ∧ name.kind = .identifier :=
  filling.filled.read.taken_of_name (filling.filled.unclosed unclosed) inTerm unclosed stage

end Matcher

namespace Parser

variable {σ : Type} [TokenSupply σ] {read : Reader σ} {m m' : Matcher} {word : List Symbol}
  {p p' : Parser σ} {rule : Rule} {room : Nat}

omit [TokenSupply σ] in
/-- A construct is asked for as it may be, and the name that is handed over is but a token. -/
theorem handOver_of_opened (filling : m.Filling word) (unclosed : m.closed = false)
    (opened : Rule.opened? (some m.rule) m.stage p.current.value.kind = some rule) :
    Asked rule (handOver rule m).1 p ∧ (∀ callee ∈ (handOver rule m).1, callee.height = 0) ∧
      (handOver rule m).2.depth = m.depth := by
  by_cases call : rule = .subroutineCall ∧ m.rule = .term
  · obtain ⟨rfl, inTerm⟩ := call
    rw [inTerm] at opened
    obtain ⟨name, taken, _⟩ :=
      filling.taken_of_opened_call unclosed inTerm (Rule.stage_of_opened_call opened)
    rw [handOver, if_pos ⟨rfl, inTerm⟩, Matcher.pop, taken]
    refine ⟨⟨rfl, .leaf name⟩, ?_, ?_⟩
    · rintro _ ⟨⟩
      rfl
    · rw [Matcher.depth, Matcher.depth, Matcher.children, Matcher.children, taken]
      rfl
  · rw [handOver, if_neg call]
    refine ⟨?_, ?_, rfl⟩
    · rintro rfl
      exact Rule.startsTerm_of_opened opened
    · intro callee absent
      cases absent

/-- Reading a child takes nothing tall away from what is there. -/
theorem depth_of_child {tree? : Except SyntaxError (Option (Located Tree))}
    (filling : m.Filling word) (unclosed : m.closed = false)
    (found : child read m p = (tree?, m', p')) : m'.depth = m.depth := by
  cases finds_of_child found with
  | ended | token => rfl
  | production _ opened | failed _ opened =>
    exact (handOver_of_opened filling unclosed opened).2.2

theorem depth_le_of_fill (named : Named read) (sound : Sound read) (filling : m.Filling word)
    {span span' : Span} (filled : (fill read m span p).1 = .ok (m', span')) :
    m.depth ≤ m'.depth := by
  fun_induction fill read m span p generalizing word with
  | case1 =>
    cases filled
    exact Nat.le_refl _
  | case3 m span p unclosed m' p' found | case5 m span p unclosed tree m' p' found =>
    cases filled
    exact Nat.le_of_eq (depth_of_child filling (by simpa using unclosed) found).symm
  | case4 m span p unclosed tree m₁ p' found _ m₂ taken ih =>
    have unclosed : m.closed = false := by simpa using unclosed
    have later := ih (filling_of_child named sound filling unclosed found taken) filled
    rw [Matcher.depth_of_offer taken, depth_of_child filling unclosed found] at later
    exact Nat.le_trans (Nat.le_max_left _ _) later
  | case2 | case6 => cases filled

/-- The trees that the reader returns are no taller than this, unless it is handed a tall name. -/
def Shallow (room : Nat) (read : Reader σ) : Prop :=
  ∀ rule callee? p tree, Asked rule callee? p → (∀ callee ∈ callee?, callee.height = 0) →
    (read rule callee? p).val.1 = .ok tree → tree.value.height ≤ room

theorem height_of_child (shallow : Shallow room read) (filling : m.Filling word)
    (unclosed : m.closed = false) {tree : Located Tree}
    (found : child read m p = (.ok (some tree), m', p')) : tree.value.height ≤ room := by
  cases finds_of_child found with
  | token => exact Nat.zero_le _
  | production _ opened same =>
    obtain ⟨asked, flat, -⟩ := handOver_of_opened filling unclosed opened
    exact shallow _ _ _ _ asked flat (congrArg Prod.fst same)

theorem depth_of_fill (named : Named read) (sound : Sound read) (shallow : Shallow room read)
    (filling : m.Filling word) (low : m.depth ≤ room) {span span' : Span}
    (filled : (fill read m span p).1 = .ok (m', span')) : m'.depth ≤ room := by
  fun_induction fill read m span p generalizing word with
  | case1 =>
    cases filled
    exact low
  | case3 m span p unclosed m' p' found | case5 m span p unclosed tree m' p' found =>
    cases filled
    rw [depth_of_child filling (by simpa using unclosed) found]
    exact low
  | case4 m span p unclosed tree m₁ p' found _ m₂ taken ih =>
    have unclosed : m.closed = false := by simpa using unclosed
    refine ih (filling_of_child named sound filling unclosed found taken) ?_ filled
    rw [Matcher.depth_of_offer taken, depth_of_child filling unclosed found]
    exact Nat.max_le.mpr ⟨low, height_of_child shallow filling unclosed found⟩
  | case2 | case6 => cases filled

theorem depth_of_seed {child : Located Tree} (seeded : seed m child = .ok m') :
    m'.depth = max m.depth child.value.height :=
  Matcher.depth_of_offer (offer_of_seed seeded)

theorem depth_of_open (shallow : Shallow room read) {callee? : Option Tree} {span : Span}
    (flat : ∀ callee ∈ callee?, callee.height = 0)
    (opened : (open_ read rule callee? p).1 = .ok (m, span)) : m.depth ≤ room := by
  obtain ⟨_, begins⟩ := exists_begins opened
  cases begins with
  | @callee callee _ _ first second =>
    rw [Matcher.depth_of_offer second, Matcher.depth_of_offer first, Matcher.depth_ofRule]
    have name := flat callee rfl
    simp [name, Tree.height]
  | @construct compound first opens _ _ same _ taken =>
    have asked : Asked first none p := by
      rintro rfl
      exact Rule.startsTerm_of_opened opens
    have none : ∀ callee ∈ (none : Option Tree), callee.height = 0 := by rintro _ ⟨⟩
    have low := shallow _ _ _ _ asked none (congrArg Prod.fst same)
    rw [Matcher.depth_of_offer taken, Matcher.depth_ofRule, Nat.zero_max]
    exact low
  | token _ taken =>
    rw [Matcher.depth_of_offer taken, Matcher.depth_ofRule, Nat.zero_max]
    exact Nat.zero_le _

theorem reader_shallow (room : Nat) : Shallow room (reader room : Reader σ) := by
  induction room with
  | zero => rintro _ _ _ _ _ _ ⟨⟩
  | succ room ih =>
    intro rule callee? p tree asked flat read
    obtain ⟨m, span, p', m', span', opened, filled, _, same⟩ := built read
    have opened := congrArg Prod.fst opened
    obtain ⟨_, filling⟩ :=
      filling_of_open (reader_named room) (reader_sound room) asked opened
    have low := depth_of_open ih flat opened
    rw [same, Matcher.height_toTree]
    exact Nat.succ_le_succ
      (depth_of_fill (reader_named room) (reader_sound room) ih filling low filled)

end Parser

end NandTools
