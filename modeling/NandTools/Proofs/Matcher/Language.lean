import Mathlib.Logic.Relation
import NandTools.Proofs.Grammar.Neighbours
import NandTools.Proofs.Matcher.Posture

/-! The language of a matcher. Postures are searched together with what is left of the pattern,
which shows that a matcher admits just the words of its pattern, and that what the next token
opens suits the pattern everywhere. -/
namespace NandTools

/-- Whether everything that `next` leads to from `todo` is good, what was seen before aside. -/
def sweep {α : Type} [DecidableEq α] (next : α → List α) (good : α → Bool) :
    Nat → List α → List α → Bool
  | 0, _, _ => false
  | _ + 1, _, [] => true
  | fuel + 1, seen, x :: todo =>
    if x ∈ seen then sweep next good fuel seen todo
    else good x && sweep next good fuel (x :: seen) (next x ++ todo)

private theorem exists_good_of_sweep {α : Type} [DecidableEq α] {next : α → List α} {good : α → Bool}
    {fuel : Nat} {seen todo : List α} (passed : sweep next good fuel seen todo = true)
    (known : ∀ x ∈ seen, good x = true ∧ ∀ y ∈ next x, y ∈ seen ∨ y ∈ todo) :
    ∃ all : List α, (∀ x ∈ todo, x ∈ all) ∧ ∀ x ∈ all, good x = true ∧ ∀ y ∈ next x, y ∈ all := by
  suffices whole : ∃ all : List α, (∀ x ∈ seen, x ∈ all) ∧ (∀ x ∈ todo, x ∈ all) ∧
      ∀ x ∈ all, good x = true ∧ ∀ y ∈ next x, y ∈ all by
    obtain ⟨all, _, covered, closed⟩ := whole
    exact ⟨all, covered, closed⟩
  induction fuel generalizing seen todo with
  | zero => cases passed
  | succ fuel ih =>
    cases todo with
    | nil =>
      refine ⟨seen, fun _ member => member, by simp, fun x member => ?_⟩
      obtain ⟨fine, inside⟩ := known x member
      exact ⟨fine, fun y leads => (inside y leads).resolve_right List.not_mem_nil⟩
    | cons x todo =>
      unfold sweep at passed
      split at passed
      · next old =>
        have still : ∀ z ∈ seen, good z = true ∧ ∀ y ∈ next z, y ∈ seen ∨ y ∈ todo := by
          intro z member
          refine ⟨(known z member).1, fun y leads => ?_⟩
          rcases (known z member).2 y leads with inside | waiting
          · exact .inl inside
          · rcases List.mem_cons.mp waiting with rfl | later
            · exact .inl old
            · exact .inr later
        obtain ⟨all, before, covered, closed⟩ := ih passed still
        refine ⟨all, before, fun y member => ?_, closed⟩
        rcases List.mem_cons.mp member with rfl | later
        · exact before y old
        · exact covered y later
      · obtain ⟨fine, passed⟩ := Bool.and_eq_true_iff.mp passed
        have still : ∀ z ∈ x :: seen,
            good z = true ∧ ∀ y ∈ next z, y ∈ x :: seen ∨ y ∈ next x ++ todo := by
          intro z member
          rcases List.mem_cons.mp member with rfl | old
          · exact ⟨fine, fun y leads => .inr (List.mem_append_left todo leads)⟩
          · refine ⟨(known z old).1, fun y leads => ?_⟩
            rcases (known z old).2 y leads with inside | waiting
            · exact .inl (List.mem_cons_of_mem x inside)
            · rcases List.mem_cons.mp waiting with rfl | later
              · exact .inl List.mem_cons_self
              · exact .inr (List.mem_append_right (next x) later)
        obtain ⟨all, before, covered, closed⟩ := ih passed still
        refine ⟨all, fun y old => before y (List.mem_cons_of_mem x old), fun y member => ?_, closed⟩
        rcases List.mem_cons.mp member with rfl | later
        · exact before y List.mem_cons_self
        · exact covered y (List.mem_append_right (next x) later)

/-- A search that passes finds everything that can be reached good. -/
theorem good_of_sweep {α : Type} [DecidableEq α] {next : α → List α} {good : α → Bool}
    {fuel : Nat} {first last : α} (passed : sweep next good fuel [] [first] = true)
    (reached : Relation.ReflTransGen (fun x y => y ∈ next x) first last) : good last = true := by
  obtain ⟨all, covered, closed⟩ := exists_good_of_sweep passed (by simp)
  have inside : last ∈ all := by
    induction reached with
    | refl => exact covered first List.mem_cons_self
    | tail _ leads ih => exact (closed _ ih).2 _ leads
  exact (closed last inside).1

/-- A posture, and the pattern of what has to follow. -/
abbrev Prospect := Posture × Pattern

namespace Prospect

open Rule

/-- The symbols that some field of the production admits. -/
def relevant (rule : Rule) : List Symbol := rule.fields.flatMap (·.acceptance.symbols)

private def start (rule : Rule) : Prospect := (.start rule, rule.admitted)

private def next (rule : Rule) (x : Prospect) : List Prospect :=
  (relevant rule).filterMap fun s => (x.1.step rule s).map fun q => (q, x.2.after s)

/-- The posture takes and ends with what the pattern asks for. -/
private def agrees (rule : Rule) (x : Prospect) : Bool :=
  x.1.isComplete rule == x.2.nullable &&
    (relevant rule).all fun s => (x.1.step rule s).isSome || x.2.after s == .never

/-- A child that is taken is opened by its first token. A call inside a term is not: its name is
read before. -/
private def opens (rule : Rule) (x : Prospect) : Symbol → Bool
  | .kind k => opened? (some rule) x.1.stage k == none
  | .rule r =>
    rule == term && r == subroutineCall ||
      r.openers.all fun k => opened? (some rule) x.1.stage k == some r

/-- What stands after a child that has been taken stops that child. -/
private def stopsBefore (rule : Rule) (x : Prospect) : Symbol → Bool
  | .kind _ => true
  | .rule r =>
    ((relevant rule).all fun s => x.2.after s == .never || s.openers.all r.stops) &&
      (!x.2.nullable || TokenKind.all.all fun k => !rule.stops k || r.stops k)

/-- What stops the production is refused once it may end. -/
private def refuses (rule : Rule) (x : Prospect) : Bool :=
  !x.2.nullable || x.1.closed || x.1.lastGroup?.isNone ||
    TokenKind.all.all fun k => !rule.stops k ||
      opened? (some rule) x.1.stage k == none && x.1.step rule (.kind k) == none

/-- A term that may go on as a call holds a name and nothing else, and ends with the call. -/
private def calls (rule : Rule) (x y : Prospect) (s : Symbol) : Bool :=
  rule != term || y.1.closed ||
    s != .rule subroutineCall &&
      (y.1.stage != .afterIdentifier || x.1.lastGroup?.isNone && s == .kind .identifier)

private def good (rule : Rule) (x : Prospect) : Bool :=
  agrees rule x && refuses rule x && (relevant rule).all fun s =>
    match x.1.step rule s with
    | none => true
    | some q =>
      opens rule x s && stopsBefore rule (q, x.2.after s) s && calls rule x (q, x.2.after s) s

private theorem all_good :
    Rule.all.all (fun rule => sweep (next rule) (good rule) 1000 [] [start rule]) = true := by
  decide +kernel

private theorem mem_relevant_of_admitted {rule : Rule} {s : Symbol}
    (member : s ∈ rule.admitted.symbols) : s ∈ relevant rule := by
  have covered : Rule.all.all (fun rule =>
      rule.admitted.symbols.all (relevant rule).contains) = true := by decide +kernel
  have covered := List.all_eq_true.mp covered rule rule.mem_all
  exact List.contains_iff_mem.mp (List.all_eq_true.mp covered s member)

end Prospect

namespace Matcher

variable {m m' : Matcher} {word : List Symbol}

private def prospect (m : Matcher) (word : List Symbol) : Prospect :=
  (m.posture, m.rule.admitted.afterAll word)

theorem mem_relevant_of_offer {tree : Tree} (read : m.Reads word)
    (taken : m.offer? tree = some m') : tree.symbol ∈ Prospect.relevant m.rule := by
  obtain ⟨field, member, admitted⟩ := exists_field_of_offer read.regular taken
  exact List.mem_flatMap.mpr ⟨field, member, admitted⟩

theorem step_of_offer {tree : Tree} (read : m.Reads word) (taken : m.offer? tree = some m') :
    m.posture.step m.rule tree.symbol = some m'.posture := by
  rw [← offer_posture read.regular tree, taken]
  rfl

private theorem Reads.reached (read : m.Reads word) :
    Relation.ReflTransGen (fun x y => y ∈ Prospect.next m.rule x) (Prospect.start m.rule)
      (m.prospect word) := by
  induction read with
  | start rule => exact .refl
  | @take m m' word tree read taken ih =>
    rw [prospect, (offer_eq_some taken).1, Pattern.afterAll_append_singleton]
    refine ih.tail (List.mem_filterMap.mpr ⟨tree.symbol, mem_relevant_of_offer read taken, ?_⟩)
    rw [prospect, step_of_offer read taken]
    rfl
  | @pop m word _ ih =>
    rw [prospect, pop_rule, pop_posture]
    exact ih

private theorem Reads.good (read : m.Reads word) : Prospect.good m.rule (m.prospect word) = true :=
  good_of_sweep (List.all_eq_true.mp Prospect.all_good m.rule m.rule.mem_all) read.reached

private theorem Reads.agrees (read : m.Reads word) :
    m.posture.isComplete m.rule = (m.rule.admitted.afterAll word).nullable ∧
      ∀ s ∈ Prospect.relevant m.rule, (m.posture.step m.rule s).isSome = true ∨
        (m.rule.admitted.afterAll word).after s = .never := by
  have good := read.good
  rw [Prospect.good, Bool.and_eq_true, Bool.and_eq_true] at good
  simpa [Prospect.agrees, prospect] using good.1.1

/-- What is known about a child that is taken. -/
private theorem Reads.good_step {tree : Tree} (read : m.Reads word)
    (taken : m.offer? tree = some m') :
    Prospect.opens m.rule (m.prospect word) tree.symbol = true ∧
      Prospect.stopsBefore m.rule (m'.prospect (word ++ [tree.symbol])) tree.symbol = true ∧
      Prospect.calls m.rule (m.prospect word) (m'.prospect (word ++ [tree.symbol])) tree.symbol =
        true := by
  have good := read.good
  rw [Prospect.good, Bool.and_eq_true, List.all_eq_true] at good
  have stepped := good.2 tree.symbol (mem_relevant_of_offer read taken)
  rw [prospect, step_of_offer read taken] at stepped
  simp only [Bool.and_eq_true] at stepped
  rw [prospect, prospect, (offer_eq_some taken).1, Pattern.afterAll_append_singleton]
  exact ⟨stepped.1.1, stepped.1.2, stepped.2⟩

/-- A matcher is complete just when it has read a word of its pattern. -/
theorem Reads.isComplete_iff (read : m.Reads word) :
    m.isComplete = true ↔ m.rule.admitted.Matches word := by
  rw [isComplete_posture read.regular, read.agrees.1, Pattern.nullable_iff,
    Pattern.matches_afterAll_iff, List.append_nil]

/-- A child is taken wherever the pattern has a place for it. -/
theorem Reads.exists_offer (read : m.Reads word) {tree : Tree} {rest : List Symbol}
    (fits : m.rule.admitted.Matches (word ++ tree.symbol :: rest)) :
    ∃ m', m.offer? tree = some m' := by
  have relevant := Prospect.mem_relevant_of_admitted
    (fits.mem_symbols tree.symbol (List.mem_append_right word List.mem_cons_self))
  rcases read.agrees.2 tree.symbol relevant with stepped | dead
  · rw [← offer_posture read.regular, Option.isSome_map] at stepped
    exact Option.isSome_iff_exists.mp stepped
  · have left := Pattern.matches_after_iff.mpr (Pattern.matches_afterAll_iff.mpr fits)
    rw [dead] at left
    exact absurd left (Pattern.not_matches_never rest)

/-- Nothing follows once the production has been closed. -/
theorem Reads.rest_of_closed (read : m.Reads word) (closed : m.closed = true) {rest : List Symbol}
    (fits : m.rule.admitted.Matches (word ++ rest)) : rest = [] := by
  cases rest with
  | nil => rfl
  | cons s rest =>
    rw [← s.symbol_face] at fits
    obtain ⟨m', taken⟩ := read.exists_offer fits
    rw [unclosed_of_offer taken] at closed
    cases closed

theorem Reads.unclosed (read : m.Reads word) {s : Symbol} {rest : List Symbol}
    (fits : m.rule.admitted.Matches (word ++ s :: rest)) : m.closed = false := by
  cases closed : m.closed with
  | false => rfl
  | true => cases read.rest_of_closed closed fits

theorem Reads.lastGroup_isSome (read : m.Reads word) (nonempty : word ≠ []) :
    m.lastGroup?.isSome = true := by
  induction read with
  | start rule => exact absurd rfl nonempty
  | take _ taken _ =>
    unfold offer? at taken
    split at taken
    · cases taken
    · split at taken
      · cases taken
      · split at taken <;> cases taken
        rfl
  | @pop m _ _ ih =>
    have posture := congrArg Posture.lastGroup? m.pop_posture
    rw [show m.pop.2.lastGroup? = m.lastGroup? from posture]
    exact ih nonempty

/-- A token that is taken opens nothing. -/
theorem Reads.opened_leaf (read : m.Reads word) {token : Token}
    (taken : m.offer? (.leaf token) = some m') :
    Rule.opened? (some m.rule) m.stage token.kind = none := by
  have opens := (read.good_step taken).1
  exact beq_iff_eq.mp opens

/-- A construct that is taken is what its first token opens. -/
theorem Reads.opened_branch (read : m.Reads word) {rule : Rule} {children : List Tree}
    {closed : Bool} (taken : m.offer? (.branch rule children closed) = some m')
    (ordinary : ¬ (m.rule = .term ∧ rule = .subroutineCall)) :
    ∀ kind ∈ rule.openers, Rule.opened? (some m.rule) m.stage kind = some rule := by
  have opens := (read.good_step taken).1
  simp only [Tree.symbol, Prospect.opens, Bool.or_eq_true, Bool.and_eq_true, beq_iff_eq,
    List.all_eq_true] at opens
  exact opens.resolve_left ordinary

/-- A construct is stopped by whatever stands after it inside its production. -/
theorem Reads.stops_of_next (read : m.Reads word) {rule : Rule} {children : List Tree}
    {closed : Bool} (taken : m.offer? (.branch rule children closed) = some m') {s : Symbol}
    {rest : List Symbol} (fits : m.rule.admitted.Matches (word ++ .rule rule :: s :: rest)) :
    ∀ kind ∈ s.openers, rule.stops kind = true := by
  have stops := (read.good_step taken).2.1
  simp only [Tree.symbol, Prospect.stopsBefore, Bool.and_eq_true, List.all_eq_true,
    Bool.or_eq_true, beq_iff_eq] at stops
  have relevant := Prospect.mem_relevant_of_admitted (fits.mem_symbols s (by simp))
  rcases stops.1 s relevant with dead | stops
  · rw [List.append_cons, ← Pattern.matches_afterAll_iff, ← Pattern.matches_after_iff] at fits
    rw [prospect, (offer_eq_some taken).1] at dead
    rw [dead] at fits
    exact absurd fits (Pattern.not_matches_never rest)
  · exact stops

/-- What stops a production stops the construct at its end. -/
theorem Reads.stops_of_last (read : m.Reads word) {rule : Rule} {children : List Tree}
    {closed : Bool} (taken : m.offer? (.branch rule children closed) = some m')
    (fits : m.rule.admitted.Matches (word ++ [.rule rule])) {kind : TokenKind}
    (stopped : m.rule.stops kind = true) : rule.stops kind = true := by
  have stops := (read.good_step taken).2.1
  simp only [Tree.symbol, Prospect.stopsBefore, Bool.and_eq_true, Bool.or_eq_true,
    List.all_eq_true] at stops
  rw [← List.append_nil (word ++ _), ← Pattern.matches_afterAll_iff, ← Pattern.nullable_iff] at fits
  rw [prospect, (offer_eq_some taken).1, fits] at stops
  rcases stops.2.resolve_left (by simp) kind kind.mem_all with free | stops
  · simp [stopped] at free
  · exact stops

/-- A production that may end refuses what stops it. -/
theorem Reads.refuses (read : m.Reads word) (nonempty : word ≠ []) (complete : m.isComplete = true)
    (unclosed : m.closed = false) {token : Token} (stopped : m.rule.stops token.kind = true) :
    Rule.opened? (some m.rule) m.stage token.kind = none ∧ m.offer? (.leaf token) = none := by
  have good := read.good
  rw [Prospect.good, Bool.and_eq_true, Bool.and_eq_true] at good
  have refuses := good.1.2
  have nullable : (m.prospect word).2.nullable = true := by
    rw [prospect, ← read.agrees.1, ← isComplete_posture read.regular, complete]
  have started : (m.prospect word).1.lastGroup?.isNone = false := by
    have some := read.lastGroup_isSome nonempty
    rw [← Option.not_isSome, prospect, posture, some]
    rfl
  have open_ : (m.prospect word).1.closed = false := unclosed
  rw [Prospect.refuses, nullable, started, open_] at refuses
  simp only [Bool.not_true, Bool.or_false, Bool.false_or, List.all_eq_true, Bool.or_eq_true,
    Bool.and_eq_true, beq_iff_eq] at refuses
  rcases refuses token.kind token.kind.mem_all with free | ⟨plain, refused⟩
  · simp [stopped] at free
  · refine ⟨plain, ?_⟩
    rw [prospect, ← show (Tree.leaf token).symbol = .kind token.kind from rfl,
      ← offer_posture read.regular, Option.map_eq_none_iff] at refused
    exact refused

/-- A term that has not ended with a call holds none, and only a name can begin one there. -/
theorem Reads.call_in_term (read : m.Reads word) (inTerm : m.rule = .term) {tree : Tree}
    (taken : m.offer? tree = some m') (unclosed : m'.closed = false) :
    tree.symbol ≠ .rule .subroutineCall ∧
      (m'.stage = .afterIdentifier → word = [] ∧ tree.symbol = .kind .identifier) := by
  have calls := (read.good_step taken).2.2
  have unclosed : (m'.prospect (word ++ [tree.symbol])).1.closed = false := unclosed
  simp only [Prospect.calls, inTerm, unclosed, bne_self_eq_false, Bool.false_or, Bool.and_eq_true,
    Bool.or_eq_true, bne_iff_ne, beq_iff_eq] at calls
  refine ⟨calls.1, fun stage => ?_⟩
  obtain ⟨fresh, name⟩ := calls.2.resolve_left (fun other => other stage)
  by_cases empty : word = []
  · exact ⟨empty, name⟩
  · have started := read.lastGroup_isSome empty
    rw [← Option.not_isNone, show m.lastGroup?.isNone = true from fresh] at started
    cases started

/-- A call closes the term that it is taken by. -/
theorem Reads.closed_of_call (read : m.Reads word) (inTerm : m.rule = .term) {tree : Tree}
    (taken : m.offer? tree = some m') (call : tree.symbol = .rule .subroutineCall) :
    m'.closed = true := by
  cases closed : m'.closed with
  | true => rfl
  | false => exact absurd call (read.call_in_term inTerm taken closed).1

end Matcher

end NandTools
