import NandTools.Proofs.Parser.Limit

/-! Reading ends without a limit. Productions that are opened by one token are nested no deeper than
three, and for any other a token is used up, so that the tokens that are ahead bound how many
productions can be open at once. -/
namespace NandTools

open NandTools.Source

/-- A bound on how many productions are opened by one token, of which this one is the outermost. -/
def Rule.chain : Rule → Nat
  | expressionList => 3
  | expression => 2
  | _ => 1

namespace Rule

theorem one_le_chain (rule : Rule) : 1 ≤ rule.chain := by
  cases rule <;> decide

theorem chain_le_three (rule : Rule) : rule.chain ≤ 3 := by
  cases rule <;> decide

theorem chain_lt_of_opened_initial {rule first : Rule} {kind : TokenKind}
    (beginning : rule = expression ∨ rule = expressionList)
    (opens : opened? (some rule) .initial kind = some first) : first.chain < rule.chain := by
  rcases beginning with rfl | rfl
  · obtain rfl := eq_of_opened_initial.1 opens
    decide
  · obtain rfl := eq_of_opened_initial.2 opens
    decide

end Rule

namespace Parser

variable {σ α β : Type}

/-- An outcome does not report that there is too little room. -/
def Fits (out : Except SyntaxError α × Parser σ) : Prop :=
  ∀ depth, out.1 ≠ .error (.maxRecursionDepth depth)

theorem Fits.andThen {out : Except SyntaxError α × Parser σ}
    {next : α → Parser σ → Except SyntaxError β × Parser σ} (fits : Fits out)
    (later : ∀ a p, out = (.ok a, p) → Fits (next a p)) : Fits (Parser.andThen out next) := by
  rcases out with ⟨e | a, p⟩
  · intro depth short
    exact fits depth (by cases short; rfl)
  · exact later a p rfl

theorem Fits.map {result : Except SyntaxError α} {p : Parser σ} (fits : Fits (result, p))
    (f : α → β) : Fits (result.map f, p) :=
  fun depth short => fits depth (Except.error_of_map short)

theorem Fits.finish {out : Except SyntaxError α × Parser σ} (fits : Fits out) :
    Fits (Parser.finish out) := by
  unfold Parser.finish
  split
  · rintro depth ⟨⟩
  · exact fits

variable [TokenSupply σ]

/-- How many productions may be open at once while one is read with these tokens ahead. -/
def need (rule : Rule) (p : Parser σ) : Nat := 3 * p.pending + rule.chain

/-- Where `room` is enough, the readers agree and find it enough. -/
def Suffices (room : Nat) (read read' : Reader σ) : Prop :=
  ∀ rule callee? p, need rule p ≤ room →
    (read rule callee? p).val = (read' rule callee? p).val ∧ Fits (read rule callee? p).val

variable {room : Nat} {read read' : Reader σ} {p : Parser σ}

omit [TokenSupply σ] in
theorem seed_fits (m : Matcher) (child : Located Tree) (p : Parser σ) : Fits (seed m child, p) := by
  intro depth
  unfold seed
  split
  · rintro ⟨⟩
  · split <;> rintro ⟨⟩

theorem child_suffices (ample : Suffices room read read') (m : Matcher)
    (enough : 3 * p.pending ≤ room) :
    child read m p = child read' m p ∧
      ∀ depth, (child read m p).1 ≠ .error (.maxRecursionDepth depth) := by
  unfold child
  dsimp only
  cases ended : p.advance.current.value.isEnd with
  | true => exact ⟨rfl, by rintro depth ⟨⟩⟩
  | false =>
    simp only [Bool.false_eq_true, if_false]
    cases opened : Rule.opened? (some m.rule) m.stage p.advance.current.value.kind with
    | none => exact ⟨rfl, by rintro depth ⟨⟩⟩
    | some rule =>
      have fewer := pending_advance_lt ended
      have chain := rule.chain_le_three
      obtain ⟨same, fits⟩ := ample rule (handOver rule m).1 p.advance (by unfold need; omega)
      dsimp only
      rw [same] at fits ⊢
      exact ⟨rfl, fits.map some⟩

theorem fill_suffices (ample : Suffices room read read') (m : Matcher) (span : Span)
    (enough : 3 * p.pending ≤ room) :
    fill read m span p = fill read' m span p ∧ Fits (fill read m span p) := by
  fun_induction fill read m span p with
  | case1 m span p closed =>
    rw [fill_closed closed]
    exact ⟨rfl, by rintro depth ⟨⟩⟩
  | case2 m span p unclosed e m' p' found =>
    have unclosed : m.closed = false := by simpa using unclosed
    obtain ⟨same, fits⟩ := child_suffices ample m enough
    rw [found] at same fits
    rw [fill_failed unclosed same.symm]
    exact ⟨rfl, fun depth short => fits depth (by cases short; rfl)⟩
  | case3 m span p unclosed m' p' found =>
    have unclosed : m.closed = false := by simpa using unclosed
    obtain ⟨same, -⟩ := child_suffices ample m enough
    rw [found] at same
    rw [fill_ended unclosed same.symm]
    exact ⟨rfl, by rintro depth ⟨⟩⟩
  | case4 m span p unclosed tree m' p' found fewer m'' taken ih =>
    have unclosed : m.closed = false := by simpa using unclosed
    obtain ⟨same, -⟩ := child_suffices ample m enough
    rw [found] at same
    rw [fill_taken unclosed same.symm taken]
    exact ih (by omega)
  | case5 m span p unclosed tree m' p' found _ refused token leaf =>
    have unclosed : m.closed = false := by simpa using unclosed
    obtain ⟨same, -⟩ := child_suffices ample m enough
    rw [found] at same
    rw [fill_refused unclosed same.symm refused leaf]
    exact ⟨rfl, by rintro depth ⟨⟩⟩
  | case6 m span p unclosed tree m' p' found _ refused rule children closed branch =>
    have unclosed : m.closed = false := by simpa using unclosed
    obtain ⟨same, -⟩ := child_suffices ample m enough
    rw [found] at same
    rw [fill_misplaced unclosed same.symm refused branch]
    exact ⟨rfl, by rintro depth ⟨⟩⟩

theorem open_suffices (ample : Suffices room read read') {rule : Rule} (callee? : Option Tree)
    (enough : need rule p ≤ room + 1) :
    open_ read rule callee? p = open_ read' rule callee? p ∧ Fits (open_ read rule callee? p) := by
  by_cases construct : callee? = none ∧ (rule = .expression ∨ rule = .expressionList) ∧
      ∃ first, Rule.opened? (some rule) .initial p.current.value.kind = some first
  · obtain ⟨rfl, beginning, first, opens⟩ := construct
    have shorter := Rule.chain_lt_of_opened_initial beginning opens
    obtain ⟨same, fits⟩ := ample first none p (by unfold need at enough ⊢; omega)
    rw [open_of_construct read beginning opens, open_of_construct read' beginning opens, ← same]
    exact ⟨rfl, fits.andThen fun tree q _ => (seed_fits _ tree q).map _⟩
  · -- Nothing else is read here.
    unfold open_
    dsimp only
    split
    · next callee =>
      refine ⟨rfl, Fits.map ?_ _⟩
      generalize Matcher.ofRule rule = m
      cases begun : seed m ⟨callee, (p.previous?.map (·.span)).getD p.current.span⟩ with
      | error e =>
        have fits := seed_fits m ⟨callee, (p.previous?.map (·.span)).getD p.current.span⟩ p
        rw [begun] at fits
        exact fits
      | ok m' => exact seed_fits m' _ p
    · split
      · next beginning =>
        split
        · exact ⟨rfl, by rintro depth ⟨⟩⟩
        · next first opens => exact absurd ⟨rfl, beginning, first, opens⟩ construct
      · exact ⟨rfl, (seed_fits _ _ p).map _⟩

omit [TokenSupply σ] in
theorem complete_fits (m : Matcher) (span : Span) (p : Parser σ) : Fits (complete m span p) := by
  intro depth
  unfold complete
  split <;> rintro ⟨⟩

/-- Where there is room for the parts there is room for the whole. -/
theorem build_suffices (ample : Suffices room read read') {rule : Rule} (callee? : Option Tree)
    (enough : need rule p ≤ room + 1) :
    build read rule callee? p = build read' rule callee? p ∧ Fits (build read rule callee? p) := by
  obtain ⟨same, fits⟩ := open_suffices ample callee? enough
  have filling (opened : Matcher × Span) (q : Parser σ)
      (reached : open_ read rule callee? p = (.ok opened, q)) :
      fill read opened.1 opened.2 q = fill read' opened.1 opened.2 q ∧
        Fits (fill read opened.1 opened.2 q) := by
    have fewer : q.pending ≤ p.pending := by
      simpa [reached] using pending_open read rule callee? p
    have chain := rule.one_le_chain
    exact fill_suffices ample opened.1 opened.2 (by unfold need at enough; omega)
  rw [build_eq, build_eq, ← same]
  constructor
  · rcases reached : open_ read rule callee? p with ⟨e | opened, q⟩
    · rfl
    · dsimp only [andThen]
      rw [(filling opened q reached).1]
  · refine fits.andThen fun opened q reached => ?_
    exact (filling opened q reached).2.andThen fun filled r _ => complete_fits filled.1 filled.2 r

/-- Nothing can be read without room. -/
theorem suffices_zero (read read' : Reader σ) : Suffices 0 read read' := by
  intro rule callee? p enough
  have chain := rule.one_le_chain
  unfold need at enough
  omega

/-- With more room than is needed a reader does the same. -/
theorem reader_suffices (room more : Nat) :
    Suffices room (reader room : Reader σ) (reader (room + more)) := by
  induction room with
  | zero => exact suffices_zero _ _
  | succ room ih =>
    intro rule callee? p enough
    rw [Nat.add_right_comm]
    exact build_suffices ih callee? enough

/-- The reader that has all the room that it needs. -/
def unlimited : Reader σ := fun rule callee? p => reader (need rule p) rule callee? p

theorem suffices_unlimited (room : Nat) : Suffices room (reader room : Reader σ) unlimited := by
  intro rule callee? p enough
  obtain ⟨more, rfl⟩ := Nat.exists_eq_add_of_le enough
  have settled := reader_suffices (need rule p) more rule callee? p (Nat.le_refl _)
  rw [← settled.1]
  exact ⟨rfl, settled.2⟩

/-- No room is counted when the reader without a limit reads a production by itself. -/
theorem unlimited_eq (rule : Rule) (callee? : Option Tree) (p : Parser σ) :
    (unlimited rule callee? p).val = build unlimited rule callee? p := by
  have positive : 1 ≤ need rule p := Nat.le_trans rule.one_le_chain (Nat.le_add_left _ _)
  obtain ⟨room, same⟩ := Nat.exists_eq_add_of_le' positive
  have settled := build_suffices (suffices_unlimited room) callee? (Nat.le_of_eq same)
  rw [← settled.1, unlimited, same]
  rfl

/-- No other reader reads its parts by itself. -/
theorem eq_unlimited (own : ∀ rule callee? p, (read rule callee? p).val = build read rule callee? p)
    (rule : Rule) (callee? : Option Tree) (p : Parser σ) :
    (read rule callee? p).val = (unlimited rule callee? p).val := by
  have alike (room : Nat) : Suffices room (reader room) read := by
    induction room with
    | zero => exact suffices_zero _ _
    | succ room ih =>
      intro rule callee? p enough
      rw [own]
      exact build_suffices ih callee? enough
  exact (alike (need rule p) rule callee? p (Nat.le_refl _)).1.symm

theorem outermost_suffices (ample : Suffices room read read') (enough : 3 * p.pending ≤ room) :
    outermostBy read p = outermostBy read' p ∧ Fits (outermostBy read p) := by
  unfold outermostBy
  cases ended : p.advance.current.value.isEnd with
  | true => exact ⟨rfl, by rintro depth ⟨⟩⟩
  | false =>
    simp only [Bool.false_eq_true, if_false]
    cases opened : Rule.opened? none .initial p.advance.current.value.kind with
    | none => exact ⟨rfl, by rintro depth ⟨⟩⟩
    | some rule =>
      have fewer := pending_advance_lt ended
      have chain := rule.chain_le_three
      obtain ⟨same, fits⟩ := ample rule none p.advance (by unfold need; omega)
      dsimp only
      rw [same] at fits ⊢
      exact ⟨rfl, fits.map some⟩

theorem readBy_suffices (ample : Suffices room read read') (call : Call)
    (enough : 3 * p.pending ≤ room) :
    call.readBy read p = call.readBy read' p ∧ Fits (call.readBy read p) := by
  match call with
  | .from_ none => exact outermost_suffices ample enough
  | .from_ (some rule) =>
    simp only [Call.readBy]
    cases ended : p.advance.current.value.isEnd with
    | true => exact ⟨rfl, by rintro depth ⟨⟩⟩
    | false =>
      have fewer := pending_advance_lt ended
      have chain := rule.chain_le_three
      obtain ⟨same, fits⟩ := ample rule none p.advance (by unfold need; omega)
      simp only [Bool.false_eq_true, if_false]
      rw [same] at fits ⊢
      exact ⟨rfl, fits.map some⟩
  | .within enclosing =>
    obtain ⟨same, fits⟩ := child_suffices ample (.ofRule enclosing) enough
    simp only [Call.readBy]
    rw [same] at fits ⊢
    exact ⟨rfl, fits⟩

theorem closing_fits (tree? : Option (Located Tree)) (p : Parser σ) : Fits (closing tree? p) := by
  intro depth
  unfold closing
  split
  · rintro ⟨⟩
  · rintro ⟨⟩
  · split <;> rintro ⟨⟩

/-- Three productions for each token ahead are room enough for all that can be asked for. -/
theorem answerBy_suffices (ample : Suffices room read read') (request : Request)
    (enough : 3 * p.pending ≤ room) :
    request.answerBy read p = request.answerBy read' p ∧ Fits (request.answerBy read p) := by
  match request with
  | .part call =>
    obtain ⟨same, fits⟩ := readBy_suffices ample call enough
    simp only [Request.answerBy]
    rw [same] at fits ⊢
    exact ⟨rfl, (fits.map _).finish⟩
  | .class_ =>
    obtain ⟨same, fits⟩ := outermost_suffices ample enough
    simp only [Request.answerBy, classBy]
    rw [same] at fits ⊢
    exact ⟨rfl, (fits.andThen fun tree? q _ => closing_fits tree? q).finish.map some⟩

end Parser

end NandTools
