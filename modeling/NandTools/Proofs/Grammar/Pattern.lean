import NandTools.Grammar.Field

/-! Regular patterns over the children of a production, the words that match them, and what is
left of a pattern once a child has been read. -/
namespace NandTools

/-- What a production sees of a child: the kind of a token or the name of a production. -/
inductive Symbol where
  | kind (kind : TokenKind)
  | rule (rule : Rule)
deriving Repr, DecidableEq

def Tree.symbol : Tree → Symbol
  | leaf token => .kind token.kind
  | branch rule _ _ => .rule rule

/-- The least tree that a production sees as this symbol. -/
def Symbol.face : Symbol → Tree
  | kind k => .leaf ⟨k, ""⟩
  | rule r => .branch r [] false

theorem Symbol.symbol_face (s : Symbol) : s.face.symbol = s := by
  cases s <;> rfl

namespace Acceptance

def admits (acceptance : Acceptance) : Symbol → Bool
  | .kind k => acceptance.acceptsKind k
  | .rule r => acceptance.acceptsRule r

theorem accepts_eq (acceptance : Acceptance) (tree : Tree) :
    acceptance.accepts tree = acceptance.admits tree.symbol := by
  cases tree <;> rfl

/-- Every symbol that is admitted, possibly more than once. -/
def symbols : Acceptance → List Symbol
  | token kind => [.kind kind]
  | oneOf kinds => kinds.map .kind
  | type =>
    [.kind (.keyword .int), .kind (.keyword .char), .kind (.keyword .boolean), .kind .identifier]
  | binaryOperator =>
    [.plus, .minus, .asterisk, .slash, .ampersand, .pipe, .lessThan, .greaterThan, .equals].map
      fun sign => .kind (.sign sign)
  | unaryOperator => [.kind (.sign .tilde), .kind (.sign .minus)]
  | identifier => [.kind .identifier]
  | constant =>
    [.kind .integer, .kind .string, .kind (.keyword .true_), .kind (.keyword .false_),
      .kind (.keyword .null), .kind (.keyword .this_)]
  | rule r => [.rule r]
  | statement =>
    [.rule .letStatement, .rule .ifStatement, .rule .whileStatement, .rule .doStatement,
      .rule .returnStatement]

private theorem mem_symbols_kind {acceptance : Acceptance} {kind : TokenKind}
    (admitted : acceptance.acceptsKind kind = true) : .kind kind ∈ acceptance.symbols := by
  cases acceptance with
  | token k => simpa [symbols, acceptsKind] using admitted
  | oneOf kinds => simpa [symbols, acceptsKind] using admitted
  | rule _ => cases admitted
  | statement => cases admitted
  | _ =>
    rcases kind with word | sign | _ | _ | _ | _
    · cases word <;> first | decide | cases admitted
    · cases sign <;> first | decide | cases admitted
    all_goals first | decide | cases admitted

theorem mem_symbols {acceptance : Acceptance} {s : Symbol} (admitted : acceptance.admits s = true) :
    s ∈ acceptance.symbols := by
  cases s with
  | kind k => exact mem_symbols_kind admitted
  | rule r =>
    cases acceptance with
    | rule name => simpa [symbols, admits, acceptsRule] using admitted
    | statement => cases r <;> first | decide | cases admitted
    | _ => cases admitted

theorem admits_token_iff {kind : TokenKind} {s : Symbol} :
    (token kind).admits s = true ↔ s = .kind kind := by
  cases s <;> simp [admits, acceptsKind, acceptsRule]

theorem admits_identifier_iff {s : Symbol} : identifier.admits s = true ↔ s = .kind .identifier := by
  rcases s with (_ | _) | _ <;> simp [admits, acceptsKind, acceptsRule, TokenKind.isIdentifier]

theorem admits_rule_iff {r : Rule} {s : Symbol} : (rule r).admits s = true ↔ s = .rule r := by
  cases s <;> simp [admits, acceptsKind, acceptsRule]

end Acceptance

inductive Pattern where
  | never
  | empty
  | one (acceptance : Acceptance)
  | seq (first second : Pattern)
  | alt (first second : Pattern)
  | many (pattern : Pattern)
deriving Repr, DecidableEq

namespace Pattern

def maybe (pattern : Pattern) : Pattern := alt pattern empty

/-- One pattern after the other. -/
def chain : List Pattern → Pattern
  | [] => empty
  | [pattern] => pattern
  | pattern :: rest => seq pattern (chain rest)

inductive Matches : Pattern → List Symbol → Prop where
  | empty : Matches empty []
  | one {acceptance : Acceptance} {s : Symbol} (admitted : acceptance.admits s = true) :
      Matches (one acceptance) [s]
  | seq {p q : Pattern} {u v : List Symbol} (first : Matches p u) (second : Matches q v) :
      Matches (seq p q) (u ++ v)
  | left {p q : Pattern} {w : List Symbol} (first : Matches p w) : Matches (alt p q) w
  | right {p q : Pattern} {w : List Symbol} (second : Matches q w) : Matches (alt p q) w
  | stop {p : Pattern} : Matches (many p) []
  | more {p : Pattern} {u v : List Symbol} (first : Matches p u) (rest : Matches (many p) v) :
      Matches (many p) (u ++ v)

theorem not_matches_never (w : List Symbol) : ¬ Matches never w := by
  intro matched
  cases matched

theorem matches_empty_iff {w : List Symbol} : Matches empty w ↔ w = [] := by
  constructor
  · intro matched
    cases matched
    rfl
  · rintro rfl
    exact .empty

theorem matches_one_iff {acceptance : Acceptance} {w : List Symbol} :
    Matches (one acceptance) w ↔ ∃ s, w = [s] ∧ acceptance.admits s = true := by
  constructor
  · intro matched
    cases matched with
    | one admitted => exact ⟨_, rfl, admitted⟩
  · rintro ⟨s, rfl, admitted⟩
    exact .one admitted

theorem matches_seq_iff {p q : Pattern} {w : List Symbol} :
    Matches (seq p q) w ↔ ∃ u v, w = u ++ v ∧ Matches p u ∧ Matches q v := by
  constructor
  · intro matched
    cases matched with
    | seq first second => exact ⟨_, _, rfl, first, second⟩
  · rintro ⟨u, v, rfl, first, second⟩
    exact .seq first second

theorem matches_alt_iff {p q : Pattern} {w : List Symbol} :
    Matches (alt p q) w ↔ Matches p w ∨ Matches q w := by
  constructor
  · intro matched
    cases matched with
    | left first => exact .inl first
    | right second => exact .inr second
  · rintro (first | second)
    · exact .left first
    · exact .right second

theorem matches_maybe_iff {p : Pattern} {w : List Symbol} :
    Matches (maybe p) w ↔ Matches p w ∨ w = [] := by
  rw [maybe, matches_alt_iff, matches_empty_iff]

theorem matches_one_seq_iff {acceptance : Acceptance} {p : Pattern} {w : List Symbol} :
    Matches (seq (one acceptance) p) w ↔
      ∃ s v, w = s :: v ∧ acceptance.admits s = true ∧ Matches p v := by
  rw [matches_seq_iff]
  constructor
  · rintro ⟨u, v, rfl, first, second⟩
    obtain ⟨s, rfl, admitted⟩ := matches_one_iff.mp first
    exact ⟨s, v, rfl, admitted, second⟩
  · rintro ⟨s, v, rfl, admitted, second⟩
    exact ⟨[s], v, rfl, .one admitted, second⟩

/-- A repetition that reads something reads it in its first round, less empty rounds. -/
theorem matches_many_cons_iff {p : Pattern} {s : Symbol} {w : List Symbol} :
    Matches (many p) (s :: w) ↔
      ∃ u v, w = u ++ v ∧ Matches p (s :: u) ∧ Matches (many p) v := by
  constructor
  · generalize pattern : many p = whole
    generalize word : s :: w = read
    intro matched
    induction matched with
    | @more _ u v first rest _ ih =>
      cases pattern
      cases u with
      | nil => exact ih rfl word
      | cons head tail =>
        obtain ⟨rfl, rfl⟩ := List.cons.inj word
        exact ⟨tail, v, rfl, first, rest⟩
    | stop => cases word
    | _ => cases pattern
  · rintro ⟨u, v, rfl, first, rest⟩
    exact .more first rest

theorem matches_chain_append_iff {ps qs : List Pattern} (nonempty : qs ≠ []) {w : List Symbol} :
    (chain (ps ++ qs)).Matches w ↔
      ∃ u v, w = u ++ v ∧ (chain ps).Matches u ∧ (chain qs).Matches v := by
  induction ps generalizing w with
  | nil =>
    constructor
    · exact fun tail => ⟨[], w, rfl, .empty, tail⟩
    · rintro ⟨u, v, rfl, first, tail⟩
      obtain rfl := matches_empty_iff.mp first
      exact tail
  | cons p rest ih =>
    have head : (chain (p :: rest)).Matches = (seq p (chain rest)).Matches := by
      cases rest with
      | nil =>
        funext u
        simp [chain, matches_seq_iff, matches_empty_iff]
      | cons _ _ => rfl
    have whole : chain (p :: rest ++ qs) = seq p (chain (rest ++ qs)) := by
      cases rest with
      | nil =>
        obtain ⟨q, tail, rfl⟩ := List.exists_cons_of_ne_nil nonempty
        rfl
      | cons _ _ => rfl
    rw [whole, head, matches_seq_iff]
    simp only [ih, matches_seq_iff]
    constructor
    · rintro ⟨u, _, rfl, first, v, x, rfl, second, third⟩
      exact ⟨u ++ v, x, by simp, ⟨u, v, rfl, first, second⟩, third⟩
    · rintro ⟨_, x, rfl, ⟨u, v, rfl, first, second⟩, third⟩
      exact ⟨u, v ++ x, by simp, first, v, x, rfl, second, third⟩

/-- Whether the empty word matches. -/
def nullable : Pattern → Bool
  | never => false
  | empty => true
  | one _ => false
  | seq p q => p.nullable && q.nullable
  | alt p q => p.nullable || q.nullable
  | many _ => true

theorem nullable_iff {p : Pattern} : p.nullable = true ↔ Matches p [] := by
  induction p with
  | never => simp [nullable, not_matches_never]
  | empty => simp [nullable, matches_empty_iff]
  | one acceptance => simp [nullable, matches_one_iff]
  | seq p q ihp ihq =>
    rw [nullable, Bool.and_eq_true, ihp, ihq, matches_seq_iff]
    constructor
    · rintro ⟨first, second⟩
      exact ⟨[], [], rfl, first, second⟩
    · rintro ⟨u, v, word, first, second⟩
      obtain ⟨rfl, rfl⟩ := List.append_eq_nil_iff.mp word.symm
      exact ⟨first, second⟩
  | alt p q ihp ihq => rw [nullable, Bool.or_eq_true, ihp, ihq, matches_alt_iff]
  | many p _ => simp [nullable, Matches.stop]

/-- A sequence, simplified where its first part is settled. -/
def andThen (p q : Pattern) : Pattern :=
  match p with
  | never => never
  | empty => q
  | p => seq p q

/-- A choice, simplified where one side can never match. -/
def orElse (p q : Pattern) : Pattern :=
  match p, q with
  | never, q => q
  | p, never => p
  | p, q => alt p q

theorem matches_andThen_iff {p q : Pattern} {w : List Symbol} :
    Matches (andThen p q) w ↔ Matches (seq p q) w := by
  unfold andThen
  split
  · simp [matches_seq_iff, not_matches_never]
  · rw [matches_seq_iff]
    constructor
    · exact fun second => ⟨[], w, rfl, .empty, second⟩
    · rintro ⟨u, v, rfl, first, second⟩
      obtain rfl := matches_empty_iff.mp first
      exact second
  · rfl

theorem matches_orElse_iff {p q : Pattern} {w : List Symbol} :
    Matches (orElse p q) w ↔ Matches (alt p q) w := by
  unfold orElse
  split
  · simp [matches_alt_iff, not_matches_never]
  · simp [matches_alt_iff, not_matches_never]
  · rfl

/-- What has to follow once `s` has been read. -/
def after (s : Symbol) : Pattern → Pattern
  | never => never
  | empty => never
  | one acceptance => if acceptance.admits s then empty else never
  | seq p q => orElse (andThen (after s p) q) (if p.nullable then after s q else never)
  | alt p q => orElse (after s p) (after s q)
  | many p => andThen (after s p) (many p)

theorem matches_after_iff {p : Pattern} {s : Symbol} {w : List Symbol} :
    Matches (after s p) w ↔ Matches p (s :: w) := by
  induction p generalizing w with
  | never => simp [after, not_matches_never]
  | empty => simp [after, not_matches_never, matches_empty_iff]
  | one acceptance =>
    unfold after
    split
    · next admitted =>
      rw [matches_empty_iff, matches_one_iff]
      constructor
      · rintro rfl
        exact ⟨s, rfl, admitted⟩
      · rintro ⟨_, word, _⟩
        exact (List.cons.inj word).2
    · next refused =>
      simp only [not_matches_never, matches_one_iff, false_iff]
      rintro ⟨_, word, admitted⟩
      obtain ⟨rfl, _⟩ := List.cons.inj word
      exact refused admitted
  | seq p q ihp ihq =>
    rw [after, matches_orElse_iff, matches_alt_iff, matches_andThen_iff, matches_seq_iff,
      matches_seq_iff]
    constructor
    · rintro (⟨u, v, rfl, first, second⟩ | second)
      · exact ⟨s :: u, v, rfl, ihp.mp first, second⟩
      · split at second
        · next skipped => exact ⟨[], s :: w, rfl, nullable_iff.mp skipped, ihq.mp second⟩
        · exact absurd second (not_matches_never w)
    · rintro ⟨u, v, word, first, second⟩
      cases u with
      | nil =>
        rw [List.nil_append] at word
        subst word
        right
        rw [if_pos (nullable_iff.mpr first)]
        exact ihq.mpr second
      | cons head tail =>
        obtain ⟨rfl, rfl⟩ := List.cons.inj word
        exact .inl ⟨tail, v, rfl, ihp.mpr first, second⟩
  | alt p q ihp ihq => rw [after, matches_orElse_iff, matches_alt_iff, ihp, ihq, matches_alt_iff]
  | many p ih =>
    rw [after, matches_andThen_iff, matches_seq_iff, matches_many_cons_iff]
    simp only [ih]

/-- What has to follow a word. -/
def afterAll (p : Pattern) (w : List Symbol) : Pattern := w.foldl (fun p s => p.after s) p

theorem afterAll_append_singleton (p : Pattern) (w : List Symbol) (s : Symbol) :
    p.afterAll (w ++ [s]) = (p.afterAll w).after s := by
  rw [afterAll, List.foldl_append]
  rfl

theorem matches_afterAll_iff {p : Pattern} {w v : List Symbol} :
    Matches (p.afterAll w) v ↔ Matches p (w ++ v) := by
  induction w generalizing p with
  | nil => rfl
  | cons s rest ih => rw [afterAll, List.foldl_cons, ← afterAll, ih, matches_after_iff]; rfl

instance (p : Pattern) (w : List Symbol) : Decidable (Matches p w) :=
  decidable_of_iff ((p.afterAll w).nullable = true) <| by
    rw [nullable_iff, matches_afterAll_iff, List.append_nil]

/-- Every symbol that some part of the pattern admits. -/
def symbols : Pattern → List Symbol
  | never | empty => []
  | one acceptance => acceptance.symbols
  | seq p q | alt p q => p.symbols ++ q.symbols
  | many p => p.symbols

theorem Matches.mem_symbols {p : Pattern} {w : List Symbol} (matched : Matches p w) :
    ∀ s ∈ w, s ∈ p.symbols := by
  induction matched with
  | empty | stop => simp
  | one admitted => simpa [symbols] using Acceptance.mem_symbols admitted
  | seq _ _ first second =>
    intro s member
    rcases List.mem_append.mp member with front | back
    · exact List.mem_append_left _ (first s front)
    · exact List.mem_append_right _ (second s back)
  | left _ first => exact fun s member => List.mem_append_left _ (first s member)
  | right _ second => exact fun s member => List.mem_append_right _ (second s member)
  | more _ _ first rest =>
    intro s member
    rcases List.mem_append.mp member with front | back
    · exact first s front
    · exact rest s back

/-- What is true of every symbol after which something can match is true of the first one. -/
theorem Matches.head {p : Pattern} {s : Symbol} {rest : List Symbol} (matched : Matches p (s :: rest))
    {holds : Symbol → Bool}
    (checked : (p.symbols.all fun s => p.after s == never || holds s) = true) : holds s = true := by
  have listed := matched.mem_symbols s List.mem_cons_self
  have either := List.all_eq_true.mp checked s listed
  rw [Bool.or_eq_true, beq_iff_eq] at either
  rcases either with dead | fine
  · have left := matches_after_iff.mpr matched
    rw [dead] at left
    exact absurd left (not_matches_never rest)
  · exact fine

end Pattern

end NandTools
