import NandTools.Proofs.Parser.Agreement
import NandTools.Proofs.Parser.Conservation

/-! The limit of a parser bounds the height of what it reads, and does nothing else. -/
namespace NandTools

open NandTools.Source

/-- A supply, and how many productions are open while it is drawn from. -/
@[ext] structure Counted (σ : Type) where
  supply : σ
  opened : Nat

instance {σ : Type} [TokenSupply σ] : TokenSupply (Counted σ) where
  next s := ((TokenSupply.next s.supply).1, { s with supply := (TokenSupply.next s.supply).2 })
  left s := TokenSupply.left s.supply
  left_next s := TokenSupply.left_next s.supply
  left_next_lt := TokenSupply.left_next_lt

namespace Parser

variable {σ : Type} [TokenSupply σ] {p : Parser σ}

def recount (count : Nat → Nat) (p : Parser (Counted σ)) : Parser (Counted σ) :=
  { p with supply := { p.supply with opened := count p.supply.opened } }

/-- A reader that counts the productions that are open: one more when it begins, one less however
it ends. At the limit it does not begin. The fuel bounds how often it is called within itself. -/
def counting : Nat → Reader (Counted σ)
  | 0 => fun _ _ p => ⟨(.error (.maxRecursionDepth p.limit), p), Nat.le_refl _⟩
  | fuel + 1 => fun rule callee? p =>
    if p.limit ≤ p.supply.opened then ⟨(.error (.maxRecursionDepth p.limit), p), Nat.le_refl _⟩
    else
      ⟨((build (counting fuel) rule callee? (p.recount (· + 1))).1,
        (build (counting fuel) rule callee? (p.recount (· + 1))).2.recount (· - 1)),
        pending_build (counting fuel) rule callee? (p.recount (· + 1))⟩

/-- What a call comes to with this reader, before a failure of the supply is reported. -/
def Call.readBy (read : Reader σ) :
    Call → Parser σ → Except SyntaxError (Option (Located Tree)) × Parser σ
  | from_ none, p => outermostBy read p
  | from_ (some rule), p =>
    if p.advance.current.value.isEnd then (.ok none, p.advance)
    else ((read rule none p.advance).val.1.map some, (read rule none p.advance).val.2)
  | within enclosing, p =>
    ((child read (.ofRule enclosing) p).1, (child read (.ofRule enclosing) p).2.2)

/-- Anything that the parser can be asked for from outside. -/
inductive Request where
  | part (call : Call)
  | class_

namespace Request

def answer : Request → Parser σ → Except SyntaxError (Option Tree) × Parser σ
  | part call, p => call.answer p
  | class_, p => (p.parseClass.1.map some, p.parseClass.2)

/-- What is answered with this reader. -/
def answerBy (read : Reader σ) : Request → Parser σ → Except SyntaxError (Option Tree) × Parser σ
  | part call, p =>
    let out := call.readBy read p
    finish (out.1.map fun tree? => tree?.map (·.value), out.2)
  | class_, p => ((classBy read p).1.map some, (classBy read p).2)

theorem answer_eq (request : Request) (p : Parser σ) :
    request.answer p = request.answerBy (reader p.limit) p := by
  match request with
  | part (.from_ none) =>
    simp only [answer, Call.answer, parseFrom, answerBy, Call.readBy, outermost_eq]
  | part (.from_ (some rule)) =>
    rw [← p.advance_limit]
    rfl
  | part (.within enclosing) => rfl
  | class_ => simp only [answer, answerBy, parseClass_eq]

end Request

/-- The answers to these requests, whatever they are, and the parser after them. -/
def serve (answer : Request → Parser σ → Except SyntaxError (Option Tree) × Parser σ) :
    List Request → Parser σ → List (Except SyntaxError (Option Tree)) × Parser σ
  | [], p => ([], p)
  | request :: rest, p =>
    let out := answer request p
    let later := serve answer rest out.2
    (out.1 :: later.1, later.2)

end Parser

namespace Pairing

variable {σ τ : Type} [TokenSupply σ] [TokenSupply τ]

/-- A parser beside one that may open more productions. -/
def widening (σ : Type) [TokenSupply σ] (limit slack : Nat) : Pairing σ σ where
  same _ s t := s = t
  limit
  slack
  inStep := by
    rintro s _ rfl
    exact ⟨rfl, rfl⟩

/-- A parser that counts, with so many productions open, beside one that does not. -/
def counted (σ : Type) [TokenSupply σ] (limit opened : Nat) : Pairing (Counted σ) σ where
  same _ s t := s.supply = t ∧ s.opened = opened
  limit
  slack := 0
  inStep := by
    rintro s _ ⟨rfl, same⟩
    exact ⟨rfl, rfl, same⟩

theorem Alike.recount {limit opened : Nat} {p : Parser (Counted σ)} {q : Parser σ}
    (alike : (counted σ limit opened).Alike p q) (count : Nat → Nat) :
    (counted σ limit (count opened)).Alike (p.recount count) q :=
  ⟨alike.current, alike.previous, alike.pushedBack, alike.failure, alike.limits,
    ⟨alike.supply.1, congrArg count alike.supply.2⟩, alike.tidy, alike.settled⟩

/-- Counting what is open comes to the same as giving away room. -/
theorem counting_agrees (limit fuel opened : Nat) (enough : limit ≤ fuel + opened) :
    (counted σ limit opened).Agrees (limit - opened) (Parser.counting fuel)
      (Parser.reader (limit - opened)) := by
  induction fuel generalizing opened with
  | zero =>
    intro rule callee? p q alike _ _
    have full : limit - opened = 0 := by omega
    have limits : p.limit = limit ∧ q.limit = limit := alike.limits
    refine .inl ⟨?_, ?_⟩
    · rw [full]
      simp only [Parser.counting, Parser.reader, limits]
    · rw [full]
      exact alike
  | succ fuel ih =>
    intro rule callee? p q alike inside asked
    have limits : p.limit = limit ∧ q.limit = limit := alike.limits
    have count : p.supply.opened = opened := alike.supply.2
    by_cases full : limit ≤ opened
    · have none : limit - opened = 0 := by omega
      rw [none, Parser.counting]
      simp only [limits, count, full, if_true]
      refine .inl ⟨?_, alike⟩
      simp only [Parser.reader, limits]
    · have room : limit - opened = limit - (opened + 1) + 1 := by omega
      have inner := build_follows (ih (opened + 1) (by omega)) (Parser.reader_named _)
        (Parser.reader_sound _) (alike.recount (· + 1)) inside asked
      obtain ⟨same, after⟩ := inner.alike rfl
      rw [room, Parser.counting]
      simp only [limits, count, full, if_false]
      exact .inl ⟨same, after.recount (· - 1)⟩

variable {pair : Pairing σ τ} {p : Parser σ} {q : Parser τ} {room limit : Nat}
  {read : Parser.Reader σ} {read' : Parser.Reader τ}

/-- Parsers that are alike stay so when a failure has been reported. -/
theorem Alike.finish {α : Type} {out : Except SyntaxError α × Parser σ}
    {out' : Except SyntaxError α × Parser τ} (same : out.1 = out'.1)
    (alike : pair.Alike out.2 out'.2)
    (steady : ∀ failure? s t, pair.same failure? s t → pair.same none s t) :
    (Parser.finish out).1 = (Parser.finish out').1 ∧
      pair.Alike (Parser.finish out).2 (Parser.finish out').2 ∧
        (Parser.finish out).2.failure? = none := by
  rw [Parser.finish, Parser.finish, ← alike.failure]
  cases failed : out.2.failure? with
  | none => exact ⟨same, alike, failed⟩
  | some e =>
    exact ⟨rfl, ⟨alike.current, alike.previous, alike.pushedBack, rfl, alike.limits,
      steady _ _ _ alike.supply, alike.tidy, by rintro _ ⟨⟩⟩, rfl⟩

private theorem readBy_agrees (agrees : pair.Agrees room read read') (level : pair.slack = 0)
    (call : Parser.Call) (alike : pair.Alike p q) :
    (call.readBy read p).1 = (call.readBy read' q).1 ∧
      pair.Alike (call.readBy read p).2 (call.readBy read' q).2 := by
  have tight {asked : Prop} (slack : 0 < pair.slack) : asked := by omega
  match call with
  | .from_ none => exact (outermostBy_follows agrees alike).alike level
  | .from_ (some rule) =>
    have advanced := alike.advance
    simp only [Parser.Call.readBy]
    rw [advanced.current]
    cases ended : q.advance.current.value.isEnd with
    | true => exact ⟨rfl, advanced⟩
    | false =>
      have inside : p.advance.current.value.isEnd = false := by rw [advanced.current, ended]
      obtain ⟨same, after⟩ := (agrees rule none _ _ advanced inside tight).alike level
      exact ⟨congrArg (Except.map some) same, after⟩
  | .within enclosing => exact (child_follows agrees alike tight).2.alike level

/-- Whatever is asked for, readers that agree answer the same and leave their parsers alike. -/
theorem answerBy_agrees (agrees : pair.Agrees room read read') (level : pair.slack = 0)
    (steady : ∀ failure? s t, pair.same failure? s t → pair.same none s t)
    (request : Parser.Request) (alike : pair.Alike p q) :
    (request.answerBy read p).1 = (request.answerBy read' q).1 ∧
      pair.Alike (request.answerBy read p).2 (request.answerBy read' q).2 ∧
        (request.answerBy read p).2.failure? = none := by
  cases request with
  | part call =>
    obtain ⟨same, after⟩ := readBy_agrees agrees level call alike
    have same := congrArg (Except.map fun tree? => tree?.map (·.value)) same
    exact Alike.finish same after steady
  | class_ =>
    obtain ⟨same, after⟩ := (andThen_closing_follows agrees alike).alike level
    obtain ⟨same, after⟩ := Alike.finish same after steady
    exact ⟨congrArg (Except.map some) same, after⟩

/-- What is served while counting is what is served anyway, and in between nothing is open. -/
theorem serve_counted {fuel : Nat} (enough : limit ≤ fuel) (requests : List Parser.Request)
    {p : Parser (Counted σ)} {q : Parser σ} (alike : (counted σ limit 0).Alike p q)
    (sound : p.failure? = none) :
    let out := Parser.serve (Parser.Request.answerBy (Parser.counting fuel)) requests p
    let out' := Parser.serve Parser.Request.answer requests q
    out.1 = out'.1 ∧ (counted σ limit 0).Alike out.2 out'.2 ∧ out.2.failure? = none := by
  induction requests generalizing p q with
  | nil => exact ⟨rfl, alike, sound⟩
  | cons request rest ih =>
    have limit' : q.limit = limit := alike.limits.2
    obtain ⟨same, after, sound⟩ := answerBy_agrees (counting_agrees limit fuel 0 (by omega)) rfl
      (fun _ _ _ same => same) request alike
    simp only [Parser.serve, Parser.Request.answer_eq, limit']
    obtain ⟨later, last, sound⟩ := ih after sound
    rw [Nat.sub_zero] at same later last
    exact ⟨congrArg₂ _ same later, last, sound⟩

end Pairing

namespace Parser

variable {σ : Type} [TokenSupply σ]

theorem height_of_parseClass {p : Parser σ} {tree : Tree} (parsed : p.parseClass.1 = .ok tree) :
    tree.height ≤ p.limit := by
  rw [parseClass_eq] at parsed
  have parsed := ok_of_finish parsed
  obtain ⟨tree?, read, same⟩ := ok_of_andThen parsed
  rw [same] at parsed
  obtain ⟨⟨located, rfl, rfl⟩, -⟩ := of_closing parsed
  unfold outermostBy at read
  split at read
  · cases read
  · split at read
    · cases read
      exact Nat.zero_le _
    · next rule opened =>
      obtain ⟨tree, returned, only⟩ := Except.ok_of_map read
      obtain rfl := Option.some.inj only
      exact reader_shallow p.limit rule none _ _ (Pairing.asked_outermost opened _) nofun returned

/-- The parser with another limit, which has to stay below the largest one. -/
def withLimit (p : Parser σ) (limit : Nat) : Parser σ :=
  { p with limit := min limit Limits.parseDepth }

variable {p : Parser σ} {less more : Nat}

/-- With more room a class is read alike, or what is read needs that room. -/
theorem parseClass_withLimit (sound : p.failure? = none)
    (tidy : ∀ token, p.pushedBack? = some token → token.value.isEnd = false) (le : less ≤ more) :
    (p.withLimit less).parseClass.1 = (p.withLimit more).parseClass.1 ∨
      (∃ depth, (p.withLimit less).parseClass.1 = .error (.maxRecursionDepth depth)) ∧
        ∀ tree, (p.withLimit more).parseClass.1 = .ok tree →
          min less Limits.parseDepth < tree.height := by
  let pair := Pairing.widening σ (min less Limits.parseDepth)
    (min more Limits.parseDepth - min less Limits.parseDepth)
  have wider : min less Limits.parseDepth ≤ min more Limits.parseDepth := by omega
  have alike : pair.Alike (p.withLimit less) (p.withLimit more) := by
    refine ⟨rfl, rfl, rfl, rfl, ⟨rfl, (Nat.add_sub_cancel' wider).symm⟩, rfl, tidy, ?_⟩
    intro e failed
    cases sound.symm.trans failed
  rcases Pairing.parseClass_agrees alike with same | ⟨_, short⟩
  · exact .inl same
  · exact .inr short

/-- A class is read within a limit just where it is read at all and is no taller. -/
theorem parseClass_withLimit_iff (sound : p.failure? = none)
    (tidy : ∀ token, p.pushedBack? = some token → token.value.isEnd = false) (limit : Nat)
    (tree : Tree) :
    (p.withLimit limit).parseClass.1 = .ok tree ↔
      (p.withLimit Limits.parseDepth).parseClass.1 = .ok tree ∧
        tree.height ≤ min limit Limits.parseDepth := by
  have same : p.withLimit limit = p.withLimit (min limit Limits.parseDepth) := by
    rw [withLimit, withLimit, Nat.min_assoc, Nat.min_self]
  rw [same]
  have alike := parseClass_withLimit sound tidy (Nat.min_le_right limit Limits.parseDepth)
  rw [Nat.min_assoc, Nat.min_self] at alike
  constructor
  · intro parsed
    constructor
    · rcases alike with same | ⟨⟨_, short⟩, _⟩
      · rw [← same, parsed]
      · cases short.symm.trans parsed
    · have low := height_of_parseClass parsed
      rw [withLimit, Nat.min_assoc, Nat.min_self] at low
      exact low
  · rintro ⟨parsed, low⟩
    rcases alike with same | ⟨_, tall⟩
    · rw [same, parsed]
    · exact absurd (tall tree parsed) (Nat.not_lt_of_le low)

/-- The limit of a parser is a limit on height. A class is read within it just where it is read within
the largest limit and is no taller than this one. A parser that does not report that it is too low
reports with every higher one what it reports with this one. A parser that counts the productions
it has open does the same, whatever it is asked for and whether it succeeds or fails; nothing is
open when it is done, and the limit means the same again. -/
theorem parseClass_limit (supply : σ) (limit : Nat) :
    (∀ tree, (ofSupply supply limit).parseClass.1 = .ok tree ↔
      (ofSupply supply Limits.parseDepth).parseClass.1 = .ok tree ∧
        tree.height ≤ min limit Limits.parseDepth) ∧
    ((∀ depth, (ofSupply supply limit).parseClass.1 ≠ .error (.maxRecursionDepth depth)) →
      ∀ larger, limit ≤ larger →
        (ofSupply supply larger).parseClass.1 = (ofSupply supply limit).parseClass.1) ∧
    ∀ requests fuel, min limit Limits.parseDepth ≤ fuel →
      let counted := serve (Request.answerBy (counting fuel)) requests (ofSupply ⟨supply, 0⟩ limit)
      let served := serve Request.answer requests (ofSupply supply limit)
      counted.1 = served.1 ∧ counted.2.supply = ⟨served.2.supply, 0⟩ ∧
        ∀ tree, served.2.parseClass.1 = .ok tree ↔
          (served.2.withLimit Limits.parseDepth).parseClass.1 = .ok tree ∧
            tree.height ≤ min limit Limits.parseDepth := by
  refine ⟨fun tree => ?_, fun enough larger le => ?_, fun requests fuel enough => ?_⟩
  · exact parseClass_withLimit_iff (p := ofSupply supply limit) rfl nofun limit tree
  · rcases parseClass_withLimit (p := ofSupply supply limit) rfl nofun le with same | ⟨⟨_, short⟩, _⟩
    · exact same.symm
    · exact absurd short (enough _)
  · have alike : (Pairing.counted σ (min limit Limits.parseDepth) 0).Alike
        (ofSupply ⟨supply, 0⟩ limit) (ofSupply supply limit) :=
      ⟨rfl, rfl, rfl, rfl, ⟨rfl, rfl⟩, ⟨rfl, rfl⟩, nofun, nofun⟩
    obtain ⟨same, after, sound⟩ := Pairing.serve_counted enough requests alike rfl
    refine ⟨same, Counted.ext after.supply.1 after.supply.2, fun tree => ?_⟩
    have kept : (serve Request.answer requests (ofSupply supply limit)).2.limit =
        min limit Limits.parseDepth := after.limits.2
    have afresh := parseClass_withLimit_iff (after.failure.symm.trans sound)
      (fun token held => after.tidy token (after.pushedBack.trans held)) limit tree
    rw [withLimit, ← kept] at afresh
    rw [← kept]
    exact afresh

/-- A class with a single statement needs room for four productions. A failure for want of room
leaves none of them open. -/
theorem parseClass_limit_of_statement :
    let supply := Scanner.ofText "class A { function void f() { return; } }".toList
    ∃ tree, tree.height = 4 ∧ (ofSupply supply 4).parseClass.1 = .ok tree ∧
      (ofSupply supply 3).parseClass.1 ≠ .ok tree ∧
      (serve (Request.answerBy (counting 3)) [.class_] (ofSupply ⟨supply, 0⟩ 3)).2.supply.opened =
        0 := by
  intro supply
  have read : (ofSupply supply Limits.parseDepth).parseClass.1.toOption.any (·.height == 4) =
      true := by
    decide +kernel
  obtain ⟨tree, present, tall⟩ := (Option.any_eq_true _ _).mp read
  have parsed := Except.ok_of_toOption present
  have height : tree.height = 4 := beq_iff_eq.mp tall
  refine ⟨tree, height, ?_, ?_, ?_⟩
  · refine ((parseClass_limit supply 4).1 tree).mpr ⟨parsed, ?_⟩
    rw [height]
    decide
  · intro short
    have low := (((parseClass_limit supply 3).1 tree).mp short).2
    rw [height] at low
    exact absurd low (by decide)
  · rw [((parseClass_limit supply 3).2.2 [.class_] 3 (by decide)).2.1]

end Parser

end NandTools
