import Mathlib.Data.List.Induction
import NandTools.Proofs.Assembly.Encoding

/-! The language of single lines: what a line is divided into, and what the grammar allows there. -/
namespace NandTools

namespace Mnemonic

/-- Different registers in any order. -/
def AreRegisters (text : List Char) : Prop := text ⊆ ['A', 'D', 'M'] ∧ text.Nodup

def jumpNames : List String := ["JGT", "JEQ", "JGE", "JLT", "JNE", "JLE", "JMP"]

theorem jumpNames_ne_nil : ∀ jump ∈ jumpNames, jump.toList ≠ [] := by decide

private theorem Dest.add?_isSome {named : List Char} {register : Char} :
    (add? ⟨named.contains 'A', named.contains 'D', named.contains 'M'⟩ register).isSome = true ↔
      register ∈ ['A', 'D', 'M'] ∧ register ∉ named := by
  unfold add?
  split
  · by_cases known : 'A' ∈ named <;> simp [known]
  · by_cases known : 'D' ∈ named <;> simp [known]
  · by_cases known : 'M' ∈ named <;> simp [known]
  · next a d m => exact iff_of_false nofun (by simp_all)

/-- A destination is read when it names different registers. -/
theorem Dest.ofList?_isSome {text : List Char} :
    (ofList? text).isSome = true ↔ AreRegisters text := by
  induction text using List.reverseRecOn with
  | nil => simp [ofList?, AreRegisters]
  | append_singleton front last ih =>
    have parts : AreRegisters (front ++ [last]) ↔
        AreRegisters front ∧ last ∈ ['A', 'D', 'M'] ∧ last ∉ front := by
      rw [AreRegisters, AreRegisters, List.append_subset,
        (List.perm_append_singleton last front).nodup_iff, List.nodup_cons]
      grind
    have step : ofList? (front ++ [last]) = (ofList? front).bind (add? · last) := by
      simp [ofList?]
    rw [parts, ← ih, step]
    cases read : ofList? front with
    | none => simp
    | some dest =>
      rw [Option.bind_some, names_of_dest read, add?_isSome]
      simp

theorem destBits?_isSome {dest : String} :
    (destBits? dest).isSome = true ↔ AreRegisters dest.toList := by
  rw [destBits?, Option.isSome_map, Dest.ofList?_isSome]

theorem compBits?_isSome {comp : String} :
    (compBits? comp).isSome = true ↔ comp ∈ comps.map Prod.fst := by
  rw [compBits?, ← Option.ne_none_iff_isSome, Ne, List.lookup_eq_none_iff]
  simp

theorem jumpBits?_isSome {jump : String} :
    (jumpBits? jump).isSome = true ↔ jump = "" ∨ jump ∈ jumpNames := by
  have table : jumps.map Prod.fst = "" :: jumpNames := rfl
  rw [jumpBits?, ← Option.ne_none_iff_isSome, Ne, List.lookup_eq_none_iff, ← List.mem_cons, ← table]
  simp

/-- Names of jumps are made of letters that mnemonics have. -/
theorem parts_of_jump {jump : String} (known : jump = "" ∨ jump ∈ jumpNames) :
    jump.toList.all isPart = true := by
  obtain ⟨bits, found⟩ := Option.isSome_iff_exists.mp (jumpBits?_isSome.mpr known)
  exact parts_of_jumps (mem_of_lookup found)

theorem parts_of_registers {text : List Char} (registers : AreRegisters text) :
    text.all isPart = true := by
  obtain ⟨dest, read⟩ := Option.isSome_iff_exists.mp (Dest.ofList?_isSome.mpr registers)
  exact parts_of_dest read

theorem parts_of_comp {comp : String} (listed : comp ∈ comps.map Prod.fst) :
    comp.toList ≠ [] ∧ comp.toList.all isPart = true := by
  obtain ⟨bits, found⟩ := Option.isSome_iff_exists.mp (compBits?_isSome.mpr listed)
  exact parts_of_comps (mem_of_lookup found)

end Mnemonic

namespace Instruction

open Mnemonic (AreRegisters jumpNames)

section Division

variable {mark : Char} {text front back : List Char}

private theorem not_mem_takeWhile (mark : Char) (text : List Char) :
    mark ∉ text.takeWhile (· != mark) := by
  intro member
  have others := List.all_eq_true.mp (List.all_takeWhile (p := (· != mark)) (l := text))
  exact bne_iff_ne.mp (others mark member) rfl

theorem not_mem_of_splitAt (uncut : splitAt? mark text = none) : mark ∉ text := by
  unfold splitAt? at uncut
  split at uncut
  · cases uncut
  · next emptied =>
    rw [← List.takeWhile_append_dropWhile (p := (· != mark)) (l := text), emptied, List.append_nil]
    exact not_mem_takeWhile mark text

theorem eq_of_splitAt (cut : splitAt? mark text = some (front, back)) :
    text = front ++ mark :: back ∧ mark ∉ front := by
  unfold splitAt? at cut
  split at cut
  · next c rest dropped =>
    cases cut
    have here : c = mark := by
      have stopped := List.head?_dropWhile_not (· != mark) text
      rw [dropped] at stopped
      exact bne_eq_false_iff_eq.mp stopped
    rw [here] at dropped
    refine ⟨?_, not_mem_takeWhile mark text⟩
    rw [← dropped, List.takeWhile_append_dropWhile]
  · cases cut

/-- Where there is no mark, nothing stands after it. -/
private theorem cut_after (mark : Char) (text : List Char) : ∃ front back tail,
    (splitAt? mark text).getD (text, []) = (front, back) ∧ text = front ++ tail ∧ mark ∉ front ∧
      (tail = [] ∧ back = [] ∨ tail = mark :: back) := by
  cases cut : splitAt? mark text with
  | none =>
    exact ⟨text, [], [], rfl, (List.append_nil text).symm, not_mem_of_splitAt cut, .inl ⟨rfl, rfl⟩⟩
  | some parts =>
    obtain ⟨same, absent⟩ := eq_of_splitAt cut
    exact ⟨parts.1, parts.2, mark :: parts.2, rfl, same, absent, .inr rfl⟩

/-- Where there is no mark, nothing stands before it. -/
private theorem cut_before (mark : Char) (text : List Char) : ∃ front back target,
    (splitAt? mark text).getD ([], text) = (front, back) ∧ text = target ++ back ∧
      (target = [] ∧ front = [] ∧ mark ∉ back ∨ target = front ++ [mark] ∧ mark ∉ front) := by
  cases cut : splitAt? mark text with
  | none => exact ⟨[], text, [], rfl, rfl, .inl ⟨rfl, rfl, not_mem_of_splitAt cut⟩⟩
  | some parts =>
    obtain ⟨same, absent⟩ := eq_of_splitAt cut
    refine ⟨parts.1, parts.2, parts.1 ++ [mark], rfl, ?_, .inr ⟨rfl, absent⟩⟩
    rw [same, List.append_assoc]
    rfl

/-- A text is cut at its first semicolon, and what precedes that at its first equals sign. Where
there is no mark, the part that it separates is empty. -/
structure Divides (text : List Char) (dest comp jump : String) : Prop where
  parts : ∃ target tail, text = (target ++ comp.toList) ++ tail ∧ ';' ∉ target ++ comp.toList ∧
    (target = [] ∧ dest = "" ∧ '=' ∉ comp.toList ∨
      target = dest.toList ++ ['='] ∧ '=' ∉ dest.toList) ∧
    (tail = [] ∧ jump = "" ∨ tail = ';' :: jump.toList)

theorem parseCompute_iff {dest comp jump : String} :
    parseCompute text = .compute dest comp jump ↔ Divides text dest comp jump := by
  constructor
  · intro parsed
    rw [parseCompute] at parsed
    obtain ⟨assigned, after, tail, cut, rfl, single, jumps⟩ := cut_after ';' text
    obtain ⟨before, rest, target, cut', rfl, named⟩ := cut_before '=' assigned
    rw [cut] at parsed
    dsimp only at parsed
    rw [cut'] at parsed
    cases parsed
    exact ⟨target, tail, by simp, by simpa using single, by simpa using named, by simpa using jumps⟩
  · rintro ⟨target, tail, rfl, single, assigned, jumps⟩
    have first : (splitAt? ';' (target ++ comp.toList ++ tail)).getD
        (target ++ comp.toList ++ tail, []) = (target ++ comp.toList, jump.toList) := by
      rcases jumps with ⟨rfl, rfl⟩ | rfl
      · rw [List.append_nil, splitAt_of_absent single]
        rfl
      · rw [splitAt_of_append single]
        rfl
    have second : (splitAt? '=' (target ++ comp.toList)).getD ([], target ++ comp.toList) =
        (dest.toList, comp.toList) := by
      rcases assigned with ⟨rfl, rfl, absent⟩ | ⟨rfl, absent⟩
      · rw [List.nil_append, splitAt_of_absent absent]
        rfl
      · rw [List.append_assoc, List.singleton_append, splitAt_of_append absent]
        rfl
    rw [parseCompute, first]
    dsimp only
    rw [second]
    simp

end Division

/-- What the text of a line says before the parts of it are looked up. -/
inductive Spells : List Char → Instruction → Prop
  | label {name : String} (symbol : isSymbol name.toList = true) :
    Spells ('(' :: (name.toList ++ [')'])) (.label name)
  | address {value : String} (nonempty : value.toList ≠ []) :
    Spells ('@' :: value.toList) (.address value)
  | compute {text : List Char} {dest comp jump : String} (unlabelled : text.head? ≠ some '(')
    (unaddressed : text.head? ≠ some '@') (divides : Divides text dest comp jump) :
    Spells text (.compute dest comp jump)

/-- Why nothing is said by a text. -/
inductive Misspelled (line : Nat) (text : List Char) : AssemblyError → Prop
  | label (opened : text.head? = some '(')
    (unlike : ∀ name : String, isSymbol name.toList = true → text ≠ '(' :: (name.toList ++ [')'])) :
    Misspelled line text (.malformedLabel (.ofList text) line)
  | address (lone : text = ['@']) : Misspelled line text (.invalidSymbol "@" line)

variable {text : List Char} {line : Nat} {i : Instruction} {e : AssemblyError}

theorem parse_iff : parse text line = .ok i ↔ Spells text i := by
  constructor
  · intro parsed
    unfold parse at parsed
    split at parsed
    · next rest =>
      dsimp only at parsed
      split at parsed
      · next closed =>
        cases parsed
        rw [Bool.and_eq_true, decide_eq_true_eq] at closed
        obtain ⟨name, rfl⟩ := List.getLast?_eq_some_iff.mp closed.1
        rw [List.dropLast_concat] at closed ⊢
        have symbol : isSymbol (String.ofList name).toList = true := by simpa using closed.2
        simpa using Spells.label symbol
      · cases parsed
    · next value =>
      split at parsed
      · cases parsed
      · next nonempty =>
        cases parsed
        have given : (String.ofList value).toList ≠ [] := by simpa using nonempty
        simpa using Spells.address given
    · next unlabelled unaddressed =>
      cases parsed
      refine .compute (fun head => ?_) (fun head => ?_) (parseCompute_iff.mp rfl)
      · obtain ⟨rest, same⟩ := List.head?_eq_some_iff.mp head
        exact unlabelled rest same
      · obtain ⟨value, same⟩ := List.head?_eq_some_iff.mp head
        exact unaddressed value same
  · intro spells
    cases spells with
    | label symbol => simp [parse, symbol]
    | address nonempty => simp [parse, nonempty]
    | compute unlabelled unaddressed divides =>
      rw [parse, parseCompute_iff.mpr divides]
      · rintro rest rfl
        exact unlabelled rfl
      · rintro value rfl
        exact unaddressed rfl

theorem misspelled_of_parse (failed : parse text line = .error e) : Misspelled line text e := by
  unfold parse at failed
  split at failed
  · next rest =>
    dsimp only at failed
    split at failed
    · cases failed
    · next other =>
      cases failed
      refine .label rfl fun name symbol same => other ?_
      cases same
      simp [symbol]
  · next value =>
    split at failed
    · next empty =>
      cases failed
      obtain rfl := List.isEmpty_iff.mp empty
      exact .address rfl
    · cases failed
  · cases failed

/-- A destination and its mark, or neither. With `bare`, a mark may also stand alone. -/
inductive Target (bare : Bool) : List Char → String → Prop
  | absent : Target bare [] ""
  | given {dest : String} (registers : AreRegisters dest.toList) (named : dest ≠ "" ∨ bare = true) :
    Target bare (dest.toList ++ ['=']) dest

/-- A mark and its jump, or neither. With `bare`, a mark may also stand alone. -/
inductive Jump (bare : Bool) : List Char → String → Prop
  | absent : Jump bare [] ""
  | given {jump : String} (named : jump ∈ jumpNames ∨ jump = "" ∧ bare = true) :
    Jump bare (';' :: jump.toList) jump

/-- The grammar of instructions. With `bare`, the marks of a computation may stand alone. -/
inductive Phrase (bare : Bool) : List Char → Instruction → Prop
  | label {name : String} (symbol : isSymbol name.toList = true) :
    Phrase bare ('(' :: (name.toList ++ [')'])) (.label name)
  | number {digits : String} {n : Nat} (numeral : Text.Numeral Limits.address digits.toList n) :
    Phrase bare ('@' :: digits.toList) (.address digits)
  | symbol {name : String} (symbol : isSymbol name.toList = true) :
    Phrase bare ('@' :: name.toList) (.address name)
  | compute {target tail : List Char} {dest comp jump : String} (assigned : Target bare target dest)
    (listed : comp ∈ Mnemonic.comps.map Prod.fst) (jumps : Jump bare tail jump) :
    Phrase bare (target ++ comp.toList ++ tail) (.compute dest comp jump)

/-- Characters of a destination with its mark. -/
theorem Target.parts {bare : Bool} {target : List Char} {dest : String}
    (assigned : Target bare target dest) :
    AreRegisters dest.toList ∧ (target = [] ∧ dest = "" ∨ target = dest.toList ++ ['=']) := by
  cases assigned with
  | absent => exact ⟨⟨List.nil_subset _, .nil⟩, .inl ⟨rfl, rfl⟩⟩
  | given registers _ => exact ⟨registers, .inr rfl⟩

theorem Jump.parts {bare : Bool} {tail : List Char} {jump : String} (jumps : Jump bare tail jump) :
    (jump = "" ∨ jump ∈ jumpNames) ∧ (tail = [] ∧ jump = "" ∨ tail = ';' :: jump.toList) := by
  cases jumps with
  | absent => exact ⟨.inl rfl, .inl ⟨rfl, rfl⟩⟩
  | given named => exact ⟨named.symm.imp_left And.left, .inr rfl⟩

theorem isLegal_compute {dest comp jump : String} : (compute dest comp jump).isLegal = true ↔
    AreRegisters dest.toList ∧ comp ∈ Mnemonic.comps.map Prod.fst ∧
      (jump = "" ∨ jump ∈ jumpNames) := by
  simp only [isLegal, Bool.and_eq_true, Mnemonic.destBits?_isSome, Mnemonic.compBits?_isSome,
    Mnemonic.jumpBits?_isSome, and_assoc]

theorem isLegal_address {value : String} : (address value).isLegal = true ↔
    (∃ n, Text.Numeral Limits.address value.toList n) ∨ isSymbol value.toList = true := by
  simp only [isLegal, Bool.or_eq_true, Option.isSome_iff_exists, Text.readNat_iff]

private theorem spells_compute {target tail : List Char} {dest comp jump : String}
    (registers : AreRegisters dest.toList) (listed : comp ∈ Mnemonic.comps.map Prod.fst)
    (named : jump = "" ∨ jump ∈ jumpNames)
    (assigned : target = [] ∧ dest = "" ∨ target = dest.toList ++ ['='])
    (jumps : tail = [] ∧ jump = "" ∨ tail = ';' :: jump.toList) :
    Spells (target ++ comp.toList ++ tail) (.compute dest comp jump) := by
  have dests := Mnemonic.parts_of_registers registers
  have comps := (Mnemonic.parts_of_comp listed).2
  have names := Mnemonic.parts_of_jump named
  have unmarked {mark : Char} (other : mark ≠ '=' ∧ mark ≠ ';')
      (apart : Mnemonic.isPart mark = false) : mark ∉ target ++ comp.toList ++ tail := by
    have dests := not_mem_of_parts dests apart
    have comps := not_mem_of_parts comps apart
    have names := not_mem_of_parts names apart
    rcases assigned with ⟨rfl, _⟩ | rfl <;> rcases jumps with ⟨rfl, _⟩ | rfl <;>
      simp [dests, comps, names, other]
  refine .compute ?_ ?_ ⟨target, tail, rfl, ?_, ?_, jumps⟩
  · intro head
    exact unmarked (by decide) (by decide) (List.mem_of_mem_head? head)
  · intro head
    exact unmarked (by decide) (by decide) (List.mem_of_mem_head? head)
  · have comps : ';' ∉ comp.toList := not_mem_of_parts comps (by decide)
    have dests : ';' ∉ dest.toList := not_mem_of_parts dests (by decide)
    rcases assigned with ⟨rfl, _⟩ | rfl <;> simp [comps, dests]
  · refine assigned.imp ?_ ?_
    · rintro ⟨rfl, rfl⟩
      exact ⟨rfl, rfl, not_mem_of_parts comps (by decide)⟩
    · rintro rfl
      exact ⟨rfl, not_mem_of_parts dests (by decide)⟩

/-- With marks that stand alone, the grammar allows what can be encoded. -/
theorem phrase_iff : Phrase true text i ↔ Spells text i ∧ i.isLegal = true := by
  constructor
  · intro phrase
    cases phrase with
    | label symbol => exact ⟨.label symbol, symbol⟩
    | number numeral => exact ⟨.address numeral.nonempty, isLegal_address.mpr (.inl ⟨_, numeral⟩)⟩
    | symbol symbol =>
      exact ⟨.address (symbolChars_of_symbol symbol).1, isLegal_address.mpr (.inr symbol)⟩
    | compute assigned listed jumps =>
      obtain ⟨registers, target⟩ := assigned.parts
      obtain ⟨named, tail⟩ := jumps.parts
      exact ⟨spells_compute registers listed named target tail,
        isLegal_compute.mpr ⟨registers, listed, named⟩⟩
  · rintro ⟨spells, legal⟩
    cases spells with
    | label symbol => exact .label symbol
    | address nonempty =>
      rcases isLegal_address.mp legal with ⟨n, numeral⟩ | symbol
      · exact .number numeral
      · exact .symbol symbol
    | compute unlabelled unaddressed divides =>
      obtain ⟨registers, listed, named⟩ := isLegal_compute.mp legal
      obtain ⟨target, tail, rfl, _, assigned, jumps⟩ := divides
      refine .compute ?_ listed ?_
      · rcases assigned with ⟨rfl, rfl, _⟩ | ⟨rfl, _⟩
        · exact .absent
        · exact .given registers (.inr rfl)
      · rcases jumps with ⟨rfl, rfl⟩ | rfl
        · exact .absent
        · exact .given (named.symm.imp_right fun still => ⟨still, rfl⟩)

private theorem mem_of_head {front back : List Char} (nonempty : front ≠ []) {c : Char}
    (head : (front ++ back).head? = some c) : c ∈ front := by
  obtain ⟨first, rest, rfl⟩ := List.exists_cons_of_ne_nil nonempty
  exact List.mem_of_mem_head? head

private theorem mem_of_last (front : List Char) {back : List Char} (nonempty : back ≠ []) {c : Char}
    (last : (front ++ back).getLast? = some c) : c ∈ back := by
  rw [← List.dropLast_concat_getLast nonempty, ← List.append_assoc, List.getLast?_concat] at last
  cases last
  exact List.getLast_mem nonempty

private theorem head_of_strict {target tail : List Char} {dest comp : String}
    (assigned : Target false target dest) (listed : comp ∈ Mnemonic.comps.map Prod.fst) :
    (target ++ comp.toList ++ tail).head? ≠ some '=' := by
  intro head
  obtain ⟨nonempty, comps⟩ := Mnemonic.parts_of_comp listed
  cases assigned with
  | absent => exact not_mem_of_parts comps (by decide) (mem_of_head nonempty head)
  | given registers named =>
    have named : dest.toList ≠ [] := by simpa using named
    rw [List.append_assoc, List.append_assoc] at head
    exact not_mem_of_parts (Mnemonic.parts_of_registers registers) (by decide)
      (mem_of_head named head)

private theorem last_of_strict {target tail : List Char} {comp jump : String}
    (listed : comp ∈ Mnemonic.comps.map Prod.fst) (jumps : Jump false tail jump) :
    (target ++ comp.toList ++ tail).getLast? ≠ some ';' := by
  intro last
  obtain ⟨nonempty, comps⟩ := Mnemonic.parts_of_comp listed
  cases jumps with
  | absent =>
    rw [List.append_nil] at last
    exact not_mem_of_parts comps (by decide) (mem_of_last _ nonempty last)
  | given named =>
    have named : jump ∈ jumpNames := by simpa using named
    have nonempty := Mnemonic.jumpNames_ne_nil jump named
    rw [← List.singleton_append, ← List.append_assoc] at last
    exact not_mem_of_parts (Mnemonic.parts_of_jump (.inr named)) (by decide)
      (mem_of_last _ nonempty last)

/-- The marks of a computation stand alone only at the ends of its text. -/
theorem phrase_strict : Phrase false text i ↔
    Phrase true text i ∧ text.head? ≠ some '=' ∧ text.getLast? ≠ some ';' := by
  constructor
  · intro phrase
    cases phrase with
    | label symbol => exact ⟨.label symbol, nofun, by simp [List.getLast?_cons]⟩
    | number numeral =>
      refine ⟨.number numeral, nofun, fun last => ?_⟩
      have digit := numeral.digit _ (mem_of_last ['@'] numeral.nonempty last)
      exact absurd digit (by decide)
    | @symbol name symbol =>
      refine ⟨.symbol symbol, nofun, fun last => ?_⟩
      obtain ⟨nonempty, fits⟩ := symbolChars_of_symbol symbol
      have symbolic := List.all_eq_true.mp fits _ (mem_of_last ['@'] nonempty last)
      exact absurd symbolic (by decide)
    | compute assigned listed jumps =>
      refine ⟨.compute ?_ listed ?_, head_of_strict assigned listed, last_of_strict listed jumps⟩
      · cases assigned with
        | absent => exact .absent
        | given registers _ => exact .given registers (.inr rfl)
      · cases jumps with
        | absent => exact .absent
        | given named => exact .given (.inl (by simpa using named))
  · rintro ⟨phrase, unassigned, unjumped⟩
    cases phrase with
    | label symbol => exact .label symbol
    | number numeral => exact .number numeral
    | symbol symbol => exact .symbol symbol
    | compute assigned listed jumps =>
      refine .compute ?_ listed ?_
      · cases assigned with
        | absent => exact .absent
        | given registers _ =>
          refine .given registers (.inl ?_)
          rintro rfl
          exact unassigned rfl
      · cases jumps with
        | absent => exact .absent
        | given named =>
          refine .given (.inl (named.resolve_right ?_))
          rintro ⟨rfl, _⟩
          exact unjumped (by simp)

/-- Why an instruction is not encoded: the part of it that the grammar does not allow. -/
inductive Refused (line : Nat) : Instruction → AssemblyError → Prop
  | comp {dest comp jump : String} (unlisted : comp ∉ Mnemonic.comps.map Prod.fst) :
    Refused line (.compute dest comp jump) (.invalidComp comp line)
  | dest {dest comp jump : String} (other : ¬ AreRegisters dest.toList) :
    Refused line (.compute dest comp jump) (.invalidDest dest line)
  | jump {dest comp jump : String} (unnamed : ¬ (jump = "" ∨ jump ∈ jumpNames)) :
    Refused line (.compute dest comp jump) (.invalidJump jump line)
  | constant {value : String} {n : Nat} (numeral : Text.Numeral n value.toList n)
    (large : Limits.address < n) :
    Refused line (.address value) (.constantOutOfRange value line)
  | symbol {value : String} (other : isSymbol value.toList = false)
    (unlike : ∀ n, ¬ Text.Numeral n value.toList n) :
    Refused line (.address value) (.invalidSymbol value line)

theorem Refused.illegal (refused : Refused line i e) : i.isLegal = false := by
  refine Bool.eq_false_iff.mpr fun legal => ?_
  cases refused with
  | comp unlisted => exact unlisted (isLegal_compute.mp legal).2.1
  | dest other => exact other (isLegal_compute.mp legal).1
  | jump unnamed => exact unnamed (isLegal_compute.mp legal).2.2
  | constant numeral large =>
    rcases isLegal_address.mp legal with ⟨m, small⟩ | symbol
    · have value := numeral.value_eq.symm.trans small.value_eq
      exact absurd small.inside (Nat.not_le_of_lt (value ▸ large))
    · have first := Text.head_of_readNat (Text.readNat_iff.mpr numeral)
      exact Bool.false_ne_true ((head_of_symbol symbol).symm.trans first)
  | symbol other unlike =>
    rcases isLegal_address.mp legal with ⟨n, numeral⟩ | symbol
    · exact unlike n { numeral with inside := Nat.le_refl n }
    · exact Bool.false_ne_true (other.symm.trans symbol)

end Instruction

namespace Assembly

open Instruction (Refused)

variable {symbols : AssemblySymbols} {value dest comp jump : String} {line : Nat}
  {e : AssemblyError}

theorem legal_of_computeWord {word : String} (computed : computeWord dest comp jump line = .ok word) :
    (Instruction.compute dest comp jump).isLegal = true := by
  unfold computeWord at computed
  split at computed
  · cases computed
  · cases computed
  · cases computed
  · next comps dests jumps =>
    rw [Instruction.isLegal, comps, dests, jumps]
    rfl

theorem refused_of_computeWord (failed : computeWord dest comp jump line = .error e) :
    Refused line (.compute dest comp jump) e := by
  have absent {α : Type} {found : Option α} (none : found = .none) : ¬ found.isSome = true := by
    simp [none]
  unfold computeWord at failed
  split at failed
  · next unlisted =>
    cases failed
    exact .comp ((not_congr Mnemonic.compBits?_isSome).mp (absent unlisted))
  · next other =>
    cases failed
    exact .dest ((not_congr Mnemonic.destBits?_isSome).mp (absent other))
  · next unnamed =>
    cases failed
    exact .jump ((not_congr Mnemonic.jumpBits?_isSome).mp (absent unnamed))
  · cases failed

theorem legal_of_addressOf {found : Nat × AssemblySymbols}
    (resolved : addressOf symbols value line = .ok found) :
    (Instruction.address value).isLegal = true := by
  unfold addressOf at resolved
  dsimp only at resolved
  split at resolved
  · split at resolved
    · split at resolved
      · next read => simp [Instruction.isLegal, read]
      · cases resolved
    · cases resolved
  · split at resolved
    · next symbol => simp [Instruction.isLegal, symbol]
    · cases resolved

/-- A value is refused for its spelling, or it is a symbol that has no cell. -/
theorem refused_of_addressOf (failed : addressOf symbols value line = .error e) :
    Refused line (.address value) e ∨
      Instruction.isSymbol value.toList = true ∧ symbols.resolve value = .error e := by
  unfold addressOf at failed
  dsimp only at failed
  split at failed
  · next first =>
    split at failed
    · next digits =>
      split at failed
      · cases failed
      · next unread =>
        cases failed
        have nonempty : value.toList ≠ [] := by
          intro none
          rw [none] at first
          cases first
        have numeral : Text.Numeral (Nat.ofDigitChars 10 value.toList 0) value.toList
            (Nat.ofDigitChars 10 value.toList 0) :=
          ⟨nonempty, List.all_eq_true.mp digits, Nat.le_refl _, rfl⟩
        refine .inl (.constant numeral (Nat.lt_of_not_le fun small => ?_))
        have read := Text.readNat_iff.mpr { numeral with inside := small }
        exact absurd (unread.symm.trans read) nofun
    · next other =>
      cases failed
      refine .inl (.symbol (Bool.eq_false_iff.mpr fun symbol => ?_) fun n numeral => ?_)
      · exact Bool.false_ne_true ((Instruction.head_of_symbol symbol).symm.trans first)
      · exact other (List.all_eq_true.mpr numeral.digit)
  · next first =>
    split at failed
    · next symbol => exact .inr ⟨symbol, failed⟩
    · next unlike =>
      cases failed
      refine .inl (.symbol (Bool.eq_false_iff.mpr unlike) fun n numeral => ?_)
      exact first (Text.head_of_readNat (Text.readNat_iff.mpr numeral))

end Assembly

end NandTools
