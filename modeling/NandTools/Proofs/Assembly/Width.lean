import Mathlib.Data.List.Forall2
import Mathlib.Data.Nat.Digits.Defs
import Mathlib.Data.String.Basic
import NandTools.Proofs.Assembly.Addresses
import NandTools.Proofs.Assembly.Reading
import NandTools.Proofs.Machine.Computation

/-! How wide the words of assembled programs are. An address is written with fifteen digits after
its opcode; only the place after a program that fills the memory needs one more. -/
namespace NandTools

namespace Instruction

/-- What the word of an instruction begins with. -/
def opcode : Instruction → List Char
  | compute .. => ['1', '1', '1']
  | _ => ['0']

/-- Whether an instruction refers to a label that is declared after a program that fills the
memory. -/
def reachesPast (code : List Instruction) (i : Instruction) : Bool :=
  i.symbol?.bind (place? code) == some Limits.romWords

/-- The word of an instruction: bits that begin with its opcode. -/
structure WrittenAs (i : Instruction) (width : Nat) (word : String) : Prop where
  binary : ∀ digit ∈ word.toList, digit = '0' ∨ digit = '1'
  opcode : i.opcode <+: word.toList
  length : word.length = width

theorem place?_le (code : List Instruction) (name : String) :
    ∀ place ∈ place? code name, place ≤ size code := by
  intro place found
  obtain ⟨_, same⟩ := Option.ite_none_right_eq_some.mp found
  rw [← Option.some.inj same]
  exact ((List.takeWhile_prefix _).sublist.filter _).length_le

/-- Only a program that fills the memory can reach past it. -/
theorem reachesPast_eq_false {code : List Instruction} (short : size code < Limits.romWords)
    (i : Instruction) : reachesPast code i = false := by
  refine beq_eq_false_iff_ne.mpr fun past => ?_
  obtain ⟨name, _, found⟩ := Option.bind_eq_some_iff.mp past
  exact absurd (place?_le code name _ found) (Nat.not_le_of_lt short)

theorem reachesPast_encoded (code : List Instruction) :
    ((encoded code).countP (reachesPast code)) = code.countP (reachesPast code) := by
  rw [encoded, List.countP_filter]
  refine List.countP_congr fun i _ => ?_
  cases i with
  | label name => simp [isLabel, reachesPast, symbol?]
  | address value => simp [isLabel]
  | compute dest comp jump => simp [isLabel]

end Instruction

namespace Assembly

open Instruction (opcode reachesPast WrittenAs)

theorem length_binaryDigits {n : Nat} (small : n ≤ Limits.address) :
    (Text.binaryDigits n).length ≤ 15 := by
  rw [Text.binaryDigits_eq_toDigits]
  exact Nat.toDigits_length 2 n 15 (by decide) (Nat.lt_of_le_of_lt small (by decide))

theorem writtenAs_addressWord (value : String) {address : Nat} (inside : address ≤ Limits.romWords) :
    WrittenAs (.address value) (if address = Limits.romWords then 17 else 16)
      (addressWord address) := by
  have digits := toList_addressWord address
  refine ⟨?_, ?_, ?_⟩
  · intro digit member
    rw [digits] at member
    rcases List.mem_append.mp member with zero | bit
    · exact .inl (List.eq_of_mem_replicate zero)
    · exact Text.mem_binaryDigits address digit bit
  · rw [digits, List.replicate_succ]
    exact ⟨_, rfl⟩
  · rw [← String.length_toList, digits, List.length_append, List.length_replicate]
    by_cases full : address = Limits.romWords
    · subst full
      decide +kernel
    · have small := length_binaryDigits (Nat.le_of_lt_succ (Nat.lt_of_le_of_ne inside full))
      rw [if_neg full]
      omega

theorem writtenAs_computeWord {dest comp jump word : String}
    (computed : computeWord dest comp jump 0 = .ok word) :
    WrittenAs (.compute dest comp jump) 16 word := by
  unfold computeWord at computed
  split at computed
  · cases computed
  · cases computed
  · cases computed
  · next compBits destBits jumpBits comps dests jumps =>
    cases computed
    obtain ⟨target, _, rfl⟩ := Option.map_eq_some_iff.mp dests
    obtain ⟨seven, compBinary⟩ := Mnemonic.binary_of_comps (Mnemonic.mem_of_lookup comps)
    obtain ⟨three, jumpBinary⟩ := Mnemonic.binary_of_jumps (Mnemonic.mem_of_lookup jumps)
    have chars : ("111" ++ compBits ++ target.bits ++ jumpBits).toList =
        ['1', '1', '1'] ++ (compBits.toList ++ (target.bits.toList ++ jumpBits.toList)) := by
      simp [List.append_assoc]
    refine ⟨?_, ?_, ?_⟩
    · intro digit member
      rw [chars] at member
      simp only [List.mem_append] at member
      rcases member with one | comp | dest | jump
      · exact .inr (by simpa using one)
      · exact compBinary digit comp
      · exact target.binary_bits digit dest
      · exact jumpBinary digit jump
    · exact ⟨_, chars.symm⟩
    · rw [← String.length_toList, chars]
      simp [seven, three, Mnemonic.Dest.toList_bits]

/-- A binary digit takes one byte. -/
theorem utf8ByteSize_of_binary {word : String}
    (binary : ∀ digit ∈ word.toList, digit = '0' ∨ digit = '1') :
    word.utf8ByteSize = word.length := by
  rw [← String.utf8Len_toList, ← String.length_toList]
  generalize word.toList = digits at binary
  induction digits with
  | nil => rfl
  | cons digit digits ih =>
    rw [String.utf8Len_cons, ih fun other member => binary other (List.mem_cons_of_mem _ member)]
    rcases binary digit List.mem_cons_self with rfl | rfl <;> rfl

theorem utf8ByteSize_text (assembly : Assembly) : assembly.text.utf8ByteSize =
    (assembly.words.toList.map fun word => word.utf8ByteSize + 1).sum := by
  have grown (out : String) (words : List String) :
      (words.foldl (fun out word => out ++ word ++ "\n") out).utf8ByteSize =
        out.utf8ByteSize + (words.map fun word => word.utf8ByteSize + 1).sum := by
    induction words generalizing out with
    | nil => rfl
    | cons word words ih =>
      rw [List.foldl_cons, ih, List.map_cons, List.sum_cons, String.utf8ByteSize_append,
        String.utf8ByteSize_append, show "\n".utf8ByteSize = 1 from rfl]
      omega
  rw [text, ← Array.foldl_toList, grown]
  exact Nat.zero_add _

section Program

variable {source : List Char} {program : Program} {assembly : Assembly} {symbols : AssemblySymbols}
  (assembled : assemble .initial source = (.ok assembly, symbols))
  (parsed : Instruction.parseProgram source = .ok program)
include assembled parsed

/-- Only a label after a full program stands for an address that does not fit. -/
theorem reachesPast_iff {value : String} {address : Nat}
    (meant : symbols.valueOf? value = some address) :
    reachesPast (program.map Prod.snd) (.address value) = true ↔ address = Limits.romWords := by
  rw [reachesPast, beq_iff_eq, Instruction.symbol?]
  unfold AssemblySymbols.valueOf? at meant
  split
  · next numeral =>
    rw [if_pos numeral] at meant
    have small := Text.le_of_readNat meant
    constructor
    · intro same
      cases same
    · rintro rfl
      exact absurd small (by decide)
  · next symbol =>
    rw [if_neg symbol] at meant
    rw [Option.bind_some]
    constructor
    · intro place
      have declared := (Option.ite_none_right_eq_some.mp place).1
      rw [← get?_of_declared assembled parsed declared, meant] at place
      exact Option.some.inj place
    · rintro rfl
      obtain ⟨binding, found, last⟩ := Option.map_eq_some_iff.mp meant
      have reaches := reaches_of_assemble assembled value binding found
      rcases (encodes_of_assemble parsed assembled).origin found with
        first | ⟨declared, _⟩ | ⟨cell, rfl⟩
      · obtain ⟨known, rfl, listed⟩ := AssemblySymbols.predefined_of_bindings first
        exact absurd (AssemblySymbols.predefined_le listed) (by rw [show known = _ from last]; decide)
      · rw [← get?_of_declared assembled parsed declared, meant]
      · rw [show cell = _ from last] at reaches
        exact absurd reaches.2 (by decide)

theorem writtenAs_of_wordOf? {i : Instruction} {word : String}
    (encoded : wordOf? symbols i = some word) :
    WrittenAs i (if reachesPast (program.map Prod.snd) i then 17 else 16) word := by
  cases i with
  | label name => cases encoded
  | compute dest comp jump => exact writtenAs_computeWord (Except.ok_of_toOption encoded)
  | address value =>
    obtain ⟨address, meant, rfl⟩ := Option.map_eq_some_iff.mp encoded
    have inside : address ≤ Limits.romWords :=
      AssemblySymbols.valueOf?_le (by decide) (encodes_of_assemble parsed assembled).reach meant
    have written := writtenAs_addressWord value inside
    simpa only [reachesPast_iff assembled parsed meant] using written

end Program

/-- A program that refers to the label at its end. -/
def ending (jumps : Nat) : List Instruction :=
  .address "END" :: (List.replicate jumps (.compute "" "0" "JMP") ++ [.label "END"])

section Ending

variable (jumps : Nat)

private theorem forall_ending {P : Instruction → Prop} (first : P (.address "END"))
    (jump : P (.compute "" "0" "JMP")) (last : P (.label "END")) : ∀ i ∈ ending jumps, P i := by
  intro i member
  simp only [ending, List.mem_cons, List.mem_append, List.mem_replicate,
    List.not_mem_nil, or_false] at member
  rcases member with rfl | ⟨_, rfl⟩ | rfl
  · exact first
  · exact jump
  · exact last

private theorem filterMap_ending {f : Instruction → Option String}
    (jump : f (.compute "" "0" "JMP") = none) : (ending jumps).filterMap f =
      (f (.address "END")).toList ++ (f (.label "END")).toList := by
  rw [ending, List.filterMap_cons, List.filterMap_append, List.filterMap_replicate_of_none jump]
  cases f (.address "END") <;> cases found : f (.label "END") <;> simp [found]

private theorem countP_ending {p : Instruction → Bool} (first : p (.address "END") = true)
    (jump : p (.compute "" "0" "JMP") = false) (last : p (.label "END") = false) :
    (ending jumps).countP p = 1 := by
  simp [ending, List.countP_replicate, first, jump, last]

private theorem size_ending : Instruction.size (ending jumps) = jumps + 1 := by
  simp [ending, Instruction.size, Instruction.encoded, Instruction.isLabel]

theorem place?_ending : Instruction.place? (ending jumps) "END" = some (jumps + 1) := by
  have declared : .label "END" ∈ ending jumps := by simp [ending]
  have before : (ending jumps).takeWhile (· != .label "END") =
      .address "END" :: List.replicate jumps (.compute "" "0" "JMP") := by
    rw [ending, List.takeWhile_cons_of_pos (by decide), List.takeWhile_append_of_pos]
    · simp
    · intro i member
      rw [List.eq_of_mem_replicate member]
      rfl
  rw [Instruction.place?, if_pos declared, before, Instruction.size, Instruction.encoded]
  simp [Instruction.isLabel]

private theorem reachesPast_ending (full : jumps + 1 = Limits.romWords) :
    reachesPast (ending jumps) (.address "END") = true := by
  rw [reachesPast, beq_iff_eq, Instruction.symbol?_of_symbol (by decide), Option.bind_some,
    place?_ending, full]

theorem ending_assembled (inside : jumps < Limits.romWords) : ∃ program assembly symbols,
    Instruction.parseProgram (CodeWriter.textOf ((ending jumps).map .instruction)).toList =
        .ok program ∧
      program.map Prod.snd = ending jumps ∧
        assemble .initial (CodeWriter.textOf ((ending jumps).map .instruction)).toList =
          (.ok assembly, symbols) := by
  have printable : ∀ line ∈ (ending jumps).map AssemblyLine.instruction,
      line.isPrintable = true := by
    rw [List.forall_mem_map]
    exact forall_ending jumps (by decide) (by decide) (by decide)
  obtain ⟨program, parsed, code⟩ := Instruction.parseProgram_textOf printable
  have same : program.map Prod.snd = ending jumps := by
    rw [code, List.filterMap_map]
    exact List.filterMap_some
  have legal := forall_ending jumps (P := fun i => i.isLegal = true) rfl (by decide +kernel) rfl
  have new (name : String) (declared : .label name ∈ ending jumps) :
      AssemblySymbols.initial.bindings[name]? = none := by
    obtain rfl : name = "END" := by simpa [ending] using declared
    exact AssemblySymbols.bindings_of_not_predefined (by decide +kernel)
  have distinct : ((ending jumps).filterMap Instruction.declared?).Nodup := by
    rw [filterMap_ending jumps rfl]
    decide
  have few : ((ending jumps).filterMap Instruction.symbol?).length ≤
      Limits.screen - Limits.variableBase := by
    rw [filterMap_ending jumps rfl]
    decide
  have short := (size_ending jumps).trans_le inside
  rw [← same] at legal new distinct few short
  obtain ⟨assembly, symbols, assembled⟩ := assemble_of_room parsed legal new distinct short few
  exact ⟨program, assembly, symbols, parsed, same, assembled⟩

end Ending

section Widths

variable {past : Instruction → Bool} {code : List Instruction} {words : List String}
  (written : List.Forall₂ (fun i word => WrittenAs i (if past i then 17 else 16) word) code words)
include written

private theorem sixteen_iff :
    (∀ word ∈ words, word.length = 16) ↔ ∀ i ∈ code, past i = false := by
  induction written with
  | nil => exact iff_of_true nofun nofun
  | cons first _ ih =>
    rw [List.forall_mem_cons, List.forall_mem_cons, ih, first.length]
    simp

private theorem bytes_of_written : (words.map fun word => word.utf8ByteSize + 1).sum =
    17 * words.length + code.countP past := by
  induction written with
  | nil => rfl
  | @cons i word _ _ first _ ih =>
    rw [List.map_cons, List.sum_cons, ih, utf8ByteSize_of_binary first.binary, first.length,
      List.length_cons, List.countP_cons]
    cases past i <;> simp <;> omega

end Widths

/-- The words of an assembled program in the order of its instructions. Each has sixteen digits but
for those that reach past a full program, which have seventeen. -/
theorem words_of_sixteen_iff {source : List Char} {assembly : Assembly} {symbols : AssemblySymbols}
    (assembled : assemble .initial source = (.ok assembly, symbols)) :
    ∃ code, Instruction.read? source = some code ∧
      assembly.words.size ≤ Limits.romWords ∧
      List.Forall₂ (fun i word => WrittenAs i (if reachesPast code i then 17 else 16) word)
        (Instruction.encoded code) assembly.words.toList ∧
      (assembly.words.size < Limits.romWords → ∀ i ∈ code, reachesPast code i = false) ∧
      ((∀ word ∈ assembly.words.toList, word.length = 16) ↔ ∀ i ∈ code, reachesPast code i = false) ∧
      assembly.text.utf8ByteSize = 17 * assembly.words.size + code.countP (reachesPast code) := by
  obtain ⟨program, _, parsed, _⟩ := passes_of_assemble assembled
  have encodes := encodes_of_assemble parsed assembled
  have inside := size_of_assemble assembled parsed
  have spelled (i : Instruction) (word : String) (encoded : wordOf? symbols i = some word) :=
    writtenAs_of_wordOf? assembled parsed encoded
  refine ⟨program.map Prod.snd, Instruction.read?_of_parseProgram parsed, ?_⟩
  generalize program.map Prod.snd = code at encodes inside spelled
  have size : assembly.words.size = Instruction.size code := by
    simpa [Instruction.size] using (congrArg List.length encodes.words).symm
  have words : List.Forall₂ (fun i word => wordOf? symbols i = some word)
      (Instruction.encoded code) assembly.words.toList := by
    have same := List.forall₂_eq_eq_eq ▸ encodes.words
    rwa [List.forall₂_map_left_iff, List.forall₂_map_right_iff] at same
  have written := words.imp spelled
  refine ⟨size ▸ inside, written, fun short i _ => ?_, ?_, ?_⟩
  · exact Instruction.reachesPast_eq_false (size ▸ short) i
  · have none (some : List Instruction) : (∀ i ∈ some, reachesPast code i = false) ↔
        some.countP (reachesPast code) = 0 := by
      simp
    rw [sixteen_iff written, none, none, Instruction.reachesPast_encoded]
  · rw [utf8ByteSize_text, bytes_of_written written, Array.length_toList,
      Instruction.reachesPast_encoded]

theorem words_of_full_program : ∃ assembly symbols,
    assemble .initial
        (CodeWriter.textOf ((ending (Limits.romWords - 1)).map .instruction)).toList =
      (.ok assembly, symbols) ∧
    assembly.words.size = Limits.romWords ∧ ¬ (∀ word ∈ assembly.words.toList, word.length = 16) ∧
      assembly.text.utf8ByteSize = 17 * Limits.romWords + 1 := by
  obtain ⟨program, assembly, symbols, parsed, same, assembled⟩ :=
    ending_assembled (Limits.romWords - 1) (by decide)
  obtain ⟨code, read, _, written, _, sixteen, bytes⟩ := words_of_sixteen_iff assembled
  obtain rfl : program.map Prod.snd = code :=
    Option.some.inj ((Instruction.read?_of_parseProgram parsed).symm.trans read)
  rw [same] at written sixteen bytes
  have size : assembly.words.size = Limits.romWords := by
    rw [← Array.length_toList, ← written.length_eq]
    exact size_ending _
  have past := reachesPast_ending (Limits.romWords - 1) rfl
  refine ⟨assembly, symbols, assembled, size, fun all => ?_, ?_⟩
  · have none := sixteen.mp all _ List.mem_cons_self
    rw [past] at none
    cases none
  · rw [bytes, size, countP_ending _ past rfl rfl]

/-- The word of a label past a full program has a digit too many. -/
theorem word_of_seventeen : ∃ assembly symbols,
    assemble .initial
        (CodeWriter.textOf ((ending (Limits.romWords - 1)).map .instruction)).toList =
      (.ok assembly, symbols) ∧
    "01000000000000000" ∈ assembly.words.toList ∧ "01000000000000000".length = 17 := by
  obtain ⟨program, assembly, symbols, parsed, same, assembled⟩ :=
    ending_assembled (Limits.romWords - 1) (by decide)
  refine ⟨assembly, symbols, assembled, ?_, by decide⟩
  have declared : .label "END" ∈ program.map Prod.snd := by simp [same, ending]
  have first : .address "END" ∈ Instruction.encoded (program.map Prod.snd) := by
    simp [same, ending, Instruction.encoded, Instruction.isLabel]
  have meant : wordOf? symbols (.address "END") = some "01000000000000000" := by
    have reached := get?_of_declared assembled parsed declared
    rw [same, place?_ending] at reached
    rw [wordOf?, AssemblySymbols.valueOf?_of_symbol (by decide), reached]
    decide +kernel
  have written := List.mem_map_of_mem (f := wordOf? symbols) first
  rw [(encodes_of_assemble parsed assembled).words, meant] at written
  exact (List.mem_map_of_injective (Option.some_injective _)).mp written

end Assembly

end NandTools
