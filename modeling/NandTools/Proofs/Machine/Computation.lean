import Mathlib.Algebra.Group.Nat.Defs
import Mathlib.Data.List.Induction
import NandTools.Proofs.Assembly.Mnemonic
import NandTools.Proofs.Machine.Cpu

/-! What the words of instructions do when they are executed. -/
namespace NandTools

namespace Word

private theorem valueOf_append (digits : List Char) (digit : Char) :
    valueOf (digits ++ [digit]) = 2 * valueOf digits + if digit = '1' then 1 else 0 := by
  rw [valueOf, List.foldl_append]
  rfl

private theorem valueOf_lt (digits : List Char) : valueOf digits < 2 ^ digits.length := by
  induction digits using List.reverseRecOn with
  | nil => decide
  | append_singleton digits digit ih =>
    rw [valueOf_append, List.length_append, List.length_singleton, Nat.pow_succ]
    split <;> omega

/-- The bits of a value are its digits, lowest first. -/
private theorem testBit_valueOf (digits : List Char) (i : Nat) :
    (valueOf digits).testBit i = (digits.reverse[i]? == some '1') := by
  induction digits using List.reverseRecOn generalizing i with
  | nil => simp [valueOf]
  | append_singleton digits digit ih =>
    rw [valueOf_append, List.reverse_append]
    cases i with
    | zero =>
      rw [Nat.testBit_zero]
      by_cases one : digit = '1' <;> simp [one, Nat.add_mod]
    | succ i =>
      have half : (2 * valueOf digits + if digit = '1' then 1 else 0) / 2 = valueOf digits := by
        split <;> omega
      rw [Nat.testBit_succ, half, ih]
      rfl

theorem getLsbD_of_ofText {text : String} {word : Word} (read : ofText? text = some word) {i : Nat}
    (inside : i < 16) : word.getLsbD i = (text.toList.reverse[i]? == some '1') := by
  unfold ofText? at read
  dsimp only at read
  split at read
  · cases read
  · split at read
    · cases read
      rw [BitVec.getLsbD_ofNat, ← testBit_valueOf]
      simp [inside]
    · cases read

/-- Binary digits of a value that fits are a word. -/
theorem ofText_of_binary {text : String} (nonempty : text.toList ≠ [])
    (small : valueOf text.toList < 65536)
    (binary : ∀ digit ∈ text.toList, digit = '0' ∨ digit = '1') :
    ofText? text = some (.ofNat 16 (valueOf text.toList)) := by
  have digits : (text.toList.all fun digit => digit == '0' || digit == '1') = true := by
    simpa using binary
  simp [ofText?, nonempty, digits, small]

end Word

namespace Text

theorem mem_binaryDigits (n : Nat) : ∀ digit ∈ binaryDigits n, digit = '0' ∨ digit = '1' := by
  fun_induction binaryDigits n with
  | case1 n digit _ =>
    intro other member
    rw [List.mem_singleton.mp member]
    by_cases even : n % 2 = 0 <;> simp [digit, even]
  | case2 n digit _ ih =>
    intro other member
    rcases List.mem_append.mp member with front | last
    · exact ih other front
    · rw [List.mem_singleton.mp last]
      by_cases even : n % 2 = 0 <;> simp [digit, even]

theorem valueOf_binaryDigits (n : Nat) : Word.valueOf (binaryDigits n) = n := by
  fun_induction binaryDigits n with
  | case1 n digit small =>
    have cases : n = 0 ∨ n = 1 := by omega
    rcases cases with rfl | rfl <;> rfl
  | case2 n digit _ ih =>
    rw [Word.valueOf_append, ih]
    by_cases even : n % 2 = 0
    · rw [show digit = '0' from if_pos even, if_neg (by decide)]
      omega
    · rw [show digit = '1' from if_neg even, if_pos rfl]
      omega

end Text

namespace Assembly

theorem toList_addressWord (address : Nat) : (addressWord address).toList =
    List.replicate (15 - (Text.binaryDigits address).length + 1) '0' ++
      Text.binaryDigits address := by
  have digits : (Text.binary 15 address).toList =
      List.replicate (15 - (Text.binaryDigits address).length) '0' ++ Text.binaryDigits address :=
    String.toList_ofList
  rw [addressWord, String.toList_append, digits, List.replicate_succ]
  rfl

private theorem valueOf_zeros (zeros : Nat) (digits : List Char) :
    Word.valueOf (List.replicate zeros '0' ++ digits) = Word.valueOf digits := by
  induction zeros with
  | zero => rfl
  | succ zeros ih =>
    rw [List.replicate_succ]
    exact ih

/-- The word of an address is read as the address. -/
theorem ofText_addressWord {address : Nat} (bound : address < 65536) :
    Word.ofText? (addressWord address) = some (.ofNat 16 address) := by
  have value : Word.valueOf (addressWord address).toList = address := by
    rw [toList_addressWord, valueOf_zeros, Text.valueOf_binaryDigits]
  rw [Word.ofText_of_binary, value]
  · rw [toList_addressWord]
    exact List.cons_ne_nil _ _
  · rw [value]
    exact bound
  · intro digit member
    rw [toList_addressWord] at member
    rcases List.mem_append.mp member with zero | digit
    · exact .inl (List.eq_of_mem_replicate zero)
    · exact Text.mem_binaryDigits address _ digit

theorem addressWord_injective {address other : Nat} (bound : address < 65536) (bound' : other < 65536)
    (same : addressWord address = addressWord other) : address = other := by
  have read := ofText_addressWord bound
  rw [same, ofText_addressWord bound'] at read
  have values := congrArg BitVec.toNat (Option.some.inj read)
  rw [BitVec.toNat_ofNat, BitVec.toNat_ofNat, Nat.mod_eq_of_lt bound, Nat.mod_eq_of_lt bound'] at values
  exact values.symm

end Assembly

namespace Mnemonic

/-- What a computation yields from both registers and the cell that A points to. -/
def value? (a d m : Word) : String → Option Word
  | "0" => some 0
  | "1" => some 1
  | "-1" => some (-1)
  | "D" => some d
  | "A" => some a
  | "M" => some m
  | "!D" => some (~~~d)
  | "!A" => some (~~~a)
  | "!M" => some (~~~m)
  | "-D" => some (-d)
  | "-A" => some (-a)
  | "-M" => some (-m)
  | "D+1" | "1+D" => some (d + 1)
  | "A+1" | "1+A" => some (a + 1)
  | "M+1" | "1+M" => some (m + 1)
  | "D-1" => some (d - 1)
  | "A-1" => some (a - 1)
  | "M-1" => some (m - 1)
  | "D+A" | "A+D" => some (d + a)
  | "D+M" | "M+D" => some (d + m)
  | "D-A" => some (d - a)
  | "D-M" => some (d - m)
  | "A-D" => some (a - d)
  | "M-D" => some (m - d)
  | "D&A" | "A&D" => some (d &&& a)
  | "D&M" | "M&D" => some (d &&& m)
  | "D|A" | "A|D" => some (d ||| a)
  | "D|M" | "M|D" => some (d ||| m)
  | _ => none

/-- The result under control bits that are written out. -/
private def controlled (bits : List Char) (a d m : Word) : Word :=
  let on (k : Nat) : Bool := bits[k]? == some '1'
  let x := if on 1 then 0 else d
  let x := if on 2 then ~~~x else x
  let y := if on 3 then 0 else if on 0 then m else a
  let y := if on 4 then ~~~y else y
  let out := if on 5 then x + y else x &&& y
  if on 6 then ~~~out else out

private theorem result_eq_controlled {bits : List Char} {word : Word}
    (bit : ∀ k < 7, word.getLsbD (12 - k) = (bits[k]? == some '1')) (a d m : Word) :
    Machine.result word d (if word.getLsbD 12 then m else a) = controlled bits a d m := by
  have b0 : word.getLsbD 12 = _ := bit 0 (by decide)
  have b1 : word.getLsbD 11 = _ := bit 1 (by decide)
  have b2 : word.getLsbD 10 = _ := bit 2 (by decide)
  have b3 : word.getLsbD 9 = _ := bit 3 (by decide)
  have b4 : word.getLsbD 8 = _ := bit 4 (by decide)
  have b5 : word.getLsbD 7 = _ := bit 5 (by decide)
  have b6 : word.getLsbD 6 = _ := bit 6 (by decide)
  rw [Machine.result, b0, b1, b2, b3, b4, b5, b6]
  rfl

/-- Every computation of the table yields what its name says. -/
private theorem value_of_comps (a d m : Word) {comp bits : String} (listed : (comp, bits) ∈ comps) :
    value? a d m comp = some (controlled bits.toList a d m) := by
  have ones : (65535#16 : Word) = -1 := rfl
  have complement (x : Word) : ~~~x = -x - 1 := by
    rw [BitVec.neg_eq_not_add]
    exact (BitVec.add_sub_cancel _ _).symm
  have andOnes (x : Word) : x &&& 65535#16 = x := BitVec.and_allOnes
  have onesAnd (x : Word) : 65535#16 &&& x = x := BitVec.allOnes_and
  have union (x y : Word) : ~~~(~~~x &&& ~~~y) = x ||| y := by
    rw [BitVec.not_and, BitVec.not_not, BitVec.not_not]
  simp only [comps, List.mem_cons, Prod.mk.injEq, List.not_mem_nil, or_false] at listed
  repeat' rcases listed with ⟨rfl, rfl⟩ | listed
  all_goals subst_vars
  all_goals simp [value?, controlled, andOnes, onesAnd, union]
  all_goals
    simp only [complement, ones]
    bv_omega

/-- Whether a jump is made after a result, which is taken as a signed number. -/
def taken (jump : String) (out : Word) : Bool :=
  match jump with
  | "JGT" => 0 < out.toInt
  | "JEQ" => out.toInt = 0
  | "JGE" => 0 ≤ out.toInt
  | "JLT" => out.toInt < 0
  | "JNE" => out.toInt ≠ 0
  | "JLE" => out.toInt ≤ 0
  | "JMP" => true
  | _ => false

theorem leaps_of_jumps {jump bits : String} (listed : (jump, bits) ∈ jumps) {word : Word}
    (bit : ∀ k < 3, word.getLsbD (2 - k) = (bits.toList[k]? == some '1')) (out : Word) :
    Machine.leaps word out = taken jump out := by
  have b0 : word.getLsbD 2 = _ := bit 0 (by decide)
  have b1 : word.getLsbD 1 = _ := bit 1 (by decide)
  have b2 : word.getLsbD 0 = _ := bit 2 (by decide)
  have zero : (out == 0) = decide (out.toInt = 0) := by
    rw [Bool.eq_iff_iff, beq_iff_eq, decide_eq_true_eq, ← BitVec.toInt_inj]
    rfl
  rw [Machine.leaps, bne, zero, BitVec.msb_eq_toInt, b0, b1, b2, Bool.eq_iff_iff]
  simp only [jumps, List.mem_cons, Prod.mk.injEq, List.not_mem_nil, or_false] at listed
  repeat' rcases listed with ⟨rfl, rfl⟩ | listed
  all_goals subst_vars
  all_goals simp [taken]
  all_goals omega

end Mnemonic

namespace Machine

/-- Store a result where it belongs, and go on or jump. -/
def settle (m : Machine) (dest : Mnemonic.Dest) (out : Word) (jumps : Bool) : Machine where
  ram := if dest.m then Function.update m.ram m.a out else m.ram
  a := if dest.a then out else m.a
  d := if dest.d then out else m.d
  pc := if jumps then m.a.toNat else m.pc + 1

end Machine

namespace Assembly

/-- An address word loads its address. -/
theorem execute_addressWord {address : Nat} (bound : address ≤ Limits.address) :
    ∃ word, Word.ofText? (addressWord address) = some word ∧
      ∀ m : Machine, m.execute? word = some { m with a := .ofNat 16 address, pc := m.pc + 1 } := by
  refine ⟨_, ofText_addressWord (Nat.lt_of_le_of_lt bound (by decide)), fun m => ?_⟩
  have plain : (BitVec.ofNat 16 address).getLsbD 15 = false := by
    have small : address < 2 ^ 15 := Nat.lt_succ_of_le bound
    rw [BitVec.getLsbD_ofNat, Nat.testBit_lt_two_pow small]
    rfl
  rw [Machine.execute?, plain]
  rfl

private theorem eq_of_computeWord {dest comp jump text : String} {line : Nat}
    (encoded : computeWord dest comp jump line = .ok text) :
    ∃ compBits target jumpBits, (comp, compBits) ∈ Mnemonic.comps ∧
      Mnemonic.Dest.ofList? dest.toList = some target ∧ (jump, jumpBits) ∈ Mnemonic.jumps ∧
      text.toList =
        ['1', '1', '1'] ++ (compBits.toList ++ (target.bits.toList ++ jumpBits.toList)) := by
  unfold computeWord at encoded
  split at encoded
  · cases encoded
  · cases encoded
  · cases encoded
  · next compBits destBits jumpBits comps dests jumps =>
    cases encoded
    obtain ⟨target, parsed, rfl⟩ := Option.map_eq_some_iff.mp dests
    refine ⟨compBits, target, jumpBits, Mnemonic.mem_of_lookup comps, parsed,
      Mnemonic.mem_of_lookup jumps, ?_⟩
    simp [String.toList_append]

/-- The bits of a word stand in its text, highest first. -/
private theorem getLsbD_of_text {text : String} {word : Word}
    (read : Word.ofText? text = some word) (length : text.toList.length = 16) {k : Nat}
    (inside : k < 16) : word.getLsbD (15 - k) = (text.toList[k]? == some '1') := by
  rw [Word.getLsbD_of_ofText read (by omega), List.getElem?_reverse (by omega), length]
  congr 3
  omega

private theorem getLsbD_of_part {text : String} {word : Word} {front part back : List Char}
    (read : Word.ofText? text = some word) (length : text.toList.length = 16)
    (parts : text.toList = front ++ (part ++ back)) {i k : Nat} (inside : k < part.length)
    (place : front.length + k + i = 15) : word.getLsbD i = (part[k]? == some '1') := by
  obtain rfl : i = 15 - (front.length + k) := by omega
  rw [getLsbD_of_text read length (by omega), parts, List.getElem?_append_right (by omega),
    List.getElem?_append_left (by omega), Nat.add_sub_cancel_left]

/-- The bits of a computing word are those of its mnemonics, after three that are set. -/
private theorem bits_of_computeWord {dest comp jump text : String} {line : Nat}
    (encoded : computeWord dest comp jump line = .ok text) :
    ∃ compBits target jumpBits word, (comp, compBits) ∈ Mnemonic.comps ∧
      Mnemonic.Dest.ofList? dest.toList = some target ∧ (jump, jumpBits) ∈ Mnemonic.jumps ∧
        Word.ofText? text = some word ∧ word.getLsbD 15 = true ∧
          (∀ k < 7, word.getLsbD (12 - k) = (compBits.toList[k]? == some '1')) ∧
          (∀ k < 3, word.getLsbD (5 - k) = (target.bits.toList[k]? == some '1')) ∧
            ∀ k < 3, word.getLsbD (2 - k) = (jumpBits.toList[k]? == some '1') := by
  obtain ⟨compBits, target, jumpBits, comps, parsed, jumps, digits⟩ := eq_of_computeWord encoded
  obtain ⟨compLength, compBinary⟩ := Mnemonic.binary_of_comps comps
  obtain ⟨jumpLength, jumpBinary⟩ := Mnemonic.binary_of_jumps jumps
  have targetLength : target.bits.toList.length = 3 := by
    rw [Mnemonic.Dest.toList_bits]
    rfl
  have length : text.toList.length = 16 := by
    rw [digits]
    simp [compLength, targetLength, jumpLength]
  have binary : ∀ digit ∈ text.toList, digit = '0' ∨ digit = '1' := by
    intro digit member
    rw [digits, List.mem_append, List.mem_append, List.mem_append] at member
    rcases member with ones | comp | bits | jump
    · simp only [List.mem_cons, List.not_mem_nil, or_false, or_self] at ones
      exact .inr ones
    · exact compBinary digit comp
    · exact target.binary_bits digit bits
    · exact jumpBinary digit jump
  have small : Word.valueOf text.toList < 65536 := by
    have bound := Word.valueOf_lt text.toList
    rwa [length] at bound
  have read := Word.ofText_of_binary (by rw [← List.length_pos_iff]; omega) small binary
  refine ⟨compBits, target, jumpBits, _, comps, parsed, jumps, read, ?_, ?_, ?_, ?_⟩
  · rw [getLsbD_of_text read length (k := 0) (by decide), digits]
    rfl
  · intro k small
    have before : ['1', '1', '1'].length = 3 := rfl
    exact getLsbD_of_part read length digits (by omega) (by omega)
  · intro k small
    rw [← List.append_assoc] at digits
    have before : (['1', '1', '1'] ++ compBits.toList).length = 10 := by
      rw [List.length_append, compLength]
      rfl
    exact getLsbD_of_part read length digits (by omega) (by omega)
  · intro k small
    rw [← List.append_assoc, ← List.append_assoc, ← List.append_nil jumpBits.toList] at digits
    have before : (['1', '1', '1'] ++ compBits.toList ++ target.bits.toList).length = 13 := by
      rw [List.length_append, List.length_append, compLength, targetLength]
      rfl
    exact getLsbD_of_part read length digits (by omega) (by omega)

/-- A computing word computes what its mnemonics say. -/
theorem execute_computeWord {dest comp jump text : String} {line : Nat}
    (encoded : computeWord dest comp jump line = .ok text) :
    ∃ word target, Word.ofText? text = some word ∧ Mnemonic.Dest.ofList? dest.toList = some target ∧
      ∀ m : Machine, m.a.toNat < Machine.cells →
        ∃ out, Mnemonic.value? m.a m.d (m.ram m.a) comp = some out ∧
          m.execute? word = some (m.settle target out (Mnemonic.taken jump out)) := by
  obtain ⟨compBits, target, jumpBits, word, comps, parsed, jumps, read, compute, compBit, targetBit,
    jumpBit⟩ := bits_of_computeWord encoded
  have toA : word.getLsbD 5 = target.a := by
    rw [targetBit 0 (by decide), Mnemonic.Dest.toList_bits]
    cases target.a <;> rfl
  have toD : word.getLsbD 4 = target.d := by
    rw [targetBit 1 (by decide), Mnemonic.Dest.toList_bits]
    cases target.d <;> rfl
  have toM : word.getLsbD 3 = target.m := by
    rw [targetBit 2 (by decide), Mnemonic.Dest.toList_bits]
    cases target.m <;> rfl
  refine ⟨word, target, read, parsed, fun m inside => ?_⟩
  refine ⟨_, Mnemonic.value_of_comps m.a m.d (m.ram m.a) comps, ?_⟩
  have outside : ¬ Machine.cells ≤ m.a.toNat := Nat.not_le_of_lt inside
  rw [Machine.execute?, compute, Mnemonic.result_eq_controlled compBit, toA, toD, toM]
  simp [outside, Machine.settle, Mnemonic.leaps_of_jumps jumps jumpBit]

end Assembly

end NandTools
