import NandTools.Text.Binary
import NandTools.Text.Numeral

/-! Numerals are read back as the numbers they are written for, and have the standard digits. -/
namespace NandTools.Text

private theorem le_ofDigitChars (digits : List Char) (value : Nat) :
    value ≤ Nat.ofDigitChars 10 digits value := by
  induction digits generalizing value with
  | nil => exact Nat.le_of_eq Nat.ofDigitChars_nil.symm
  | cons digit rest ih =>
    rw [Nat.ofDigitChars_cons]
    refine Nat.le_trans ?_ (ih _)
    omega

private theorem foldlM_appendDigit {bound : Nat} {digits : List Char} {value : Nat}
    (numeral : ∀ digit ∈ digits, digit.isDigit = true)
    (small : Nat.ofDigitChars 10 digits value ≤ bound) :
    digits.foldlM (appendDigit bound) value = some (Nat.ofDigitChars 10 digits value) := by
  induction digits generalizing value with
  | nil =>
    rw [Nat.ofDigitChars_nil]
    rfl
  | cons digit rest ih =>
    rw [Nat.ofDigitChars_cons] at small ⊢
    have next : 10 * value + digitValue digit ≤ bound :=
      Nat.le_trans (le_ofDigitChars rest _) small
    have appended : appendDigit bound value digit = some (10 * value + digitValue digit) := by
      simp [appendDigit, numeral digit List.mem_cons_self, next]
    rw [List.foldlM_cons, appended]
    exact ih (fun other member => numeral other (List.mem_cons_of_mem digit member)) small

theorem toList_toString (n : Nat) : (toString n).toList = Nat.toDigits 10 n := Nat.toList_repr

theorem isDigit_of_toString {n : Nat} : ∀ digit ∈ (toString n).toList, digit.isDigit = true := by
  intro digit member
  rw [toList_toString] at member
  exact Nat.isDigit_of_mem_toDigits (by decide) (by decide) member

theorem not_mem_toString (mark : Char) (other : mark.isDigit = false) (n : Nat) :
    mark ∉ (toString n).toList := by
  intro member
  rw [isDigit_of_toString mark member] at other
  cases other

theorem toString_injective {m n : Nat} (same : (toString m).toList = (toString n).toList) :
    m = n := by
  rw [toList_toString, toList_toString] at same
  have values := congrArg (Nat.ofDigitChars 10 · 0) same
  rwa [Nat.ofDigitChars_ten_toDigits, Nat.ofDigitChars_ten_toDigits] at values

theorem toString_ne_nil (n : Nat) : (toString n).toList ≠ [] := by
  rw [toList_toString]
  exact Nat.toDigits_ne_nil

/-- Digits are read unless their value is beyond the bound. -/
theorem readNat_of_isDigit {bound : Nat} {digits : List Char} (nonempty : digits ≠ [])
    (numeral : ∀ digit ∈ digits, digit.isDigit = true)
    (small : Nat.ofDigitChars 10 digits 0 ≤ bound) :
    readNat bound digits = some (Nat.ofDigitChars 10 digits 0) := by
  rw [readNat]
  · exact foldlM_appendDigit numeral small
  · exact nonempty

theorem readNat_toString {bound n : Nat} (small : n ≤ bound) :
    readNat bound (toString n).toList = some n := by
  have value : Nat.ofDigitChars 10 (toString n).toList 0 = n := by
    rw [toList_toString, Nat.ofDigitChars_ten_toDigits]
  have read := readNat_of_isDigit (toString_ne_nil n) isDigit_of_toString
    (Nat.le_trans (Nat.le_of_eq value) small)
  rwa [value] at read

private theorem le_of_appendDigit {bound value next : Nat} {digit : Char}
    (appended : appendDigit bound value digit = some next) : next ≤ bound := by
  simp only [appendDigit, Option.ite_none_right_eq_some, Bool.and_eq_true, decide_eq_true_eq,
    Option.some.injEq] at appended
  omega

theorem le_of_readNat {bound n : Nat} {digits : List Char} (read : readNat bound digits = some n) :
    n ≤ bound := by
  have kept (value : Nat) (inside : value ≤ bound)
      (rest : digits.foldlM (appendDigit bound) value = some n) : n ≤ bound := by
    clear read
    induction digits generalizing value with
    | nil =>
      cases rest
      exact inside
    | cons digit digits ih =>
      obtain ⟨next, appended, rest⟩ := Option.bind_eq_some_iff.mp rest
      exact ih next (le_of_appendDigit appended) rest
  cases digits with
  | nil => cases read
  | cons digit digits => exact kept 0 (Nat.zero_le bound) read

/-- What is read is the value of the digits. -/
theorem eq_of_readNat {bound n : Nat} {digits : List Char} (read : readNat bound digits = some n) :
    n = Nat.ofDigitChars 10 digits 0 := by
  have value (start : Nat) (rest : digits.foldlM (appendDigit bound) start = some n) :
      n = Nat.ofDigitChars 10 digits start := by
    clear read
    induction digits generalizing start with
    | nil =>
      cases rest
      exact Nat.ofDigitChars_nil.symm
    | cons digit digits ih =>
      obtain ⟨next, appended, rest⟩ := Option.bind_eq_some_iff.mp rest
      obtain ⟨_, grown⟩ := Option.ite_none_right_eq_some.mp appended
      rw [Nat.ofDigitChars_cons, ih next rest, ← Option.some.inj grown]
      rfl
  cases digits with
  | nil => cases read
  | cons digit digits => exact value 0 read

theorem readNat_toString_of_lt {bound n : Nat} (large : bound < n) :
    readNat bound (toString n).toList = none := by
  refine Option.eq_none_iff_forall_not_mem.mpr fun value read => ?_
  have same := eq_of_readNat read
  rw [toList_toString, Nat.ofDigitChars_ten_toDigits] at same
  exact absurd (le_of_readNat read) (Nat.not_le_of_lt (same ▸ large))

/-- Only runs of digits are read. -/
theorem isDigit_of_readNat {bound n : Nat} {digits : List Char}
    (read : readNat bound digits = some n) :
    digits ≠ [] ∧ ∀ digit ∈ digits, digit.isDigit = true := by
  have numeral (value : Nat) (rest : digits.foldlM (appendDigit bound) value = some n) :
      ∀ digit ∈ digits, digit.isDigit = true := by
    clear read
    induction digits generalizing value with
    | nil => exact fun _ member => absurd member List.not_mem_nil
    | cons digit digits ih =>
      obtain ⟨next, appended, rest⟩ := Option.bind_eq_some_iff.mp rest
      intro other member
      rcases List.mem_cons.mp member with rfl | member
      · simp only [appendDigit, Option.ite_none_right_eq_some, Bool.and_eq_true] at appended
        exact appended.1.1
      · exact ih next rest other member
  cases digits with
  | nil => cases read
  | cons digit digits => exact ⟨List.cons_ne_nil _ _, numeral 0 read⟩

theorem head_of_readNat {bound n : Nat} {digits : List Char}
    (read : readNat bound digits = some n) : (digits.head?.map Char.isDigit).getD false = true := by
  obtain ⟨nonempty, numeral⟩ := isDigit_of_readNat read
  cases digits with
  | nil => exact absurd rfl nonempty
  | cons digit rest => exact numeral digit List.mem_cons_self

/-- A non-empty run of decimal digits whose value is within a bound. -/
structure Numeral (bound : Nat) (digits : List Char) (value : Nat) : Prop where
  nonempty : digits ≠ []
  digit : ∀ digit ∈ digits, digit.isDigit = true
  inside : value ≤ bound
  value_eq : Nat.ofDigitChars 10 digits 0 = value

theorem readNat_iff {bound value : Nat} {digits : List Char} :
    readNat bound digits = some value ↔ Numeral bound digits value := by
  constructor
  · intro read
    obtain ⟨nonempty, digit⟩ := isDigit_of_readNat read
    exact ⟨nonempty, digit, le_of_readNat read, (eq_of_readNat read).symm⟩
  · rintro ⟨nonempty, digit, inside, rfl⟩
    exact readNat_of_isDigit nonempty digit inside

/-- A numeral that a plus sign may precede. -/
inductive Signed (bound : Nat) : List Char → Nat → Prop
  | plain {digits : List Char} {value : Nat} (numeral : Numeral bound digits value) :
    Signed bound digits value
  | plus {digits : List Char} {value : Nat} (numeral : Numeral bound digits value) :
    Signed bound ('+' :: digits) value

theorem Numeral.unsigned {bound value : Nat} {digits : List Char}
    (numeral : Numeral bound digits value) : digits.head? ≠ some '+' := by
  intro head
  exact absurd (numeral.digit '+' (List.mem_of_mem_head? head)) (by decide)

theorem Signed.inside {bound value : Nat} {text : List Char} (signed : Signed bound text value) :
    value ≤ bound := by
  cases signed with
  | plain numeral => exact numeral.inside
  | plus numeral => exact numeral.inside

theorem readSigned_iff {bound value : Nat} {text : List Char} :
    readSigned bound text = some value ↔ Signed bound text value := by
  constructor
  · intro read
    unfold readSigned at read
    split at read
    · exact .plus (readNat_iff.mp read)
    · exact .plain (readNat_iff.mp read)
  · intro signed
    cases signed with
    | plus numeral => exact readNat_iff.mpr numeral
    | plain numeral =>
      rw [readSigned]
      · exact readNat_iff.mpr numeral
      · rintro digits rfl
        exact numeral.unsigned rfl

theorem numeral_iff {bound value : Nat} {text : List Char} :
    Numeral bound text value ↔ Signed bound text value ∧ text.head? ≠ some '+' := by
  constructor
  · intro numeral
    exact ⟨.plain numeral, numeral.unsigned⟩
  · rintro ⟨signed, unsigned⟩
    cases signed with
    | plain numeral => exact numeral
    | plus numeral => exact absurd rfl unsigned

theorem binaryDigits_eq_toDigits (n : Nat) : binaryDigits n = Nat.toDigits 2 n := by
  have bit (n : Nat) : (if n % 2 = 0 then '0' else '1') = (n % 2).digitChar := by
    rcases Nat.mod_two_eq_zero_or_one n with even | odd
    · simp [even]
    · simp [odd]
  fun_induction binaryDigits n with
  | case1 n digit small =>
    rw [Nat.toDigits_of_lt_base small, show digit = _ from bit n, Nat.mod_eq_of_lt small]
  | case2 n digit large ih =>
    rw [Nat.toDigits_of_base_le (by decide) (Nat.le_of_not_lt large), ih,
      show digit = _ from bit n]

end NandTools.Text
