import NandTools.Text.Blank

/-! Letters, digits and visible signs of ASCII are not blank. -/
namespace NandTools.Text

variable {c : Char}

theorem toNat_of_isAlphanum (alphanumeric : c.isAlphanum = true) :
    (65 ≤ c.toNat ∧ c.toNat ≤ 90 ∨ 97 ≤ c.toNat ∧ c.toNat ≤ 122) ∨
      48 ≤ c.toNat ∧ c.toNat ≤ 57 := by
  change (decide (65 ≤ c.val ∧ c.val ≤ 90) || decide (97 ≤ c.val) && decide (c.val ≤ 122) ||
    decide (48 ≤ c.val) && decide (c.val ≤ 57)) = true at alphanumeric
  simp only [Bool.or_eq_true, Bool.and_eq_true, decide_eq_true_eq, UInt32.le_iff_toNat_le]
    at alphanumeric
  exact alphanumeric

theorem isBlank_of_visible (least : 33 ≤ c.toNat) (most : c.toNat ≤ 126) : isBlank c = false := by
  simp only [isBlank, Bool.or_eq_false_iff, Bool.and_eq_false_iff, decide_eq_false_iff_not,
    beq_eq_false_iff_ne]
  omega

theorem isBlank_of_isAlphanum (alphanumeric : c.isAlphanum = true) : isBlank c = false := by
  have range := toNat_of_isAlphanum alphanumeric
  exact isBlank_of_visible (by omega) (by omega)

end NandTools.Text
