import NandTools.Assembly.Mnemonic

/-! What the tables of mnemonics hold. -/
namespace NandTools.Mnemonic

theorem mem_of_lookup {β : Type} {table : List (String × β)} {key : String} {entry : β}
    (found : table.lookup key = some entry) : (key, entry) ∈ table := by
  obtain ⟨before, after, rfl, _⟩ := List.lookup_eq_some_iff.mp found
  exact List.mem_append_right before List.mem_cons_self

private def isBit (digit : Char) : Bool := digit == '0' || digit == '1'

private theorem binary_of_bits {bits : List Char} (each : bits.all isBit = true) :
    ∀ digit ∈ bits, digit = '0' ∨ digit = '1' := by
  intro digit member
  simpa [isBit] using List.all_eq_true.mp each digit member

theorem binary_of_comps {comp bits : String} (listed : (comp, bits) ∈ comps) :
    bits.toList.length = 7 ∧ ∀ digit ∈ bits.toList, digit = '0' ∨ digit = '1' := by
  have checked : ∀ entry ∈ comps, entry.2.toList.length = 7 ∧ entry.2.toList.all isBit = true := by
    decide +kernel
  exact ⟨(checked _ listed).1, binary_of_bits (checked _ listed).2⟩

theorem binary_of_jumps {jump bits : String} (listed : (jump, bits) ∈ jumps) :
    bits.toList.length = 3 ∧ ∀ digit ∈ bits.toList, digit = '0' ∨ digit = '1' := by
  have checked : ∀ entry ∈ jumps, entry.2.toList.length = 3 ∧ entry.2.toList.all isBit = true := by
    decide +kernel
  exact ⟨(checked _ listed).1, binary_of_bits (checked _ listed).2⟩

theorem Dest.toList_bits (dest : Dest) : dest.bits.toList =
    [if dest.a then '1' else '0', if dest.d then '1' else '0', if dest.m then '1' else '0'] :=
  String.toList_ofList

theorem Dest.binary_bits (dest : Dest) : ∀ digit ∈ dest.bits.toList, digit = '0' ∨ digit = '1' := by
  intro digit member
  rw [Dest.toList_bits] at member
  simp only [List.mem_cons, List.not_mem_nil, or_false] at member
  rcases member with rfl | rfl | rfl <;> split <;> simp

/-- Characters of mnemonics. -/
def isPart (c : Char) : Bool := "01-+!&|ADMJGTEQLNP".toList.contains c

theorem parts_of_comps {comp bits : String} (listed : (comp, bits) ∈ comps) :
    comp.toList ≠ [] ∧ comp.toList.all isPart = true := by
  have checked : ∀ entry ∈ comps, entry.1.toList ≠ [] ∧ entry.1.toList.all isPart = true := by
    decide +kernel
  exact checked _ listed

theorem parts_of_jumps {jump bits : String} (listed : (jump, bits) ∈ jumps) :
    jump.toList.all isPart = true := by
  have checked : ∀ entry ∈ jumps, entry.1.toList.all isPart = true := by decide +kernel
  exact checked _ listed

private theorem isPart_of_add {dest next : Dest} {register : Char}
    (added : dest.add? register = some next) : isPart register = true := by
  unfold Dest.add? at added
  split at added
  · rfl
  · rfl
  · rfl
  · cases added

private theorem names_of_add {dest next : Dest} {register : Char}
    (added : dest.add? register = some next) :
    next.a = (dest.a || 'A' == register) ∧ next.d = (dest.d || 'D' == register) ∧
      next.m = (dest.m || 'M' == register) := by
  unfold Dest.add? at added
  split at added
  · rw [← Option.some.inj (Option.ite_none_left_eq_some.mp added).2]
    simp
  · rw [← Option.some.inj (Option.ite_none_left_eq_some.mp added).2]
    simp
  · rw [← Option.some.inj (Option.ite_none_left_eq_some.mp added).2]
    simp
  · cases added

/-- A destination names the registers that are written. -/
theorem names_of_dest {registers : List Char} {dest : Dest}
    (parsed : Dest.ofList? registers = some dest) :
    dest = ⟨registers.contains 'A', registers.contains 'D', registers.contains 'M'⟩ := by
  have kept (start : Dest) (rest : registers.foldlM Dest.add? start = some dest) :
      dest.a = (start.a || registers.contains 'A') ∧ dest.d = (start.d || registers.contains 'D') ∧
        dest.m = (start.m || registers.contains 'M') := by
    clear parsed
    induction registers generalizing start with
    | nil =>
      cases rest
      simp
    | cons register registers ih =>
      obtain ⟨next, added, rest⟩ := Option.bind_eq_some_iff.mp rest
      obtain ⟨a, d, m⟩ := names_of_add added
      obtain ⟨a', d', m'⟩ := ih next rest
      simp only [a', d', m', a, d, m, List.contains_cons, Bool.or_assoc, and_self]
  obtain ⟨a, d, m⟩ := kept _ parsed
  simp only [Bool.false_or] at a d m
  rw [← a, ← d, ← m]

theorem parts_of_dest {registers : List Char} {dest : Dest}
    (parsed : Dest.ofList? registers = some dest) : registers.all isPart = true := by
  have kept (start : Dest) (rest : registers.foldlM Dest.add? start = some dest) :
      registers.all isPart = true := by
    clear parsed
    induction registers generalizing start with
    | nil => rfl
    | cons register registers ih =>
      obtain ⟨next, added, rest⟩ := Option.bind_eq_some_iff.mp rest
      rw [List.all_cons, isPart_of_add added, ih next rest]
      rfl
  exact kept _ parsed

end NandTools.Mnemonic
