import NandTools.Proofs.Vm.Blocks

/-! What the code of a comparison does: it jumps over one of its two results. -/
namespace NandTools.CodeWriter

open Function (update)
open Instruction (address label)
open Machine

private theorem compare_eq (name jump : String) (number : Nat) : compare name jump number =
    (popToD ++ [set "A" "A-1", set "D" "M-D", address s!"IS_{name}_{number}"]) ++
      goto "D" jump :: ((onTop "0" ++ [address s!"END_{name}_{number}"]) ++
        goto "0" "JMP" :: label s!"IS_{name}_{number}" ::
          (onTop "-1" ++ [label s!"END_{name}_{number}"])) := rfl

variable {rom : List Word} {symbols : AssemblySymbols} {ram : Word → Word} {a d : Word} {pc : Nat}

/-- Up to the jump, the difference of the two values on top is brought into D. -/
private theorem follow?_difference {landing : String} {target : Nat}
    (extended : AssemblySymbols.initial.Extends symbols)
    (meant : symbols.valueOf? landing = some target) (top : (ram 0 - 1).Ordinary)
    (below : (ram 0 - 2).Ordinary) :
    follow? symbols ⟨ram, a, d, pc⟩
        (popToD ++ [set "A" "A-1", set "D" "M-D", address landing]) =
      some ⟨update ram 0 (ram 0 - 1), .ofNat 16 target, ram (ram 0 - 2) - ram (ram 0 - 1),
        pc + 6⟩ := by
  have held : update ram 0 (ram 0 - 1) (ram 0 - 2) = ram (ram 0 - 2) :=
    Function.update_of_ne (below.ne (by decide)) _ _
  calc follow? symbols ⟨ram, a, d, pc⟩
        (popToD ++ [set "A" "A-1", set "D" "M-D", address landing])
    _ = follow? symbols ⟨update ram 0 (ram 0 - 1), ram 0 - 2, ram (ram 0 - 1), pc + 4⟩
          [set "D" "M-D", address landing] := follow?_popToD_down extended top
    _ = follow? symbols ⟨update ram 0 (ram 0 - 1), ram 0 - 2,
          update ram 0 (ram 0 - 1) (ram 0 - 2) - ram (ram 0 - 1), pc + 5⟩
          [address landing] := follow?_compute below.lt_cells rfl
    _ = follow? symbols ⟨update ram 0 (ram 0 - 1), .ofNat 16 target,
          update ram 0 (ram 0 - 1) (ram 0 - 2) - ram (ram 0 - 1), pc + 6⟩ [] :=
      follow?_address meant
    _ = _ := by rw [held]; rfl

/-- Either result is stored below the value that was taken off. -/
private theorem follow?_outcome {comp : String} {value : Word}
    (extended : AssemblySymbols.initial.Extends symbols) (below : (ram 0 - 2).Ordinary)
    (computed : ∀ a d m, Mnemonic.value? a d m comp = some value) (rest : List Instruction) :
    follow? symbols ⟨update ram 0 (ram 0 - 1), a, d, pc⟩ (onTop comp ++ rest) =
      follow? symbols ⟨update (update ram (ram 0 - 2) value) 0 (ram 0 - 1), ram 0 - 2, d, pc + 3⟩
        rest := by
  have pointed : update ram 0 (ram 0 - 1) 0 - 1 = ram 0 - 2 := by
    rw [Function.update_self]
    bv_omega
  have apart : ram 0 - 2 ≠ 0 := below.ne (by decide)
  rw [Function.update_comm apart]
  exact follow?_onTop extended pointed below fun a d => computed a d _

/-- The two values on top are replaced by the outcome of the jump on their difference. -/
theorem runs_compare {name jump : String} {number : Nat}
    (extended : AssemblySymbols.initial.Extends symbols) (bounded : symbols.Bounded)
    (yes : Instruction.isSymbol (s!"IS_{name}_{number}").toList = true)
    (done : Instruction.isSymbol (s!"END_{name}_{number}").toList = true)
    (loaded : Loaded rom symbols pc (compare name jump number))
    (top : (ram 0 - 1).Ordinary) (below : (ram 0 - 2).Ordinary) :
    ∃ m, Runs rom ⟨ram, a, d, pc⟩ m ∧ m.pc = pc + 15 ∧
      m.ram = update (update ram (ram 0 - 2)
        (.truth (Mnemonic.taken jump (ram (ram 0 - 2) - ram (ram 0 - 1))))) 0 (ram 0 - 1) := by
  rw [compare_eq, loaded_append] at loaded
  obtain ⟨front, jumping⟩ := loaded
  obtain ⟨middle, leaving⟩ := loaded_append.mp jumping.2
  obtain ⟨landing, back⟩ := leaving.2
  have finish := (loaded_append.mp back).2.1
  have meantYes : symbols.valueOf? s!"IS_{name}_{number}" = some (pc + 12) :=
    (AssemblySymbols.valueOf?_of_symbol yes).trans landing
  have meantDone : symbols.valueOf? s!"END_{name}_{number}" = some (pc + 15) :=
    (AssemblySymbols.valueOf?_of_symbol done).trans finish
  have insideYes := bounded.valueOf?_le meantYes
  have insideDone := bounded.valueOf?_le meantDone
  obtain ⟨reached, _⟩ := runs_of_follow? (fun i _ => bounded.fits i) rfl front
    (follow?_difference (a := a) (d := d) extended meantYes top below)
  have jumped : step? rom ⟨update ram 0 (ram 0 - 1), .ofNat 16 (pc + 12),
        ram (ram 0 - 2) - ram (ram 0 - 1), pc + 6⟩ =
      some ⟨update ram 0 (ram 0 - 1), .ofNat 16 (pc + 12), ram (ram 0 - 2) - ram (ram 0 - 1),
        if Mnemonic.taken jump (ram (ram 0 - 2) - ram (ram 0 - 1)) then pc + 12 else pc + 7⟩ := by
    rw [step?_of_perform? (bounded.fits _) rfl jumping
        (perform?_jump (Word.toNat_lt_cells insideYes) rfl),
      Word.toNat_address insideYes]
  cases taken : Mnemonic.taken jump (ram (ram 0 - 2) - ram (ram 0 - 1)) with
  | true =>
    rw [taken, if_pos rfl] at jumped
    obtain ⟨ended, last⟩ := runs_of_follow? (fun i _ => bounded.fits i) rfl back
      (follow?_outcome extended below (fun _ _ _ => rfl) [label s!"END_{name}_{number}"])
    exact ⟨_, (reached.tail jumped).trans ended, last, rfl⟩
  | false =>
    rw [taken, if_neg Bool.false_ne_true] at jumped
    obtain ⟨passed, _⟩ := runs_of_follow? (fun i _ => bounded.fits i) rfl middle
      ((follow?_outcome extended below (fun _ _ _ => rfl) _).trans (follow?_address meantDone))
    have returned : step? rom ⟨update (update ram (ram 0 - 2) 0) 0 (ram 0 - 1),
          .ofNat 16 (pc + 15), ram (ram 0 - 2) - ram (ram 0 - 1), pc + 11⟩ =
        some ⟨update (update ram (ram 0 - 2) 0) 0 (ram 0 - 1), .ofNat 16 (pc + 15),
          ram (ram 0 - 2) - ram (ram 0 - 1), pc + 15⟩ := by
      rw [step?_of_perform? (bounded.fits _) rfl leaving
          (perform?_jump (Word.toNat_lt_cells insideDone) rfl),
        Word.toNat_address insideDone]
      rfl
    exact ⟨_, ((reached.tail jumped).trans passed).tail returned, rfl, rfl⟩

end NandTools.CodeWriter
