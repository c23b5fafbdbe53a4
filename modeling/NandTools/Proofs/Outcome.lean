/-! Taking successful computations apart. -/
namespace NandTools

theorem Except.ok_of_map {ε α β : Type} {f : α → β} {out : Except ε α} {b : β}
    (mapped : out.map f = .ok b) : ∃ a, out = .ok a ∧ f a = b := by
  cases out with
  | error e => cases mapped
  | ok a =>
    cases mapped
    exact ⟨a, rfl, rfl⟩

theorem Except.error_of_map {ε α β : Type} {f : α → β} {out : Except ε α} {e : ε}
    (mapped : out.map f = .error e) : out = .error e := by
  cases out with
  | error e =>
    cases mapped
    rfl
  | ok a => cases mapped

theorem Except.ok_of_bind {ε α β : Type} {f : α → Except ε β} {out : Except ε α} {b : β}
    (bound : out >>= f = .ok b) : ∃ a, out = .ok a ∧ f a = .ok b := by
  cases out with
  | error e => cases bound
  | ok a => exact ⟨a, rfl, bound⟩

theorem Except.ok_of_mapError {ε δ α : Type} {f : ε → δ} {out : Except ε α} {a : α}
    (mapped : out.mapError f = .ok a) : out = .ok a := by
  cases out with
  | error e => cases mapped
  | ok value =>
    cases mapped
    rfl

theorem Except.ok_of_toOption {ε α : Type} {out : Except ε α} {a : α}
    (present : out.toOption = some a) : out = .ok a := by
  cases out with
  | error e => cases present
  | ok value =>
    cases present
    rfl

/-- A list of computations fails where one of them does. -/
theorem Except.error_of_mapM {ε α β : Type} {f : α → Except ε β} {inputs : List α} {e : ε}
    (failed : inputs.mapM f = .error e) : ∃ a ∈ inputs, f a = .error e := by
  induction inputs with
  | nil => cases failed
  | cons a rest ih =>
    rw [List.mapM_cons] at failed
    cases out : f a with
    | error e' =>
      rw [out] at failed
      cases failed
      exact ⟨a, List.mem_cons_self, out⟩
    | ok b =>
      rw [out] at failed
      cases later : rest.mapM f with
      | error e' =>
        rw [later] at failed
        cases failed
        obtain ⟨a', member, failed⟩ := ih later
        exact ⟨a', List.mem_cons_of_mem a member, failed⟩
      | ok bs =>
        rw [later] at failed
        cases failed

end NandTools
