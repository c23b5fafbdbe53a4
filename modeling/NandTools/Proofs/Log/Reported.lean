import NandTools.Log.Reported

/-! What a computation comes to when its reports are left out. No computation of the tools looks at
the events that were sent before, so the values of its parts make up its own. -/
namespace NandTools.Reported

variable {α β ε δ : Type}

def value (computation : Reported ε α) : Except ε α := computation.result.1

/-- A computation comes to the same whatever was reported before. -/
class Blind (computation : Reported ε α) : Prop where
  run_eq : ∀ sent, ((ExceptT.run computation).run sent).1 = computation.value

section Bind

variable (computation : Reported ε α) (next : α → Reported ε β)

theorem run_bind (sent : Array Event) :
    (ExceptT.run (computation >>= next)).run sent =
      match (ExceptT.run computation).run sent with
      | (.ok a, sent) => (ExceptT.run (next a)).run sent
      | (.error e, sent) => (.error e, sent) := by
  rw [ExceptT.run_bind]
  cases same : (ExceptT.run computation).run sent with
  | mk out sent =>
    cases out <;> simp [StateT.run_bind, same] <;> rfl

theorem value_bind [∀ a, Blind (next a)] :
    (computation >>= next).value = computation.value >>= fun a => (next a).value := by
  unfold value result
  rw [run_bind]
  cases (ExceptT.run computation).run #[] with
  | mk out sent =>
    cases out with
    | ok a => exact Blind.run_eq sent
    | error e => rfl

instance [Blind computation] [∀ a, Blind (next a)] : Blind (computation >>= next) where
  run_eq sent := by
    have first : ((ExceptT.run computation).run sent).1 = computation.value := Blind.run_eq sent
    rw [value_bind, run_bind, ← first]
    cases (ExceptT.run computation).run sent with
    | mk out sent =>
      cases out with
      | ok a => exact Blind.run_eq sent
      | error e => rfl

end Bind

section Parts

variable (a : α) (e : ε) (event : Event)

instance : Blind (pure a : Reported ε α) := ⟨fun _ => rfl⟩

instance : Blind (throw e : Reported ε α) := ⟨fun _ => rfl⟩

instance : Blind (report event : Reported ε Unit) := ⟨fun _ => rfl⟩

instance : Blind (abort event e : Reported ε α) := ⟨fun _ => rfl⟩

@[simp]
theorem value_pure : (pure a : Reported ε α).value = .ok a := rfl

@[simp]
theorem value_report : (report event : Reported ε Unit).value = .ok () := rfl

variable (out : Except ε α) (events : List Event)

instance : Blind (liftExcept out : Reported ε α) := ⟨fun _ => by cases out <;> rfl⟩

instance : Blind (ofPair out events) := ⟨fun _ => by cases out <;> rfl⟩

@[simp]
theorem value_liftExcept : (liftExcept out : Reported ε α).value = out := by
  cases out <;> rfl

@[simp]
theorem value_ofPair : (ofPair out events).value = out := by
  cases out <;> rfl

end Parts

section Forms

variable (f : ε → δ) (computation : Reported ε α)

private theorem run_mapError (sent : Array Event) :
    ((ExceptT.run (computation.mapError f)).run sent).1 =
      ((ExceptT.run computation).run sent).1.mapError f := rfl

@[simp]
theorem value_mapError : (computation.mapError f).value = computation.value.mapError f := rfl

instance [Blind computation] : Blind (computation.mapError f) where
  run_eq sent := by rw [run_mapError, Blind.run_eq, value_mapError]

variable (inputs : List α) (each : α → Reported ε β)

instance [∀ a, Blind (each a)] : Blind (inputs.mapM each) := by
  induction inputs with
  | nil => exact inferInstanceAs (Blind (pure []))
  | cons a rest ih =>
    rw [List.mapM_cons]
    infer_instance

@[simp]
theorem value_mapM [∀ a, Blind (each a)] :
    (inputs.mapM each).value = inputs.mapM fun a => (each a).value := by
  induction inputs with
  | nil => rfl
  | cons a rest ih =>
    rw [List.mapM_cons, List.mapM_cons, value_bind]
    simp only [value_bind, ih, value_pure]
    rfl

end Forms

end NandTools.Reported
