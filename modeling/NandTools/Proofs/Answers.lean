/-! Calls that are made one after the other on a state that answers them. -/
namespace NandTools

variable {σ α β : Type} {answer : σ → α → β × σ}

/-- The replies to calls in their order, and the state after the last of them. -/
def answers (answer : σ → α → β × σ) (state : σ) : List α → List β × σ
  | [] => ([], state)
  | call :: rest =>
    let out := answer state call
    let later := answers answer out.2 rest
    (out.1 :: later.1, later.2)

theorem answers_cons (state : σ) (call : α) (rest : List α) :
    answers answer state (call :: rest) =
      ((answer state call).1 :: (answers answer (answer state call).2 rest).1,
        (answers answer (answer state call).2 rest).2) := rfl

/-- What every call keeps is kept by all of them. -/
theorem answers_keep {P : σ → Prop} (keeps : ∀ state call, P state → P (answer state call).2)
    {state : σ} (start : P state) (calls : List α) : P (answers answer state calls).2 := by
  induction calls generalizing state with
  | nil => exact start
  | cons call rest ih => exact ih (keeps state call start)

end NandTools
