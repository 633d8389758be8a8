/-!
# Runs

A machine is a step function, and a run of it a list of events. `Along` asks something of each
event in the state that it meets, and `run_keeps` is the induction over a run.
-/

namespace ScriptGate.Run

variable {σ ε : Type} {step : σ → ε → σ} {allowed : σ → ε → Prop}

/-- Every event of a run is allowed in the state that it meets. -/
def Along (step : σ → ε → σ) (allowed : σ → ε → Prop) : σ → List ε → Prop
  | _, [] => True
  | s, e :: rest => allowed s e ∧ Along step allowed (step s e) rest

/-- What every allowed step keeps, a run of allowed steps keeps. -/
theorem run_keeps {P : σ → Prop} (keeps : ∀ s e, allowed s e → P s → P (step s e))
    {s : σ} {events : List ε} (along : Along step allowed s events) (start : P s) :
    P (events.foldl step s) := by
  induction events generalizing s with
  | nil => exact start
  | cons e rest ih => exact ih along.2 (keeps s e along.1 start)

theorem along_of_mem {events : List ε} (every : ∀ e ∈ events, ∀ s, allowed s e) (s : σ) :
    Along step allowed s events := by
  induction events generalizing s with
  | nil => trivial
  | cons e rest ih =>
    exact ⟨every e (by simp) s, ih (fun e member => every e (by simp [member])) (step s e)⟩

theorem along_append {s : σ} {first second : List ε} :
    Along step allowed s (first ++ second) ↔
      Along step allowed s first ∧ Along step allowed (first.foldl step s) second := by
  induction first generalizing s with
  | nil => simp [Along]
  | cons e rest ih => simp [Along, ih, and_assoc]

end ScriptGate.Run
