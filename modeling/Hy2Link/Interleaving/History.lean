import Hy2Link.Interleaving.Run

/-! # Runs with a record

A record is kept beside a run and brought up to date in each step, from the
state the step is taken in and the action.  It changes nothing of the run.
-/

namespace Interleaving

universe u v w

variable {σ : Type u} {α : Type v} {μ : Type w}

/-- The system together with a record of its steps. -/
def recording (step : σ → α → Option σ) (observe : σ → α → μ → μ) (s : σ × μ) (a : α) :
    Option (σ × μ) :=
  (step s.1 a).map fun next => (next, observe s.1 a s.2)

variable {step : σ → α → Option σ} {observe : σ → α → μ → μ}

theorem recording_eq_some {s t : σ × μ} {a : α} :
    recording step observe s a = some t ↔
      step s.1 a = some t.1 ∧ t.2 = observe s.1 a s.2 := by
  simp only [recording, Option.map_eq_some_iff]
  constructor
  · rintro ⟨next, hnext, rfl⟩
    exact ⟨hnext, rfl⟩
  · rintro ⟨hnext, hrecord⟩
    exact ⟨t.1, hnext, Prod.ext rfl hrecord.symm⟩

/-- A condition on the steps of the system is one on the steps with a record. -/
theorem Along.recording {ok : σ → α → Prop} {s : σ} {actions : List α}
    (hok : Along step ok s actions) (h : μ) :
    Along (Interleaving.recording step observe) (fun s a => ok s.1 a) (s, h) actions := by
  induction actions generalizing s h with
  | nil => trivial
  | cons a rest ih =>
    refine ⟨hok.1, fun next hnext => ?_⟩
    exact ih (hok.2 next.1 (recording_eq_some.1 hnext).1) next.2

end Interleaving
