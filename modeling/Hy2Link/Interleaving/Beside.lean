import Hy2Link.Interleaving.Run

/-! # A component beside a system

A component reads the state of a system and acts on it only through actions
that the system has anyway.  The two together give the system no new
behaviour, so its invariants hold in every run of both.
-/

namespace Interleaving

universe u v w x

variable {σ : Type u} {α : Type v} {ℓ : Type w} {β : Type x}

structure Joint (σ : Type u) (ℓ : Type w) where
  main : σ
  side : ℓ

inductive Turn (α : Type v) (β : Type x)
  | main (a : α)
  | side (b : β)

variable (step : σ → α → Option σ) (advance : σ → ℓ → β → Option (ℓ × Option α))

/-- In its turn the component moves on and may take an action of the system. -/
def joint (s : Joint σ ℓ) : Turn α β → Option (Joint σ ℓ)
  | .main a => (step s.main a).map fun next => ⟨next, s.side⟩
  | .side b =>
    (advance s.main s.side b).bind fun
      | (l, none) => some ⟨s.main, l⟩
      | (l, some a) => (step s.main a).map fun next => ⟨next, l⟩

inductive JointStep (s : Joint σ ℓ) : Turn α β → Joint σ ℓ → Prop
  | main (hstep : step s.main a = some next) :
      JointStep s (.main a) ⟨next, s.side⟩
  | look (hadvance : advance s.main s.side b = some (l, none)) :
      JointStep s (.side b) ⟨s.main, l⟩
  | act {a : α} {b : β} {next : σ} {l : ℓ}
      (hadvance : advance s.main s.side b = some (l, some a))
      (hstep : step s.main a = some next) : JointStep s (.side b) ⟨next, l⟩

variable {step advance}

theorem jointStep_of_joint {s t : Joint σ ℓ} {turn : Turn α β}
    (h : joint step advance s turn = some t) : JointStep step advance s turn t := by
  cases turn with
  | main a =>
    obtain ⟨next, hnext, rfl⟩ := Option.map_eq_some_iff.1 h
    exact .main hnext
  | side b =>
    obtain ⟨⟨l, effect⟩, hadvance, heffect⟩ := Option.bind_eq_some_iff.1 h
    cases effect with
    | none =>
      cases heffect
      exact .look hadvance
    | some a =>
      obtain ⟨next, hnext, rfl⟩ := Option.map_eq_some_iff.1 heffect
      exact .act hadvance hnext

def Turn.MainMeets (ok : σ → α → Prop) (s : Joint σ ℓ) (turn : Turn α β) : Prop :=
  ∀ a, turn = .main a → ok s.main a

/-- An invariant of the system, kept by every action that meets a condition,
holds in every run of both in which the system meets the condition and the
component takes only actions that do. -/
theorem joint_invariant {ok : σ → α → Prop} {invariant : σ → Prop}
    (hstep : ∀ s a next, invariant s → ok s a → step s a = some next → invariant next)
    (hside : ∀ s l b l' a, advance s l b = some (l', some a) → ok s a)
    {s t : Joint σ ℓ} {turns : List (Turn α β)} (hs : invariant s.main)
    (hok : Along (joint step advance) (fun s turn => turn.MainMeets ok s) s turns)
    (hrun : run (joint step advance) s turns = some t) : invariant t.main := by
  have hkept : ∀ (s : Joint σ ℓ) (turn : Turn α β) t, invariant s.main → turn.MainMeets ok s →
      joint step advance s turn = some t → invariant t.main := by
    intro s turn t hs hok ht
    cases jointStep_of_joint ht with
    | main hnext => exact hstep _ _ _ hs (hok _ rfl) hnext
    | look hadvance => exact hs
    | act hadvance hnext => exact hstep _ _ _ hs (hside _ _ _ _ _ hadvance) hnext
  exact run_invariant hkept hs hok hrun

end Interleaving
