import Hy2Link.Interleaving.Run
import Mathlib.Logic.Function.Basic

/-! # A family of equal systems

Several parties run the same step function, each on a state of its own.  A
party may be kept from some of the actions.  What one party preserves holds of
each of them in every run of the family.
-/

namespace Interleaving

universe u v w

variable {ι : Type u} {σ : Type v} {α : Type w} [DecidableEq ι]

structure Move (ι : Type u) (α : Type w) where
  party : ι
  action : α
deriving DecidableEq

variable (step : σ → α → Option σ) (allowed : ι → α → Bool)

def family (s : ι → σ) (move : Move ι α) : Option (ι → σ) :=
  if allowed move.party move.action then
    (step (s move.party) move.action).map (Function.update s move.party)
  else none

variable {step allowed}

theorem family_eq_some {s t : ι → σ} {move : Move ι α} :
    family step allowed s move = some t ↔
      allowed move.party move.action = true ∧
        ∃ next, step (s move.party) move.action = some next ∧
          t = Function.update s move.party next := by
  simp only [family, Option.ite_none_right_eq_some, Option.map_eq_some_iff, eq_comm]

def Move.Meets (ok : σ → α → Prop) (s : ι → σ) (move : Move ι α) : Prop :=
  ok (s move.party) move.action

instance (ok : σ → α → Prop) [∀ s a, Decidable (ok s a)] (s : ι → σ) (move : Move ι α) :
    Decidable (move.Meets ok s) :=
  inferInstanceAs (Decidable (ok _ _))

/-- Facts about the parties that are kept by the steps of each are kept by the
moves of the family. -/
theorem family_invariant {ok : σ → α → Prop} {invariant : ι → σ → Prop}
    (hstep : ∀ i s a next, invariant i s → allowed i a = true → ok s a → step s a = some next →
      invariant i next)
    (s : ι → σ) (move : Move ι α) (t : ι → σ) (hs : ∀ i, invariant i (s i))
    (hok : move.Meets ok s) (hnext : family step allowed s move = some t) (i : ι) :
    invariant i (t i) := by
  obtain ⟨hallowed, next, hmoved, rfl⟩ := family_eq_some.1 hnext
  by_cases hi : i = move.party
  · subst hi
    rw [Function.update_self]
    exact hstep _ _ _ _ (hs _) hallowed hok hmoved
  · rw [Function.update_of_ne hi]
    exact hs i

end Interleaving
