import Mathlib.Data.List.Induction
import Mathlib.Data.Option.Basic

/-! # Runs of a partial step function

A system is given by a step function that answers `none` where an action is
not enabled.  A run is a list of actions, and a condition on runs is a
predicate on the single steps: the state a step is taken in, and the action.
-/

namespace Interleaving

universe u v w

variable {σ : Type u} {α : Type v} (step : σ → α → Option σ)

/-- The state after a list of actions, if each of them is enabled in turn. -/
def run : σ → List α → Option σ
  | s, [] => some s
  | s, a :: rest => (step s a).bind fun next => run next rest

/-- Every action of the list is taken in a state that admits it. -/
def Along (ok : σ → α → Prop) : σ → List α → Prop
  | _, [] => True
  | s, a :: rest => ok s a ∧ ∀ next ∈ step s a, Along ok next rest

/-- What the steps of a run give out, in order. -/
def outputs {β : Type w} (out : σ → α → Option β) : σ → List α → List β
  | _, [] => []
  | s, a :: rest => (out s a).toList ++ (step s a).elim [] fun next => outputs out next rest

@[simp] theorem run_nil (s : σ) : run step s [] = some s := rfl

theorem run_cons (s : σ) (a : α) (rest : List α) :
    run step s (a :: rest) = (step s a).bind fun next => run step next rest := rfl

@[simp] theorem along_nil (ok : σ → α → Prop) (s : σ) : Along step ok s [] := trivial

theorem along_cons (ok : σ → α → Prop) (s : σ) (a : α) (rest : List α) :
    Along step ok s (a :: rest) ↔
      ok s a ∧ ∀ next ∈ step s a, Along step ok next rest := Iff.rfl

variable {step}

theorem run_cons_eq_some {s t : σ} {a : α} {rest : List α} :
    run step s (a :: rest) = some t ↔
      ∃ next, step s a = some next ∧ run step next rest = some t := by
  rw [run_cons, Option.bind_eq_some_iff]

theorem run_append (s : σ) (front back : List α) :
    run step s (front ++ back) = (run step s front).bind fun next => run step next back := by
  induction front generalizing s with
  | nil => rfl
  | cons a rest ih =>
    simp only [List.cons_append, run_cons, Option.bind_assoc, ih]

theorem along_append {ok : σ → α → Prop} {s : σ} {front back : List α} :
    Along step ok s (front ++ back) ↔
      Along step ok s front ∧ ∀ next ∈ run step s front, Along step ok next back := by
  induction front generalizing s with
  | nil => simp
  | cons a rest ih =>
    simp only [List.cons_append, along_cons, ih, and_assoc, and_congr_right_iff]
    intro _
    constructor
    · intro h
      refine ⟨fun next hnext => (h next hnext).1, fun last hlast => ?_⟩
      obtain ⟨next, hnext, hrest⟩ := run_cons_eq_some.1 hlast
      exact (h next hnext).2 last hrest
    · intro h next hnext
      exact ⟨h.1 next hnext, fun last hlast => h.2 last (run_cons_eq_some.2 ⟨next, hnext, hlast⟩)⟩

@[simp] theorem outputs_nil {β : Type w} (out : σ → α → Option β) (s : σ) :
    outputs step out s [] = [] := rfl

theorem outputs_cons {β : Type w} (out : σ → α → Option β) {s next : σ} {a : α}
    (hnext : step s a = some next) (rest : List α) :
    outputs step out s (a :: rest) = (out s a).toList ++ outputs step out next rest := by
  rw [outputs, hnext]
  rfl

theorem outputs_singleton {β : Type w} (out : σ → α → Option β) (s : σ) (a : α) :
    outputs step out s [a] = (out s a).toList := by
  rw [outputs]
  cases step s a <;> simp

theorem outputs_append {β : Type w} (out : σ → α → Option β) {s t : σ} {front : List α}
    (hrun : run step s front = some t) (back : List α) :
    outputs step out s (front ++ back) = outputs step out s front ++ outputs step out t back := by
  induction front generalizing s with
  | nil =>
    obtain rfl : s = t := Option.some.inj hrun
    rfl
  | cons a rest ih =>
    obtain ⟨next, hnext, hrest⟩ := run_cons_eq_some.1 hrun
    rw [List.cons_append, outputs_cons out hnext, outputs_cons out hnext, ih hrest,
      List.append_assoc]

/-- A state predicate kept by every admitted step holds at the end of every
run whose steps are all admitted. -/
theorem run_invariant {ok : σ → α → Prop} {invariant : σ → Prop}
    (hstep : ∀ s a next, invariant s → ok s a → step s a = some next → invariant next)
    {s t : σ} {actions : List α} (hs : invariant s)
    (hok : Along step ok s actions) (hrun : run step s actions = some t) :
    invariant t := by
  induction actions generalizing s with
  | nil =>
    obtain rfl : s = t := Option.some.inj hrun
    exact hs
  | cons a rest ih =>
    obtain ⟨next, hnext, hrest⟩ := run_cons_eq_some.1 hrun
    exact ih (hstep s a next hs hok.1 hnext) (hok.2 next hnext) hrest

/-- A state predicate kept by every step holds at the end of every run. -/
theorem run_stable {invariant : σ → Prop}
    (hstep : ∀ s a next, invariant s → step s a = some next → invariant next)
    {s t : σ} {actions : List α} (hs : invariant s) (hrun : run step s actions = some t) :
    invariant t := by
  induction actions generalizing s with
  | nil =>
    obtain rfl : s = t := Option.some.inj hrun
    exact hs
  | cons a rest ih =>
    obtain ⟨next, hnext, hrest⟩ := run_cons_eq_some.1 hrun
    exact ih (hstep s a next hs hnext) hrest

/-- An invariant may speak of the run so far. -/
theorem run_history {P : List α → σ → Prop} {s : σ} (hs : P [] s)
    (hstep : ∀ actions t a next, run step s actions = some t → P actions t →
      step t a = some next → P (actions ++ [a]) next)
    {t : σ} {actions : List α} (hrun : run step s actions = some t) : P actions t := by
  induction actions using List.reverseRecOn generalizing t with
  | nil =>
    obtain rfl : s = t := Option.some.inj hrun
    exact hs
  | append_singleton front a ih =>
    rw [run_append, Option.bind_eq_some_iff] at hrun
    obtain ⟨middle, hfront, hlast⟩ := hrun
    obtain ⟨next, hnext, hnil⟩ := run_cons_eq_some.1 hlast
    obtain rfl : next = t := Option.some.inj hnil
    exact hstep front middle a next hfront (ih hfront) hnext

instance Along.decidable (ok : σ → α → Prop) [∀ s a, Decidable (ok s a)] :
    ∀ s actions, Decidable (Along step ok s actions)
  | _, [] => .isTrue trivial
  | s, a :: rest =>
    match h : step s a with
    | none => decidable_of_iff (ok s a) (by simp [along_cons, h])
    | some next =>
      have := Along.decidable ok next rest
      decidable_of_iff (ok s a ∧ Along step ok next rest) (by simp [along_cons, h])

theorem Along.imp {ok weaker : σ → α → Prop} (h : ∀ s a, ok s a → weaker s a)
    {s : σ} {actions : List α} (hok : Along step ok s actions) :
    Along step weaker s actions := by
  induction actions generalizing s with
  | nil => trivial
  | cons a rest ih => exact ⟨h s a hok.1, fun next hnext => ih (hok.2 next hnext)⟩

theorem along_of_forall {ok : σ → α → Prop} {s : σ} {actions : List α}
    (h : ∀ s, ∀ a ∈ actions, ok s a) : Along step ok s actions := by
  induction actions generalizing s with
  | nil => trivial
  | cons a rest ih =>
    exact ⟨h s a List.mem_cons_self, fun _ _ => ih fun s a ha => h s a (.tail _ ha)⟩

theorem Along.and {ok ok' : σ → α → Prop} {s : σ} {actions : List α}
    (hok : Along step ok s actions) (hok' : Along step ok' s actions) :
    Along step (fun s a => ok s a ∧ ok' s a) s actions := by
  induction actions generalizing s with
  | nil => trivial
  | cons a rest ih =>
    exact ⟨⟨hok.1, hok'.1⟩, fun next hnext => ih (hok.2 next hnext) (hok'.2 next hnext)⟩

theorem Along.of_invariant {ok good : σ → α → Prop} {invariant : σ → Prop}
    {s : σ} {actions : List α} (hok : Along step ok s actions)
    (hstep : ∀ s a next, invariant s → ok s a → step s a = some next → invariant next)
    (hgood : ∀ s a, invariant s → ok s a → good s a) (hs : invariant s) :
    Along step good s actions := by
  induction actions generalizing s with
  | nil => trivial
  | cons a rest ih =>
    exact ⟨hgood s a hs hok.1, fun next hnext =>
      ih (hok.2 next hnext) (hstep s a next hs hok.1 hnext)⟩

/-- So that `decide` runs a fixed run and looks at its end. -/
instance (priority := low) decidableExistsSome {result : Option σ} {P : σ → Prop}
    [DecidablePred P] : Decidable (∃ t, result = some t ∧ P t) :=
  decidable_of_iff (result.any fun t => P t) (by simp [Option.any_eq_true])

end Interleaving
