import Hy2Link.Interleaving.Run
import Hy2Link.Interleaving.Table

/-! # Threads over a shared state

The threads of a system take turns.  In one turn a thread performs a single
operation on the shared state and continues with the operation's result; an
operation that answers `none` is blocked.  Between turns the environment may
change the shared state on its own.

`next_outline` is the proof rule for such systems: an invariant of the shared
state together with one assertion for each local state is kept by a step when
the moving thread re-establishes both and keeps the assertions of the others.
-/

namespace Interleaving

variable {τ σ ℓ χ ε : Type} {Op : Type → Type}

/-- An operation together with what its thread does with the result. -/
structure Request (Op : Type → Type) (ℓ : Type) where
  {Result : Type}
  op : Op Result
  resume : Result → ℓ

def Request.map {ℓ ℓ' : Type} (f : ℓ → ℓ') (request : Request Op ℓ) : Request Op ℓ' where
  op := request.op
  resume := fun result => f (request.resume result)

def Request.lift {Op Op' : Type → Type} {ℓ : Type} (f : {Result : Type} → Op Result → Op' Result)
    (request : Request Op ℓ) : Request Op' ℓ where
  op := f request.op
  resume := request.resume

structure Config (τ σ ℓ : Type) where
  shared : σ
  threads : Table τ ℓ

inductive Action (τ ℓ χ ε : Type)
  | spawn (t : τ) (l : ℓ)
  | step (t : τ) (choice : χ)
  | env (e : ε)

/-- `control` is a thread's program: the operation it performs next, under a
choice made outside the program (an arriving message, a failing call). -/
structure System (τ σ ℓ χ ε : Type) (Op : Type → Type) where
  exec : {Result : Type} → τ → σ → Op Result → Option (σ × Result)
  control : τ → ℓ → χ → Option (Request Op ℓ)
  spawnable : Config τ σ ℓ → τ → ℓ → Bool
  environment : σ → ε → Option σ

variable [DecidableEq τ] (sys : System τ σ ℓ χ ε Op)

/-- A thread identity is used once: a thread that has finished keeps its last
local state. -/
def System.next (cfg : Config τ σ ℓ) : Action τ ℓ χ ε → Option (Config τ σ ℓ)
  | .spawn t l =>
    if (cfg.threads.lookup t).isNone && sys.spawnable cfg t l then
      some { cfg with threads := cfg.threads.insert t l }
    else none
  | .step t choice =>
    match cfg.threads.lookup t with
    | none => none
    | some l =>
      match sys.control t l choice with
      | none => none
      | some request =>
        match sys.exec t cfg.shared request.op with
        | none => none
        | some (shared, result) =>
          some
            { shared := shared
              threads := cfg.threads.insert t (request.resume result) }
  | .env e => (sys.environment cfg.shared e).map fun shared => { cfg with shared := shared }

variable {sys} {cfg cfg' : Config τ σ ℓ}

theorem next_spawn {t : τ} {l : ℓ} :
    sys.next cfg (.spawn t l) = some cfg' ↔
      cfg.threads.lookup t = none ∧ sys.spawnable cfg t l = true ∧
        cfg' = { cfg with threads := cfg.threads.insert t l } := by
  simp only [System.next, Option.ite_none_right_eq_some, Bool.and_eq_true,
    Option.isNone_iff_eq_none, Option.some.injEq, and_assoc, eq_comm (b := cfg')]

theorem next_step {t : τ} {choice : χ} :
    sys.next cfg (.step t choice) = some cfg' ↔
      ∃ l request shared result, cfg.threads.lookup t = some l ∧
        sys.control t l choice = some request ∧
        sys.exec t cfg.shared request.op = some (shared, result) ∧
        cfg' = { shared := shared
                 threads := cfg.threads.insert t (request.resume result) } := by
  constructor
  · intro h
    simp only [System.next] at h
    split at h
    · cases h
    next l hl =>
      split at h
      · cases h
      next request hrequest =>
        split at h
        · cases h
        next shared result hexec =>
          exact ⟨l, request, shared, result, hl, hrequest, hexec, (Option.some.inj h).symm⟩
  · rintro ⟨l, request, shared, result, hl, hrequest, hexec, rfl⟩
    simp only [System.next, hl, hrequest, hexec]

section

variable {t : τ} {l : ℓ} (hl : cfg.threads.lookup t = some l)
include hl

theorem next_own {choice : χ} :
    sys.next cfg (.step t choice) = some cfg' ↔
      ∃ request shared result, sys.control t l choice = some request ∧
        sys.exec t cfg.shared request.op = some (shared, result) ∧
        cfg' = { shared := shared
                 threads := cfg.threads.insert t (request.resume result) } := by
  rw [next_step]
  constructor
  · rintro ⟨l', request, shared, result, hl', hstep⟩
    rw [hl, Option.some.injEq] at hl'
    subst hl'
    exact ⟨request, shared, result, hstep⟩
  · rintro ⟨request, shared, result, hstep⟩
    exact ⟨l, request, shared, result, hl, hstep⟩

omit hl in
theorem next_env {e : ε} :
    sys.next cfg (.env e) = some cfg' ↔
      ∃ shared, sys.environment cfg.shared e = some shared ∧
        cfg' = { cfg with shared := shared } := by
  simp only [System.next, Option.map_eq_some_iff, eq_comm (b := cfg')]

theorem next_other {action : Action τ ℓ χ ε} (hother : ∀ choice, action ≠ .step t choice)
    (hnext : sys.next cfg action = some cfg') : cfg'.threads.lookup t = some l := by
  cases action with
  | spawn t' l' =>
    obtain ⟨hfresh, -, rfl⟩ := next_spawn.1 hnext
    refine (Finmap.lookup_insert_of_ne _ ?_).trans hl
    rintro rfl
    simp [hl] at hfresh
  | step t' choice =>
    obtain ⟨-, request, shared, result, -, -, -, rfl⟩ := next_step.1 hnext
    refine (Finmap.lookup_insert_of_ne _ ?_).trans hl
    rintro rfl
    exact hother choice rfl
  | env e =>
    obtain ⟨shared, -, rfl⟩ := next_env.1 hnext
    exact hl

theorem next_ended {action : Action τ ℓ χ ε} (hend : ∀ choice, sys.control t l choice = none)
    (hnext : sys.next cfg action = some cfg') : cfg'.threads.lookup t = some l := by
  refine next_other hl ?_ hnext
  rintro choice rfl
  obtain ⟨request, shared, result, hcontrol, -, -⟩ := (next_own hl).1 hnext
  simp [hend choice] at hcontrol

end

/-- What a proof outline keeps true: the invariant of the shared state, and
the assertion attached to the local state of each thread. -/
structure Outline (invariant : σ → Prop) (assertion : τ → ℓ → σ → Prop)
    (cfg : Config τ σ ℓ) : Prop where
  shared : invariant cfg.shared
  thread : ∀ t l, cfg.threads.lookup t = some l → assertion t l cfg.shared

/-- One step keeps a proof outline: `hstep` asks the moving thread for the
invariant, for its own next assertion and for non-interference. -/
theorem next_outline {invariant : σ → Prop} {assertion : τ → ℓ → σ → Prop}
    {ok : Config τ σ ℓ → Action τ ℓ χ ε → Prop}
    (hspawn : ∀ cfg t l, Outline invariant assertion cfg → ok cfg (.spawn t l) →
      sys.spawnable cfg t l = true → assertion t l cfg.shared)
    (hstep : ∀ cfg t choice l request shared result, Outline invariant assertion cfg →
      ok cfg (.step t choice) → cfg.threads.lookup t = some l →
      sys.control t l choice = some request →
      sys.exec t cfg.shared request.op = some (shared, result) →
      invariant shared ∧ assertion t (request.resume result) shared ∧
        ∀ other l', other ≠ t → cfg.threads.lookup other = some l' → assertion other l' shared)
    (henv : ∀ cfg e shared, Outline invariant assertion cfg → ok cfg (.env e) →
      sys.environment cfg.shared e = some shared →
      invariant shared ∧ ∀ t l, cfg.threads.lookup t = some l → assertion t l shared)
    (cfg : Config τ σ ℓ) (action : Action τ ℓ χ ε) (cfg' : Config τ σ ℓ)
    (hcfg : Outline invariant assertion cfg) (hok : ok cfg action)
    (hnext : sys.next cfg action = some cfg') : Outline invariant assertion cfg' := by
  cases action with
  | spawn t l =>
    obtain ⟨-, hspawnable, rfl⟩ := next_spawn.1 hnext
    refine ⟨hcfg.shared, fun other l' hother => ?_⟩
    rcases lookup_insert_eq_some.1 hother with ⟨rfl, rfl⟩ | ⟨-, hother⟩
    · exact hspawn cfg other l' hcfg hok hspawnable
    · exact hcfg.thread other l' hother
  | step t choice =>
    obtain ⟨l, request, shared, result, hl, hrequest, hexec, rfl⟩ := next_step.1 hnext
    obtain ⟨hshared, hown, hothers⟩ :=
      hstep cfg t choice l request shared result hcfg hok hl hrequest hexec
    refine ⟨hshared, fun other l' hother => ?_⟩
    rcases lookup_insert_eq_some.1 hother with ⟨rfl, rfl⟩ | ⟨hne, hother⟩
    · exact hown
    · exact hothers other l' hne hother
  | env e =>
    obtain ⟨shared, henvironment, rfl⟩ := next_env.1 hnext
    obtain ⟨hshared, hthreads⟩ := henv cfg e shared hcfg hok henvironment
    exact ⟨hshared, hthreads⟩

end Interleaving
