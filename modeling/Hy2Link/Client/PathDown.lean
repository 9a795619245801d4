import Hy2Link.Client.PathManager

/-! # The end of a path

A path that has been given up or closed is down, and should stay so.  Most
transitions are compare-and-swaps that expect another state, but the watch
loop stores `up` after a passed trial and `rejected` after a failed one
without looking again, and nothing keeps the goroutines that end the path from
writing `down` between its look and its store.

`down_absorbing` holds for the runs in which they do not.
-/

namespace Hy2Link.Client.Path

open Interleaving

def committed (cfg : PathConfig) (p : PathId) : Bool :=
  match cfg.threads.lookup (.watch p) with
  | some ⟨.watch pc, _⟩ => pc.committed
  | _ => false

def EndPC.writesDown : EndPC → Bool
  | .demoteDown => true
  | .closeDown _ => true
  | _ => false

/-- `down` is not stored into `p` while its watch loop is between its look at
the state and its store. -/
def spares (p : PathId) (cfg : PathConfig) : PathAction → Bool
  | .step t _ =>
    match cfg.threads.lookup t with
    | some ⟨_, some (q, pc)⟩ => !(q = p && pc.writesDown && committed cfg p)
    | _ => true
  | _ => true

/-! ## Who writes the state -/

theorem end_writes (q p : PathId) (pc : EndPC) :
    (endControl q pc).op.writes p = none ∨
      q = p ∧ pc.writesDown = true ∧ (endControl q pc).op.writes p = some (none, .down) := by
  cases pc with
  | demoteDown | closeDown d =>
    by_cases hq : q = p
    · exact .inr ⟨hq, rfl, if_pos hq⟩
    · exact .inl (if_neg hq)
  | _ => exact .inl rfl

variable {cfg : PathConfig}

/-- A main program stores a state into a path only as the watch loop of the
path that is committed to it; its swaps leave `down` alone. -/
theorem MainOp.writes {op : PathOp Result} (hop : MainOp t main op) (p : PathId) :
    op.writes p = none ∨
      t = .watch p ∧ (∃ pc, main = .watch pc ∧ pc.committed = true) ∧
        (∃ state, state.judged = true ∧ op.writes p = some (none, state)) ∨
      ∃ old new, old.judged = true ∧ new.judged = true ∧ op.writes p = some (some old, new) := by
  cases hop with
  | quiet hquiet => exact .inl (PathOp.writes_of_quiet hquiet p)
  | @swap _ _ q old new hold hnew =>
    by_cases hq : q = p
    · exact .inr (.inr ⟨old, new, hold, hnew, if_pos hq⟩)
    · exact .inl (if_neg hq)
  | @store q pc state hpc hstate =>
    by_cases hq : q = p
    · subst hq
      exact .inr (.inl ⟨rfl, ⟨pc, rfl, hpc⟩, state, hstate, if_pos rfl⟩)
    · exact .inl (if_neg hq)
  | _ => exact .inl rfl

theorem watch_commits {result : request.Result} (hcontrol : watchControl p choice pc = some request)
    (hexec : exec t s request.op = some (shared, result))
    (hcommitted : (request.resume result).1.committed = true) :
    pc.committed = true ∨ s.stateOf p = some .trial := by
  have hedge := watch_edge hcontrol hexec
  generalize (request.resume result).1 = next at hedge hcommitted
  cases hedge with
  | leave hnext => cases next <;> cases hnext <;> cases hcommitted
  | arbitrate htrial | rejectRoute htrial => exact .inr htrial
  | install | setUp | setRejected => exact .inl rfl
  | _ => cases hcommitted

/-! ## The invariant -/

/-- While the path is down its watch loop is not committed to a store. -/
structure Sealed (p : PathId) (cfg : PathConfig) : Prop where
  valid : cfg.shared.Valid
  uncommitted : cfg.shared.stateOf p = some .down → committed cfg p = false

theorem committed_insert_of_ne (hne : t ≠ .watch p) :
    committed ⟨shared, cfg.threads.insert t l⟩ p = committed cfg p := by
  unfold committed
  rw [Finmap.lookup_insert_of_ne _ (Ne.symm hne)]

theorem committed_insert_watch :
    committed ⟨shared, cfg.threads.insert (.watch p) ⟨.watch pc, call⟩⟩ p = pc.committed := by
  unfold committed
  rw [Finmap.lookup_insert]

theorem committed_of_lookup (hlocal : cfg.threads.lookup (.watch p) = some ⟨.watch pc, call⟩) :
    committed cfg p = pc.committed := by
  unfold committed
  rw [hlocal]

/-- The end of a path is written only where the watch loop is not committed. -/
theorem Sealed.call_step (h : Sealed p cfg) (hspares : spares p cfg (.step t choice) = true)
    (hlocal : cfg.threads.lookup t = some ⟨main, some (q, pc)⟩)
    (hexec : exec t cfg.shared (endControl q pc).op = some (shared, result)) (call : Call) :
    Sealed p ⟨shared, cfg.threads.insert t ⟨main, call⟩⟩ ∧
      (cfg.shared.stateOf p = some .down → shared.stateOf p = some .down) := by
  have hsame : committed ⟨shared, cfg.threads.insert t ⟨main, call⟩⟩ p = committed cfg p := by
    by_cases ht : t = .watch p
    · subst ht
      unfold committed
      rw [Finmap.lookup_insert, hlocal]
      cases main <;> rfl
    · exact committed_insert_of_ne ht
  refine ⟨⟨h.valid.exec hexec, fun hdown => ?_⟩, fun hdown => ?_⟩
  · rw [hsame]
    rcases end_writes q p pc with hnone | ⟨rfl, hpc, -⟩
    · cases hstate : cfg.shared.stateOf p with
      | none => cases exec_stateOf_new hexec hstate hdown
      | some state =>
        rw [exec_stateOf h.valid hexec hstate, hnone] at hdown
        exact h.uncommitted (hstate.trans hdown)
    · simp only [spares, hlocal, hpc, Bool.and_true, decide_true, Bool.true_and,
        Bool.not_eq_true'] at hspares
      exact hspares
  · rw [exec_stateOf h.valid hexec hdown]
    rcases end_writes q p pc with hnone | ⟨-, -, hwrites⟩
    · rw [hnone]
    · rw [hwrites]

theorem Sealed.main_state (h : Sealed p cfg)
    (hlocal : cfg.threads.lookup t = some ⟨main, none⟩) (hmain : MainStep choice t main request)
    (hexec : exec t cfg.shared request.op = some (shared, result)) :
    shared.stateOf p = some .down ↔ cfg.shared.stateOf p = some .down := by
  cases hstate : cfg.shared.stateOf p with
  | none =>
    refine ⟨fun hdown => ?_, fun hnone => (by cases hnone)⟩
    cases exec_stateOf_new hexec hstate hdown
  | some state =>
    rw [exec_stateOf h.valid hexec hstate]
    rcases (main_op hmain).writes p with
      hnone | ⟨rfl, ⟨pc, rfl, hpc⟩, new, hjudged, hwrites⟩ | ⟨old, new, hold, hjudged, hwrites⟩
    · rw [hnone]
    · have hnew : new ≠ .down := PathState.judged_ne hjudged rfl
      have hne : state ≠ .down := by
        rintro rfl
        have hfree := h.uncommitted hstate
        simp [committed_of_lookup hlocal, hpc] at hfree
      simp [hwrites, hnew, hne]
    · have hnew : new ≠ .down := PathState.judged_ne hjudged rfl
      have hne : old ≠ .down := PathState.judged_ne hold rfl
      rw [hwrites]
      by_cases heq : state = old
      · simp [heq, hnew, hne]
      · simp [heq]

theorem Sealed.main_step (h : Sealed p cfg)
    (hlocal : cfg.threads.lookup t = some ⟨main, none⟩) (hmain : MainStep choice t main request)
    (hexec : exec t cfg.shared request.op = some (shared, result)) :
    Sealed p ⟨shared, cfg.threads.insert t (request.resume result)⟩ ∧
      (cfg.shared.stateOf p = some .down → shared.stateOf p = some .down) := by
  have hstate := h.main_state hlocal hmain hexec
  refine ⟨⟨h.valid.exec hexec, fun hdown => ?_⟩, hstate.2⟩
  have hbefore := hstate.1 hdown
  by_cases ht : t = .watch p
  · subst ht
    cases hmain with
    | @watch q pc inner hcontrol =>
      refine committed_insert_watch.trans (Bool.eq_false_iff.2 fun hcommitted => ?_)
      rcases watch_commits hcontrol hexec hcommitted with hpc | htrial
      · have hfree := h.uncommitted hbefore
        simp [committed_of_lookup hlocal, hpc] at hfree
      · simp [hbefore] at htrial
  · rw [committed_insert_of_ne ht]
    exact h.uncommitted hbefore

/-- A step that spares the path leaves it down. -/
theorem Sealed.step (h : Sealed p cfg) (hspares : spares p cfg action = true)
    (hstep : PathStep cfg action cfg') :
    Sealed p cfg' ∧ (cfg.shared.stateOf p = some .down → cfg'.shared.stateOf p = some .down) := by
  cases hstep with
  | @spawn t l hfresh hspawn =>
    refine ⟨⟨h.valid, fun hdown => ?_⟩, id⟩
    by_cases ht : t = .watch p
    · subst ht
      obtain ⟨main, call⟩ := l
      cases main with
      | watch pc =>
        rw [committed_insert_watch]
        cases pc with
        | ready => rfl
        | _ => simp [spawnable] at hspawn
      | _ => simp [spawnable] at hspawn
    · rw [committed_insert_of_ne ht]
      exact h.uncommitted hdown
  | call hlocal hexec => exact h.call_step hspares hlocal hexec _
  | main hlocal hmain hexec => exact h.main_step hlocal hmain hexec

theorem initial_sealed (enabled : Bool) (p : PathId) : Sealed p (initial enabled) :=
  ⟨initial_valid enabled, fun _ => rfl⟩

/-- In every run that does not store `down` into a path behind the back of its
watch loop, a path that is down stays down. -/
theorem down_absorbing (enabled : Bool) (p : PathId) (front rest : List PathAction)
    (cfg cfg' : PathConfig)
    (hspares : Along system.next (fun cfg action => spares p cfg action = true)
      (initial enabled) (front ++ rest))
    (hfront : run system.next (initial enabled) front = some cfg)
    (hdown : cfg.shared.stateOf p = some .down)
    (hrest : run system.next cfg rest = some cfg') : cfg'.shared.stateOf p = some .down := by
  obtain ⟨hspares, hspares'⟩ := along_append.1 hspares
  have hsealed : Sealed p cfg := by
    refine run_invariant ?_ (initial_sealed enabled p) hspares hfront
    intro s action next hs hok hnext
    exact (hs.step hok (pathStep_of_next hnext)).1
  have hlater : Sealed p cfg' ∧ cfg'.shared.stateOf p = some .down := by
    have hstep : ∀ s action next, (Sealed p s ∧ s.shared.stateOf p = some .down) →
        spares p s action = true → system.next s action = some next →
        Sealed p next ∧ next.shared.stateOf p = some .down := by
      rintro s action next ⟨hs, hstate⟩ hok hnext
      obtain ⟨hnew, hkeep⟩ := hs.step hok (pathStep_of_next hnext)
      exact ⟨hnew, hkeep hstate⟩
    exact run_invariant hstep ⟨hsealed, hdown⟩ (hspares' cfg hfront) hrest
  exact hlater.2

/-! ## A writer that fails during the installation -/

/-- The watch loop has seen the path on trial when a writer ends it. -/
def downBehindRun : List PathAction :=
  handoverRun 0 0 peerReq ++ passRun 0 ++ goes (.watch 0) 5 ++ writeFailsRun 0 ++
    goes (.worker 0 0) 4

/-- A writer ends the path before the watch loop looks at it. -/
def downBeforeRun : List PathAction :=
  handoverRun 0 0 peerReq ++ passRun 0 ++ goes (.watch 0) 3 ++ writeFailsRun 0 ++
    goes (.worker 0 0) 4

/-- The watch loop stores `up` over the `down` of the writer. -/
theorem down_overwritten :
    ¬ ∀ enabled p front rest cfg cfg',
      run system.next (initial enabled) front = some cfg →
      cfg.shared.stateOf p = some .down →
      run system.next cfg rest = some cfg' → cfg'.shared.stateOf p = some .down := by
  intro h
  obtain ⟨cfg, hcfg, hdown, cfg', hcfg', hup⟩ : ∃ cfg,
      run system.next (initial true) downBehindRun = some cfg ∧
      cfg.shared.stateOf 0 = some .down ∧
      ∃ cfg', run system.next cfg (goes (.watch 0) 3) = some cfg' ∧
        cfg'.shared.stateOf 0 = some .up := by
    decide +kernel
  have hdown' := h true 0 _ _ cfg cfg' hcfg hdown hcfg'
  simp [hup] at hdown'

theorem down_kept_before_check :
    ∃ cfg cfg', run system.next (initial true) downBeforeRun = some cfg ∧
      cfg.shared.stateOf 0 = some .down ∧
      run system.next cfg (goes (.watch 0) 3) = some cfg' ∧
      cfg'.shared.stateOf 0 = some .down := by
  obtain ⟨cfg, hcfg, hdown, cfg', hcfg', -⟩ : ∃ cfg,
      run system.next (initial true) downBeforeRun = some cfg ∧
      cfg.shared.stateOf 0 = some .down ∧
      ∃ cfg', run system.next cfg (goes (.watch 0) 3) = some cfg' ∧ True := by
    decide +kernel
  exact ⟨cfg, cfg', hcfg, hdown, hcfg',
    down_absorbing true 0 downBeforeRun (goes (.watch 0) 3) cfg cfg' (by decide +kernel) hcfg
      hdown hcfg'⟩

end Hy2Link.Client.Path
