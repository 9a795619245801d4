import Hy2Link.Client.PathPlaces

/-! # Arbitration between two paths

`installAfterTrial` closes a path that has passed its trial when the table has
another one to the same peer that arbitration keeps.  It looks at the roles
and the addresses only.  `terminateDown` and `evictIdle` store `down` before
they take the path out of the table, so a good path may be given up for one
that is already down.

`arbitration_keeps_live` holds for the runs in which nobody has begun to end
the path that is kept.
-/

namespace Hy2Link.Client.Path

open Interleaving

/-- The path for which the step of a watch loop discards its own path. -/
def discardsFor (cfg : PathConfig) : PathAction → Option PathId
  | .step (.watch p) _ =>
    if cfg.threads.lookup (.watch p) = some ⟨.watch .arbitrate, none⟩ then
      (cfg.shared.paths.lookup p).bind fun path =>
        (cfg.shared.existing p path).bind fun (q, keeps) => if keeps then some q else none
    else none
  | _ => none

/-- A path is discarded only for one that is up or standby. -/
def KeepsLive (cfg : PathConfig) (action : PathAction) : Prop :=
  ∀ q ∈ discardsFor cfg action,
    cfg.shared.stateOf q = some .up ∨ cfg.shared.stateOf q = some .standby

/-- Neither `terminateDown` nor `close` of the path has begun. -/
def Tables.untouched (s : Tables) (p : PathId) : Bool :=
  match s.paths.lookup p with
  | none => true
  | some path => path.closeOnce = .fresh && path.terminateOnce = .fresh

/-- A path is discarded only for one that nobody has begun to end. -/
def KeepsUntouched (cfg : PathConfig) (action : PathAction) : Prop :=
  ∀ q ∈ discardsFor cfg action, cfg.shared.untouched q = true

instance (cfg : PathConfig) (action : PathAction) : Decidable (KeepsUntouched cfg action) :=
  inferInstanceAs (Decidable (∀ q ∈ discardsFor cfg action, _))

/-! ## Who is down has been ended -/

variable {result : (endControl q pc).Result}

theorem untouched_eq_false {s : Tables} :
    s.untouched p = false ↔
      ∃ path, s.paths.lookup p = some path ∧
        (path.closeOnce ≠ .fresh ∨ path.terminateOnce ≠ .fresh) := by
  unfold Tables.untouched
  cases s.paths.lookup p with
  | none => simp
  | some path => simp [imp_iff_not_or]

def EndPC.entered : EndPC → Bool
  | .demote => false
  | .close demoting => demoting
  | _ => true

structure Ended (cfg : PathConfig) : Prop where
  down : ∀ p, cfg.shared.stateOf p = some .down → cfg.shared.untouched p = false
  call : ∀ t l p pc, cfg.threads.lookup t = some l → l.call = some (p, pc) → pc.entered = true →
    cfg.shared.untouched p = false

section Step

variable {Result : Type} {result : Result}

theorem PathOp.update_touched (op : PathOp Result) (p : PathId)
    (h : path.closeOnce ≠ .fresh ∨ path.terminateOnce ≠ .fresh) :
    (op.update p path).closeOnce ≠ .fresh ∨ (op.update p path).terminateOnce ≠ .fresh := by
  cases op with
  | enterClose q | enterTerminate q =>
    simp only [PathOp.update]
    split
    · split
      · simp
      · exact h
    · exact h
  | finishClose q | finishTerminate q =>
    simp only [PathOp.update]
    split
    · simp
    · exact h
  | _ =>
    simp only [PathOp.update]
    repeat' split
    all_goals exact h

theorem touched_exec (hvalid : s.Valid) (hexec : exec t s op = some (s', result))
    (h : s.untouched p = false) : s'.untouched p = false := by
  obtain ⟨path, hp, htouched⟩ := untouched_eq_false.1 h
  exact untouched_eq_false.2 ⟨_, exec_update hvalid hexec hp, op.update_touched p htouched⟩

theorem end_entered (hvalid : s.Valid) {result : (endControl q pc).Result}
    (hexec : exec t s (endControl q pc).op = some (s', result))
    (hcall : pc.entered = true → s.untouched q = false)
    (hnext : (endControl q pc).resume result = some pc') : s'.untouched q = false := by
  cases pc with
  | demote =>
    cases hmine : (result : Bool) with
    | false =>
      rw [hmine] at hnext
      cases hnext
    | true =>
      rw [hmine] at hexec
      obtain ⟨path, hq, hrest⟩ := Tables.onPath_eq_some.1 hexec
      rcases Tables.enterOnce_eq_some.1 hrest with ⟨-, rfl, -⟩ | ⟨-, -, hmine⟩
      · exact untouched_eq_false.2 ⟨_, Finmap.lookup_insert _, .inr nofun⟩
      · cases hmine
  | close d =>
    cases d with
    | true => exact touched_exec hvalid hexec (hcall rfl)
    | false =>
      cases hmine : (result : Bool) with
      | false =>
        rw [hmine] at hnext
        cases hnext
      | true =>
        rw [hmine] at hexec
        obtain ⟨path, hq, hrest⟩ := Tables.onPath_eq_some.1 hexec
        rcases Tables.enterOnce_eq_some.1 hrest with ⟨-, rfl, -⟩ | ⟨-, -, hmine⟩
        · exact untouched_eq_false.2 ⟨_, Finmap.lookup_insert _, .inl nofun⟩
        · cases hmine
  | _ => exact touched_exec hvalid hexec (hcall rfl)

end Step

theorem EndPC.entered_of_writesDown (h : pc.writesDown = true) : pc.entered = true := by
  cases pc with
  | demoteDown | closeDown d => rfl
  | _ => cases h

theorem not_entered_of_starts (h : starts call = true) (hcall : call = some (p, pc)) :
    pc.entered = false := by
  subst hcall
  unfold starts at h
  split at h
  next heq => cases heq
  next heq =>
    cases heq
    rfl
  next heq =>
    cases heq
    rfl
  next => cases h

theorem Ended.call_step (h : Ended cfg) (hvalid : cfg.shared.Valid)
    (hlocal : cfg.threads.lookup t = some ⟨main, some (q, pc)⟩)
    (hexec : exec t cfg.shared (endControl q pc).op = some (shared, result)) :
    Ended ⟨shared, cfg.threads.insert t
      ⟨main, ((endControl q pc).resume result).map fun pc => (q, pc)⟩⟩ := by
  have hcall : pc.entered = true → cfg.shared.untouched q = false := h.call t _ q pc hlocal rfl
  refine ⟨fun p hdown => ?_, fun t' l p pc' hlookup hcall' hentered => ?_⟩
  · refine touched_exec hvalid hexec ?_
    rcases end_writes q p pc with hnone | ⟨rfl, hpc, -⟩
    · cases hstate : cfg.shared.stateOf p with
      | none => cases exec_stateOf_new hexec hstate hdown
      | some state =>
        rw [exec_stateOf hvalid hexec hstate, hnone] at hdown
        exact h.down p (hstate.trans hdown)
    · exact hcall (EndPC.entered_of_writesDown hpc)
  · rcases lookup_insert_eq_some.1 hlookup with ⟨rfl, rfl⟩ | ⟨-, hold⟩
    · obtain ⟨next, hnext, heq⟩ := Option.map_eq_some_iff.1 hcall'
      cases heq
      exact end_entered hvalid hexec hcall hnext
    · exact touched_exec hvalid hexec (h.call t' l p pc' hold hcall' hentered)

theorem Ended.main_step (h : Ended cfg) (hvalid : cfg.shared.Valid) {result : request.Result}
    (hmain : MainStep choice t main request)
    (hexec : exec t cfg.shared request.op = some (shared, result)) :
    Ended ⟨shared, cfg.threads.insert t (request.resume result)⟩ := by
  refine ⟨fun p hdown => ?_, fun t' l p pc' hlookup hcall hentered => ?_⟩
  · refine touched_exec hvalid hexec (h.down p ?_)
    cases hstate : cfg.shared.stateOf p with
    | none => cases exec_stateOf_new hexec hstate hdown
    | some state =>
      rw [exec_stateOf hvalid hexec hstate] at hdown
      generalize hwrite : request.op.writes p = write at hdown
      cases hwrite ▸ main_writes hmain p with
      | none => exact hdown
      | up | rejected => cases hdown
      | enterStandby | exitStandby | settling =>
        dsimp only at hdown
        split at hdown
        · cases hdown
        · exact hdown
  · rcases lookup_insert_eq_some.1 hlookup with ⟨rfl, rfl⟩ | ⟨-, hold⟩
    · simp [not_entered_of_starts (main_starts hmain result) hcall] at hentered
    · exact touched_exec hvalid hexec (h.call t' l p pc' hold hcall hentered)

theorem Ended.step (h : Ended cfg) (hvalid : cfg.shared.Valid) (hstep : PathStep cfg action cfg') :
    Ended cfg' := by
  cases hstep with
  | @spawn t l hfresh hspawn =>
    refine ⟨h.down, fun t' l' p pc hlookup hcall hentered => ?_⟩
    rcases lookup_insert_eq_some.1 hlookup with ⟨rfl, rfl⟩ | ⟨-, hold⟩
    · simp [(mainFact_spawn hspawn).1] at hcall
    · exact h.call t' l' p pc hold hcall hentered
  | call hlocal hexec => exact h.call_step hvalid hlocal hexec
  | main hlocal hmain hexec => exact h.main_step hvalid hmain hexec

theorem initial_ended (enabled : Bool) : Ended (initial enabled) := by
  refine ⟨fun p hdown => ?_, fun t l p pc hlookup => ?_⟩
  · simp [initial, Tables.initial, Tables.stateOf] at hdown
  · simp [initial] at hlookup

/-! ## Decisions -/

structure Arbitrated (cfg : PathConfig) : Prop where
  ledger : Ledger cfg
  placed : Placed cfg
  ended : Ended cfg

/-- A step keeps what the decisions rely on. -/
theorem arbitrated_step (cfg : PathConfig) (action : PathAction) (cfg' : PathConfig)
    (h : Arbitrated cfg) (hnext : system.next cfg action = some cfg') : Arbitrated cfg' := by
  have hstep := pathStep_of_next hnext
  exact ⟨h.ledger.step hstep, h.placed.step h.ledger.valid hstep, h.ended.step h.ledger.valid hstep⟩

theorem initial_arbitrated (enabled : Bool) : Arbitrated (initial enabled) :=
  ⟨initial_ledger enabled, initial_placed enabled, initial_ended enabled⟩

theorem discardsFor_eq_some (h : discardsFor cfg action = some q) :
    ∃ p dst, cfg.threads.lookup (.watch p) = some ⟨.watch .arbitrate, none⟩ ∧ q ≠ p ∧
      cfg.shared.routes.lookup dst = some q := by
  unfold discardsFor at h
  split at h
  next p choice =>
    rw [Option.ite_none_right_eq_some] at h
    obtain ⟨hlocal, h⟩ := h
    obtain ⟨path, -, h⟩ := Option.bind_eq_some_iff.1 h
    obtain ⟨⟨r, keeps⟩, hexisting, h⟩ := Option.bind_eq_some_iff.1 h
    obtain ⟨-, h⟩ := Option.ite_none_right_eq_some.1 h
    cases h
    obtain ⟨hroute, hne, -⟩ := existing_eq_some hexisting
    exact ⟨p, path.peer, hlocal, hne, hroute⟩
  · cases h

/-- The watch loop then goes on to `refuse`, which gives up its path, and otherwise
to the installation. -/
theorem refuses_iff_discardsFor
    (hlocal : cfg.threads.lookup (.watch p) = some ⟨.watch .arbitrate, none⟩)
    (hnext : system.next cfg (.step (.watch p) choice) = some cfg') :
    cfg'.shared = cfg.shared ∧ ∃ pc, cfg'.threads.lookup (.watch p) = some ⟨.watch pc, none⟩ ∧
      (pc = .refuse ↔ (discardsFor cfg (.step (.watch p) choice)).isSome = true) := by
  obtain ⟨l, request, s', result, hl, hcontrol, hexec, rfl⟩ := next_step.1 hnext
  cases hlocal.symm.trans hl
  cases hcontrol
  obtain ⟨path, hp, hexec⟩ := Tables.onPath_eq_some.1 hexec
  cases hexec
  refine ⟨rfl, _, Finmap.lookup_insert _, ?_⟩
  simp only [discardsFor, hlocal, hp, if_true, Option.bind_some]
  cases cfg.shared.existing p path with
  | none => simp [goto, WatchPC.arbitrated]
  | some other =>
    obtain ⟨q, _ | _⟩ := other
    · simp [goto, WatchPC.arbitrated]
    · simp [goto, WatchPC.arbitrated]

theorem keepsLive_of_untouched (cfg : PathConfig) (action : PathAction) (h : Arbitrated cfg)
    (huntouched : KeepsUntouched cfg action) : KeepsLive cfg action := by
  intro q hq
  obtain ⟨p, dst, hlocal, hne, hroute⟩ := discardsFor_eq_some hq
  rcases h.placed.routed _ q hroute with ⟨state, hstate, hinstalled⟩ | ⟨existing, call, hsetting⟩
  · -- a path in the table is up, standby or down, and whoever is down has been ended
    cases state with
    | up => exact .inl hstate
    | standby => exact .inr hstate
    | down =>
      have htouched := h.ended.down q hstate
      simp [huntouched q hq] at htouched
    | _ => cases hinstalled
  · -- its watch loop would be inside the section together with the one that decides
    exact absurd (h.ledger.section_unique hsetting rfl hlocal rfl) hne

/-- In every run in which no path is discarded for one that somebody has begun
to end, every path is discarded for one that is up or standby. -/
theorem arbitration_keeps_live (enabled : Bool) (actions : List PathAction)
    (huntouched : Along system.next KeepsUntouched (initial enabled) actions) :
    Along system.next KeepsLive (initial enabled) actions :=
  huntouched.of_invariant (fun cfg action cfg' h _ => arbitrated_step cfg action cfg' h)
    keepsLive_of_untouched (initial_arbitrated enabled)

/-! ## Two paths to one peer -/

/-- The first path is installed, and the watch loop of the second one is about
to decide. -/
def secondDecides : List PathAction :=
  handoverRun 0 0 peerReq ++ passRun 0 ++ goes (.watch 0) 9 ++ handoverRun 1 1 peerReq ++
    passRun 1 ++ goes (.watch 1) 5

def firstDies : List PathAction := writeFailsRun 0 ++ goes (.worker 0 0) 4

/-- The first path dies after the second has been judged against it. -/
theorem path_discarded_for_dead_one :
    ¬ ∀ enabled actions, Along system.next KeepsLive (initial enabled) actions := by
  intro h
  obtain ⟨cfg, hcfg, hdiscards, hdown⟩ : ∃ cfg,
      run system.next (initial true) (secondDecides ++ firstDies) = some cfg ∧
      discardsFor cfg (.step (.watch 1) .go) = some 0 ∧ cfg.shared.stateOf 0 = some .down := by
    decide +kernel
  have hlive := (along_append.1 (h true (secondDecides ++ firstDies ++ goes (.watch 1) 1))).2
    cfg hcfg
  have hkept := hlive.1 0 hdiscards
  rw [hdown] at hkept
  rcases hkept with hkept | hkept <;> cases hkept

theorem arbitration_keeps_live_up :
    (run system.next (initial true) secondDecides).any (fun cfg =>
        discardsFor cfg (.step (.watch 1) .go) = some 0) = true ∧
      Along system.next KeepsLive (initial true) (secondDecides ++ goes (.watch 1) 1) :=
  ⟨by decide +kernel, arbitration_keeps_live true _ (by decide +kernel)⟩

/-! ## The route table -/

/-- In every run a route leads to a path to its destination that is installed or
about to be, the state of a closed path is not `trial`, and a terminated one is
closed. -/
theorem routes_sound (enabled : Bool) (actions : List PathAction) (cfg : PathConfig)
    (hrun : run system.next (initial enabled) actions = some cfg) :
    (∀ dst p, cfg.shared.routes.lookup dst = some p →
      (∃ path, cfg.shared.paths.lookup p = some path ∧ path.peer = dst) ∧
      ((∃ state, cfg.shared.stateOf p = some state ∧ state.installed = true) ∨ settingUp cfg p)) ∧
    (∀ p, cfg.shared.closed p = true → cfg.shared.offTrial p) ∧
    ∀ p, cfg.shared.terminated p = true → cfg.shared.closed p = true := by
  have h := run_stable arbitrated_step (initial_arbitrated enabled) hrun
  exact ⟨fun dst p hp => ⟨h.ledger.valid.routes dst p hp, h.placed.routed dst p hp⟩,
    h.ledger.closed, h.ledger.terminated⟩

theorem routes_sound_installed :
    ∃ cfg, run system.next (initial true) secondDecides = some cfg ∧
      ∃ path, cfg.shared.paths.lookup 0 = some path ∧ path.peer = peerReq.peer := by
  obtain ⟨cfg, hrun, hroute⟩ : ∃ cfg, run system.next (initial true) secondDecides = some cfg ∧
      cfg.shared.routes.lookup peerReq.peer = some 0 := by
    decide +kernel
  exact ⟨cfg, hrun, ((routes_sound true _ cfg hrun).1 _ 0 hroute).1⟩

end Hy2Link.Client.Path
