import Hy2Link.Client.ReleaseCustody

/-! # The release of a session's resources

When the run function of a session has returned, what the session has made is
closed, or one accepted path will close all of it.

`session_release` holds for the runs in which the releases come in order.  Out
of order, the socket stays open: `early_close_leaks_socket`.
-/

namespace Hy2Link.Client.Punch

open Interleaving

def closesPath : SessionAction → Bool
  | .spawn .path (.path .closeConn) => true
  | .step .path _ => true
  | _ => false

/-- There is one path, and its close, run to its end, closes every resource. -/
structure OwnedByPath (plan : Plan) (cfg : SessionConfig) : Prop where
  single : cfg.shared.paths.length = 1
  closes : ∃ actions last, (∀ a ∈ actions, closesPath a = true) ∧
    run (system plan).next cfg actions = some last ∧
    last.threads.lookup .path = some (.path .ended) ∧
    ∀ r ∈ cfg.shared.created, r ∈ last.shared.closed

def Released (plan : Plan) (cfg : SessionConfig) : Prop :=
  Returned cfg →
    (∀ r ∈ cfg.shared.created, r ∈ cfg.shared.closed) ∨ OwnedByPath plan cfg

variable {pc : PathPC} {r : Resource}

section

variable {plan : Plan} {cfg cfg' : SessionConfig}

/-! ## The close of the path -/

def ReleasePC.Closes (s : Shared) (r : Resource) : ReleasePC → Prop
  | .take => r ∈ s.fields ∧ (r = .socket → s.sockClose = false)
  | .closing todo sock => r ∈ todo ∨ r = .socket ∧ sock = true ∧ s.sockClose = false

def PathPC.Closes (s : Shared) (r : Resource) : PathPC → Prop
  | .closeConn => r = .conn ∨ ReleasePC.take.Closes s r
  | .release pc => pc.Closes s r
  | .ended => False

structure Closed (plan : Plan) (cfg : SessionConfig) (pc : PathPC) (actions : List SessionAction)
    (last : SessionConfig) : Prop where
  path : ∀ a ∈ actions, closesPath a = true
  run : run (system plan).next cfg actions = some last
  ended : last.threads.lookup .path = some (.path .ended)
  kept : ∀ r ∈ cfg.shared.closed, r ∈ last.shared.closed
  closes : ∀ r, pc.Closes cfg.shared r → r ∈ last.shared.closed

theorem next_path (request : Request SessionOp PathPC) (result : request.Result)
    (hl : cfg.threads.lookup .path = some (.path pc)) (hcontrol : pathControl pc = some request)
    (hexec : exec plan cfg.shared request.op = some (s', result))
    (hpc' : request.resume result = pc') :
    (system plan).next cfg (.step .path .go) =
      some { shared := s', threads := cfg.threads.insert .path (.path pc') } := by
  refine next_step.2 ⟨_, request.map .path, s', result, hl, ?_, hexec, ?_⟩
  · exact congrArg (Option.map (Request.map Local.path)) hcontrol
  · rw [← hpc']
    rfl

theorem Closed.step (hnext : (system plan).next cfg (.step .path .go) =
      some { shared := s', threads := cfg.threads.insert .path (.path pc') })
    (hrest : Closed plan { shared := s', threads := cfg.threads.insert .path (.path pc') } pc'
      actions last) (hkept : ∀ r ∈ cfg.shared.closed, r ∈ s'.closed)
    (hcloses : ∀ r, pc.Closes cfg.shared r → r ∈ s'.closed ∨ pc'.Closes s' r) :
    Closed plan cfg pc (.step .path .go :: actions) last where
  path := List.forall_mem_cons.2 ⟨rfl, hrest.path⟩
  run := run_cons_eq_some.2 ⟨_, hnext, hrest.run⟩
  ended := hrest.ended
  kept := fun r hr => hrest.kept r (hkept r hr)
  closes := fun r hr => (hcloses r hr).elim (hrest.kept r) (hrest.closes r)

theorem Closed.of_ended (hl : cfg.threads.lookup .path = some (.path .ended)) :
    Closed plan cfg .ended [] cfg where
  path := fun _ ha => absurd ha List.not_mem_nil
  run := rfl
  ended := hl
  kept := fun _ hr => hr
  closes := fun _ hr => hr.elim

theorem exists_closed_of_closing (plan : Plan) (cfg : SessionConfig) (todo : List Resource)
    (sock : Bool)
    (hl : cfg.threads.lookup .path = some (.path (.release (.closing todo sock)))) :
    ∃ actions last, Closed plan cfg (.release (.closing todo sock)) actions last := by
  induction todo generalizing cfg with
  | nil =>
    have hrest : Closed plan
        { shared := (execResource cfg.shared (.sockOnce sock)).1
          threads := cfg.threads.insert .path (.path .ended) } .ended [] _ :=
      Closed.of_ended (Finmap.lookup_insert _)
    refine ⟨_, _, Closed.step (next_path _ () hl rfl rfl rfl) hrest ?_ ?_⟩
    · intro r hr
      simp only [execResource]
      split
      · exact Finset.mem_insert_of_mem hr
      · exact hr
    · rintro r (hr | ⟨rfl, rfl, hopen⟩)
      · cases hr
      · exact .inl (by simp [execResource, hopen])
  | cons x rest ih =>
    obtain ⟨actions, last, hrest⟩ := ih
      { shared := { cfg.shared with closed := insert x cfg.shared.closed }
        threads := cfg.threads.insert .path (.path (.release (.closing rest sock))) }
      (Finmap.lookup_insert _)
    refine ⟨_, last, Closed.step (next_path _ () hl rfl rfl rfl) hrest
      (fun r hr => Finset.mem_insert_of_mem hr) ?_⟩
    rintro r (hr | hr)
    · rcases List.mem_cons.1 hr with rfl | hr
      · exact .inl (Finset.mem_insert_self _ _)
      · exact .inr (.inl hr)
    · exact .inr (.inr hr)

theorem exists_closed_of_take (plan : Plan) (cfg : SessionConfig)
    (hl : cfg.threads.lookup .path = some (.path (.release .take))) :
    ∃ actions last, Closed plan cfg (.release .take) actions last := by
  obtain ⟨actions, last, hrest⟩ := exists_closed_of_closing plan
    { shared := { cfg.shared with fields := cfg.shared.fields ∩ {.socket} }
      threads := cfg.threads.insert .path
        (.path (.release (.closing cfg.shared.takeable (.socket ∈ cfg.shared.fields)))) }
    _ _ (Finmap.lookup_insert _)
  refine ⟨_, last, Closed.step (next_path _ _ hl rfl rfl rfl) hrest (fun r hr => hr) ?_⟩
  rintro r ⟨hfield, hopen⟩
  have hhands := mem_hands_of_take hfield
  simp only [ReleasePC.hands] at hhands
  split at hhands
  next hsocket =>
    rcases List.mem_cons.1 hhands with rfl | hr
    · exact .inr (.inr ⟨rfl, hsocket, hopen rfl⟩)
    · exact .inr (.inl hr)
  next => exact .inr (.inl hhands)

theorem exists_closed (plan : Plan) (cfg : SessionConfig)
    (hl : cfg.threads.lookup .path = some (.path pc)) :
    ∃ actions last, Closed plan cfg pc actions last := by
  cases pc with
  | closeConn =>
    obtain ⟨actions, last, hrest⟩ := exists_closed_of_take plan
      { shared := { cfg.shared with closed := insert .conn cfg.shared.closed }
        threads := cfg.threads.insert .path (.path (.release .take)) }
      (Finmap.lookup_insert _)
    refine ⟨_, last, Closed.step (next_path _ () hl rfl rfl rfl) hrest
      (fun r hr => Finset.mem_insert_of_mem hr) ?_⟩
    rintro r (rfl | hr)
    · exact .inl (Finset.mem_insert_self _ _)
    · exact .inr hr
  | release pc =>
    cases pc with
    | take => exact exists_closed_of_take plan cfg hl
    | closing todo sock => exact exists_closed_of_closing plan cfg todo sock hl
  | ended => exact ⟨[], cfg, Closed.of_ended hl⟩

theorem closes_of_hands (honce : SocketOnce s) (hclosing : (Local.path pc).Closing s)
    (hr : r ∈ (Local.path pc).hands) : r ∈ s.closed ∨ pc.Closes s r := by
  cases pc with
  | closeConn | ended => cases hr
  | release pc =>
    cases pc with
    | take => cases hr
    | closing todo sock =>
      obtain ⟨hsees, hsocket⟩ := hclosing _ rfl
      change r ∈ (if sock = true then Resource.socket :: todo else todo) at hr
      split at hr
      next hsock =>
        rcases List.mem_cons.1 hr with rfl | hr
        · by_cases hclose : s.sockClose = true
          · exact .inl (honce (hsocket (by simp)) hclose)
          · exact .inr (.inr ⟨rfl, hsock, by simpa using hclose⟩)
        · exact .inr (.inl hr)
      next => exact .inr (.inl hr)

theorem closes_of_field (honce : SocketOnce s) (hpc : pc.emptied = false) (hr : r ∈ s.fields) :
    r ∈ s.closed ∨ pc.Closes s r := by
  by_cases hclose : r = .socket ∧ s.sockClose = true
  · obtain ⟨rfl, hclose⟩ := hclose
    exact .inl (honce hr hclose)
  · have htake : ReleasePC.take.Closes s r := ⟨hr, fun h => by simpa [h] using hclose⟩
    cases pc with
    | closeConn => exact .inr (.inr htake)
    | release pc =>
      cases pc with
      | take => exact .inr htake
      | closing todo sock => cases hpc
    | ended => cases hpc

section

variable (hset : Settled cfg)
include hset

section

variable (hcfg : InCustody cfg)
include hcfg

section

variable (hreturned : Returned cfg)
include hreturned

theorem closed_of_kept
    (hr : Kept cfg r) :
    r ∈ cfg.shared.closed ∨
      ∃ pc, cfg.threads.lookup .path = some (.path pc) ∧ r ∈ (Local.path pc).hands := by
  rcases hr with hr | ⟨t, l, hl, hr⟩
  · exact .inl hr
  obtain ⟨hthread, -⟩ := hcfg.thread t l hl
  by_cases hpath : t = .path
  · subst hpath
    cases l with
    | path pc => exact .inr ⟨pc, hl, hr⟩
    | _ => cases hthread
  · have hmaking : l.making = [] := by
      by_cases hown : t = .own
      · subst hown
        obtain ⟨own, hown, hdone⟩ := returned_iff.1 hreturned
        rw [hl] at hown
        cases hown
        cases l with
        | own pc => exact OwnPC.making_of_emptied (OwnPC.emptied_of_returned hdone)
        | _ => rfl
      · exact Local.making_of_other (hthread ▸ hown)
    simp [Local.hands_of_outside hmaking (hset.returned hreturned t l hl hpath)] at hr

theorem closed_or_closes
    (hpath : ∀ l, cfg.threads.lookup .path = some l → l = .path pc)
    (hemptied : cfg.threads.lookup .path = none → pc.emptied = false)
    (hr : r ∈ cfg.shared.created) : r ∈ cfg.shared.closed ∨ pc.Closes cfg.shared r := by
  have hkept : Kept cfg r → r ∈ cfg.shared.closed ∨ pc.Closes cfg.shared r := by
    intro hr
    rcases closed_of_kept hset hcfg hreturned hr with hr | ⟨pc', hl, hr⟩
    · exact .inl hr
    · cases hpath _ hl
      exact closes_of_hands hcfg.shared.once (hcfg.thread _ _ hl).2.2 hr
  rcases hset.held r hr with hr' | hfield
  · exact hkept hr'
  · cases hpc : pc.emptied with
    | false => exact closes_of_field hcfg.shared.once hpc hfield
    | true =>
      cases hl : cfg.threads.lookup .path with
      | none =>
        simp [hemptied hl] at hpc
      | some l =>
        cases hpath l hl
        exact hkept (hset.taken pc hl hpc r hr)

theorem ownedByPath_of_spawn (hl : cfg.threads.lookup .path = none)
    (hone : cfg.shared.paths.length = 1) : OwnedByPath plan cfg := by
  have hnone : ∀ l, cfg.threads.lookup .path = some l → l = .path .closeConn := by
    intro l hl'
    simp [hl] at hl'
  have hspawn : (system plan).next cfg (.spawn .path (.path .closeConn)) =
      some { cfg with threads := cfg.threads.insert .path (.path .closeConn) } := by
    refine next_spawn.2 ⟨hl, ?_, rfl⟩
    have hpaths : cfg.shared.paths ≠ [] := List.length_pos_iff.1 (by omega)
    exact decide_eq_true hpaths
  obtain ⟨actions, last, hclosed⟩ := exists_closed plan
    { cfg with threads := cfg.threads.insert .path (.path .closeConn) } (Finmap.lookup_insert _)
  refine ⟨hone, .spawn .path (.path .closeConn) :: actions, last,
    List.forall_mem_cons.2 ⟨rfl, hclosed.path⟩,
    run_cons_eq_some.2 ⟨_, hspawn, hclosed.run⟩, hclosed.ended, fun r hr => ?_⟩
  exact (closed_or_closes hset hcfg hreturned hnone (fun _ => rfl) hr).elim
    (hclosed.kept r) (hclosed.closes r)

theorem ownedByPath_of_path
    (hl : cfg.threads.lookup .path = some (.path pc)) : OwnedByPath plan cfg := by
  have hne := List.length_pos_iff.2 (hcfg.thread _ _ hl).2.1
  have hle := hcfg.shared.single
  obtain ⟨actions, last, hclosed⟩ := exists_closed plan cfg hl
  refine ⟨by omega, actions, last, hclosed.path, hclosed.run, hclosed.ended, fun r hr => ?_⟩
  refine (closed_or_closes hset hcfg hreturned (fun l hl' => ?_) (fun hnone => ?_) hr).elim
    (hclosed.kept r) (hclosed.closes r)
  · rw [hl] at hl'
    exact (Option.some.inj hl').symm
  · simp [hl] at hnone

end

theorem released_of_settled : Released plan cfg := by
  intro hreturned
  obtain ⟨own, hown, hdone⟩ := returned_iff.1 hreturned
  cases hl : cfg.threads.lookup .path with
  | some l =>
    obtain ⟨hthread, -⟩ := hcfg.thread _ l hl
    cases l with
    | path pc => exact .inr (ownedByPath_of_path hset hcfg hreturned hl)
    | _ => cases hthread
  | none =>
    obtain ⟨hthread, -⟩ := hcfg.thread _ own hown
    cases own with
    | own pc =>
      rcases hset.emptied pc hown (OwnPC.emptied_of_returned hdone) with hone | hkept
      · exact .inr (ownedByPath_of_spawn hset hcfg hreturned hl hone)
      · left
        intro r hr
        rcases closed_of_kept hset hcfg hreturned (hkept r hr) with hr | ⟨pc', hl', -⟩
        · exact hr
        · simp [hl] at hl'
    | _ => cases hthread

end

end

/-- In every run in which the fields are taken in time and a session that has
succeeded is handed over, nothing that a session has made is left behind when
its run function has returned. -/
theorem session_release (plan : Plan) (manager : PunchManager) (pathMgr : Bool) (clock : Time)
    (actions : List SessionAction) (cfg : SessionConfig)
    (hrun : run (system plan).next (plan.initial manager pathMgr clock) actions = some cfg)
    (horder : Along (system plan).next (InOrder plan) (plan.initial manager pathMgr clock)
      actions) : Released plan cfg := by
  have hstep : ∀ now action next, (InCustody now ∧ Settled now) → InOrder plan now action →
      (system plan).next now action = some next → InCustody next ∧ Settled next := by
    rintro now action next ⟨hcfg, hset⟩ hok hnext
    exact ⟨inCustody_step hcfg hok hnext, settled_step hset hcfg hok hnext⟩
  obtain ⟨hcfg, hset⟩ := run_invariant hstep
    ⟨plan.initial_inCustody manager pathMgr clock, plan.initial_settled manager pathMgr clock⟩
    horder hrun
  exact released_of_settled hset hcfg

end

def handedOver : List SessionAction :=
  toProbe ++ steps .own (List.replicate 7 .go ++ .vip 0x0a000002 :: List.replicate 7 .go ++
    [.fails, .go])

theorem session_release_bob :
    ∃ cfg, run (system bobPlan).next bobInitial handedOver = some cfg ∧ Returned cfg ∧
      Released bobPlan cfg := by
  obtain ⟨cfg, hrun, hreturned⟩ : ∃ cfg,
      run (system bobPlan).next bobInitial handedOver = some cfg ∧ Returned cfg := by
    decide +kernel
  exact ⟨cfg, hrun, hreturned,
    session_release bobPlan bobStarted true 0 handedOver cfg hrun (by decide +kernel)⟩

/-- The manager is closed while the session waits for the answer to its query:
`releaseAll` uses up the one close of a socket that is not there yet.  The
session then opens its socket, and fails without being able to close it. -/
def closedTooEarly : List SessionAction :=
  steps .own [.go, .go] ++ .spawn .close (.close .cancel) ::
    steps .close [.go, .go, .go, .go, .go, .go] ++
    steps .own [.peer ⟨true, true, .fullCone⟩ .fullCone, .go, .go, .go, .go, .fails, .go, .go,
      .go, .go, .go, .go, .go, .go, .go]

/-- The socket that was opened after `closeAll` stays open. -/
theorem early_close_leaks_socket :
    ¬ ∀ actions cfg, run (system bobPlan).next bobInitial actions = some cfg →
      Released bobPlan cfg := by
  intro h
  obtain ⟨cfg, hrun, hreturned, hcreated, hopen, hpaths⟩ : ∃ cfg,
      run (system bobPlan).next bobInitial closedTooEarly = some cfg ∧ Returned cfg ∧
      .socket ∈ cfg.shared.created ∧ .socket ∉ cfg.shared.closed ∧ cfg.shared.paths = [] := by
    decide +kernel
  rcases h _ cfg hrun hreturned with hclosed | howned
  · exact hopen (hclosed _ hcreated)
  · have hone := howned.single
    simp [hpaths] at hone

end Hy2Link.Client.Punch
