import Hy2Link.Client.SessionTiming

/-! # The budget of a session

When the context of an initiator's session has ended, its goroutine ends the
session as soon as the timeouts of the stage in progress are over.

`session_budget` holds for the runs in which the waits that have no deadline of
their own are over in time.  A peer that opens the stream for the probes and then
stays silent holds the session for as long as it likes:
`silent_peer_holds_session`.
-/

namespace Hy2Link.Client.Punch

open Interleaving

structure Removed (plan : Plan) (cfg : SessionConfig) : Prop where
  ended : cfg.threads.lookup .own = some (.own .ended)
  sessions : cfg.shared.manager.sessions.lookup plan.id = none
  byPeer : cfg.shared.manager.byPeer.lookup plan.peerVIP = none

/-- The goroutine can take a step, or time may pass. -/
def Lively (plan : Plan) (cfg : SessionConfig) : Prop :=
  (∃ choice, ((system plan).next cfg (.step .own choice)).isSome = true) ∨
    Punctual cfg (.env (.elapse 1))

def stageTimeouts (cfg : SessionConfig) : Time :=
  match cfg.threads.lookup .own with
  | some (.own pc) => pc.fixedTimeouts
  | _ => 0

/-- With `mid` the last state before the deadline passes, the session has been
removed in `last`, or not more has passed than the timeouts of the stage that was
in progress, and the goroutine is on its way. -/
structure WithinBudget (plan : Plan) (deadline : Time) (mid last : SessionConfig) : Prop where
  removed : Removed plan last ∨ last.shared.clock ≤ deadline + stageTimeouts mid
  lively : Removed plan last ∨ Lively plan last

/-! ## Time does not pass in a step -/

variable {pc pc' : OwnPC}

section

structure SameTime (s s' : Shared) : Prop where
  clock : s'.clock = s.clock
  deadline : s'.deadline = s.deadline

theorem sameTime_of_exec {op : SessionOp Result} {result : Result}
    (hexec : exec plan s op = some (s', result)) : SameTime s s' := by
  cases op with
  | stage op =>
    cases stageEffect_of_exec hexec with
    | _ => exact ⟨rfl, rfl⟩
  | resource op =>
    rw [(exec_resource hexec).1]
    cases op with
    | _ => exact ⟨rfl, rfl⟩
  | verdict op =>
    obtain rfl : s' = (execVerdict s op).1 := by rw [Option.some.inj hexec]
    cases op with
    | _ => exact ⟨rfl, rfl⟩
  | manager op =>
    rw [(exec_manager hexec).1]
    cases op with
    | _ => exact ⟨rfl, rfl⟩

theorem Progress.enter_ne_ended {here : PC → Stage} {next : α → OwnPC}
    (hnext : ∀ a, next a ≠ .ended) (progress : Progress PC α) :
    progress.enter here tail next ≠ .ended := by
  cases progress with
  | «at» | failed => exact nofun
  | done a => exact hnext a

theorem manager_of_ended (hstep : OwnStep plan s choice pc s' pc') (hended : pc' = .ended) :
    s'.manager = plan.endRun s := by
  have hleave : ∀ tail, plan.leave tail ≠ .ended := by
    intro tail
    unfold Plan.leave
    split <;> exact nofun
  cases hstep with
  | @stage st _ _ _ hcontrol _ =>
    cases st with
    | _ =>
      obtain ⟨request, -, rfl⟩ := Option.map_eq_some_iff.1 hcontrol
      exact absurd hended (Progress.enter_ne_ended nofun _)
  | @failing _ _ tail _ next hstep =>
    cases next with
    | none => exact absurd hended (hleave tail)
    | some pc => cases hended
  | @succeeding _ resume _ next hstep =>
    cases next with
    | none =>
      cases resume with
      | none => exact absurd hended (hleave true)
      | some due => cases hended
    | some pc => cases hended
  | served => exact absurd hended (hleave true)
  | deferred => rfl
  | _ => cases hended

theorem manager_of_release {pc : ReleasePC} (hstep : ReleaseStep s pc s' next) :
    s'.manager = s.manager := by
  cases hstep with
  | _ => rfl

theorem manager_of_closeAll {pc : CloseAllPC} (hstep : CloseAllStep s pc s' next) :
    s'.manager = s.manager := by
  cases hstep with
  | release hstep => exact manager_of_release hstep
  | _ => rfl

theorem manager_of_fail {pc : FailPC} (hstep : FailStep reason s pc s' next) :
    s'.manager = s.manager := by
  cases hstep with
  | closeAll hstep => exact manager_of_closeAll hstep
  | _ => rfl

theorem manager_of_other (hstep : LocalStep plan s choice l s' l') (hl : l.thread ≠ .own) :
    s'.manager = s.manager := by
  cases hstep with
  | own => exact absurd rfl hl
  | events hstep =>
    cases hstep with
    | failing hstep | failed hstep => exact manager_of_fail hstep
    | _ => rfl
  | close hstep =>
    cases hstep with
    | closeAll hstep | closed hstep => exact manager_of_closeAll hstep
    | _ => rfl
  | path hstep =>
    cases hstep with
    | closeConn => rfl
    | release hstep | released hstep => exact manager_of_release hstep

/-! ## The session's goroutine in a run -/

section

variable (plan : Plan) (cfg cfg' : SessionConfig) (pc : OwnPC)

/-- What a step of the system is for the session's goroutine. -/
inductive OwnMove : SessionAction → Prop
  | step {choice : Choice} {pc' : OwnPC}
      (hstep : OwnStep plan cfg.shared choice pc cfg'.shared pc')
      (hown : cfg'.threads.lookup .own = some (.own pc'))
      (hsame : SameTime cfg.shared cfg'.shared) : OwnMove (.step .own choice)
  | other (hown : cfg'.threads.lookup .own = some (.own pc))
      (hsame : SameTime cfg.shared cfg'.shared)
      (hmanager : cfg'.shared.manager = cfg.shared.manager) : OwnMove action
  | elapse (hown : cfg'.threads.lookup .own = some (.own pc))
      (hs : cfg'.shared = { cfg.shared with clock := cfg.shared.clock + d }) :
      OwnMove (.env (.elapse d))

end

theorem ownMove_of_next {cfg cfg' : SessionConfig} {action : SessionAction} (hcfg : Typed cfg)
    (hpc : cfg.threads.lookup .own = some (.own pc))
    (hnext : (system plan).next cfg action = some cfg') : OwnMove plan cfg cfg' pc action := by
  cases action with
  | spawn t l =>
    obtain ⟨hnone, -, rfl⟩ := next_spawn.1 hnext
    refine .other ?_ ⟨rfl, rfl⟩ rfl
    refine lookup_insert_eq_some.2 (.inr ⟨?_, hpc⟩)
    rintro rfl
    simp [hpc] at hnone
  | step t choice =>
    obtain ⟨l, request, s', result, hl, hcontrol, hexec, rfl⟩ := next_step.1 hnext
    have hstep := localStep_of_exec hcontrol hexec
    have hsame := sameTime_of_exec hexec
    by_cases ht : t = .own
    · subst ht
      rw [hpc] at hl
      cases hl
      generalize request.resume result = l' at hstep
      cases hstep with
      | own hstep => exact .step hstep (Finmap.lookup_insert _) hsame
    · have hother : l.thread ≠ .own := hcfg.thread t l hl ▸ ht
      exact .other (lookup_insert_eq_some.2 (.inr ⟨Ne.symm ht, hpc⟩)) hsame
        (manager_of_other hstep hother)
  | env e =>
    obtain ⟨s', henv, rfl⟩ := next_env.1 hnext
    cases e with
    | elapse d =>
      cases henv
      exact .elapse hpc rfl
    | setPathMgr present =>
      cases henv
      exact .other hpc ⟨rfl, rfl⟩ rfl

/-- What holds of the time at a program point of an initiator. -/
structure OwnPC.Timely (plan : Plan) (pc : OwnPC) (s : Shared) : Prop where
  early : pc.early = true → s.clock ≤ s.deadline
  timer : ∀ due, pc.wait = .timer due → due ≤ s.deadline + pc.fixedTimeouts
  role : pc.responding = false
  gone : pc = .ended → s.manager.sessions.lookup plan.id = none ∧
    s.manager.byPeer.lookup plan.peerVIP = none

theorem OwnPC.wait_of_early (hearly : pc.early = true) (hrole : pc.responding = false) :
    pc ≠ .ended ∧ ∀ due, pc.wait ≠ .timer due := by
  cases pc with
  | stage st =>
    refine ⟨nofun, fun due hdue => ?_⟩
    cases st with
    | query pc | meet pc =>
      cases pc with
      | trip i pc =>
        cases pc with
        | lock => cases hdue
        | away due => cases hearly
      | _ => cases hdue
    | socket pc => cases hearly
    | hole pc =>
      cases pc with
      | _ => cases hdue
    | handshake pc =>
      cases pc with
      | waitListening => cases hrole
      | _ => cases hdue
    | probe pc =>
      cases pc with
      | readEcho => cases hrole
      | _ => cases hdue
  | succeeding pc resume =>
    refine ⟨nofun, fun due hdue => ?_⟩
    cases pc with
    | evicting => cases hearly
    | _ => cases hdue
  | serving due pc =>
    refine ⟨nofun, fun due hdue => ?_⟩
    cases pc with
    | _ => cases hdue
  | _ => cases hearly

theorem clock_le_of_admits {wait : Wait} (hadmits : wait.Admits s d)
    (hserved : wait = .unbounded → s.clock + d ≤ s.deadline) (hwait : ∀ due, wait ≠ .timer due)
    (hle : s.clock ≤ s.deadline) : s.clock + d ≤ s.deadline := by
  cases wait with
  | none =>
    obtain rfl : d = 0 := hadmits
    exact hle
  | context due =>
    rcases hadmits with rfl | ⟨-, hdeadline, -⟩
    · exact hle
    · exact hdeadline
  | timer due => exact absurd rfl (hwait due)
  | unbounded => exact hserved rfl

theorem OwnPC.Timely.other (hpc : pc.Timely plan s) (hsame : SameTime s s')
    (hmanager : s'.manager = s.manager) : pc.Timely plan s' where
  early := by
    rw [hsame.clock, hsame.deadline]
    exact hpc.early
  timer := by
    rw [hsame.deadline]
    exact hpc.timer
  role := hpc.role
  gone := by
    rw [hmanager]
    exact hpc.gone

theorem OwnPC.Timely.elapse (hpc : pc.Timely plan s) (hadmits : pc.wait.Admits s d)
    (hserved : pc.wait = .unbounded → pc ≠ .ended → s.clock + d ≤ s.deadline) :
    pc.Timely plan { s with clock := s.clock + d } where
  early := fun hearly => by
    obtain ⟨hended, hwait⟩ := OwnPC.wait_of_early hearly hpc.role
    exact clock_le_of_admits hadmits (fun h => hserved h hended) hwait (hpc.early hearly)
  timer := hpc.timer
  role := hpc.role
  gone := hpc.gone

theorem OwnPC.Timely.step (hpc : pc.Timely plan s) (hrole : plan.role = .initiator)
    (hstep : OwnStep plan s choice pc s' pc') (hsame : SameTime s s') : pc'.Timely plan s' := by
  have hpaced := own_paced hstep hrole hpc.role
  refine ⟨fun hearly => ?_, fun due hdue => ?_, hpaced.role, fun hended => ?_⟩
  · rw [hsame.clock, hsame.deadline]
    exact (hpaced.early hearly).elim hpc.early id
  · obtain ⟨hearly, hdue⟩ := hpaced.timer due hdue
    have hle := hpc.early hearly
    rw [hsame.deadline]
    lia
  · rw [manager_of_ended hstep hended, Plan.endRun, hrole]
    exact PunchManager.endSession_lookup _ _ _ _ _ _

/-- After the deadline the goroutine may use up `extra`. -/
structure OwnPC.Overdue (extra : Time) (pc : OwnPC) (s : Shared) : Prop where
  late : s.deadline < s.clock
  bound : pc ≠ .ended → s.clock ≤ s.deadline + extra
  timer : ∀ due, pc.wait = .timer due → due ≤ s.deadline + extra

theorem OwnPC.Overdue.other (hpc : pc.Overdue extra s) (hsame : SameTime s s') :
    pc.Overdue extra s' := by
  refine ⟨?_, ?_, ?_⟩
  · rw [hsame.clock, hsame.deadline]
    exact hpc.late
  · rw [hsame.clock, hsame.deadline]
    exact hpc.bound
  · rw [hsame.deadline]
    exact hpc.timer

theorem OwnPC.Overdue.elapse (hpc : pc.Overdue extra s) (hadmits : pc.wait.Admits s d)
    (hserved : pc.wait = .unbounded → pc ≠ .ended → s.clock + d ≤ s.deadline) :
    pc.Overdue extra { s with clock := s.clock + d } where
  late := Nat.lt_of_lt_of_le hpc.late (Nat.le_add_right _ _)
  bound := fun hended => by
    have hbound := hpc.bound hended
    have hlate := hpc.late
    generalize hwait : pc.wait = wait at hadmits hserved
    cases wait with
    | none =>
      obtain rfl : d = 0 := hadmits
      exact hbound
    | context due =>
      rcases hadmits with rfl | ⟨-, hdeadline, -⟩
      · exact hbound
      · lia
    | timer due =>
      rcases hadmits with rfl | hdue
      · exact hbound
      · exact hdue.trans (hpc.timer due hwait)
    | unbounded =>
      have := hserved rfl hended
      lia
  timer := hpc.timer

theorem OwnPC.Overdue.step (hpc : pc.Overdue extra s) (htimely : pc.Timely plan s)
    (hrole : plan.role = .initiator) (hstep : OwnStep plan s choice pc s' pc')
    (hsame : SameTime s s') : pc'.Overdue extra s' := by
  have hpaced := own_paced hstep hrole htimely.role
  have hended : pc ≠ .ended := by
    rintro rfl
    cases hstep
  refine ⟨?_, fun _ => ?_, fun due hdue => ?_⟩
  · rw [hsame.clock, hsame.deadline]
    exact hpc.late
  · rw [hsame.clock, hsame.deadline]
    exact hpc.bound hended
  · have hearly := htimely.early (hpaced.timer due hdue).1
    exact absurd hpc.late (Nat.not_lt.2 hearly)

/-! ## The goroutine is never stuck -/

def OwnPC.Enabled (plan : Plan) (pc : OwnPC) (s : Shared) : Prop :=
  ∃ choice request, ownControl plan choice pc = some request ∧
    (exec plan s request.op).isSome = true

/-- While a timer and a context are both open, time may pass. -/
theorem select_moves (hw : s.clock < t → (∀ u ∈ ctx, s.clock < u) → s.clock < w) :
    t ≤ s.clock ∨ s.ctxErr ctx = true ∨ Wait.Admits s 1 (.context (some w)) := by
  by_cases ht : t ≤ s.clock
  · exact .inl ht
  by_cases hctx : s.ctxErr ctx = true
  · exact .inr (.inl hctx)
  simp only [Shared.ctxErr, Bool.or_eq_true, decide_eq_true_eq, not_or, Option.any_eq_true,
    Bool.not_eq_true, not_exists, not_and, Nat.not_le] at ht hctx
  obtain ⟨⟨hopen, hdeadline⟩, hctx⟩ := hctx
  have hclock := hw ht hctx
  refine .inr (.inr (.inr ⟨hopen, hdeadline, fun u hu => ?_⟩))
  cases hu
  exact hclock

theorem enabled_or_admits
    (htimer : ownControl plan .timer pc = some ⟨.stage (.timer t), fun _ => next⟩)
    (hdone : ownControl plan .done pc = some ⟨.stage (.ctxDone ctx), fun _ => next'⟩)
    (hwait : pc.wait = .context (some w))
    (hw : s.clock < t → (∀ u ∈ ctx, s.clock < u) → s.clock < w) :
    pc.Enabled plan s ∨ pc.wait.Admits s 1 := by
  rcases select_moves hw with hfired | hover | hopen
  · exact .inl ⟨.timer, _, htimer, by simp [exec, execStage, hfired]⟩
  · exact .inl ⟨.done, _, hdone, by simp [exec, execStage, hover]⟩
  · rw [hwait]
    exact .inr hopen

theorem stage_moves (plan : Plan) (s : Shared) (st : Stage) :
    (OwnPC.stage st).Enabled plan s ∨ (OwnPC.stage st).wait.Admits s 1 := by
  cases st with
  | query pc =>
    cases pc with
    | trip i pc =>
      cases pc with
      | lock | away => exact .inl ⟨.fails, _, rfl, rfl⟩
    | pause i due => exact enabled_or_admits rfl rfl rfl fun hdue _ => hdue
    | _ => exact .inl ⟨.go, _, rfl, rfl⟩
  | socket pc | hole pc =>
    cases pc with
    | _ => exact .inl ⟨.go, _, rfl, rfl⟩
  | meet pc =>
    cases pc with
    | trip i pc =>
      cases pc with
      | lock | away => exact .inl ⟨.go, _, rfl, rfl⟩
    | pause | waitPeer => exact enabled_or_admits rfl rfl rfl fun hdue _ => hdue
    | _ => exact .inl ⟨.go, _, rfl, rfl⟩
  | handshake pc =>
    cases pc with
    | dialPause due pause =>
      exact enabled_or_admits rfl rfl rfl fun hpause hdue => lt_min (hdue due rfl) hpause
    | abandon todo reason =>
      cases todo with
      | _ => exact .inl ⟨.go, _, rfl, rfl⟩
    | _ => exact .inl ⟨.go, _, rfl, rfl⟩
  | probe pc =>
    cases pc with
    | roundPause due i got pause =>
      exact enabled_or_admits rfl rfl rfl fun hpause hdue => lt_min (hdue due rfl) hpause
    | _ => exact .inl ⟨.go, _, rfl, rfl⟩

theorem own_moves (plan : Plan) (s : Shared) (hpc : pc ≠ .ended) :
    pc.Enabled plan s ∨ pc.wait.Admits s 1 := by
  cases pc with
  | stage st => exact stage_moves plan s st
  | failing reason pc tail =>
    cases pc with
    | closeAll pc =>
      cases pc with
      | check => exact .inl ⟨.go, _, rfl, rfl⟩
      | release pc =>
        cases pc with
        | take => exact .inl ⟨.go, _, rfl, rfl⟩
        | closing todo sock =>
          cases todo with
          | _ => exact .inl ⟨.go, _, rfl, rfl⟩
    | _ => exact .inl ⟨.go, _, rfl, rfl⟩
  | succeeding pc resume =>
    cases pc with
    | vip => exact .inl ⟨.fails, _, rfl, rfl⟩
    | _ => exact .inl ⟨.go, _, rfl, rfl⟩
  | serving due pc =>
    cases pc with
    | _ => exact .inl ⟨.go, _, rfl, rfl⟩
  | ended => exact absurd rfl hpc
  | _ => exact .inl ⟨.go, _, rfl, rfl⟩

theorem lively_of_own (hpc : cfg.threads.lookup .own = some (.own pc)) (hended : pc ≠ .ended) :
    Lively plan cfg := by
  rcases own_moves plan cfg.shared hended with ⟨choice, request, hcontrol, hexec⟩ | hadmits
  · obtain ⟨⟨s', result⟩, hexec⟩ := Option.isSome_iff_exists.1 hexec
    have hnext : (system plan).next cfg (.step .own choice) = some
        { shared := s', threads := cfg.threads.insert .own (.own (request.resume result)) } :=
      next_step.2 ⟨_, request.map .own, s', result, hpc,
        congrArg (Option.map (Request.map Local.own)) hcontrol, hexec, rfl⟩
    exact .inl ⟨choice, Option.isSome_of_eq_some hnext⟩
  · refine .inr fun l hl pc' hpc' => ?_
    rw [hpc'] at hl
    cases hpc.symm.trans hl
    exact hadmits

/-! ## Runs -/

structure Timed (plan : Plan) (deadline : Time) (cfg : SessionConfig) (pc : OwnPC) : Prop where
  typed : Typed cfg
  own : cfg.threads.lookup .own = some (.own pc)
  deadline : cfg.shared.deadline = deadline
  timely : pc.Timely plan cfg.shared

variable {deadline : Time}

section

variable (hcfg : Timed plan deadline cfg pc)
include hcfg

theorem Timed.admits (hok : OnTime cfg (.env (.elapse d))) :
    pc.wait.Admits cfg.shared d ∧
      (pc.wait = .unbounded → pc ≠ .ended → cfg.shared.clock + d ≤ cfg.shared.deadline) :=
  ⟨hok.1 _ hcfg.own pc rfl, hok.2 _ hcfg.own pc rfl⟩

/-- A step in time keeps the session within its times. -/
theorem Timed.step (hrole : plan.role = .initiator)
    (hok : OnTime cfg action) (hnext : (system plan).next cfg action = some cfg') :
    ∃ pc', Timed plan deadline cfg' pc' ∧
      ∀ extra, pc.Overdue extra cfg.shared → pc'.Overdue extra cfg'.shared := by
  have htyped := hcfg.typed.step hnext
  cases ownMove_of_next hcfg.typed hcfg.own hnext with
  | step hstep hown hsame =>
    refine ⟨_, ⟨htyped, hown, hsame.deadline.trans hcfg.deadline, ?_⟩, fun extra hpc => ?_⟩
    · exact hcfg.timely.step hrole hstep hsame
    · exact hpc.step hcfg.timely hrole hstep hsame
  | other hown hsame hmanager =>
    refine ⟨pc, ⟨htyped, hown, hsame.deadline.trans hcfg.deadline, ?_⟩, fun extra hpc => ?_⟩
    · exact hcfg.timely.other hsame hmanager
    · exact hpc.other hsame
  | elapse hown hs =>
    obtain ⟨hadmits, hserved⟩ := hcfg.admits hok
    refine ⟨pc, ⟨htyped, hown, ?_, ?_⟩, fun extra hpc => ?_⟩
    · rw [hs]
      exact hcfg.deadline
    · rw [hs]
      exact hcfg.timely.elapse hadmits hserved
    · rw [hs]
      exact hpc.elapse hadmits hserved

theorem timed_of_run (hrole : plan.role = .initiator)
    (htime : Along (system plan).next OnTime cfg actions)
    (hrun : run (system plan).next cfg actions = some cfg') :
    ∃ pc', Timed plan deadline cfg' pc' ∧
      ∀ extra, pc.Overdue extra cfg.shared → pc'.Overdue extra cfg'.shared := by
  have hstep : ∀ now action next,
      (∃ pc', Timed plan deadline now pc' ∧
        ∀ extra, pc.Overdue extra cfg.shared → pc'.Overdue extra now.shared) →
      OnTime now action → (system plan).next now action = some next →
      ∃ pc', Timed plan deadline next pc' ∧
        ∀ extra, pc.Overdue extra cfg.shared → pc'.Overdue extra next.shared := by
    rintro now action next ⟨pc', hnow, hoverdue⟩ hok hnext
    obtain ⟨pc'', hnext, hkept⟩ := hnow.step hrole hok hnext
    exact ⟨pc'', hnext, fun extra hpc => hkept extra (hoverdue extra hpc)⟩
  exact run_invariant hstep ⟨pc, hcfg, fun _ h => h⟩ htime hrun

omit hcfg in
theorem Plan.initial_timed (hrole : plan.role = .initiator) (manager : PunchManager)
    (pathMgr : Bool) (clock : Time) :
    Timed plan (plan.deadline clock) (plan.initial manager pathMgr clock)
      (.stage (.query .setState)) := by
  have hentry : plan.entry = .stage (.query .setState) := by simp only [Plan.entry, hrole]
  obtain ⟨pc, hpc⟩ := (plan.initial_typed manager pathMgr clock).own
  refine ⟨plan.initial_typed manager pathMgr clock, ?_, rfl, fun _ => ?_, nofun, rfl, nofun⟩
  · rw [← hentry]
    exact lookup_insert_eq_some.2 (.inr ⟨by decide, Finmap.lookup_insert _⟩)
  · exact Nat.le_add_right _ _

/-- What the passing of the deadline leaves: a timer that was set before. -/
theorem Timed.overdue (hok : OnTime cfg (.env (.elapse d)))
    (hbefore : cfg.shared.clock ≤ deadline) (hpasses : deadline < cfg.shared.clock + d) :
    pc.Overdue pc.fixedTimeouts { cfg.shared with clock := cfg.shared.clock + d } := by
  obtain ⟨hadmits, hserved⟩ := hcfg.admits hok
  have hdeadline := hcfg.deadline
  refine ⟨by dsimp only; lia, fun hended => ?_, hcfg.timely.timer⟩
  by_cases hwait : ∃ due, pc.wait = .timer due
  · obtain ⟨due, hwait⟩ := hwait
    have hdue := hcfg.timely.timer due hwait
    rw [hwait] at hadmits
    rcases hadmits with rfl | hle
    · exact absurd hpasses (Nat.not_lt.2 hbefore)
    · exact hle.trans hdue
  · -- the other waits end with the budget
    have hle := clock_le_of_admits hadmits (fun h => hserved h hended)
      (fun due h => hwait ⟨due, h⟩) (hdeadline ▸ hbefore)
    rw [hdeadline] at hle
    exact absurd hpasses (Nat.not_lt.2 hle)

end

theorem Timed.removed (hcfg : Timed plan deadline cfg .ended) : Removed plan cfg :=
  ⟨hcfg.own, (hcfg.timely.gone rfl).1, (hcfg.timely.gone rfl).2⟩

/-- When the waits without a deadline are over in time, an initiator's session is
removed at the latest when its deadline and the timeouts of the stage in progress
have passed. -/
theorem session_budget (plan : Plan) (hrole : plan.role = .initiator) (manager : PunchManager)
    (pathMgr : Bool) (clock : Time) (front back : List SessionAction) (d : Time)
    (mid last : SessionConfig)
    (hfront : run (system plan).next (plan.initial manager pathMgr clock) front = some mid)
    (hbefore : mid.shared.clock ≤ plan.deadline clock)
    (hpasses : plan.deadline clock < mid.shared.clock + d)
    (hback : run (system plan).next mid (.env (.elapse d) :: back) = some last)
    (htime : Along (system plan).next OnTime (plan.initial manager pathMgr clock)
      (front ++ .env (.elapse d) :: back)) :
    WithinBudget plan (plan.deadline clock) mid last := by
  obtain ⟨htimeFront, htimeBack⟩ := along_append.1 htime
  obtain ⟨hok, htimeBack⟩ := htimeBack mid hfront
  obtain ⟨pc, hmid, -⟩ :=
    timed_of_run (plan.initial_timed hrole manager pathMgr clock) hrole htimeFront hfront
  obtain ⟨next, hnext, hback⟩ := run_cons_eq_some.1 hback
  obtain ⟨s', henv, rfl⟩ := next_env.1 hnext
  cases henv
  have hover := hmid.overdue hok hbefore hpasses
  have hlate : Timed plan (plan.deadline clock) _ pc :=
    ⟨hmid.typed.step hnext, hmid.own, hmid.deadline,
      hmid.timely.elapse (hmid.admits hok).1 (hmid.admits hok).2⟩
  obtain ⟨pc', hlast, hkept⟩ := timed_of_run hlate hrole (htimeBack _ hnext) hback
  by_cases hended : pc' = .ended
  · subst hended
    exact ⟨.inl hlast.removed, .inl hlast.removed⟩
  · refine ⟨.inr ?_, .inr (lively_of_own hlast.own hended)⟩
    have hbound := (hkept _ hover).bound hended
    rw [hlast.deadline] at hbound
    simpa only [stageTimeouts, hmid.own] using hbound

end

/-! ## A silent peer -/

instance (cfg : SessionConfig) : (action : SessionAction) → Decidable (Punctual cfg action)
  | .env (.elapse d) =>
    match h : cfg.threads.lookup .own with
    | some (.own pc) =>
      decidable_of_iff (pc.wait.Admits cfg.shared d) (by simp [Punctual, h])
    | some (.events _) => .isTrue (by simp [Punctual, h])
    | some (.close _) => .isTrue (by simp [Punctual, h])
    | some (.path _) => .isTrue (by simp [Punctual, h])
    | none => .isTrue (by simp [Punctual, h])
  | .env (.setPathMgr _) => .isTrue trivial
  | .spawn _ _ => .isTrue trivial
  | .step _ _ => .isTrue trivial

instance (cfg : SessionConfig) : (action : SessionAction) → Decidable (Served cfg action)
  | .env (.elapse d) =>
    match h : cfg.threads.lookup .own with
    | some (.own pc) =>
      decidable_of_iff
        (pc.wait = .unbounded → pc ≠ .ended →
          cfg.shared.clock + d ≤ cfg.shared.deadline) (by simp [Served, h])
    | some (.events _) => .isTrue (by simp [Served, h])
    | some (.close _) => .isTrue (by simp [Served, h])
    | some (.path _) => .isTrue (by simp [Served, h])
    | none => .isTrue (by simp [Served, h])
  | .env (.setPathMgr _) => .isTrue trivial
  | .spawn _ _ => .isTrue trivial
  | .step _ _ => .isTrue trivial

instance (cfg : SessionConfig) (action : SessionAction) : Decidable (OnTime cfg action) :=
  inferInstanceAs (Decidable (_ ∧ _))

theorem bobStarted_punch :
    newPunchManager.punchWithTrigger calm 0 0 bobVIP .manual = .ok (bobPlan.id, bobStarted) := by
  have htrim : Text.trimSpace bobVIP = bobVIP := by decide +kernel
  have hvip : bobVIP ≠ [] := by decide
  simp only [PunchManager.punchWithTrigger, htrim, if_neg hvip]
  rfl

/-- The peer opens the stream for the probes and sends nothing; an hour later the
session is still there. -/
theorem silent_peer_holds_session :
    newPunchManager.punchWithTrigger calm 0 0 bobVIP .manual = .ok (bobPlan.id, bobStarted) ∧
    ¬ ∀ front back d mid last,
      run (system bobPlan).next bobInitial front = some mid →
      mid.shared.clock ≤ bobPlan.deadline 0 → bobPlan.deadline 0 < mid.shared.clock + d →
      run (system bobPlan).next mid (.env (.elapse d) :: back) = some last →
      Along (system bobPlan).next Punctual bobInitial (front ++ .env (.elapse d) :: back) →
      WithinBudget bobPlan (bobPlan.deadline 0) mid last := by
  refine ⟨bobStarted_punch, fun h => ?_⟩
  obtain ⟨mid, hrun, hclock, hfixed, hown⟩ : ∃ mid,
      run (system bobPlan).next bobInitial toProbe = some mid ∧
      mid.shared.clock = 0 ∧ stageTimeouts mid = 0 ∧
      mid.threads.lookup .own = some (.own (.stage (.probe (.read (3 * second))))) := by
    decide +kernel
  have htime : Along (system bobPlan).next Punctual bobInitial
      (toProbe ++ [.env (.elapse (60 * minute))]) := by
    decide +kernel
  have hlate : bobPlan.deadline 0 < mid.shared.clock + 60 * minute := by
    rw [hclock]
    decide
  have hbudget := h toProbe [] (60 * minute) mid _ hrun
    (hclock.le.trans (Nat.zero_le _)) hlate rfl htime
  rcases hbudget.removed with hremoved | hle
  · have hended := hremoved.ended
    cases hown.symm.trans hended
  · rw [hfixed] at hle
    exact absurd hlate (Nat.not_lt.2 hle)

/-- A session that gets no answer to its query within the budget: the request is
on its way when the deadline passes. -/
def queryOverdue : List SessionAction :=
  [.step .own .go, .env (.elapse (39 * second)), .step .own .go]

def queryFails : List SessionAction :=
  steps .own (.fails :: List.replicate 12 .go)

theorem session_budget_bob :
    ∃ mid last, run (system bobPlan).next bobInitial queryOverdue = some mid ∧
      run (system bobPlan).next mid (.env (.elapse (10 * second)) :: queryFails) = some last ∧
      WithinBudget bobPlan (bobPlan.deadline 0) mid last := by
  obtain ⟨mid, hrun, hclock, last, hlast, -⟩ : ∃ mid,
      run (system bobPlan).next bobInitial queryOverdue = some mid ∧
      mid.shared.clock = 39 * second ∧
      ∃ last, run (system bobPlan).next mid (.env (.elapse (10 * second)) :: queryFails) =
        some last ∧ True := by
    decide +kernel
  have htime : Along (system bobPlan).next OnTime bobInitial
      (queryOverdue ++ .env (.elapse (10 * second)) :: queryFails) := by
    decide +kernel
  refine ⟨mid, last, hrun, hlast, ?_⟩
  refine session_budget bobPlan rfl bobStarted true 0 queryOverdue queryFails (10 * second) mid
    last hrun ?_ ?_ hlast htime
  · rw [hclock]
    decide
  · rw [hclock]
    decide

end Hy2Link.Client.Punch
