import Hy2Link.Client.PunchSystem

/-! # One outcome for a session

A session is ended by one call of `fail` or `succeed`, and what that call has
stored is its outcome.  The session's own goroutine makes one such call and
then leaves.  `handleBusyPush` may make another: it looks at the state and then
fails a session whose goroutine knows nothing of it and goes on to an end of
its own.

`single_outcome` holds for the runs in which a busy push comes too late to
fail the session.
-/

namespace Hy2Link.Client.Punch

open Interleaving

/-- From `mid` to `last` at most one call has ended the session, and what it
had decided in `mid` has stayed as it was. -/
structure SingleOutcome (mid last : Shared) : Prop where
  calls : last.calls.length ≤ 1
  failures : last.failures.length ≤ 1
  kept : mid.state.decided = true → last.state = mid.state ∧ last.reason = mid.reason

/-- A busy push that finds the session finds it decided. -/
def BusyTooLate (cfg : SessionConfig) (action : SessionAction) : Prop :=
  stepOf .events action = true → cfg.threads.lookup .events = some (.events .busyCheck) →
    cfg.shared.state.decided = true

instance (cfg : SessionConfig) (action : SessionAction) : Decidable (BusyTooLate cfg action) :=
  inferInstanceAs (Decidable (_ → _ → _))

/-! ## Who decides -/

structure SameOutcome (s s' : Shared) : Prop where
  state : s'.state = s.state
  reason : s'.reason = s.reason
  calls : s'.calls = s.calls
  failures : s'.failures = s.failures

theorem sameOutcome_of_execResource (s : Shared) (op : ResourceOp Result) :
    SameOutcome s (execResource s op).1 := by
  cases op with
  | _ => exact ⟨rfl, rfl, rfl, rfl⟩

variable {pc : OwnPC} {plan : Plan}

theorem sameOutcome_of_release {pc : ReleasePC} (hstep : ReleaseStep s pc s' next) :
    SameOutcome s s' := by
  cases hstep with
  | _ => exact ⟨rfl, rfl, rfl, rfl⟩

theorem sameOutcome_of_closeAll {pc : CloseAllPC} (hstep : CloseAllStep s pc s' next) :
    SameOutcome s s' := by
  cases hstep with
  | release hstep => exact sameOutcome_of_release hstep
  | _ => exact ⟨rfl, rfl, rfl, rfl⟩

/-! ## What has been decided where -/

structure Undecided (s : Shared) : Prop where
  calls : s.calls = []
  failures : s.failures = []
  state : s.state.decided = false

structure Deciding (s : Shared) : Prop where
  calls : s.calls.length ≤ 1
  failures : s.failures = []
  state : s.state.decided = false

structure Decided (s : Shared) : Prop where
  calls : s.calls.length ≤ 1
  failures : s.failures.length ≤ 1
  state : s.state.decided = true

/-- `onPunchFailed` is called by the last step of `fail`. -/
def OwnPC.Verdict : OwnPC → Shared → Prop
  | .stage _, s => Undecided s
  | .failing _ .begin _, s => Undecided s
  | .failing _ .storeFailed _, s => Deciding s
  | .failing _ _ _, s => Decided s ∧ s.failures = []
  | .succeeding .begin _, s => Undecided s
  | .succeeding .storeReason _, s => Deciding s
  | .succeeding .storeState _, s => Deciding s
  | .succeeding _ _, s => Decided s
  | _, s => Decided s

theorem Undecided.same (hs : Undecided s) (h : SameOutcome s s') : Undecided s' :=
  ⟨h.calls.trans hs.calls, h.failures.trans hs.failures, h.state ▸ hs.state⟩

theorem Deciding.same (hs : Deciding s) (h : SameOutcome s s') : Deciding s' :=
  ⟨h.calls ▸ hs.calls, h.failures.trans hs.failures, h.state ▸ hs.state⟩

theorem Decided.same (hs : Decided s) (h : SameOutcome s s') : Decided s' :=
  ⟨h.calls ▸ hs.calls, h.failures ▸ hs.failures, h.state ▸ hs.state⟩

open Undecided

theorem OwnPC.Verdict.same (hs : pc.Verdict s) (h : SameOutcome s s') : pc.Verdict s' := by
  cases pc with
  | stage st => exact same hs h
  | failing reason pc tail =>
    cases pc with
    | begin => exact same hs h
    | storeFailed => exact Deciding.same hs h
    | _ => exact ⟨Decided.same hs.1 h, h.failures.trans hs.2⟩
  | succeeding pc resume =>
    cases pc with
    | begin => exact same hs h
    | storeReason | storeState => exact Deciding.same hs h
    | _ => exact Decided.same hs h
  | _ => exact Decided.same hs h

theorem OwnPC.Verdict.bounds (hs : pc.Verdict s) : s.calls.length ≤ 1 ∧ s.failures.length ≤ 1 := by
  have hundecided : Undecided s → s.calls.length ≤ 1 ∧ s.failures.length ≤ 1 := by
    intro h
    simp [h.calls, h.failures]
  have hdeciding : Deciding s → s.calls.length ≤ 1 ∧ s.failures.length ≤ 1 := by
    intro h
    simp [h.calls, h.failures]
  have hdecided : Decided s → s.calls.length ≤ 1 ∧ s.failures.length ≤ 1 :=
    fun h => ⟨h.calls, h.failures⟩
  cases pc with
  | stage st => exact hundecided hs
  | failing reason pc tail =>
    cases pc with
    | begin => exact hundecided hs
    | storeFailed => exact hdeciding hs
    | _ => exact hdecided hs.1
  | succeeding pc resume =>
    cases pc with
    | begin => exact hundecided hs
    | storeReason | storeState => exact hdeciding hs
    | _ => exact hdecided hs
  | _ => exact hdecided hs

/-! ## The session's goroutine -/

theorem Undecided.effect (hs : Undecided s) (h : StageEffect s s') : Undecided s' := by
  cases h with
  | none => exact hs
  | received => exact ⟨hs.calls, hs.failures, hs.state⟩
  | phase phase => exact ⟨hs.calls, hs.failures, rfl⟩

theorem Undecided.enter {here : PC → Stage} {next : α → OwnPC} (hs : Undecided s)
    (hnext : ∀ a, (next a).Verdict s) (progress : Progress PC α) :
    (progress.enter here tail next).Verdict s := by
  cases progress with
  | «at» | failed => exact hs
  | done a => exact hnext a

theorem Plan.leave_verdict (plan : Plan) (tail : Bool) (hs : Decided s) :
    (plan.leave tail).Verdict s := by
  unfold Plan.leave
  split
  · exact hs
  · exact hs

theorem stage_verdict {request : Request SessionOp OwnPC} {result : request.Result}
    (hcontrol : stageControl plan choice st = some request)
    (hexec : exec plan s request.op = some (s', result)) (hs : Undecided s) :
    (request.resume result).Verdict s' := by
  have hrun : ∀ {Result : Type} (op : RunOp Result) (result : Result),
      exec plan s op.toSession = some (s', result) → Undecided s' := by
    intro Result op result hexec
    cases op with
    | stage op => exact hs.effect (stageEffect_of_exec hexec)
    | resource op =>
      rw [(exec_resource hexec).1]
      exact hs.same (sameOutcome_of_execResource s op)
  cases st with
  | query pc | meet pc | hole pc | probe pc =>
    obtain ⟨request, -, rfl⟩ := Option.map_eq_some_iff.1 hcontrol
    have hs' := hs.effect (stageEffect_of_exec hexec)
    refine enter hs' (fun _ => ?_) (request.resume result)
    exact hs'
  | socket pc | handshake pc =>
    obtain ⟨request, -, rfl⟩ := Option.map_eq_some_iff.1 hcontrol
    have hs' := hrun _ _ hexec
    refine enter hs' (fun _ => ?_) (request.resume result)
    exact hs'

theorem fail_verdict {pc : FailPC} (hstep : FailStep reason s pc s' next)
    (hs : (OwnPC.failing reason pc tail).Verdict s) :
    (plan.failing reason tail next).Verdict s' := by
  cases hstep with
  | begin => exact ⟨by simp [hs.calls], hs.failures, hs.state⟩
  | storeFailed => exact ⟨⟨hs.calls, by simp [hs.failures], rfl⟩, hs.failures⟩
  | @closeAll pc _ next hstep =>
    have hsame := sameOutcome_of_closeAll hstep
    have hs' : Decided s' ∧ s'.failures = [] :=
      ⟨Decided.same hs.1 hsame, hsame.failures.trans hs.2⟩
    cases next with
    | none | some => exact hs'
  | finish => exact ⟨⟨hs.1.calls, hs.1.failures, hs.1.state⟩, hs.2⟩
  | present => exact hs
  | absent => exact plan.leave_verdict tail hs.1
  | notify => exact plan.leave_verdict tail ⟨hs.1.calls, by simp [hs.2], hs.1.state⟩

theorem succeed_verdict {pc : SucceedPC} (hstep : SucceedStep plan s choice pc s' next)
    (hs : (OwnPC.succeeding pc resume).Verdict s) : (plan.succeeding resume next).Verdict s' := by
  cases hstep with
  | begin => exact ⟨by simp [hs.calls], hs.failures, hs.state⟩
  | storeReason | detach | establish => exact ⟨hs.calls, hs.failures, hs.state⟩
  | storeState => exact ⟨hs.calls, by simp [hs.failures], rfl⟩
  | finish =>
    have hs' : Decided { s with finished := true } := ⟨hs.calls, hs.failures, hs.state⟩
    cases resume with
    | none => exact plan.leave_verdict true hs'
    | some due => exact hs'
  | _ => exact hs

theorem own_verdict {pc' : OwnPC} (hstep : OwnStep plan s choice pc s' pc') (hs : pc.Verdict s) :
    pc'.Verdict s' := by
  cases hstep with
  | stage hcontrol hexec => exact stage_verdict hcontrol hexec hs
  | failing hstep => exact fail_verdict hstep hs
  | succeeding hstep => exact succeed_verdict hstep hs
  | served => exact plan.leave_verdict true hs
  | serving | readyReport | reported => exact hs
  | returning | deferred => exact ⟨hs.calls, hs.failures, hs.state⟩

theorem fail_keeps {pc : FailPC} (hstep : FailStep reason s pc s' next)
    (hs : (OwnPC.failing reason pc tail).Verdict s) (hopen : s.state.decided ≠ false) :
    s'.state = s.state ∧ s'.reason = s.reason := by
  cases hstep with
  | begin => exact absurd (state hs) hopen
  | storeFailed => exact absurd (Deciding.state hs) hopen
  | closeAll hstep =>
    have := sameOutcome_of_closeAll hstep
    exact ⟨this.state, this.reason⟩
  | _ => exact ⟨rfl, rfl⟩

theorem succeed_keeps {pc : SucceedPC} (hstep : SucceedStep plan s choice pc s' next)
    (hs : (OwnPC.succeeding pc resume).Verdict s) (hopen : s.state.decided ≠ false) :
    s'.state = s.state ∧ s'.reason = s.reason := by
  cases hstep with
  | begin => exact absurd (state hs) hopen
  | storeReason | storeState => exact absurd (Deciding.state hs) hopen
  | _ => exact ⟨rfl, rfl⟩

/-- Once a state has been stored, what the goroutine still does to the outcome
is the call of `onPunchFailed`. -/
theorem own_keeps (hstep : OwnStep plan s choice pc s' pc') (hs : pc.Verdict s)
    (hdecided : s.state.decided = true) : s'.state = s.state ∧ s'.reason = s.reason := by
  have hopen : s.state.decided ≠ false := by simp [hdecided]
  cases hstep with
  | stage => exact absurd (state hs) hopen
  | failing hstep => exact fail_keeps hstep hs hopen
  | succeeding hstep => exact succeed_keeps hstep hs hopen
  | _ => exact ⟨rfl, rfl⟩

/-! ## The other goroutines -/

def EventsPC.calm : EventsPC → Bool
  | .failing _ => false
  | _ => true

theorem events_calm {pc pc' : EventsPC} (hstep : EventsStep s pc s' pc')
    (hcalm : pc.calm = true) (hlate : pc = .busyCheck → s.state.decided = true) :
    pc'.calm = true := by
  cases hstep with
  | undecided hopen =>
    simp [hlate rfl] at hopen
  | failing => cases hcalm
  | _ => rfl

theorem sameOutcome_of_events {pc pc' : EventsPC} (hstep : EventsStep s pc s' pc')
    (hcalm : pc.calm = true) : SameOutcome s s' := by
  cases hstep with
  | failing | failed => cases hcalm
  | _ => exact ⟨rfl, rfl, rfl, rfl⟩

theorem sameOutcome_of_close {pc pc' : ClosePC} (hstep : CloseStep s pc s' pc') :
    SameOutcome s s' := by
  cases hstep with
  | closeAll hstep | closed hstep => exact sameOutcome_of_closeAll hstep
  | _ => exact ⟨rfl, rfl, rfl, rfl⟩

theorem sameOutcome_of_path {pc pc' : PathPC} (hstep : PathStep s pc s' pc') :
    SameOutcome s s' := by
  cases hstep with
  | closeConn => exact ⟨rfl, rfl, rfl, rfl⟩
  | release hstep | released hstep => exact sameOutcome_of_release hstep

def Local.Judged : Local → Shared → Prop
  | .own pc, s => pc.Verdict s
  | .events pc, _ => pc.calm = true
  | _, _ => True

theorem Local.Judged.same {l : Local} (hl : l.Judged s) (h : SameOutcome s s') : l.Judged s' := by
  cases l with
  | own pc => exact OwnPC.Verdict.same hl h
  | _ => exact hl

theorem sameOutcome_of_other (hstep : LocalStep plan s choice l s' l') (hl : l.Judged s)
    (hown : l.thread ≠ .own) : SameOutcome s s' := by
  cases hstep with
  | own => exact absurd rfl hown
  | events hstep => exact sameOutcome_of_events hstep hl
  | close hstep => exact sameOutcome_of_close hstep
  | path hstep => exact sameOutcome_of_path hstep

/-! ## Runs -/

abbrev Ruled : SessionConfig → Prop :=
  Outline (fun _ => True) fun t l s => l.thread = t ∧ l.Judged s

theorem sameOutcome_of_environment (h : environment s e = some s') : SameOutcome s s' := by
  cases e with
  | _ =>
    cases h
    exact ⟨rfl, rfl, rfl, rfl⟩

theorem judged_of_step (hcfg : Ruled cfg) (hlate : BusyTooLate cfg (.step t choice))
    (hl : cfg.threads.lookup t = some l) (hstep : LocalStep plan cfg.shared choice l s' l') :
    l'.Judged s' := by
  obtain ⟨rfl, hjudged⟩ := hcfg.thread t l hl
  cases hstep with
  | own hstep => exact own_verdict hstep hjudged
  | events hstep =>
    refine events_calm hstep hjudged ?_
    rintro rfl
    exact hlate (by simp [stepOf, Local.thread]) hl
  | close | path => trivial

/-- A step leaves every goroutine with its judgement of the outcome. -/
theorem ruled_step (cfg : SessionConfig) (action : SessionAction) (cfg' : SessionConfig)
    (hcfg : Ruled cfg) (hlate : BusyTooLate cfg action)
    (hnext : (system plan).next cfg action = some cfg') : Ruled cfg' := by
  refine session_outline ?_ ?_ ?_ cfg action cfg' hcfg hlate hnext
  · intro cfg t l _ _ hspawn
    simp only [spawnable] at hspawn
    split at hspawn
    · exact ⟨rfl, trivial⟩
    · exact ⟨rfl, trivial⟩
    · cases hspawn
  · intro cfg t choice l s' l' hcfg hlate hl hstep
    refine ⟨trivial, ⟨?_, judged_of_step hcfg hlate hl hstep⟩, ?_⟩
    · exact hstep.thread.trans (hcfg.thread t l hl).1
    · intro other m hne hother
      obtain ⟨hthread, hjudged⟩ := hcfg.thread other m hother
      refine ⟨hthread, ?_⟩
      by_cases hown : l.thread = .own
      · -- only the session's goroutine has an assertion about the outcome
        cases m with
        | own pc => exact absurd (hthread.symm.trans (hown.symm.trans (hcfg.thread t l hl).1)) hne
        | _ => exact hjudged
      · exact hjudged.same (sameOutcome_of_other hstep (hcfg.thread t l hl).2 hown)
  · intro cfg e shared hcfg _ henv
    refine ⟨trivial, fun t l hl => ?_⟩
    obtain ⟨hthread, hjudged⟩ := hcfg.thread t l hl
    exact ⟨hthread, hjudged.same (sameOutcome_of_environment henv)⟩

theorem kept_step (hcfg : Ruled cfg) (hnext : (system plan).next cfg action = some cfg')
    (hdecided : cfg.shared.state.decided = true) :
    cfg'.shared.state = cfg.shared.state ∧ cfg'.shared.reason = cfg.shared.reason := by
  cases action with
  | spawn t l =>
    obtain ⟨-, -, rfl⟩ := next_spawn.1 hnext
    exact ⟨rfl, rfl⟩
  | step t choice =>
    obtain ⟨l, s', l', hl, hstep, rfl⟩ := next_local hnext
    obtain ⟨-, hjudged⟩ := hcfg.thread t l hl
    by_cases hown : l.thread = .own
    · cases hstep with
      | own hstep => exact own_keeps hstep hjudged hdecided
      | _ => cases hown
    · have := sameOutcome_of_other hstep hjudged hown
      exact ⟨this.state, this.reason⟩
  | env e =>
    obtain ⟨shared, henv, rfl⟩ := next_env.1 hnext
    have := sameOutcome_of_environment henv
    exact ⟨this.state, this.reason⟩

theorem Plan.initial_ruled (plan : Plan) (manager : PunchManager) (pathMgr : Bool)
    (clock : Time) : Ruled (plan.initial manager pathMgr clock) := by
  refine ⟨trivial, fun t l hl => ?_⟩
  rcases lookup_insert_eq_some.1 hl with ⟨rfl, rfl⟩ | ⟨-, hl⟩
  · exact ⟨rfl, rfl⟩
  rcases lookup_insert_eq_some.1 hl with ⟨rfl, rfl⟩ | ⟨-, hl⟩
  · refine ⟨rfl, ?_⟩
    have hs : Undecided (plan.newSession manager pathMgr clock) := ⟨rfl, rfl, rfl⟩
    simp only [Plan.entry]
    split
    · exact hs
    · exact hs
  · cases hl

theorem ruled_of_run (hcfg : Ruled cfg) (hlate : Along (system plan).next BusyTooLate cfg actions)
    (hrun : run (system plan).next cfg actions = some cfg') : Ruled cfg' :=
  run_invariant ruled_step hcfg hlate hrun

theorem kept_of_run (hcfg : Ruled cfg) (hlate : Along (system plan).next BusyTooLate cfg actions)
    (hrun : run (system plan).next cfg actions = some cfg')
    (hdecided : cfg.shared.state.decided = true) :
    cfg'.shared.state = cfg.shared.state ∧ cfg'.shared.reason = cfg.shared.reason := by
  have hkept : ∀ (now : SessionConfig) action next,
      (Ruled now ∧ now.shared.state = cfg.shared.state ∧
        now.shared.reason = cfg.shared.reason) → BusyTooLate now action →
      (system plan).next now action = some next →
      Ruled next ∧ next.shared.state = cfg.shared.state ∧
        next.shared.reason = cfg.shared.reason := by
    rintro now action next ⟨hnow, hstate, hreason⟩ hok hnext
    have hstep := kept_step hnow hnext (hstate ▸ hdecided)
    exact ⟨ruled_step now action next hnow hok hnext, hstep.1.trans hstate, hstep.2.trans hreason⟩
  exact (run_invariant hkept ⟨hcfg, rfl, rfl⟩ hlate hrun).2

/-- When every busy push that finds the session finds it decided, the session
has one outcome. -/
theorem single_outcome (plan : Plan) (manager : PunchManager) (pathMgr : Bool) (clock : Time)
    (front back : List SessionAction) (mid last : SessionConfig)
    (hfront : run (system plan).next (plan.initial manager pathMgr clock) front = some mid)
    (hback : run (system plan).next mid back = some last)
    (hlate : Along (system plan).next BusyTooLate (plan.initial manager pathMgr clock)
      (front ++ back)) :
    SingleOutcome mid.shared last.shared := by
  obtain ⟨hlateFront, hlateBack⟩ := along_append.1 hlate
  have hlateBack := hlateBack mid hfront
  have hmid := ruled_of_run (plan.initial_ruled manager pathMgr clock) hlateFront hfront
  have hlast := ruled_of_run hmid hlateBack hback
  have hrun : run (system plan).next (plan.initial manager pathMgr clock) (front ++ back) =
      some last := by
    rw [run_append, hfront]
    exact hback
  obtain ⟨pc, hpc⟩ := (typed_of_run hrun).own
  have hbounds := OwnPC.Verdict.bounds (hlast.thread .own _ hpc).2
  exact ⟨hbounds.1, hbounds.2, kept_of_run hmid hlateBack hback⟩

/-! ## A busy push in time -/

def busyInTime : List SessionAction :=
  toWait ++ steps .events (.busyPush :: List.replicate 10 .go) ++ waitFails

/-- The session fails twice, and its second reason replaces the first. -/
theorem busy_push_second_outcome :
    ¬ ∀ (plan : Plan) (manager : PunchManager) (pathMgr : Bool) (clock : Time)
      (front back : List SessionAction) (mid last : SessionConfig),
      run (system plan).next (plan.initial manager pathMgr clock) front = some mid →
      run (system plan).next mid back = some last → SingleOutcome mid.shared last.shared := by
  intro h
  obtain ⟨cfg, hrun, hcalls⟩ : ∃ cfg,
      run (system bobPlan).next bobInitial busyInTime = some cfg ∧
      cfg.shared.calls = [.fail .peerBusy, .fail .attemptTimeout] := by
    decide +kernel
  have hone := (h bobPlan bobStarted true 0 busyInTime [] cfg cfg hrun rfl).calls
  rw [hcalls] at hone
  exact absurd hone (by decide)

def busyLate : List SessionAction := steps .events [.busyPush, .go, .go]

theorem single_outcome_bob :
    ∃ mid last, run (system bobPlan).next bobInitial (toWait ++ waitFails) = some mid ∧
      run (system bobPlan).next mid busyLate = some last ∧ mid.shared.state = .failed ∧
      SingleOutcome mid.shared last.shared := by
  obtain ⟨mid, hmid, hfailed, last, hlast, -⟩ : ∃ mid,
      run (system bobPlan).next bobInitial (toWait ++ waitFails) = some mid ∧
      mid.shared.state = .failed ∧
      ∃ last, run (system bobPlan).next mid busyLate = some last ∧ True := by
    decide +kernel
  exact ⟨mid, last, hmid, hlast, hfailed,
    single_outcome bobPlan bobStarted true 0 (toWait ++ waitFails) busyLate mid last hmid hlast
      (by decide +kernel)⟩

end Hy2Link.Client.Punch
