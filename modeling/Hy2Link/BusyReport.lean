import Hy2Link.Client.SingleOutcome
import Hy2Link.Client.PathBackoff
import Hy2Link.Server.PunchHandlers

/-! # How a busy responder is reported

A server whose responder has no room for another session refuses the intent of
the initiator twice: with the push `punch-busy` and with an error as the answer.
The push fails the session with the reason `peer-busy`.  The answer is read by
`classifyServerRefusal`, which knows the texts `pair-busy` and `pair-cooldown`
but not `peer-busy`, and takes it for a peer that is not ready.  What the
goroutine of the session stores comes last as a rule, and the path manager
counts it as a failure.  The intent is sent once more, and the session is
reported as busy only if the second answer is one of the texts known.
-/

namespace Hy2Link.Client.Punch

open Interleaving

/-- The error of a round trip that the server has answered with an error. -/
def serverRefusal (e : Server.PunchError) : Option (List Char) :=
  e.reason.map fun text => "服务端拒绝: ".toList ++ text.toList

/-- A failure of this reason leaves both streaks of every peer, whatever the
path manager knows of it. -/
def KeepsStreaks (peerVIP : VIP) (reason : Reason) : Prop :=
  ∀ (t : Path.Backoff) (now : Time) (dst : IPv4),
    (t.onPunchFailed now peerVIP reason.code).streaks dst = t.streaks dst

def busyText : List Char := (serverRefusal .peerBusy).getD []

def pairBusyText : List Char := (serverRefusal (.start .pairBusy)).getD []

def cooldownText : List Char := (serverRefusal (.start .pairCooldown)).getD []

/-- What the goroutine meets with while its intent is with the server, `left`
being what is left of its time: the first intent is refused because the
responder is busy, there is time for a second one, the session is not cancelled
before it is sent, and the server, which has room by then, lets the pair wait. -/
def MeetPC.hears (left : Time) (choice : Choice) : MeetPC → Bool
  | .trip 0 (.away _) => choice = .refused busyText
  | .retry i _ => canRetry left (punchQueryTimeout + intentBackoff i)
  | .pause _ _ => choice = .timer
  | .trip _ .lock => choice = .go
  | .trip _ (.away _) => choice = .refused pairBusyText || choice = .refused cooldownText
  | _ => true

def HeardBusy (cfg : SessionConfig) : SessionAction → Bool
  | .step .own choice =>
    match cfg.threads.lookup .own with
    | some (.own (.stage (.meet pc))) => pc.hears cfg.shared.remaining choice
    | _ => true
  | _ => true

/-! ## What the steps write -/

inductive FailReport (reason : Reason) (s s' : Shared) : FailPC → Prop
  | begin (hreason : s'.reason = some reason) (hfailures : s'.failures = s.failures) :
      FailReport reason s s' .begin
  | notify (hreason : s'.reason = s.reason) (hfailures : s'.failures = s.failures ++ [reason]) :
      FailReport reason s s' .notify
  | other (hbegin : pc ≠ .begin) (hreason : s'.reason = s.reason)
      (hfailures : s'.failures = s.failures) : FailReport reason s s' pc

variable {plan : Plan} {pc : OwnPC}

theorem failReport_of_step {pc : FailPC} (hstep : FailStep reason s pc s' next) :
    FailReport reason s s' pc := by
  cases hstep with
  | begin => exact .begin rfl rfl
  | notify => exact .notify rfl rfl
  | closeAll hstep =>
    have hsame := sameOutcome_of_closeAll hstep
    exact .other nofun hsame.reason hsame.failures
  | _ => exact .other nofun rfl rfl

def OwnPC.told : OwnPC → Bool
  | .stage _ => false
  | .failing _ .begin _ => false
  | .succeeding .begin _ => false
  | _ => true

theorem told_of_step (hstep : OwnStep plan s choice pc s' pc') (htold : pc'.told = false) :
    ∃ st, pc = .stage st := by
  have hleave : ∀ tail, (plan.leave tail).told = true := by
    intro tail
    unfold Plan.leave
    split <;> rfl
  cases hstep with
  | stage => exact ⟨_, rfl⟩
  | failing hstep =>
    cases hstep with
    | absent | notify =>
      simp [Plan.failing, hleave] at htold
    | @closeAll _ _ next hstep =>
      cases next with
      | _ => cases htold
    | _ => cases htold
  | @succeeding _ resume _ _ hstep =>
    cases hstep with
    | finish =>
      cases resume with
      | none =>
        simp [Plan.succeeding, Option.elim, hleave] at htold
      | some due => cases htold
    | _ => cases htold
  | served =>
    simp [hleave] at htold
  | _ => cases htold

/-! ## One step -/

/-- Nothing but `peer-busy` is stored or reported. -/
structure OnlyBusy (s s' : Shared) : Prop where
  reason : s'.reason = s.reason ∨ s'.reason = some .peerBusy
  failures : s'.failures = s.failures ∨ s'.failures = s.failures ++ [.peerBusy]

theorem SameOutcome.onlyBusy (h : SameOutcome s s') : OnlyBusy s s' :=
  ⟨.inl h.reason, .inl h.failures⟩

theorem FailReport.onlyBusy {pc : FailPC} (h : FailReport .peerBusy s s' pc) : OnlyBusy s s' := by
  cases h with
  | begin hreason hfailures => exact ⟨.inr hreason, .inl hfailures⟩
  | notify hreason hfailures => exact ⟨.inl hreason, .inr hfailures⟩
  | other _ hreason hfailures => exact ⟨.inl hreason, .inl hfailures⟩

theorem onlyBusy_of_stage {result : request.Result}
    (hcontrol : stageControl plan choice st = some request)
    (hexec : exec plan s request.op = some (s', result)) : OnlyBusy s s' := by
  have heffect : StageEffect s s' → OnlyBusy s s' := by
    intro h
    cases h with
    | _ => exact ⟨.inl rfl, .inl rfl⟩
  have hrun : ∀ {Result : Type} (op : RunOp Result) (result : Result),
      exec plan s op.toSession = some (s', result) → OnlyBusy s s' := by
    intro Result op result hexec
    cases op with
    | stage op => exact heffect (stageEffect_of_exec hexec)
    | resource op =>
      rw [(exec_resource hexec).1]
      exact (sameOutcome_of_execResource s op).onlyBusy
  cases st with
  | query pc | meet pc | hole pc | probe pc =>
    obtain ⟨request, -, rfl⟩ := Option.map_eq_some_iff.1 hcontrol
    exact heffect (stageEffect_of_exec hexec)
  | socket pc | handshake pc =>
    obtain ⟨request, -, rfl⟩ := Option.map_eq_some_iff.1 hcontrol
    exact hrun _ _ hexec

theorem onlyBusy_of_step (hstep : LocalStep plan s choice l s' l') (hown : l.thread ≠ .own) :
    OnlyBusy s s' := by
  cases hstep with
  | own => exact absurd rfl hown
  | events hstep =>
    cases hstep with
    | failing hstep | failed hstep => exact (failReport_of_step hstep).onlyBusy
    | _ => exact ⟨.inl rfl, .inl rfl⟩
  | close hstep => exact (sameOutcome_of_close hstep).onlyBusy
  | path hstep => exact (sameOutcome_of_path hstep).onlyBusy

def AllBusy (s : Shared) : Prop := ∀ reason ∈ s.failures, reason = .peerBusy

theorem AllBusy.step (hs : AllBusy s) (h : OnlyBusy s s') : AllBusy s' := by
  intro reason hreason
  rcases h.failures with hsame | hmore
  · exact hs reason (hsame ▸ hreason)
  · rw [hmore, List.mem_append, List.mem_singleton] at hreason
    exact hreason.elim (hs reason) id

/-- The goroutine is in one of the two round trips of its intent or between
them, or it fails with `peer-busy`, or it has done so. -/
def OwnPC.Course (s : Shared) : OwnPC → Prop
  | .stage (.meet (.trip i pc)) => i = 1 ∨ i = 0 ∧ ∃ due, pc = .away due
  | .stage (.meet (.retry i _)) => i = 0
  | .stage (.meet (.pause i _)) => i = 0
  | .failing reason pc _ => reason = .peerBusy ∧ (pc = .begin ∨ s.reason = some .peerBusy)
  | .stage _ | .succeeding _ _ | .serving _ _ => False
  | _ => s.reason = some .peerBusy

theorem OwnPC.Course.step (hs : pc.Course s) (h : OnlyBusy s s') : pc.Course s' := by
  have hreason : s.reason = some .peerBusy → s'.reason = some .peerBusy := fun hs =>
    h.reason.elim (fun hsame => hsame.trans hs) id
  cases pc with
  | stage st =>
    cases st with
    | meet pc => cases pc <;> exact hs
    | _ => exact hs
  | failing reason pc tail => exact ⟨hs.1, hs.2.imp id hreason⟩
  | succeeding | serving => exact hs
  | _ => exact hreason hs

theorem meet_course {pc : MeetPC} {result : request.Result}
    (hcontrol : stageControl plan choice (.meet pc) = some request)
    (hexec : exec plan s request.op = some (s', result))
    (hhears : pc.hears s.remaining choice = true) (hs : (OwnPC.stage (.meet pc)).Course s) :
    (request.resume result).Course s' := by
  cases pc with
  | trip i pc =>
    rcases hs with rfl | ⟨rfl, due, rfl⟩
    · cases pc with
      | lock =>
        obtain rfl : choice = .go := by simpa [MeetPC.hears] using hhears
        cases hcontrol
        cases hexec
        exact .inl rfl
      -- both texts are read as `peer-busy`
      | away due =>
        have hanswer : choice = .refused pairBusyText ∨ choice = .refused cooldownText := by
          simpa [MeetPC.hears] using hhears
        rcases hanswer with rfl | rfl <;> cases hcontrol <;> cases hexec
        · exact ⟨by decide +kernel, .inl rfl⟩
        · exact ⟨by decide +kernel, .inl rfl⟩
    · obtain rfl : choice = .refused busyText := by simpa [MeetPC.hears] using hhears
      cases hcontrol
      cases hexec
      rfl
  | retry i text =>
    cases hcontrol
    cases hexec
    have hretry : canRetry s.remaining (punchQueryTimeout + intentBackoff i) = true := hhears
    simp only [Request.map, Request.lift, hretry, if_true]
    exact hs
  | pause i due =>
    obtain rfl : choice = .timer := by simpa [MeetPC.hears] using hhears
    cases hcontrol
    simp only [exec, execStage, Request.map, Request.lift, Option.ite_none_right_eq_some] at hexec
    obtain ⟨-, hexec⟩ := hexec
    cases hexec
    exact .inl (congrArg (· + 1) hs)
  | _ => cases hs

theorem failing_course (hreason : s.reason = some .peerBusy) :
    (plan.failing .peerBusy tail next).Course s := by
  cases next with
  | some pc => exact ⟨rfl, .inr hreason⟩
  | none =>
    rw [Plan.failing, Plan.leave]
    split <;> exact hreason

theorem own_course {pc' : OwnPC} (hstep : OwnStep plan s choice pc s' pc')
    (hhears : ∀ meet, pc = .stage (.meet meet) → meet.hears s.remaining choice = true)
    (hs : pc.Course s) : pc'.Course s' ∧ OnlyBusy s s' := by
  cases hstep with
  | @stage st _ _ _ hcontrol hexec =>
    cases st with
    | meet pc =>
      exact ⟨meet_course hcontrol hexec (hhears pc rfl) hs, onlyBusy_of_stage hcontrol hexec⟩
    | _ => cases hs
  | failing hstep =>
    obtain ⟨rfl, hbegun⟩ := hs
    have hreport := failReport_of_step hstep
    refine ⟨failing_course ?_, hreport.onlyBusy⟩
    cases hreport with
    | begin hreason => exact hreason
    | notify hreason => exact hreason.trans (hbegun.resolve_left nofun)
    | other hbegin hreason => exact hreason.trans (hbegun.resolve_left hbegin)
  | succeeding | serving | served => cases hs
  | _ => exact ⟨hs, .inl rfl, .inl rfl⟩

/-! ## Runs -/

/-- A step is one of the session's goroutine, or it leaves that where it is. -/
theorem own_or_other (htyped : Typed cfg) (hnext : (system plan).next cfg action = some cfg') :
    (cfg'.threads.lookup .own = cfg.threads.lookup .own ∧ OnlyBusy cfg.shared cfg'.shared) ∨
      ∃ choice pc pc', action = .step .own choice ∧ cfg.threads.lookup .own = some (.own pc) ∧
        cfg'.threads.lookup .own = some (.own pc') ∧
        OwnStep plan cfg.shared choice pc cfg'.shared pc' := by
  cases action with
  | spawn t l =>
    obtain ⟨hnone, -, rfl⟩ := next_spawn.1 hnext
    obtain ⟨own, hown⟩ := htyped.own
    have hne : Thread.own ≠ t := by
      rintro rfl
      simp [hown] at hnone
    exact .inl ⟨Finmap.lookup_insert_of_ne _ hne, .inl rfl, .inl rfl⟩
  | step t choice =>
    obtain ⟨l, s', l', hl, hstep, rfl⟩ := next_local hnext
    have hthread := htyped.thread t l hl
    by_cases hown : l.thread = .own
    · obtain rfl := hown.symm.trans hthread
      cases hstep with
      | own hstep => exact .inr ⟨choice, _, _, rfl, hl, Finmap.lookup_insert _, hstep⟩
      | _ => cases hown
    · have hne : Thread.own ≠ t := by
        rintro rfl
        exact hown hthread
      exact .inl ⟨Finmap.lookup_insert_of_ne _ hne, onlyBusy_of_step hstep hown⟩
  | env e =>
    obtain ⟨shared, henv, rfl⟩ := next_env.1 hnext
    exact .inl ⟨rfl, (sameOutcome_of_environment henv).onlyBusy⟩

structure OnCourse (cfg : SessionConfig) : Prop where
  typed : Typed cfg
  course : ∀ pc, cfg.threads.lookup .own = some (.own pc) → pc.Course cfg.shared
  failures : AllBusy cfg.shared

/-- A session that has heard nothing but `peer-busy` stays on its way to that
verdict. -/
theorem onCourse_step (cfg : SessionConfig) (action : SessionAction) (cfg' : SessionConfig)
    (hcfg : OnCourse cfg) (hheard : HeardBusy cfg action = true)
    (hnext : (system plan).next cfg action = some cfg') : OnCourse cfg' := by
  have htyped := hcfg.typed.step hnext
  rcases own_or_other hcfg.typed hnext with ⟨hown, honly⟩ | ⟨choice, pc, pc', rfl, hpc, hpc', hstep⟩
  · exact ⟨htyped, fun pc hpc => (hcfg.course pc (hown ▸ hpc)).step honly, hcfg.failures.step honly⟩
  · obtain ⟨hcourse, honly⟩ := own_course hstep
      (fun meet hmeet => by simpa [HeardBusy, hpc, hmeet] using hheard) (hcfg.course pc hpc)
    refine ⟨htyped, fun own hown => ?_, hcfg.failures.step honly⟩
    rw [hpc'] at hown
    cases hown
    exact hcourse

/-- Before the goroutine begins to end the session, only the event loop has
failed it. -/
def Unreported (cfg : SessionConfig) : Prop :=
  ∀ pc, cfg.threads.lookup .own = some (.own pc) → pc.told = false → AllBusy cfg.shared

theorem unreported_step (cfg : SessionConfig) (action : SessionAction) (cfg' : SessionConfig)
    (hcfg : Typed cfg ∧ Unreported cfg) (hnext : (system plan).next cfg action = some cfg') :
    Typed cfg' ∧ Unreported cfg' := by
  refine ⟨hcfg.1.step hnext, fun own hown htold => ?_⟩
  rcases own_or_other hcfg.1 hnext with ⟨hsame, honly⟩ | ⟨choice, pc, pc', rfl, hpc, hpc', hstep⟩
  · exact (hcfg.2 own (hsame ▸ hown) htold).step honly
  · rw [hpc'] at hown
    cases hown
    obtain ⟨st, rfl⟩ := told_of_step hstep htold
    cases hstep with
    | stage hcontrol hexec => exact (hcfg.2 _ hpc rfl).step (onlyBusy_of_stage hcontrol hexec)

/-- **A busy responder is reported as busy where the server knows the pair when
it is asked again.**  The first intent is with the server in `waiting`.  When it
is refused with `peer-busy`, and the second one with `pair-busy` or
`pair-cooldown`, the session ends with `peer-busy` and none of its failures has
advanced a streak, whether the push is delivered early, late or never. -/
theorem busy_responder_reported (plan : Plan) (manager : PunchManager) (pathMgr : Bool)
    (clock : Time) (before after : List SessionAction) (waiting cfg : SessionConfig) (due : Time)
    (hbefore : run (system plan).next (plan.initial manager pathMgr clock) before = some waiting)
    (hwaiting : waiting.threads.lookup .own =
      some (.own (.stage (.meet (.trip 0 (.away due))))))
    (hafter : run (system plan).next waiting after = some cfg)
    (hheard : Along (system plan).next (fun cfg action => HeardBusy cfg action = true) waiting
      after)
    (hended : cfg.threads.lookup .own = some (.own .ended)) :
    cfg.shared.reason = some .peerBusy ∧
      ∀ reason ∈ cfg.shared.failures, KeepsStreaks plan.peerVIP reason := by
  have hinitial : Unreported (plan.initial manager pathMgr clock) := fun _ _ _ => nofun
  obtain ⟨htyped, hunreported⟩ := run_stable unreported_step
    ⟨plan.initial_typed manager pathMgr clock, hinitial⟩ hbefore
  have hcourse : OnCourse waiting := by
    refine ⟨htyped, fun pc hpc => ?_, hunreported _ hwaiting rfl⟩
    rw [hwaiting] at hpc
    cases hpc
    exact .inr ⟨rfl, due, rfl⟩
  have hend := run_invariant onCourse_step hcourse hheard hafter
  refine ⟨hend.course _ hended, ?_⟩
  intro reason hreason t now dst
  obtain rfl := hend.failures reason hreason
  exact Path.Backoff.streaks_onPunchFailed (by decide +kernel) t now plan.peerVIP dst

/-! ## A busy responder -/

def toIntent : List SessionAction :=
  steps .own ([.go, .go, .peer ⟨true, true, .fullCone⟩ .fullCone] ++ List.replicate 8 .go)

def busyPushed : List SessionAction := steps .events (.busyPush :: List.replicate 10 .go)

/-- The intent is refused with `first`, sent again and refused with `second`. -/
def refusedTwice (first second : List Char) : List SessionAction :=
  steps .own [.refused first, .go] ++ .env (.elapse (500 * millisecond)) ::
    steps .own ([.timer, .go, .refused second] ++ List.replicate 10 .go)

def endedWith (reason : Reason) (failures : List Reason) (cfg : SessionConfig) : Bool :=
  cfg.threads.lookup .own = some (.own .ended) && cfg.threads.lookup .events = some (.events .idle)
    && cfg.shared.reason = some reason && cfg.shared.failures = failures

/-- A server with two sessions to bob refuses a third one.  With the push and
without it, the session of the refused client ends with `peer-not-ready`, which
advances the streak of bob. -/
theorem busy_responder_misreported :
    (Server.everybodyOnline.handlePunchIntent (.after Server.carolInvitesBobToo) second
      "10.0.0.5".toList (Server.intentToBob "00112233445566ff")).reply = .refused .peerBusy ∧
    (run (system bobPlan).next bobInitial (toIntent ++ refusedTwice busyText busyText)).any
      (endedWith .peerNotReady [.peerNotReady]) = true ∧
    (run (system bobPlan).next bobInitial
      (toIntent ++ busyPushed ++ refusedTwice busyText busyText)).any
      (endedWith .peerNotReady [.peerBusy, .peerNotReady]) = true ∧
    (Path.Backoff.onPunchFailed ∅ 0 bobVIP Reason.peerNotReady.code).streaks 0x0a000003 =
      (1, 0) := by
  refine ⟨?_, ?_, ?_, ?_⟩ <;> decide +kernel

/-- The push fails the session, and by the time of the second intent the server
has room but lets the pair wait. -/
theorem busy_responder_reported_bob :
    ∃ waiting cfg, run (system bobPlan).next bobInitial (toIntent ++ busyPushed) = some waiting ∧
      run (system bobPlan).next waiting (refusedTwice busyText cooldownText) = some cfg ∧
      cfg.shared.failures = [.peerBusy, .peerBusy] ∧ cfg.shared.reason = some .peerBusy ∧
      ∀ reason ∈ cfg.shared.failures, KeepsStreaks bobPlan.peerVIP reason := by
  obtain ⟨waiting, hbefore, hintent, hheard, cfg, hafter, hown, hfailures⟩ : ∃ waiting,
      run (system bobPlan).next bobInitial (toIntent ++ busyPushed) = some waiting ∧
      waiting.threads.lookup .own =
        some (.own (.stage (.meet (.trip 0 (.away signalTripTimeout))))) ∧
      Along (system bobPlan).next (fun cfg action => HeardBusy cfg action = true) waiting
        (refusedTwice busyText cooldownText) ∧
      ∃ cfg, run (system bobPlan).next waiting (refusedTwice busyText cooldownText) = some cfg ∧
        cfg.threads.lookup .own = some (.own .ended) ∧
        cfg.shared.failures = [.peerBusy, .peerBusy] := by
    decide +kernel
  exact ⟨waiting, cfg, hbefore, hafter, hfailures,
    busy_responder_reported bobPlan bobStarted true 0 _ _ waiting cfg _ hbefore hintent hafter
      hheard hown⟩

end Hy2Link.Client.Punch
