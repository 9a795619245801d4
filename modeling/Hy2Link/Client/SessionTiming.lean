import Hy2Link.Client.PunchSystem

/-! # How long the goroutine of a session waits

Each program point of the session's goroutine either goes on at once or waits:
until a context ends, until a timer of its own fires, or until the peer or the
server moves.  `Punctual` lets time pass only as far as the current wait goes.

`own_paced` says what the gates of the stages are for: past the deadline of the
session no new stage is begun.
-/

namespace Hy2Link.Client.Punch

open Interleaving

/-- `context` also ends with the context of the session; `timer` does not. -/
inductive Wait
  | none
  | context (due : Option Time)
  | timer (due : Time)
  | unbounded
deriving DecidableEq

def TripPC.wait : TripPC → Wait
  | .lock => .unbounded
  | .away due => .timer due

def QueryPC.wait : QueryPC → Wait
  | .trip _ pc => pc.wait
  | .pause _ due => .context (some due)
  | _ => .none

def MeetPC.wait : MeetPC → Wait
  | .discover due => .context (some due)
  | .trip _ pc => pc.wait
  | .pause _ due => .context (some due)
  | .waitPeer due => .context (some due)
  | _ => .none

def HolePC.wait : HolePC → Wait
  | .punch due => .context (some due)
  | _ => .none

def HandshakePC.wait : HandshakePC → Wait
  | .accept due => .context (some due)
  | .waitListening _ ready => .timer ready
  | .dial due _ => .context (some due)
  | .dialPause due pause => .context (some (min due pause))
  | _ => .none

/-- Neither the read of a frame nor the echo has a deadline. -/
def ProbePC.wait : ProbePC → Wait
  | .acceptStream due => .context (some due)
  | .read _ => .unbounded
  | .echo _ => .unbounded
  | .openStream due => .context (some due)
  | .roundPause due _ _ pause => .context (some (min due pause))
  | .write _ _ _ => .unbounded
  | .readEcho _ _ _ limit => .timer limit
  | _ => .none

def Stage.wait : Stage → Wait
  | .query pc => pc.wait
  | .socket _ => .none
  | .meet pc => pc.wait
  | .hole pc => pc.wait
  | .handshake pc => pc.wait
  | .probe pc => pc.wait

def OwnPC.wait : OwnPC → Wait
  | .stage st => st.wait
  | .succeeding (.evicting _ due) _ => .timer due
  | .serving _ .read => .unbounded
  | .serving _ .echo => .unbounded
  | .awaitReport due => .timer due
  | .ended => .unbounded
  | _ => .none

def Wait.Admits (s : Shared) (d : Time) : Wait → Prop
  | .none => d = 0
  | .context due =>
    d = 0 ∨ s.cancelled = false ∧ s.clock + d ≤ s.deadline ∧ ∀ t ∈ due, s.clock + d ≤ t
  | .timer due => d = 0 ∨ s.clock + d ≤ due
  | .unbounded => True

instance (s : Shared) (d : Time) : (wait : Wait) → Decidable (wait.Admits s d)
  | .none => inferInstanceAs (Decidable (d = 0))
  | .context _ => inferInstanceAs (Decidable (_ ∨ _ ∧ _ ∧ ∀ _, _ → _))
  | .timer _ => inferInstanceAs (Decidable (_ ∨ _))
  | .unbounded => .isTrue trivial

/-- Time passes only within the current wait of the session's goroutine. -/
def Punctual (cfg : SessionConfig) : SessionAction → Prop
  | .env (.elapse d) =>
    ∀ l ∈ cfg.threads.lookup .own, ∀ pc, l = .own pc → pc.wait.Admits cfg.shared d
  | _ => True

/-- A wait without a deadline is over when the budget of the session is. -/
def Served (cfg : SessionConfig) : SessionAction → Prop
  | .env (.elapse d) =>
    ∀ l ∈ cfg.threads.lookup .own, ∀ pc, l = .own pc → pc.wait = .unbounded → pc ≠ .ended →
      cfg.shared.clock + d ≤ cfg.shared.deadline
  | _ => True

def OnTime (cfg : SessionConfig) (action : SessionAction) : Prop :=
  Punctual cfg action ∧ Served cfg action

/-! ## The points that are reached within the budget -/

def QueryPC.early : QueryPC → Bool
  | .setState => true
  | .trip _ .lock => true
  | .pause _ _ => true
  | _ => false

def MeetPC.early : MeetPC → Bool
  | .discover _ => true
  | .setIntent => true
  | .cert => true
  | .trip _ .lock => true
  | .pause _ _ => true
  | .waitPeer _ => true
  | _ => false

def Stage.early : Stage → Bool
  | .query pc => pc.early
  | .socket _ => false
  | .meet pc => pc.early
  | _ => true

def SucceedPC.early : SucceedPC → Bool
  | .evicting _ _ => false
  | .establish _ => false
  | .finish => false
  | _ => true

def OwnPC.early : OwnPC → Bool
  | .stage st => st.early
  | .succeeding pc _ => pc.early
  | .serving _ .read => true
  | .serving _ .echo => true
  | _ => false

def Stage.responding : Stage → Bool
  | .meet .invited => true
  | .handshake (.loadSocket _) => true
  | .handshake (.listenGate _) => true
  | .handshake (.waitListening _ _) => true
  | .handshake (.dial _ _) => true
  | .handshake (.dialPause _ _) => true
  | .handshake (.dialCheck _) => true
  | .probe (.openStream _) => true
  | .probe (.roundGate _ _ _) => true
  | .probe (.roundPause _ _ _ _) => true
  | .probe (.write _ _ _) => true
  | .probe (.readEcho _ _ _ _) => true
  | _ => false

def OwnPC.responding : OwnPC → Bool
  | .stage st => st.responding
  | .readyReport => true
  | .awaitReport _ => true
  | _ => false

/-- The timeouts of a stage that the context of the session does not cut short. -/
def OwnPC.fixedTimeouts : OwnPC → Time
  | .stage (.query (.trip _ _)) => signalTripTimeout
  | .stage (.meet (.trip _ _)) => signalTripTimeout
  | .succeeding (.evicting _ _) _ => pathWaitTimeout
  | _ => 0

/-! ## What a step does with the time -/

/-- A point within the budget comes from one, or from a gate that has looked at
the clock; a timer is set within the budget. -/
structure Paced (s : Shared) (pc pc' : OwnPC) : Prop where
  early : pc'.early = true → pc.early = true ∨ s.clock ≤ s.deadline
  timer : ∀ due, pc'.wait = .timer due → pc.early = true ∧ due ≤ s.clock + pc'.fixedTimeouts
  role : pc'.responding = false

variable {pc pc' : OwnPC} {choice : Choice}

section

variable {plan : Plan} {s s' : Shared}

theorem paced_of_idle (hearly : pc'.early = false) (hwait : pc'.wait = .none)
    (hrole : pc'.responding = false) : Paced s pc pc' := by
  refine ⟨fun h => ?_, fun due h => ?_, hrole⟩
  · simp [hearly] at h
  · simp [hwait] at h

theorem paced_of_open (hopen : pc.early = true ∨ s.clock ≤ s.deadline)
    (hwait : ∀ due, pc'.wait ≠ .timer due) (hrole : pc'.responding = false) : Paced s pc pc' :=
  ⟨fun _ => hopen, fun due h => absurd h (hwait due), hrole⟩

theorem Plan.leave_paced (hrole : plan.role = .initiator) (pc : OwnPC) (tail : Bool) :
    Paced s pc (plan.leave tail) := by
  have hleave : plan.leave tail = .returning := by simp [Plan.leave, hrole]
  rw [hleave]
  exact paced_of_idle rfl rfl rfl

theorem clock_le_of_remaining (hpos : 0 < d) (hle : d ≤ s.remaining) : s.clock ≤ s.deadline := by
  unfold Shared.remaining at hle
  lia

theorem clock_le_of_stageTimeout (h : stageTimeout s.remaining d = some timeout) :
    s.clock ≤ s.deadline := by
  unfold stageTimeout at h
  split at h
  · cases h
  next hfloor =>
    exact clock_le_of_remaining (by decide : 0 < punchStageFloor) (Nat.le_of_not_lt hfloor)

theorem clock_le_of_canRetry (h : canRetry s.remaining cost = true) : s.clock ≤ s.deadline := by
  have hle : cost + punchRetryFloor ≤ s.remaining := by simpa [canRetry] using h
  have hfloor : punchRetryFloor ≤ s.remaining := by lia
  exact clock_le_of_remaining (by decide) hfloor

theorem gated_cases (s : Shared) (d : Time) (next : Time → α) (otherwise : α) :
    (∃ due, s.clock ≤ s.deadline ∧ gated (s.clock, s.remaining) d next otherwise = next due) ∨
      gated (s.clock, s.remaining) d next otherwise = otherwise := by
  unfold gated
  split
  next timeout htimeout => exact .inl ⟨_, clock_le_of_stageTimeout htimeout, rfl⟩
  next => exact .inr rfl

theorem Progress.enter_paced {here : PC → Stage} {next : α → OwnPC} {progress : Progress PC α}
    (hat : ∀ pc', progress = .at pc' → Paced s pc (.stage (here pc')))
    (hdone : ∀ a, progress = .done a → Paced s pc (next a)) :
    Paced s pc (progress.enter here tail next) := by
  cases progress with
  | «at» pc' => exact hat pc' rfl
  | done a => exact hdone a rfl
  | failed reason => exact paced_of_idle rfl rfl rfl

theorem query_paced {pc : QueryPC} {result : request.Result}
    (hcontrol : queryControl choice pc = some request)
    (hexec : exec plan s (.stage request.op) = some (s', result)) :
    Paced s (.stage (.query pc))
      ((request.resume result).enter .query false fun _ => .stage (.socket .setState)) := by
  have hmissed : ∀ i, Paced s (.stage (.query pc)) (.stage (.query (.missed i))) := by
    intro i
    unfold QueryPC.missed
    split <;> exact paced_of_idle rfl rfl rfl
  cases pc with
  | setState =>
    cases hcontrol
    exact paced_of_open (.inl rfl) nofun rfl
  | trip i pc =>
    cases pc with
    | lock =>
      simp only [queryControl] at hcontrol
      split at hcontrol <;> cases hcontrol
      · cases hexec
        refine ⟨nofun, fun due hdue => ?_, rfl⟩
        cases hdue
        exact ⟨rfl, Nat.le_refl _⟩
      · exact hmissed i
    | away due =>
      simp only [queryControl] at hcontrol
      split at hcontrol <;> cases hcontrol
      next answer own =>
        dsimp only
        cases preflight own answer with
        | none | some => exact paced_of_idle rfl rfl rfl
      · exact hmissed i
  | retry i =>
    cases hcontrol
    cases hexec
    dsimp only
    split
    next hretry => exact paced_of_open (.inr (clock_le_of_canRetry hretry)) nofun rfl
    next => exact paced_of_idle rfl rfl rfl
  | pause i due =>
    simp only [queryControl] at hcontrol
    split at hcontrol <;> cases hcontrol
    · exact paced_of_open (.inl rfl) nofun rfl
    · exact paced_of_idle rfl rfl rfl
  | failed =>
    cases hcontrol
    exact paced_of_idle rfl rfl rfl

theorem meet_paced {pc : MeetPC} {result : request.Result}
    (hcontrol : meetControl plan choice pc = some request) (hrole : plan.role = .initiator)
    (hpc : (Stage.meet pc).responding = false)
    (hexec : exec plan s (.stage request.op) = some (s', result)) :
    Paced s (.stage (.meet pc))
      ((request.resume result).enter .meet false fun _ => .stage (.hole .gate)) := by
  have hopen : (OwnPC.stage (.meet pc)).early = true → ∀ pc' : MeetPC,
      (∀ due, pc'.wait ≠ .timer due) → (Stage.meet pc').responding = false →
      Paced s (.stage (.meet pc)) (.stage (.meet pc')) :=
    fun hearly pc' hwait hrole => paced_of_open (.inl hearly) hwait hrole
  have hfailed : ∀ reason, Paced s (.stage (.meet pc)) (.failing reason .begin false) :=
    fun reason => paced_of_idle rfl rfl rfl
  have hmissed : ∀ i text, Paced s (.stage (.meet pc))
      ((intentMissed i text).enter .meet false fun _ => .stage (.hole .gate)) := by
    intro i text
    unfold intentMissed
    split <;> exact paced_of_idle rfl rfl rfl
  cases pc with
  | discoverGate =>
    cases hcontrol
    cases hexec
    dsimp only
    rcases gated_cases s plan.tuning.stun (fun due => .at (MeetPC.discover due))
      (discovered plan false) with ⟨due, hle, hgated⟩ | hgated
    · rw [hgated]
      exact paced_of_open (.inr hle) nofun rfl
    · rw [hgated]
      simp only [discovered, hrole]
      exact hfailed _
  | discover due =>
    simp only [meetControl] at hcontrol
    split at hcontrol <;> cases hcontrol
    · simp only [discovered, hrole]
      exact hopen rfl _ nofun rfl
    · simp only [discovered, hrole]
      exact hfailed _
  | setIntent =>
    cases hcontrol
    exact hopen rfl _ nofun rfl
  | cert | pause =>
    simp only [meetControl] at hcontrol
    split at hcontrol <;> cases hcontrol
    · exact hopen rfl _ nofun rfl
    · exact hfailed _
  | trip i pc =>
    cases pc with
    | lock =>
      simp only [meetControl] at hcontrol
      split at hcontrol <;> cases hcontrol
      · cases hexec
        refine ⟨nofun, fun due hdue => ?_, rfl⟩
        cases hdue
        exact ⟨rfl, Nat.le_refl _⟩
      · exact hmissed i _
    | away due =>
      simp only [meetControl] at hcontrol
      split at hcontrol <;> cases hcontrol
      · exact paced_of_idle rfl rfl rfl
      · exact hmissed i _
  | retry i text =>
    cases hcontrol
    cases hexec
    dsimp only
    split
    next hretry => exact paced_of_open (.inr (clock_le_of_canRetry hretry)) nofun rfl
    next => exact hfailed _
  | readyGate =>
    cases hcontrol
    cases hexec
    dsimp only
    rcases gated_cases s plan.tuning.readyWait
      (fun due => (.at (.waitPeer due) : Progress MeetPC Unit))
      (.failed .attemptTimeout) with ⟨due, hle, hgated⟩ | hgated
    · rw [hgated]
      exact paced_of_open (.inr hle) nofun rfl
    · rw [hgated]
      exact hfailed _
  | waitPeer due =>
    simp only [meetControl] at hcontrol
    split at hcontrol <;> cases hcontrol
    · dsimp only
      split
      · exact paced_of_open (.inl rfl) nofun rfl
      · exact hfailed _
    · exact hfailed _
    · exact hfailed _
  | invited => cases hpc

theorem hole_paced (pc : HolePC) (progress : Progress HolePC Unit) :
    Paced s (.stage (.hole pc))
      (progress.enter .hole true fun _ => .stage (.handshake .gate)) := by
  refine Progress.enter_paced (fun pc' _ => ?_) fun _ _ => paced_of_open (.inl rfl) nofun rfl
  refine paced_of_open (.inl rfl) (fun due hdue => ?_) rfl
  cases pc' with
  | _ => cases hdue

theorem handshake_paced {pc : HandshakePC} {request : Request RunOp (Progress HandshakePC Unit)}
    {result : request.Result} (hcontrol : handshakeControl plan choice pc = some request)
    (hrole : plan.role = .initiator) (hpc : (Stage.handshake pc).responding = false) :
    Paced s (.stage (.handshake pc))
      ((request.resume result).enter .handshake true fun _ => .stage (.probe .setState)) := by
  have hopen : ∀ pc' : HandshakePC, (Stage.handshake pc').responding = false →
      Paced s (.stage (.handshake pc)) (.stage (.handshake pc')) := by
    intro pc' hpc'
    refine paced_of_open (.inl rfl) (fun due hdue => ?_) hpc'
    cases pc' with
    | waitListening => cases hpc'
    | _ => cases hdue
  refine Progress.enter_paced (fun pc' hat => hopen pc' ?_)
    fun _ _ => paced_of_open (.inl rfl) nofun rfl
  cases pc with
  | gate =>
    cases hcontrol
    dsimp only at hat
    split at hat <;> cases hat
    · rfl
  | context timeout =>
    cases hcontrol
    simp only [hrole] at hat
    cases hat
    rfl
  | cert | listen =>
    simp only [handshakeControl] at hcontrol
    split at hcontrol <;> cases hcontrol <;> cases hat <;> rfl
  | accept due =>
    simp only [handshakeControl] at hcontrol
    split at hcontrol <;> cases hcontrol
    · cases hat
      rfl
    · cases hat
      rfl
    · dsimp only at hat
      split at hat <;> cases hat <;> rfl
  | abandon todo reason =>
    cases todo <;> cases hcontrol <;> cases hat
    rfl
  | setState | newTransport =>
    cases hcontrol
    cases hat
    rfl
  | store =>
    cases hcontrol
    cases hat
  | _ => cases hpc

theorem probe_paced {pc : ProbePC} {request : Request StageOp (Progress ProbePC (Option Time))}
    {result : request.Result} (hcontrol : probeControl plan choice pc = some request)
    (hrole : plan.role = .initiator) (hpc : (Stage.probe pc).responding = false)
    (hexec : exec plan s (.stage request.op) = some (s', result)) :
    Paced s (.stage (.probe pc))
      ((request.resume result).enter .probe true fun resume => .succeeding .begin resume) := by
  have hopen : ∀ pc' : ProbePC, (Stage.probe pc').responding = false →
      Paced s (.stage (.probe pc)) (.stage (.probe pc')) := by
    intro pc' hpc'
    refine paced_of_open (.inl rfl) (fun due hdue => ?_) hpc'
    cases pc' with
    | readEcho => cases hpc'
    | _ => cases hdue
  refine Progress.enter_paced (fun pc' hat => hopen pc' ?_)
    fun _ _ => paced_of_open (.inl rfl) nofun rfl
  cases pc with
  | setState =>
    cases hcontrol
    cases hat
    rfl
  | loadConn =>
    cases hcontrol
    dsimp only at hat
    split at hat <;> cases hat
    rfl
  | gate =>
    cases hcontrol
    cases hexec
    simp only [hrole] at hat
    rcases gated_cases s plan.tuning.probe
      (fun due => (.at (.acceptStream due) : Progress ProbePC (Option Time)))
      (.failed .attemptTimeout) with ⟨due, -, hgated⟩ | hgated
    · rw [hgated] at hat
      cases hat
      rfl
    · simp [hgated] at hat
  | acceptStream | read | echo =>
    simp only [probeControl] at hcontrol
    split at hcontrol <;> cases hcontrol <;> cases hat <;> rfl
  | _ => cases hpc

theorem stage_paced {request : Request SessionOp OwnPC} {result : request.Result}
    (hcontrol : stageControl plan choice st = some request) (hrole : plan.role = .initiator)
    (hst : st.responding = false) (hexec : exec plan s request.op = some (s', result)) :
    Paced s (.stage st) (request.resume result) := by
  cases st with
  | query pc =>
    obtain ⟨request, hrequest, rfl⟩ := Option.map_eq_some_iff.1 hcontrol
    exact query_paced hrequest hexec
  | socket pc =>
    obtain ⟨request, hrequest, rfl⟩ := Option.map_eq_some_iff.1 hcontrol
    exact Progress.enter_paced (fun _ _ => paced_of_idle rfl rfl rfl)
      fun _ _ => paced_of_idle rfl rfl rfl
  | meet pc =>
    obtain ⟨request, hrequest, rfl⟩ := Option.map_eq_some_iff.1 hcontrol
    exact meet_paced hrequest hrole hst hexec
  | hole pc =>
    obtain ⟨request, hrequest, rfl⟩ := Option.map_eq_some_iff.1 hcontrol
    exact hole_paced pc _
  | handshake pc =>
    obtain ⟨request, hrequest, rfl⟩ := Option.map_eq_some_iff.1 hcontrol
    exact handshake_paced hrequest hrole hst
  | probe pc =>
    obtain ⟨request, hrequest, rfl⟩ := Option.map_eq_some_iff.1 hcontrol
    exact probe_paced hrequest hrole hst hexec

theorem succeed_paced {pc : SucceedPC} (hstep : SucceedStep plan s choice pc s' next)
    (hrole : plan.role = .initiator) :
    Paced s (.succeeding pc resume) (plan.succeeding resume next) := by
  cases hstep with
  | detached | unmanaged | unknown | released | evicted | establish =>
    exact paced_of_idle rfl rfl rfl
  | handle =>
    refine ⟨nofun, fun due hdue => ?_, rfl⟩
    cases hdue
    exact ⟨rfl, Nat.le_refl _⟩
  | finish =>
    cases resume with
    | none => exact plan.leave_paced hrole _ true
    | some due => exact paced_of_idle rfl rfl rfl
  | _ => exact paced_of_open (.inl rfl) nofun rfl

theorem own_paced (hstep : OwnStep plan s choice pc s' pc') (hrole : plan.role = .initiator)
    (hpc : pc.responding = false) : Paced s pc pc' := by
  cases hstep with
  | stage hcontrol hexec => exact stage_paced hcontrol hrole hpc hexec
  | @failing _ _ tail _ next hstep =>
    cases next with
    | none => exact plan.leave_paced hrole _ tail
    | some pc => exact paced_of_idle rfl rfl rfl
  | succeeding hstep => exact succeed_paced hstep hrole
  | @serving due pc pc' hopen =>
    cases pc with
    | check =>
      have hle : s.clock ≤ s.deadline := by
        have hopen := hopen rfl
        simp only [Shared.ctxErr, Bool.or_eq_false_iff, decide_eq_false_iff_not] at hopen
        lia
      refine paced_of_open (.inr hle) (fun due hdue => ?_) rfl
      cases pc' with
      | _ => cases hdue
    | read | echo =>
      refine paced_of_open (.inl rfl) (fun due hdue => ?_) rfl
      cases pc' with
      | _ => cases hdue
  | served => exact plan.leave_paced hrole _ true
  | returning => exact paced_of_idle rfl rfl rfl
  | deferred => exact ⟨nofun, nofun, rfl⟩
  | readyReport | reported => cases hpc

end

end Hy2Link.Client.Punch
