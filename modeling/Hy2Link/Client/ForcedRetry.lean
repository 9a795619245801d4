import Hy2Link.Client.Attempts
import Hy2Link.Client.QualityLaws

/-! # The chance of a forced retry

`attemptFor` uses up the one chance that a peer out of reach has, and calls
`punchWithTrigger` right after.  The comment there says that the session is then
about to be started, but the call has gates of its own: the switch may have been
turned off, a path may have come up, a session may be in flight, and above all
the punch manager has its own time before which it starts no session.  The
trigger was checked against the time of the path manager, which is set a moment
earlier and is forgotten when the client finds its address again.

A chance is kept in the runs in which all gates are open as it is used up, and
nobody closes one of them before the call is over.
-/

namespace Hy2Link.Client.Attempt

open Interleaving Punch Quality Shared

variable {s : Shared}

theorem spends_iff : s.spends now dst = true ↔ s.quality.Spends now dst := by
  simp only [spends, PeerTable.Spends, Bool.and_eq_true, Option.any_eq_true, Bool.not_eq_true']
  constructor
  · rintro ⟨⟨q, hq, hunused⟩, q', hq', hused⟩
    exact ⟨q, q', hq, hunused, hq', hused⟩
  · rintro ⟨q, q', hq, hunused, hq', hused⟩
    exact ⟨⟨q, hq, hunused⟩, q', hq', hused⟩

/-! ## One step -/

/-- The gates of `punchWithTrigger` are open for the peer. -/
def Shared.gatesOpen (s : Shared) (now : Time) (dst : IPv4) : Bool :=
  s.connected && !s.usable dst && s.p2pEffective && s.selfInfo &&
    (s.punch.expired now (ip4ToString dst) && (s.punch.byPeer.lookup (ip4ToString dst)).isNone)

theorem gatesOpen_mono (h : s.gatesOpen now dst = true) (hle : now ≤ later) :
    s.gatesOpen later dst = true := by
  simp only [gatesOpen, PunchManager.expired, Bool.and_eq_true] at h ⊢
  refine ⟨h.1, ?_, h.2.2⟩
  split
  · rfl
  next ends hends =>
    have hover := h.2.1
    simp only [hends, decide_eq_true_eq] at hover ⊢
    exact fun hlt => hover (hle.trans_lt hlt)

/-- The chance was used up and no session was started. -/
def Ending.wasted : Ending → Bool
  | .called true (.error _) => true
  | _ => false

def PC.wasted : PC → Bool
  | .release _ ending => ending.wasted
  | .transient _ ending => ending.wasted
  | .unclaim _ ending => ending.wasted
  | .done ending => ending.wasted
  | _ => false

/-- The peer for which a call of `punchWithTrigger` is under way after its chance
was used up. -/
def PC.calling : PC → Option IPv4
  | .manager job true => some job.dst
  | .usable job true => some job.dst
  | .enabled job true => some job.dst
  | .self job true => some job.dst
  | .start job true => some job.dst
  | _ => none

def PC.safe (s : Shared) (now : Time) (pc : PC) : Bool :=
  !pc.wasted && pc.calling.all (s.gatesOpen now)

theorem safe_mono {pc : PC} (h : pc.safe s now = true) (hle : now ≤ later) :
    pc.safe s later = true := by
  simp only [PC.safe, Bool.and_eq_true, Option.all_eq_true] at h ⊢
  exact ⟨h.1, fun dst hdst => gatesOpen_mono (h.2 dst hdst) hle⟩

/-- The gates are open as the chance is used up, and a random number can be drawn
as the session is started. -/
def PC.heeds (s : Shared) (choice : Choice) : PC → Bool
  | .consume job => !s.spends choice.now job.dst || s.gatesOpen choice.now job.dst
  | .start _ true => choice.fresh.isSome
  | _ => true

theorem ip4ToString_ne_nil (dst : IPv4) : ip4ToString dst ≠ [] := by
  intro hnil
  have hparse := Text.parseTo4_dotted dst
  rw [show Text.dotted dst = [] from hnil] at hparse
  cases hparse

theorem punchWithTrigger_isOk (m : PunchManager) (session : SessionId)
    (fresh : Option AttemptId) :
    (m.punchWithTrigger (allowed fresh) now session (ip4ToString dst)
        .traffic).isOk =
      (m.expired now (ip4ToString dst) &&
        (m.byPeer.lookup (ip4ToString dst)).isNone && fresh.isSome) := by
  have htrim : Text.trimSpace (ip4ToString dst) = ip4ToString dst :=
    Text.trimSpace_dotted dst
  have hfree : ¬ PunchManager.suppressed (allowed fresh) (ip4ToString dst)
      .traffic = true := by
    unfold PunchManager.suppressed
    split <;> simp [allowed]
  -- what comes before the section was learned in the steps before
  unfold PunchManager.punchWithTrigger
  dsimp only
  rw [htrim, if_neg (ip4ToString_ne_nil dst), if_neg hfree, if_neg (by simp [allowed]),
    if_neg (by simp [allowed])]
  cases m.expired now (ip4ToString dst) with
  | false => rfl
  | true =>
    cases m.byPeer.lookup (ip4ToString dst) with
    | some session => rfl
    | none => cases fresh <;> rfl

theorem startSession_isOk (fresh : Option AttemptId) :
    (s.startSession now dst fresh).2.isOk =
      (s.punch.expired now (ip4ToString dst) &&
        (s.punch.byPeer.lookup (ip4ToString dst)).isNone && fresh.isSome) := by
  rw [← punchWithTrigger_isOk s.punch s.nextSession fresh]
  unfold startSession
  split
  next h => rw [h]; rfl
  next h => rw [h]; rfl

section Places

variable {job : Job}

theorem passed_safe : (PC.passed job).safe s now = true := by
  unfold PC.passed
  split <;> rfl

theorem gated_safe (pass : Bool) : (PC.gated job pass).safe s now = true := by
  cases pass
  · rfl
  · exact passed_safe

theorem judged_safe (peer : SignalPeer) : (PC.judged job peer).safe s now = true := by
  unfold PC.judged
  split <;> rfl

theorem commit_safe : (PC.commit job).safe s now = true := by
  unfold PC.commit
  split <;> rfl

theorem settled_safe (ending : Ending) : (PC.settled job ending).safe s now = !ending.wasted := by
  unfold PC.settled
  split <;> exact Bool.and_true _

end Places

theorem called_wasted (spent : Bool) (result : Except ε AttemptId) (why : ε → Refusal) :
    (Ending.called spent (result.mapError why)).wasted = (spent && !result.isOk) := by
  cases spent <;> cases result <;> rfl

/-- A gate that is open lets the call through, and the last one starts the
session. -/
theorem safe_resume (hcontrol : control t pc choice = some request)
    (hexec : exec t s request.op = some (shared, result))
    (hsafe : pc.safe s choice.now = true) (hheeds : pc.heeds s choice = true) :
    (request.resume result).safe shared choice.now = true := by
  cases pc with
  | consume job =>
    cases hcontrol
    obtain ⟨won, spent⟩ := (result : Bool × Bool)
    simp only [exec, Option.some.injEq, Prod.mk.injEq] at hexec
    obtain ⟨rfl, -, rfl⟩ := hexec
    simp only [PC.heeds, Bool.or_eq_true, Bool.not_eq_true'] at hheeds
    cases won with
    | false => rfl
    | true =>
      cases hspends : s.spends choice.now job.dst with
      | false => rfl
      | true => exact hheeds.resolve_left (by simp [hspends])
  | manager job spent | usable job spent | enabled job spent | self job spent =>
    cases hcontrol
    cases hexec
    cases spent with
    | false =>
      dsimp only
      split <;> rfl
    | true =>
      have hopen : s.gatesOpen choice.now job.dst = true := hsafe
      simp only [gatesOpen, Bool.and_eq_true, Bool.not_eq_true'] at hopen
      simp [hopen, PC.safe, PC.wasted, PC.calling, gatesOpen]
  | start job spent =>
    cases hcontrol
    have hresult : result = (s.startSession choice.now job.dst choice.fresh).2 :=
      (congrArg Prod.snd (Option.some.inj hexec)).symm
    refine (Bool.and_true _).trans ?_
    rw [PC.wasted, called_wasted spent result .punch, hresult, startSession_isOk]
    cases spent with
    | false => rfl
    | true =>
      have hopen : s.gatesOpen choice.now job.dst = true := hsafe
      have hfresh : choice.fresh.isSome = true := hheeds
      rw [gatesOpen, Bool.and_eq_true] at hopen
      rw [hopen.2, hfresh]
      rfl
  | release job ending =>
    cases hcontrol
    exact (settled_safe ending).trans ((Bool.and_true _).symm.trans hsafe)
  | transient job ending | unclaim dst ending =>
    cases hcontrol
    exact hsafe
  | done ending => cases hcontrol
  | acquire job =>
    unfold control at hcontrol
    dsimp only at hcontrol
    split at hcontrol <;> cases hcontrol <;> rfl
  -- before the call nothing is wasted, wherever the attempt goes on
  | gate job =>
    cases hcontrol
    cases (result : GateAnswer) with
    | cached pass => exact gated_safe pass
    | _ => rfl
  | addr job peer =>
    cases hcontrol
    cases (result : Bool) with
    | false => exact judged_safe peer
    | true => rfl
  | moved job peer =>
    cases hcontrol
    exact judged_safe peer
  | put job pass ttl =>
    cases hcontrol
    exact gated_safe pass
  | stale job =>
    cases hcontrol
    cases (result : Bool) with
    | false => exact commit_safe
    | true => rfl
  | refresh job =>
    cases hcontrol
    dsimp only
    split
    · rfl
    · exact commit_safe
  | reprobed job =>
    cases hcontrol
    exact commit_safe
  | own dst | offer dst myVIP =>
    cases hcontrol
    dsimp only
    split
    · rfl
    · split <;> rfl
  | query job | tiebreak job =>
    cases hcontrol
    dsimp only
    split <;> rfl
  | notReady dst =>
    cases hcontrol
    rfl
  | trigger dst | ready dst myVIP | claim dst myVIP =>
    cases hcontrol
    cases (result : Bool) <;> rfl

/-! ## Whole runs -/

/-- A state and the last reading of the clock in an attempt. -/
structure Timed where
  cfg : AttemptConfig
  clock : Time

namespace Timed

def initial (quality : PeerTable) : Timed := ⟨Attempt.initial quality, 0⟩

def clockAfter (clock : Time) : AttemptAction → Time
  | .step _ choice => choice.now
  | _ => clock

def next (s : Timed) (action : AttemptAction) : Option Timed :=
  (system.next s.cfg action).map fun cfg => ⟨cfg, clockAfter s.clock action⟩

/-- The action takes the attempt `t` a step further. -/
def own (t : Nat) : AttemptAction → Bool
  | .step t' _ => t' = t
  | _ => false

/-- The action closes a gate for a call of another attempt that is under way. -/
def closes (s s' : Timed) (action : AttemptAction) : Bool :=
  s.cfg.threads.hasEntry fun t pc =>
    !own t action && pc.calling.any fun dst =>
      s.cfg.shared.gatesOpen s.clock dst && !s'.cfg.shared.gatesOpen s'.clock dst

/-- The clock does not go back, the attempt finds the gates open when it uses up
its chance, and the action closes none for another one. -/
def heeds (s : Timed) (action : AttemptAction) : Bool :=
  s.clock ≤ clockAfter s.clock action &&
    (match action with
    | .step t choice => (s.cfg.threads.lookup t).all (·.heeds s.cfg.shared choice)
    | _ => true) &&
    (s.next action).all fun s' => !s.closes s' action

/-- No attempt has wasted a chance. -/
def ChancesKept (s : Timed) : Prop :=
  ∀ t pc, s.cfg.threads.lookup t = some pc → pc.wasted = false

def Safe (s : Timed) : Prop :=
  ∀ t pc, s.cfg.threads.lookup t = some pc → pc.safe s.cfg.shared s.clock = true

theorem Safe.chancesKept {s : Timed} (h : s.Safe) : s.ChancesKept := by
  intro t pc hpc
  simpa using (Bool.and_eq_true_iff.1 (h t pc hpc)).1

theorem Safe.other {s s' : Timed} (h : s.Safe) (hcloses : s.closes s' action = false)
    (hpc : s.cfg.threads.lookup t = some pc) (hother : own t action = false) :
    pc.safe s'.cfg.shared s'.clock = true := by
  obtain ⟨hwasted, hopen⟩ := Bool.and_eq_true_iff.1 (h t pc hpc)
  refine Bool.and_eq_true_iff.2 ⟨hwasted, ?_⟩
  rw [Option.all_eq_true] at hopen ⊢
  intro dst hdst
  by_contra hclosed
  rw [Bool.not_eq_true] at hclosed
  refine Bool.eq_false_iff.1 hcloses (hasEntry_iff.2 ⟨t, pc, hpc, ?_⟩)
  simp [hother, hdst, hopen dst hdst, hclosed]

/-- A step that heeds the gates wastes no chance. -/
theorem Safe.step {s s' : Timed} (h : s.Safe) (hheeds : s.heeds action = true)
    (hnext : s.next action = some s') : s'.Safe := by
  obtain ⟨cfg', hcfg, rfl⟩ := Option.map_eq_some_iff.1 hnext
  simp only [heeds, hnext, Option.all_some, Bool.and_eq_true, decide_eq_true_eq,
    Bool.not_eq_true'] at hheeds
  obtain ⟨⟨hclock, hown⟩, hcloses⟩ := hheeds
  intro t pc hpc
  cases action with
  | spawn t' l =>
    obtain ⟨-, hspawn, rfl⟩ := next_spawn.1 hcfg
    rcases lookup_insert_eq_some.1 hpc with ⟨rfl, rfl⟩ | ⟨-, hpc⟩
    -- only a trigger is spawned
    · cases pc with
      | trigger dst => rfl
      | _ => cases hspawn
    · exact h.other hcloses hpc rfl
  | step t' choice =>
    obtain ⟨l, request, shared, result, hl, hcontrol, hexec, rfl⟩ := next_step.1 hcfg
    rcases lookup_insert_eq_some.1 hpc with ⟨rfl, rfl⟩ | ⟨hne, hpc⟩
    · refine safe_resume (t := t) hcontrol hexec ?_ (by simpa [hl] using hown)
      exact safe_mono (h t l hl) hclock
    · exact h.other hcloses hpc (by simpa [own] using Ne.symm hne)
  | env e =>
    obtain ⟨shared, -, rfl⟩ := next_env.1 hcfg
    exact h.other hcloses hpc rfl

end Timed

/-- **A chance that is used up with open gates is kept.**  In a run in which the
clock does not go back, let each call of `TryConsumeForcedRetry` that sets the
flag find the punch manager there, no usable path, the switch on, the address of
the client known, the time to wait over and no session in flight, and let nobody
else change that before the call of `punchWithTrigger` is over, which gets its
random number.  Then no chance is used up without a session. -/
theorem forced_retry_kept (quality : PeerTable) (actions : List AttemptAction)
    (hheeds : Along Timed.next (fun s action => s.heeds action = true) (.initial quality) actions) :
    Along Timed.next (fun s action => ∀ s', s.next action = some s' → s'.ChancesKept)
      (.initial quality) actions := by
  apply hheeds.of_invariant
  · exact fun s action s' hsafe hheeds hnext => Timed.Safe.step hsafe hheeds hnext
  · exact fun s action hsafe hheeds s' hnext => (hsafe.step hheeds hnext).chancesKept
  · rintro t pc ⟨⟩

/-! ## A chance that is wasted -/

def farPeer : IPv4 := 0x0a000065#32

def failedSession : List AttemptAction :=
  [.env (.switched true true), .env (.probed true), .env (.assigned (some 0x0a000064#32)),
    .env (.punchTo second (ip4ToString farPeer) .manual (some 7)),
    .env (.sessionEnds (10 * second) (10 * second) 7 (ip4ToString farPeer)
      ⟨false, some .punchTimeout⟩),
    .env (.record (10 * second) ascending farPeer
      ⟨.unpunchable, Reason.punchTimeout.code, 0, 0, "", ""⟩)]

/-- The client finds its address again and forgets its failures.  Then there is
a packet for the peer. -/
def packetAt (now : Time) : List AttemptAction :=
  .env (.retry (15 * second) .resetAllBackoff) :: .spawn 0 (.trigger farPeer) ::
    List.replicate 17 (.step 0 ⟨now, some ⟨"", true, true⟩, .elapsed, true, some 8, ""⟩)

/-- Ten seconds after the end of the session is within the time that the punch
manager keeps. -/
theorem chance_wasted_in_cooldown :
    ∃ cfg, run system.next (initial newPeerTable) (failedSession ++ packetAt (20 * second)) =
        some cfg ∧
      (cfg.threads.lookup 0).any PC.wasted = true ∧
      (cfg.shared.quality.m.lookup farPeer).any PeerQuality.forcedRetryUsed = true ∧
      cfg.shared.punch.byPeer.lookup (ip4ToString farPeer) = none := by
  decide +kernel

/-- When that time is over the chance gives a session. -/
theorem forced_retry_kept_later :
    (run Timed.next (.initial newPeerTable) (failedSession ++ packetAt (80 * second))).any
        (fun s => s.cfg.shared.punch.byPeer.lookup (ip4ToString farPeer) = some 1 &&
          (s.cfg.shared.quality.m.lookup farPeer).any PeerQuality.forcedRetryUsed) = true ∧
      Along Timed.next (fun s action => ∀ s', s.next action = some s' → s'.ChancesKept)
        (.initial newPeerTable) (failedSession ++ packetAt (80 * second)) :=
  ⟨by decide +kernel, forced_retry_kept _ _ (by decide +kernel)⟩

end Hy2Link.Client.Attempt
