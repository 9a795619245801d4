import Hy2Link.Interleaving.Table
import Hy2Link.Protocol
import Hy2Link.Text

/-! # The tables of the punch manager

A client tries to reach a peer directly in a punch session.  `punchManager`
lists the sessions in flight, one at most to each peer that the client has
started itself, and keeps for each peer the time before which it starts no
other session.

A session that ended because the peer or the server was busy is not a failure:
its cooldown is read off a short ladder, by the number of times in a row that
the peer was busy.  The two kinds of busy are counted apart.
-/

namespace Hy2Link.Client.Punch

open Interleaving

/-- The random number that a session is known by outside the client. -/
abbrev AttemptId := Nat

/-- A session object, which the tables hold by its pointer. -/
abbrev SessionId := Nat

/-- The virtual address of a peer, as the text it was given by. -/
abbrev VIP := List Char

inductive Reason
  | okDirect | natSymmetric | natUnknown | peerUnreachable | peerNotReady
  | localNoPunchAddr | peerNoPunchAddr | punchTimeout | directHandshakeFailed
  | fingerprintMismatch | probeTimeout | rateLimited | peerBusy | attemptTimeout
  | sessionExpired | serverP2PDisabled | cancelled | directLost | peerClosed
  | qualityDegraded | qualityPoor | trialProbing
deriving DecidableEq

inductive Trigger
  | traffic | config | manual | remote
deriving DecidableEq

/-! ## Cooldowns -/

def punchBusyCooldown : Time := 30 * second

def punchCooldown : Time := 60 * second

def punchBusyStreakMaxEntries : Nat := 1024

def punchBusyLadder : List Time := [30 * second, 60 * second, 120 * second, 5 * minute]

/-- No reason is stored in a session that has not come to an end. -/
def cooldownForReason : Option Reason → Time
  | some .rateLimited => punchBusyCooldown
  | some .peerBusy => punchBusyCooldown
  | _ => punchCooldown

def isBusyReason (reason : Option Reason) : Bool :=
  reason = some .peerBusy || reason = some .rateLimited

/-- `streak` counts the times before this one. -/
def ladderForBusy (streak : Int) : Time :=
  let streak : Int := if streak < 0 then 0 else streak
  let streak : Int :=
    if (punchBusyLadder.length : Int) ≤ streak then punchBusyLadder.length - 1 else streak
  punchBusyLadder.getD streak.toNat 0

/-! ## The tables -/

structure PunchManager where
  sessions : Table AttemptId SessionId
  byPeer : Table VIP SessionId
  cooldown : Table VIP Time
  busyPeerStreak : Table VIP Int
  rateStreak : Table VIP Int

def newPunchManager : PunchManager where
  sessions := ∅
  byPeer := ∅
  cooldown := ∅
  busyPeerStreak := ∅
  rateStreak := ∅

structure Outcome where
  succeeded : Bool
  reason : Option Reason
deriving DecidableEq

variable {m : PunchManager} {now : Time} {peerVIP : VIP} {streaks : Table VIP Int}

namespace PunchManager

def expired (m : PunchManager) (now : Time) (vip : VIP) : Bool :=
  match m.cooldown.lookup vip with
  | none => true
  | some ends => ¬ now < ends

def pruneBusyLocked (m : PunchManager) (now : Time) : PunchManager :=
  { m with
    busyPeerStreak := m.busyPeerStreak.filter fun vip _ => !m.expired now vip
    rateStreak := m.rateStreak.filter fun vip _ => !m.expired now vip }

/-- Count one more busy session of the peer.  A full table takes no new peer. -/
def bump (streaks : Table VIP Int) (peerVIP : VIP) : Table VIP Int × Time :=
  if streaks.lookup peerVIP = none ∧ punchBusyStreakMaxEntries ≤ streaks.entries.card then
    (streaks, punchBusyCooldown)
  else
    let streak := (streaks.lookup peerVIP).getD 0
    (streaks.insert peerVIP (streak + 1), ladderForBusy streak)

def bumpBusyStreakLocked (m : PunchManager) (now : Time) (peerVIP : VIP)
    (reason : Option Reason) : PunchManager × Time :=
  let m := m.pruneBusyLocked now
  if ¬ isBusyReason reason then
    ({ m with
        busyPeerStreak := m.busyPeerStreak.erase peerVIP
        rateStreak := m.rateStreak.erase peerVIP }, cooldownForReason reason)
  else if reason = some .rateLimited then
    let (streaks, d) := bump m.rateStreak peerVIP
    ({ m with rateStreak := streaks }, d)
  else
    let (streaks, d) := bump m.busyPeerStreak peerVIP
    ({ m with busyPeerStreak := streaks }, d)

def noteSessionOutcomeLocked (m : PunchManager) (now : Time) (peerVIP : VIP)
    (outcome : Outcome) : PunchManager × Time :=
  if outcome.succeeded then
    let m := m.pruneBusyLocked now
    ({ m with
        busyPeerStreak := m.busyPeerStreak.erase peerVIP
        rateStreak := m.rateStreak.erase peerVIP }, 0)
  else m.bumpBusyStreakLocked now peerVIP outcome.reason

/-- The section at the end of an initiator's goroutine.  It reads the clock
twice, first for the cooldown it writes and then for the streaks. -/
def endSession (m : PunchManager) (now later : Time) (id : AttemptId) (peerVIP : VIP)
    (outcome : Outcome) : PunchManager × Time :=
  let m := { m with sessions := m.sessions.erase id, byPeer := m.byPeer.erase peerVIP }
  let (m, d) := m.noteSessionOutcomeLocked later peerVIP outcome
  ({ m with cooldown := m.cooldown.insert peerVIP (now + d) }, d)

/-! ## The start of a session -/

inductive PunchError
  | emptyVIP | dupPath | disabled | noSelfInfo | cooldown | inFlight | noRandom
deriving DecidableEq

/-- What `PunchWithTrigger` learns outside the tables.  `usable` is the answer
of the path manager, if there is one, and `fresh` the attempt id drawn. -/
structure Surroundings where
  usable : IPv4 → Bool
  p2pEnabled : Bool
  selfInfo : Bool
  fresh : Option AttemptId

/-- The path manager has a usable path to the peer, and traffic alone asks for
another session. -/
def suppressed (env : Surroundings) (peerVIP : VIP) (trigger : Trigger) : Bool :=
  trigger = .traffic &&
    match (Text.parseIP peerVIP).bind Text.IP.to4 with
    | some dst => env.usable dst
    | none => false

/-- `now` is read before the tables are locked, and `s` is the new session. -/
def punchWithTrigger (m : PunchManager) (env : Surroundings) (now : Time) (s : SessionId)
    (peerVIP : VIP) (trigger : Trigger) : Except PunchError (AttemptId × PunchManager) :=
  let peerVIP := Text.trimSpace peerVIP
  if peerVIP = [] then .error .emptyVIP
  else if suppressed env peerVIP trigger then .error .dupPath
  else if ¬ env.p2pEnabled then .error .disabled
  else if ¬ env.selfInfo then .error .noSelfInfo
  else if ¬ m.expired now peerVIP then .error .cooldown
  else if (m.byPeer.lookup peerVIP).isSome then .error .inFlight
  else
    match env.fresh with
    | none => .error .noRandom
    | some id =>
      .ok (id, { m with sessions := m.sessions.insert id s, byPeer := m.byPeer.insert peerVIP s })

theorem punchWithTrigger_ok {id : AttemptId}
    (h : m.punchWithTrigger env now s peerVIP trigger = .ok (id, m')) :
    m.expired now (Text.trimSpace peerVIP) = true ∧
      m.byPeer.lookup (Text.trimSpace peerVIP) = none ∧
      m' = { m with
        sessions := m.sessions.insert id s
        byPeer := m.byPeer.insert (Text.trimSpace peerVIP) s } := by
  simp only [punchWithTrigger] at h
  split at h
  · cases h
  split at h
  · cases h
  split at h
  · cases h
  split at h
  · cases h
  split at h
  · cases h
  split at h
  · cases h
  next hexpired hpeer =>
    split at h <;> cases h
    next fresh hfresh =>
      exact ⟨by simpa using hexpired, by simpa using hpeer, rfl⟩

/-! ## What the end of a session writes -/

theorem expired_eq_true :
    m.expired now vip = true ↔ ∀ ends, m.cooldown.lookup vip = some ends → ends ≤ now := by
  unfold expired
  cases m.cooldown.lookup vip with
  | none | some => simp

theorem expired_mono (hexpired : m.expired now vip = true) (hle : now ≤ later) :
    m.expired later vip = true :=
  expired_eq_true.2 fun ends hends => (expired_eq_true.1 hexpired ends hends).trans hle

theorem lookup_pruned (hexpired : m.expired now vip = true) :
    (streaks.filter fun vip _ => !m.expired now vip).lookup vip = none := by
  refine Option.eq_none_iff_forall_not_mem.2 fun streak hstreak => ?_
  have hkept := (lookup_filter_eq_some.1 hstreak).2
  simp [hexpired] at hkept

/-- A peer without a streak starts at the foot of the ladder, also when the
table is full. -/
theorem bump_of_none (hnone : streaks.lookup peerVIP = none) :
    (bump streaks peerVIP).2 = punchBusyCooldown := by
  unfold bump
  split
  · rfl
  · rw [hnone]
    rfl

theorem noteSessionOutcomeLocked_cooldown (m : PunchManager) (now : Time) (peerVIP : VIP)
    (outcome : Outcome) :
    (m.noteSessionOutcomeLocked now peerVIP outcome).1.cooldown = m.cooldown ∧
      (m.noteSessionOutcomeLocked now peerVIP outcome).1.byPeer = m.byPeer ∧
      (m.noteSessionOutcomeLocked now peerVIP outcome).1.sessions = m.sessions := by
  unfold noteSessionOutcomeLocked bumpBusyStreakLocked pruneBusyLocked
  split
  · exact ⟨rfl, rfl, rfl⟩
  · dsimp only
    split
    · exact ⟨rfl, rfl, rfl⟩
    · split <;> exact ⟨rfl, rfl, rfl⟩

theorem endSession_lookup (m : PunchManager) (now later : Time) (id : AttemptId) (peerVIP : VIP)
    (outcome : Outcome) :
    (m.endSession now later id peerVIP outcome).1.sessions.lookup id = none ∧
      (m.endSession now later id peerVIP outcome).1.byPeer.lookup peerVIP = none := by
  obtain ⟨-, hbyPeer, hsessions⟩ := noteSessionOutcomeLocked_cooldown
    { m with sessions := m.sessions.erase id, byPeer := m.byPeer.erase peerVIP } later peerVIP
    outcome
  simp only [endSession, hsessions, hbyPeer]
  exact ⟨Finmap.lookup_erase _ _, Finmap.lookup_erase _ _⟩

/-- After the end of a cooldown, a busy session is counted as the first one. -/
theorem noteSessionOutcomeLocked_busy (hexpired : m.expired now peerVIP = true)
    (hfailed : outcome.succeeded = false) (hbusy : isBusyReason outcome.reason = true) :
    (m.noteSessionOutcomeLocked now peerVIP outcome).2 = punchBusyCooldown := by
  simp only [noteSessionOutcomeLocked, hfailed, Bool.false_eq_true, if_false,
    bumpBusyStreakLocked, hbusy, not_true_eq_false]
  split
  · exact bump_of_none (lookup_pruned hexpired)
  · exact bump_of_none (lookup_pruned hexpired)

end PunchManager

/-! ## A peer -/

def bobVIP : VIP := "10.0.0.3".toList

def calm : PunchManager.Surroundings where
  usable := fun _ => false
  p2pEnabled := true
  selfInfo := true
  fresh := some 7

end Hy2Link.Client.Punch
