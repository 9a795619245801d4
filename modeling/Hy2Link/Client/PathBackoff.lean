import Hy2Link.Client.PunchManager

/-! # The backoff of the path manager

After a failed session the path manager lets a peer rest.  How long is read off
one of three ladders, by the class of the failure, and two streaks per peer
count how far the failures have climbed: `qualityStep` for paths of poor
quality, `step` for the other failures.  A busy peer is no failure and rests
for a fixed time.

Beside the failed sessions, four other places of the manager write the time
until which a peer rests: a session that could not be started, a client that is
not ready, a lost trial and the death of a path.
-/

namespace Hy2Link.Client

open Interleaving

/-- The code by which a reason is known outside. -/
def Punch.Reason.code : Reason → String
  | .okDirect => "ok-direct"
  | .natSymmetric => "nat-symmetric"
  | .natUnknown => "nat-unknown"
  | .peerUnreachable => "peer-unreachable"
  | .peerNotReady => "peer-not-ready"
  | .localNoPunchAddr => "local-no-punch-addr"
  | .peerNoPunchAddr => "peer-no-punch-addr"
  | .punchTimeout => "punch-timeout"
  | .directHandshakeFailed => "direct-handshake-failed"
  | .fingerprintMismatch => "fingerprint-mismatch"
  | .probeTimeout => "probe-timeout"
  | .rateLimited => "rate-limited"
  | .peerBusy => "peer-busy"
  | .attemptTimeout => "attempt-timeout"
  | .sessionExpired => "session-expired"
  | .serverP2PDisabled => "server-p2p-disabled"
  | .cancelled => "cancelled"
  | .directLost => "direct-lost"
  | .peerClosed => "peer-closed"
  | .qualityDegraded => "quality-degraded"
  | .qualityPoor => "quality-poor"
  | .trialProbing => "trial-probing"

namespace Path

inductive PathFailClass
  | retryable | busy | permanent | quality | peerClosed
deriving DecidableEq

def classifyPathFail (reason : String) : PathFailClass :=
  let codes (reasons : List Punch.Reason) := reasons.map Punch.Reason.code
  if reason ∈ codes [.rateLimited, .peerBusy] then .busy
  else if reason ∈ codes [.natSymmetric, .fingerprintMismatch, .serverP2PDisabled] then .permanent
  else if reason ∈ codes [.qualityPoor, .probeTimeout, .directLost] then .quality
  else if reason = Punch.Reason.peerClosed.code then .peerClosed
  else .retryable

def backoffBusy : Time := 30 * second

def backoffLadder : List Time := [60 * second, 2 * minute, 5 * minute, 10 * minute]

def backoffLadderDeterministic : List Time := [5 * minute, 15 * minute, 30 * minute, 60 * minute]

def backoffLadderQuality : List Time := [5 * minute, 15 * minute, 30 * minute, 60 * minute]

def ladderStep (ladder : List Time) (step : Int) : Time :=
  let step : Int := if step < 0 then 0 else step
  let step : Int := if (ladder.length : Int) ≤ step then ladder.length - 1 else step
  ladder.getD step.toNat 0

structure BackoffState where
  step : Int
  qualityStep : Int
  «until» : Time
  lastErr : String
deriving DecidableEq

/-- The value that the map gives for a peer without an entry. -/
def BackoffState.zero : BackoffState := ⟨0, 0, 0, ""⟩

/-- The time to rest, and whether a streak advances. -/
def backoffDelayFor (class_ : PathFailClass) (st : BackoffState) : Time × Bool :=
  match class_ with
  | .busy => (backoffBusy, false)
  | .permanent => (ladderStep backoffLadderDeterministic st.step, true)
  | .quality => (ladderStep backoffLadderQuality st.qualityStep, true)
  | .peerClosed => (0, false)
  | .retryable => (ladderStep backoffLadder st.step, true)

abbrev Backoff := Table IPv4 BackoffState

namespace Backoff

def get (t : Backoff) (dst : IPv4) : BackoffState := (t.lookup dst).getD .zero

def onPunchFailed (t : Backoff) (now : Time) (peerVIP : Punch.VIP) (reason : String) : Backoff :=
  match (Text.parseIP peerVIP).bind Text.IP.to4 with
  | none => t
  | some dst =>
    let class_ := classifyPathFail reason
    let st := { t.get dst with lastErr := reason }
    let (d, advance) := backoffDelayFor class_ st
    let st :=
      if advance then
        if class_ = .quality then { st with qualityStep := st.qualityStep + 1 }
        else { st with step := st.step + 1 }
      else st
    t.insert dst { st with «until» := now + d }

/-- A session that could not be started. -/
def setBackoffTransient (t : Backoff) (now : Time) (dst : IPv4) (err : String) : Backoff :=
  t.insert dst { t.get dst with «until» := now + backoffBusy, lastErr := err }

/-- The client itself is not ready: the peer rests at least for `d`. -/
def delayRetry (t : Backoff) (now : Time) (dst : IPv4) (d : Time) : Backoff :=
  let st := t.get dst
  let want := now + d
  t.insert dst (if st.until < want then { st with «until» := want } else st)

/-- A trial that was lost while the connection is kept. -/
def setRejectedCooldown (t : Backoff) (now : Time) (dst : IPv4) : Backoff :=
  t.insert dst { t.get dst with «until» := now + backoffBusy }

/-- The death of a path. -/
def scheduleRetry (t : Backoff) (now : Time) (dst : IPv4) (reason : String) : Backoff :=
  let prevErr := (t.get dst).lastErr
  let st := { t.get dst with lastErr := reason }
  let class_ := classifyPathFail reason
  let (d, advance) := backoffDelayFor class_ st
  if class_ = .peerClosed then
    t.insert dst { st with «until» := now + backoffBusy, lastErr := prevErr }
  else
    let st :=
      if advance then
        if class_ = .quality then { st with qualityStep := st.qualityStep + 1 }
        else { st with step := st.step + 1 }
      else st
    t.insert dst { st with «until» := now + d }

def resetBackoffFor (t : Backoff) (dst : IPv4) : Backoff := t.erase dst

def resetAllBackoff (_ : Backoff) : Backoff := ∅

def onPunchSucceeded (t : Backoff) (peerVIP : Punch.VIP) : Backoff :=
  match (Text.parseIP peerVIP).bind Text.IP.to4 with
  | none => t
  | some dst => t.erase dst

def streaks (t : Backoff) (dst : IPv4) : Int × Int := ((t.get dst).step, (t.get dst).qualityStep)

theorem get_insert (t : Backoff) (dst other : IPv4) (st : BackoffState) :
    get (t.insert dst st) other = if other = dst then st else t.get other := by
  unfold get
  split
  next h => rw [h, Finmap.lookup_insert, Option.getD_some]
  next h => rw [Finmap.lookup_insert_of_ne _ h]

end Backoff

/-- The classes that are no failure of the peer. -/
def PathFailClass.advances : PathFailClass → Bool
  | .busy => false
  | .peerClosed => false
  | _ => true

theorem backoffDelayFor_advances (class_ : PathFailClass) (st : BackoffState) :
    (backoffDelayFor class_ st).2 = class_.advances := by
  cases class_ <;> rfl

theorem Backoff.streaks_onPunchFailed (hclass : (classifyPathFail reason).advances = false)
    (t : Backoff) (now : Time) (peerVIP : Punch.VIP) (dst : IPv4) :
    (t.onPunchFailed now peerVIP reason).streaks dst = t.streaks dst := by
  unfold onPunchFailed
  split
  · rfl
  next peer hpeer =>
    simp only [backoffDelayFor_advances, hclass, Bool.false_eq_true, if_false, streaks, get_insert]
    split
    next h => rw [h]
    next => rfl

end Path

end Hy2Link.Client
