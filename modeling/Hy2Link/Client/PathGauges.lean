import Hy2Link.Client.PathTables

/-! # What the watch loop measures

The measurements of a direct path, and what its watch loop decides from them in
every check: whether a path on trial has shown itself good enough
(`evalTrial`), whether a path in use is worse than the relay (`evalStandby`),
and whether the peer still answers.

A check is one step.  Between the checks the control loop stores the arrival of
an echo and the round trip it measured.  The fields in milliseconds are written
with `UnixMilli`, which cuts off the fractions; 0 stands for a time that was
never written.  What a check learns from outside, the answer of the server and
whether the path wins its slot in the route table, is an input of it.
-/

namespace Hy2Link.Client.Path

open Interleaving

/-- Milliseconds since the epoch. -/
abbrev Millis := Nat

def unixMilli (t : Time) : Millis := t / 1000000

def ofMilli (ms : Millis) : Time := ms * 1000000

@[simp] theorem unixMilli_ofMilli (ms : Millis) : unixMilli (ofMilli ms) = ms :=
  Nat.mul_div_cancel ms (by decide)

theorem ofMilli_add (m n : Millis) : ofMilli (m + n) = ofMilli m + ofMilli n :=
  Nat.add_mul m n 1000000

@[simp] theorem ofMilli_le : ofMilli m ≤ ofMilli n ↔ m ≤ n :=
  Nat.mul_le_mul_right_iff (by decide)

/-! ## Settings -/

/-- A positive ratio, taken exactly. -/
structure Ratio where
  num : Nat
  den : Nat
  den_pos : 0 < den
deriving DecidableEq

/-- `time.Duration(float64(d) * ratio)` -/
def Ratio.scale (ratio : Ratio) (d : Time) : Time := d * ratio.num / ratio.den

/-- The settings of `pathManager` that the watch loops read.  An override of 0
is none. -/
structure Tuning where
  probeInterval : Time
  probeMissLimit : Nat
  trialWindowOverride : Time
  trialNeedOverride : Nat
  standbyRatio : Ratio
  standbyExitRatio : Ratio
  standbyDegradeFor : Time
  standbyEvalInterval : Time
  relayRttRefreshInterval : Time
deriving DecidableEq

def defaultProbeInterval : Time := 5 * second

def defaultCheckInterval : Time := second

def defaultTuning : Tuning where
  probeInterval := defaultProbeInterval
  probeMissLimit := 2
  trialWindowOverride := 0
  trialNeedOverride := 0
  standbyRatio := ⟨6, 5, by decide⟩
  standbyExitRatio := ⟨1, 1, by decide⟩
  standbyDegradeFor := 30 * second
  standbyEvalInterval := 5 * minute
  relayRttRefreshInterval := 5 * minute

def trialWindowNormal : Time := 15 * second

def trialNeedGoodNormal : Nat := 2

/-- In percent. -/
def trialMinProbeSuccess : Nat := 90

namespace Tuning

variable (cfg : Tuning)

def trialNeedGood : Nat :=
  if 0 < cfg.trialNeedOverride then cfg.trialNeedOverride else trialNeedGoodNormal

/-- The time between two samples, before it is cut to the window. -/
def sampleInterval : Time :=
  if cfg.probeInterval = 0 then defaultProbeInterval else cfg.probeInterval

def trialSampleFloor : Time := cfg.trialNeedGood * cfg.sampleInterval * 3 / 2

def trialWindow : Time :=
  if 0 < cfg.trialWindowOverride then cfg.trialWindowOverride
  else if trialWindowNormal < cfg.trialSampleFloor then cfg.trialSampleFloor
  else trialWindowNormal

def sampleStep : Time := min cfg.sampleInterval cfg.trialWindow

end Tuning

/-! ## Rounding -/

/-- The nearest number with 53 significant bits, the even one of two. -/
def roundFloat64 (n : Nat) : Nat :=
  let unit := 2 ^ (n.log2 - 52)
  let q := n / unit
  let r := n % unit
  (if unit < 2 * r ∨ unit = 2 * r ∧ q % 2 = 1 then q + 1 else q) * unit

/-- `trialRTTRatio`, the float64 nearest to 1.2, in units of 2 ^ -52. -/
def trialRTTRatio : Nat := 5404319552844595

/-- `time.Duration(float64(relayRTT) * trialRTTRatio)` -/
def trialRTTBound (relayRTT : Time) : Time :=
  roundFloat64 (roundFloat64 relayRTT * trialRTTRatio) / 2 ^ 52

def trialSampleGood (directRTT relayRTT : Time) (probeSuccess : Nat) : Bool :=
  if relayRTT = 0 ∨ directRTT = 0 then false
  else decide (directRTT < trialRTTBound relayRTT) && decide (trialMinProbeSuccess ≤ probeSuccess)

/-! ## The measurements of a path -/

structure Gauges where
  state : PathState
  since : Time
  rtt : Time
  lastEcho : Millis
  probeMiss : Nat
  relayRtt : Time
  relayRttTriedAt : Millis
  degradeSince : Millis
  lastStandbyEval : Millis
  trialStartedAt : Millis
  trialSamples : Nat
  trialGood : Nat
  trialLastSampleAt : Millis
  trialLastEcho : Millis
  trialRelayRtt : Time
  trialDone : Bool
deriving DecidableEq

/-- What `newDirectPath` and `reuseRejected` store at the start of a round. -/
def Gauges.startRound (p : Gauges) (now : Time) : Gauges :=
  { p with
    state := .trial
    trialDone := false
    trialStartedAt := unixMilli now
    trialLastEcho := p.lastEcho
    trialLastSampleAt := 0
    trialGood := 0
    trialSamples := 0 }

/-- The measurements of a new path; `rtt` is the round trip that the punch
session has measured, or 0. -/
def newGauges (now rtt : Time) : Gauges :=
  Gauges.startRound
    { state := .down
      since := now
      rtt := rtt
      lastEcho := 0
      probeMiss := 0
      relayRtt := 0
      relayRttTriedAt := 0
      degradeSince := 0
      lastStandbyEval := 0
      trialStartedAt := 0
      trialSamples := 0
      trialGood := 0
      trialLastSampleAt := 0
      trialLastEcho := 0
      trialRelayRtt := 0
      trialDone := false } now

/-- What a check reads outside the path.  The clock is read at its head, at the
head of `evalStandby`, before the server is asked and on entering standby.
`reply` is the relay round trip in milliseconds that the server answers, if it
does.  `installed` says whether a path that passes its trial is put into the
route table, `scout` whether one that fails counts as closed by the peer. -/
structure Check where
  now : Time
  evalAt : Time
  triedAt : Time
  enteredAt : Time
  reply : Option Int
  installed : Bool
  scout : Bool
deriving DecidableEq

namespace Gauges

variable (cfg : Tuning) (c : Check) (p : Gauges)

/-! ## The comparison with the relay -/

def noteTrialRelayRtt (v : Time) : Gauges :=
  if p.state = .trial then { p with trialRelayRtt := v } else p

def refreshRelayRTT : Gauges :=
  let p := { p with relayRttTriedAt := unixMilli c.triedAt }
  match c.reply with
  | none => p
  | some ms =>
    if 0 < ms then
      let v := ofMilli ms.toNat
      Gauges.noteTrialRelayRtt { p with relayRtt := v } v
    else p

def refreshDue : Bool :=
  p.relayRttTriedAt = 0 ||
    p.relayRttTriedAt + unixMilli cfg.relayRttRefreshInterval ≤ unixMilli c.evalAt

def refreshed : Gauges := if p.refreshDue cfg c then p.refreshRelayRTT c else p

def enterStandby : Gauges :=
  if p.state = .up then
    { p with state := .standby, degradeSince := 0, lastStandbyEval := unixMilli c.enteredAt }
  else p

def exitStandby : Gauges :=
  if p.state = .standby then { p with state := .up, degradeSince := 0, lastStandbyEval := 0 }
  else p

/-- The part of `evalStandby` after both round trips are known, for a path in
use: worse than the relay for long enough, it goes to standby. -/
def evalUp : Gauges :=
  if p.rtt ≤ cfg.standbyRatio.scale p.relayRtt then { p with degradeSince := 0 }
  else if p.degradeSince = 0 then { p with degradeSince := unixMilli c.evalAt }
  else if p.degradeSince + unixMilli cfg.standbyDegradeFor ≤ unixMilli c.evalAt then
    p.enterStandby c
  else p

/-- The same for a path on standby, which is looked at from time to time. -/
def evalInStandby : Gauges :=
  if p.lastStandbyEval ≠ 0 ∧
      unixMilli c.evalAt < p.lastStandbyEval + unixMilli cfg.standbyEvalInterval then p
  else
    let p := { p with lastStandbyEval := unixMilli c.evalAt }
    if p.rtt ≤ cfg.standbyExitRatio.scale p.relayRtt then p.exitStandby else p

def evalStandby : Gauges :=
  if ¬ p.state.alive then p
  else
    let state := p.state
    let p := p.refreshed cfg c
    if p.relayRtt = 0 ∨ p.rtt = 0 then p
    else
      match state with
      | .up => p.evalUp cfg c
      | .standby => p.evalInStandby cfg c
      | _ => p

/-! ## The trial -/

def sampleBase : Millis :=
  if p.trialLastSampleAt = 0 then p.trialStartedAt else p.trialLastSampleAt

/-- A sample is due, and an echo has come since the last one. -/
def sampleReady : Bool :=
  ofMilli p.sampleBase + cfg.sampleStep ≤ c.now && p.trialLastEcho < p.lastEcho

/-- The sample is good: the round trips compare well, and an echo has come. -/
def sampleGood : Bool :=
  trialSampleGood p.rtt p.trialRelayRtt (if p.trialLastEcho < p.lastEcho then 100 else 0)

def trialSampleStep : Gauges :=
  if p.trialStartedAt = 0 then p
  else if p.sampleReady cfg c then
    { p with
      trialLastSampleAt := unixMilli c.now
      trialLastEcho := p.lastEcho
      trialSamples := p.trialSamples + 1
      trialGood := if p.sampleGood then p.trialGood + 1 else p.trialGood }
  else { p with trialLastSampleAt := p.sampleBase }

end Gauges

inductive Verdict
  | passed | failed
deriving DecidableEq

namespace Gauges

variable (cfg : Tuning) (c : Check) (p : Gauges)

def tryPassTrial : Gauges :=
  if p.state = .trial ∧ p.trialDone = false then
    { p with trialDone := true, state := if c.installed then .up else .down }
  else p

def tryFailTrial : Gauges :=
  if p.state = .trial ∧ p.trialDone = false then
    { p with trialDone := true, state := if c.scout then .down else .rejected }
  else p

/-- The call that `evalTrial` makes, after the sample is taken. -/
def verdict : Option Verdict :=
  if p.state = .trial ∧ p.trialStartedAt ≠ 0 then
    let sampled := p.trialSampleStep cfg c
    if cfg.trialNeedGood ≤ sampled.trialGood then some .passed
    else if ofMilli p.trialStartedAt + cfg.trialWindow ≤ c.now then some .failed
    else none
  else none

def evalTrial : Gauges :=
  if p.state = .trial ∧ p.trialStartedAt ≠ 0 then
    let sampled := p.trialSampleStep cfg c
    match p.verdict cfg c with
    | some .passed => sampled.tryPassTrial c
    | some .failed => sampled.tryFailTrial c
    | none => sampled
  else p

/-! ## The check -/

def silence : Time := c.now - if p.lastEcho = 0 then p.since else ofMilli p.lastEcho

/-- The peer has not answered for too long, twice in a row. -/
def checkEcho : Gauges :=
  if cfg.probeInterval * (cfg.probeMissLimit + 1) < p.silence c then
    let p := { p with probeMiss := p.probeMiss + 1 }
    if cfg.probeMissLimit ≤ p.probeMiss then { p with state := .down, trialDone := true } else p
  else p

/-- The branch of the watch loop for a tick of its check timer. -/
def check : Gauges :=
  if p.state.alive then ((p.evalStandby cfg c).evalTrial cfg c).checkEcho cfg c else p

end Gauges

/-! ## Runs of one path -/

/-- The control loop stores the arrival of an echo, and then the round trip;
the watch loop makes its checks; and another goroutine may end the path. -/
inductive GaugeAction
  | echo (time : Time)
  | measured (rtt : Time)
  | check (c : Check)
  | ended
deriving DecidableEq

def act (cfg : Tuning) (p : Gauges) : GaugeAction → Option Gauges
  | .echo time => some { p with lastEcho := unixMilli time, probeMiss := 0 }
  | .measured rtt => some (if 0 < rtt then { p with rtt := rtt } else p)
  | .check c => some (p.check cfg c)
  | .ended => some { p with state := .down, trialDone := true }

/-- The verdict on which `evalTrial` acts. -/
def called (cfg : Tuning) (p : Gauges) : GaugeAction → Option Verdict
  | .check c => if p.state.alive then (p.evalStandby cfg c).verdict cfg c else none
  | _ => none

/-- Where the verdict takes the path.  One that has passed its trial may lose
its slot in the route table, and one that has failed it may be given up. -/
def Check.outcome (c : Check) : Verdict → PathState
  | .passed => if c.installed then .up else .down
  | .failed => if c.scout then .down else .rejected

structure Sample where
  time : Time
  echo : Millis
  good : Bool
deriving DecidableEq

def counted (cfg : Tuning) (p : Gauges) : GaugeAction → Option Sample
  | .check c =>
    let q := p.evalStandby cfg c
    if p.state = .trial ∧ p.trialStartedAt ≠ 0 ∧ q.sampleReady cfg c then
      some ⟨c.now, q.lastEcho, q.sampleGood⟩
    else none
  | _ => none

/-! ## What a check leaves -/

namespace Gauges

variable (cfg : Tuning) (c : Check) (p : Gauges)

structure Round where
  startedAt : Millis
  samples : Nat
  good : Nat
  lastSampleAt : Millis
  lastEcho : Millis
deriving DecidableEq

def round : Round :=
  ⟨p.trialStartedAt, p.trialSamples, p.trialGood, p.trialLastSampleAt, p.trialLastEcho⟩

structure Unasked (p q : Gauges) : Prop where
  round : q.round = p.round
  state : q.state = p.state
  trialDone : q.trialDone = p.trialDone
  lastEcho : q.lastEcho = p.lastEcho
  rtt : q.rtt = p.rtt
  since : q.since = p.since
  probeMiss : q.probeMiss = p.probeMiss
  degradeSince : q.degradeSince = p.degradeSince
  lastStandbyEval : q.lastStandbyEval = p.lastStandbyEval

theorem Unasked.startedAt (h : Unasked p q) : q.trialStartedAt = p.trialStartedAt :=
  congrArg Round.startedAt h.round

theorem refreshed_unasked : Unasked p (p.refreshed cfg c) := by
  unfold refreshed refreshRelayRTT noteTrialRelayRtt
  split
  · dsimp only
    split
    · exact ⟨rfl, rfl, rfl, rfl, rfl, rfl, rfl, rfl, rfl⟩
    · split
      · split <;> exact ⟨rfl, rfl, rfl, rfl, rfl, rfl, rfl, rfl, rfl⟩
      · exact ⟨rfl, rfl, rfl, rfl, rfl, rfl, rfl, rfl, rfl⟩
  · exact ⟨rfl, rfl, rfl, rfl, rfl, rfl, rfl, rfl, rfl⟩

theorem evalStandby_of_trial (htrial : p.state = .trial) :
    p.evalStandby cfg c = p.refreshed cfg c := by
  simp only [evalStandby, htrial, PathState.alive, not_true_eq_false, if_false]
  split <;> rfl

theorem evalUp_state :
    (p.evalUp cfg c).state = p.state ∨ p.state = .up ∧ (p.evalUp cfg c).state = .standby := by
  unfold evalUp enterStandby
  split
  · exact .inl rfl
  split
  · exact .inl rfl
  split
  · split
    next hup => exact .inr ⟨hup, rfl⟩
    next => exact .inl rfl
  · exact .inl rfl

theorem evalInStandby_state :
    (p.evalInStandby cfg c).state = p.state ∨
      p.state = .standby ∧ (p.evalInStandby cfg c).state = .up := by
  unfold evalInStandby exitStandby
  split
  · exact .inl rfl
  · dsimp only
    split
    · split
      next hstandby => exact .inr ⟨hstandby, rfl⟩
      next => exact .inl rfl
    · exact .inl rfl

theorem evalUp_round : (p.evalUp cfg c).round = p.round := by
  unfold evalUp enterStandby
  split
  · rfl
  split
  · rfl
  split
  · split <;> rfl
  · rfl

theorem evalInStandby_round : (p.evalInStandby cfg c).round = p.round := by
  unfold evalInStandby exitStandby
  split
  · rfl
  · dsimp only
    split
    · split <;> rfl
    · rfl

theorem evalStandby_round : (p.evalStandby cfg c).round = p.round := by
  have hrefreshed := (refreshed_unasked cfg c p).round
  unfold evalStandby
  split
  · rfl
  · dsimp only
    split
    · exact hrefreshed
    · split
      · exact (evalUp_round cfg c _).trans hrefreshed
      · exact (evalInStandby_round cfg c _).trans hrefreshed
      · exact hrefreshed

theorem evalStandby_state_ne (hstate : p.state ≠ .trial) :
    (p.evalStandby cfg c).state ≠ .trial := by
  have hrefreshed : (p.refreshed cfg c).state ≠ .trial := by
    rw [(refreshed_unasked cfg c p).state]
    exact hstate
  unfold evalStandby
  split
  · exact hstate
  · dsimp only
    split
    · exact hrefreshed
    · split
      · rcases evalUp_state cfg c (p.refreshed cfg c) with h | ⟨-, h⟩
        · rwa [h]
        · rw [h]
          decide
      · rcases evalInStandby_state cfg c (p.refreshed cfg c) with h | ⟨-, h⟩
        · rwa [h]
        · rw [h]
          decide
      · exact hrefreshed

theorem evalTrial_of_ne (hstate : p.state ≠ .trial) : p.evalTrial cfg c = p :=
  if_neg fun h => hstate h.1

theorem verdict_of_ne (hstate : p.state ≠ .trial) : p.verdict cfg c = none :=
  if_neg fun h => hstate h.1

theorem checkEcho_round : (p.checkEcho cfg c).round = p.round := by
  unfold checkEcho
  split
  · dsimp only
    split <;> rfl
  · rfl

theorem tryPassTrial_round : (p.tryPassTrial c).round = p.round := by
  unfold tryPassTrial
  split <;> rfl

theorem tryFailTrial_round : (p.tryFailTrial c).round = p.round := by
  unfold tryFailTrial
  split <;> rfl

theorem evalTrial_round (htrial : p.state = .trial) (hstarted : p.trialStartedAt ≠ 0) :
    (p.evalTrial cfg c).round = (p.trialSampleStep cfg c).round := by
  unfold evalTrial
  rw [if_pos ⟨htrial, hstarted⟩]
  dsimp only
  split
  · exact tryPassTrial_round c _
  · exact tryFailTrial_round c _
  · rfl

theorem check_round_of_ne (hstate : p.state ≠ .trial) : (p.check cfg c).round = p.round := by
  unfold check
  split
  · rw [checkEcho_round, evalTrial_of_ne cfg c _ (evalStandby_state_ne cfg c p hstate),
      evalStandby_round]
  · rfl

theorem check_round_of_trial (htrial : p.state = .trial) (hstarted : p.trialStartedAt ≠ 0) :
    (p.check cfg c).round = ((p.refreshed cfg c).trialSampleStep cfg c).round := by
  have hunasked := refreshed_unasked cfg c p
  have hstate : (p.refreshed cfg c).state = .trial := hunasked.state.trans htrial
  unfold check
  rw [if_pos (by rw [htrial]; rfl), evalStandby_of_trial cfg c p htrial, checkEcho_round,
    evalTrial_round cfg c _ hstate (hunasked.startedAt ▸ hstarted)]

end Gauges

end Hy2Link.Client.Path
