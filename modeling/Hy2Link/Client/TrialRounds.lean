import Hy2Link.Client.TrialSampling

/-! # Trials on a link that answers

A round with the settings in production, told in milliseconds: the watch loop
checks the path every second and sends a probe every five, and each probe is
echoed within the next second with a round trip that is good enough.  The
verdict then hangs on the first check, the only one that asks the server for the
round trip of the relay: with its answer the trial is passed eleven seconds
after the loop has started, and without it the trial fails at the end of its
window.
-/

namespace Hy2Link.Client.Path

open Interleaving Gauges

/-- The events of a round.  The path goes on trial at `entered`, and its watch
loop starts at `started`; probe `k` is sent `5000 * k` ms after that and echoed
`delay k` ms later, when the round trip `rtt k` is stored.  Check `k` is made
`1000 * k` ms after the start of the loop. -/
structure ProbedRound where
  entered : Nat
  started : Nat
  delay : Nat → Nat
  rtt : Nat → Time
  relay : Nat
  reply : Nat → Option Int
  installed : Nat → Bool
  scout : Nat → Bool
  entered_pos : 0 < entered
  entered_lt : entered < started + 1000
  delay_pos : ∀ k, 0 < delay k
  delay_lt : ∀ k, delay k < 1000
  good : ∀ k, trialSampleGood (rtt k) (ofMilli relay) 100 = true

namespace ProbedRound

variable (r : ProbedRound)

def checkAt (n : Nat) : Check where
  now := ofMilli (r.started + n)
  evalAt := ofMilli (r.started + n)
  triedAt := ofMilli (r.started + n)
  enteredAt := ofMilli (r.started + n)
  reply := r.reply (n / 1000)
  installed := r.installed (n / 1000)
  scout := r.scout (n / 1000)

@[simp] theorem checkAt_now (n : Nat) : (r.checkAt n).now = ofMilli (r.started + n) := rfl

def eventsAt (n : Nat) : List GaugeAction :=
  if n % 1000 = 0 then [.check (r.checkAt n)]
  else if 5000 ≤ n ∧ n % 5000 = r.delay (n / 5000) then
    [.echo (ofMilli (r.started + n)), .measured (r.rtt (n / 5000))]
  else []

def timeline : Nat → List GaugeAction
  | 0 => []
  | n + 1 => timeline n ++ r.eventsAt (n + 1)

example : ofMilli 5000 = defaultTuning.probeInterval ∧ ofMilli 1000 = defaultCheckInterval := by
  decide

def echoed (n : Nat) : Nat :=
  if r.delay (n / 5000) ≤ n % 5000 then n / 5000 else n / 5000 - 1

def lastEcho (n : Nat) : Nat :=
  if r.echoed n = 0 then 0 else r.started + 5000 * r.echoed n + r.delay (r.echoed n)

def known : Time :=
  match r.reply 1 with
  | some ms => if 0 < ms then ofMilli ms.toNat else 0
  | none => 0

theorem timeline_append (m n : Nat) : ∃ rest, r.timeline (m + n) = r.timeline m ++ rest := by
  induction n with
  | zero => exact ⟨[], (List.append_nil _).symm⟩
  | succ n ih =>
    obtain ⟨rest, hrest⟩ := ih
    refine ⟨rest ++ r.eventsAt (m + n + 1), ?_⟩
    rw [← List.append_assoc, ← hrest]
    rfl

theorem echoed_of_echo (hprobe : 5000 ≤ n) (hecho : n % 5000 = r.delay (n / 5000)) :
    r.echoed n = n / 5000 ∧ r.lastEcho n = r.started + n := by
  have hechoed : r.echoed n = n / 5000 := if_pos hecho.ge
  refine ⟨hechoed, ?_⟩
  rw [lastEcho, hechoed, if_neg (by omega), ← hecho]
  omega

theorem echoed_succ (hquiet : ¬ (5000 ≤ n + 1 ∧ (n + 1) % 5000 = r.delay ((n + 1) / 5000))) :
    r.echoed (n + 1) = r.echoed n := by
  unfold echoed
  by_cases hprobe : (n + 1) % 5000 = 0
  -- the probe sent now is not echoed at once, and the one before it was
  · have hpos := r.delay_pos ((n + 1) / 5000)
    have hlt := r.delay_lt (n / 5000)
    rw [if_neg (by omega), if_pos (by omega)]
    omega
  · have hsame : (n + 1) / 5000 = n / 5000 := by omega
    rw [hsame] at hquiet ⊢
    generalize r.delay (n / 5000) = delay at hquiet
    split <;> split <;> omega

theorem eventsAt_check (hcheck : n % 1000 = 0) :
    r.eventsAt n = [.check (r.checkAt n)] := if_pos hcheck

theorem quiet_of_check (hcheck : n % 1000 = 0) : ¬ (5000 ≤ n ∧ n % 5000 = r.delay (n / 5000)) := by
  have hpos := r.delay_pos (n / 5000)
  have hlt := r.delay_lt (n / 5000)
  omega

/-! ## The path under the watch loop -/

variable {r}

structure Watched (r : ProbedRound) (n : Nat) (p : Gauges) : Prop where
  state : p.state = .trial
  undecided : p.trialDone = false
  since : p.since = ofMilli r.entered
  startedAt : p.trialStartedAt = r.entered
  triedAt : p.relayRttTriedAt = if n < 1000 then 0 else r.started + 1000
  relay : p.trialRelayRtt = if n < 1000 then 0 else r.known
  lastEcho : p.lastEcho = r.lastEcho n
  rtt : 0 < r.echoed n → p.rtt = r.rtt (r.echoed n)

theorem watched_newGauges (rtt : Time) : r.Watched 0 (newGauges (ofMilli r.entered) rtt) := by
  have hechoed : r.echoed 0 = 0 := by
    unfold echoed
    split <;> rfl
  refine ⟨rfl, rfl, rfl, unixMilli_ofMilli _, rfl, rfl, (if_pos hechoed).symm, ?_⟩
  intro h
  omega

section

variable (h : r.Watched n p)
include h

theorem Watched.started_ne : p.trialStartedAt ≠ 0 := by
  rw [h.startedAt]
  exact r.entered_pos.ne'

theorem Watched.quiet (hcheck : (n + 1) % 1000 ≠ 0)
    (hquiet : ¬ (5000 ≤ n + 1 ∧ (n + 1) % 5000 = r.delay ((n + 1) / 5000))) :
    r.Watched (n + 1) p := by
  have hfirst : n + 1 < 1000 ↔ n < 1000 := by omega
  have hechoed := r.echoed_succ hquiet
  refine ⟨h.state, h.undecided, h.since, h.startedAt, ?_, ?_, ?_, ?_⟩
  · simpa only [hfirst] using h.triedAt
  · simpa only [hfirst] using h.relay
  · simpa only [ProbedRound.lastEcho, hechoed] using h.lastEcho
  · simpa only [hechoed] using h.rtt

theorem Watched.echo
    (hprobe : 5000 ≤ n + 1) (hecho : (n + 1) % 5000 = r.delay ((n + 1) / 5000)) :
    r.Watched (n + 1)
      { p with
        lastEcho := unixMilli (ofMilli (r.started + (n + 1))), probeMiss := 0
        rtt := r.rtt ((n + 1) / 5000) } := by
  have hlate : ¬ n + 1 < 1000 := by omega
  have hlate' : ¬ n < 1000 := by omega
  obtain ⟨hechoed, hlast⟩ := r.echoed_of_echo hprobe hecho
  refine ⟨h.state, h.undecided, h.since, h.startedAt, ?_, ?_, ?_, ?_⟩
  · simpa only [if_neg hlate, if_neg hlate'] using h.triedAt
  · simpa only [if_neg hlate, if_neg hlate'] using h.relay
  · rw [hlast]
    exact unixMilli_ofMilli _
  · intro _
    rw [hechoed]

/-- The first check asks the server, and the others of the round do not. -/
theorem Watched.refreshed (hcheck : (n + 1) % 1000 = 0) (hn : n < 300000) :
    (p.refreshed defaultTuning (r.checkAt (n + 1))).relayRttTriedAt = r.started + 1000 ∧
      (p.refreshed defaultTuning (r.checkAt (n + 1))).trialRelayRtt = r.known := by
  have htried := h.triedAt
  have hrelay := h.relay
  by_cases hfirst : n < 1000
  · obtain rfl : n = 999 := by omega
    rw [if_pos hfirst] at htried hrelay
    have hdue : p.refreshDue defaultTuning (r.checkAt (999 + 1)) = true := by
      simp [refreshDue, htried]
    have hreply : (r.checkAt (999 + 1)).reply = r.reply 1 := rfl
    have htime : unixMilli (r.checkAt (999 + 1)).triedAt = r.started + 1000 := unixMilli_ofMilli _
    rw [Gauges.refreshed, if_pos hdue, refreshRelayRTT, hreply, htime, known]
    cases r.reply 1 with
    | none => exact ⟨rfl, hrelay⟩
    | some ms =>
      by_cases hms : 0 < ms
      · simp [hms, noteTrialRelayRtt, h.state]
      · simp [hms, hrelay]
  · rw [if_neg hfirst] at htried hrelay
    have hdue : p.refreshDue defaultTuning (r.checkAt (n + 1)) = false := by
      have htime : unixMilli (r.checkAt (n + 1)).evalAt = r.started + (n + 1) :=
        unixMilli_ofMilli _
      have hinterval : unixMilli defaultTuning.relayRttRefreshInterval = 300000 := rfl
      simp only [refreshDue, htried, htime, hinterval, Bool.or_eq_false_iff,
        decide_eq_false_iff_not]
      unfold Millis
      omega
    rw [Gauges.refreshed, hdue]
    exact ⟨htried, hrelay⟩

end

end ProbedRound

/-! ## A check of a path on trial -/

section Check

variable {p : Gauges}

theorem checkEcho_of_heard
    (hheard : p.silence c ≤ cfg.probeInterval * (cfg.probeMissLimit + 1)) :
    p.checkEcho cfg c = p := if_neg (not_lt.2 hheard)

theorem check_of_undecided (htrial : p.state = .trial) (hstarted : p.trialStartedAt ≠ 0)
    (hcalled : called cfg p (.check c) = none)
    (hheard : (p.refreshed cfg c).silence c ≤ cfg.probeInterval * (cfg.probeMissLimit + 1)) :
    p.check cfg c = (p.refreshed cfg c).trialSampleStep cfg c := by
  have hunasked := refreshed_unasked cfg c p
  rw [called_eq_verdict htrial] at hcalled
  rw [check_of_trial htrial, evalTrial,
    if_pos ⟨hunasked.state.trans htrial, hunasked.startedAt ▸ hstarted⟩, hcalled]
  obtain ⟨_, _, _, _, hsample⟩ := trialSampleStep_eq cfg c (p.refreshed cfg c)
  rw [hsample]
  exact checkEcho_of_heard hheard

theorem evalTrial_silence (cfg : Tuning) (c : Check) (p : Gauges) :
    (p.evalTrial cfg c).silence c = p.silence c := by
  obtain ⟨_, _, _, _, hsample⟩ := trialSampleStep_eq cfg c p
  unfold evalTrial tryPassTrial tryFailTrial
  rw [hsample]
  split
  · dsimp only
    split
    · split <;> rfl
    · split <;> rfl
    · rfl
  · rfl

theorem checkEcho_state_ne (hp : p.state ≠ .trial) : (p.checkEcho cfg c).state ≠ .trial := by
  rcases checkEcho_state cfg c p with h | h
  · rwa [h.2]
  · simp [h.2]

theorem check_state_ne (hdone : p.trialDone = false)
    (hcalled : called cfg p (.check c) = some v) : (p.check cfg c).state ≠ .trial := by
  rcases (check_of_called hdone hcalled).2 with hstate | hstate
  · rw [hstate]
    cases v <;> simp only [Check.outcome] <;> split <;> simp
  · simp [hstate]

theorem act_state_ne (hp : p.state ≠ .trial) (hact : act cfg p a = some q) : q.state ≠ .trial := by
  cases a with
  | check c =>
    obtain rfl := Option.some.inj hact
    unfold check
    split
    · rw [evalTrial_of_ne cfg c _ (evalStandby_state_ne cfg c p hp)]
      exact checkEcho_state_ne (evalStandby_state_ne cfg c p hp)
    · exact hp
  | echo time =>
    obtain rfl := Option.some.inj hact
    exact hp
  | measured rtt =>
    obtain rfl := Option.some.inj hact
    split <;> exact hp
  | ended =>
    obtain rfl := Option.some.inj hact
    simp

theorem outputs_called_of_ne (hp : p.state ≠ .trial) (actions : List GaugeAction) :
    outputs (act cfg) (called cfg) p actions = [] := by
  induction actions generalizing p with
  | nil => rfl
  | cons a rest ih =>
    obtain ⟨q, hact⟩ := act_total cfg p a
    have hcalled : called cfg p a = none := by
      cases h : called cfg p a with
      | none => rfl
      | some v =>
        obtain ⟨_, -, htrial, -⟩ := called_eq_some h
        exact (hp htrial).elim
    rw [outputs_cons _ hact, hcalled, ih (act_state_ne hp hact)]
    rfl

end Check

/-! ## A check of the round -/

namespace ProbedRound

variable {r : ProbedRound}

section

variable (h : r.Watched n p)
include h

theorem Watched.counted_check (hcheck : (n + 1) % 1000 = 0)
    (hn : n < 300000) :
    counted defaultTuning p (.check (r.checkAt (n + 1))) =
      if p.round.base + 5000 ≤ r.started + (n + 1) ∧ p.trialLastEcho < r.lastEcho n then
        some ⟨ofMilli (r.started + (n + 1)), r.lastEcho n, trialSampleGood p.rtt r.known 100⟩
      else none := by
  have hstep : defaultTuning.sampleStep = ofMilli 5000 := rfl
  rw [counted_of_trial h.state h.started_ne, (h.refreshed hcheck hn).2, h.lastEcho, hstep,
    ← ofMilli_add]
  simp only [checkAt_now, ofMilli_le]

theorem Watched.called_check :
    called defaultTuning p (.check (r.checkAt (n + 1))) =
      if 2 ≤ p.trialGood +
          (counted defaultTuning p (.check (r.checkAt (n + 1)))).toList.countP (·.good) then
        some .passed
      else if r.entered + 15000 ≤ r.started + (n + 1) then some .failed
      else none := by
  have hneed : defaultTuning.trialNeedGood = 2 := rfl
  have hwindow : defaultTuning.trialWindow = ofMilli 15000 := rfl
  rw [called_of_trial h.state h.started_ne, h.startedAt, hneed, hwindow, ← ofMilli_add]
  simp only [checkAt_now, ofMilli_le]

theorem Watched.silence_le
    (hheard : r.started + (n + 1) ≤ 15000 + if r.lastEcho n = 0 then r.entered else r.lastEcho n) :
    (p.refreshed defaultTuning (r.checkAt (n + 1))).silence (r.checkAt (n + 1)) ≤
      defaultTuning.probeInterval * (defaultTuning.probeMissLimit + 1) := by
  have hunasked := refreshed_unasked defaultTuning (r.checkAt (n + 1)) p
  have hlimit : defaultTuning.probeInterval * (defaultTuning.probeMissLimit + 1) =
    ofMilli 15000 := rfl
  rw [silence, hunasked.lastEcho, hunasked.since, h.lastEcho, h.since, hlimit, ← apply_ite]
  apply Nat.sub_le_of_le_add
  rw [← ofMilli_add]
  exact ofMilli_le.2 hheard

theorem Watched.check (hcheck : (n + 1) % 1000 = 0)
    (hcalled : called defaultTuning p (.check (r.checkAt (n + 1))) = none) :
    r.Watched (n + 1) (p.check defaultTuning (r.checkAt (n + 1))) := by
  have hwindow : r.started + (n + 1) < r.entered + 15000 := by
    rw [h.called_check] at hcalled
    split at hcalled
    · cases hcalled
    · split at hcalled
      · cases hcalled
      next hopen => exact not_le.1 hopen
  have hentered := r.entered_lt
  obtain ⟨htried, hrelay⟩ := h.refreshed hcheck (by omega)
  have hunasked := refreshed_unasked defaultTuning (r.checkAt (n + 1)) p
  have hlate : ¬ n + 1 < 1000 := by omega
  have hechoed := r.echoed_succ (r.quiet_of_check hcheck)
  -- an echo has come after the start of the trial
  have hheard : r.started + (n + 1) ≤
      15000 + if r.lastEcho n = 0 then r.entered else r.lastEcho n := by
    unfold ProbedRound.lastEcho
    split <;> split <;> omega
  rw [check_of_undecided h.state h.started_ne hcalled (h.silence_le hheard)]
  obtain ⟨_, _, _, _, hsample⟩ := trialSampleStep_eq defaultTuning (r.checkAt (n + 1))
    (p.refreshed defaultTuning (r.checkAt (n + 1)))
  rw [hsample]
  refine ⟨hunasked.state.trans h.state, hunasked.trialDone.trans h.undecided,
    hunasked.since.trans h.since, hunasked.startedAt.trans h.startedAt, ?_, ?_, ?_, ?_⟩
  · rw [if_neg hlate]
    exact htried
  · rw [if_neg hlate]
    exact hrelay
  · refine (hunasked.lastEcho.trans h.lastEcho).trans ?_
    simp only [ProbedRound.lastEcho, hechoed]
  · rw [hechoed]
    exact fun hheard => hunasked.rtt.trans (h.rtt hheard)

theorem Watched.between (hcheck : (n + 1) % 1000 ≠ 0) :
    ∃ q, run (act defaultTuning) p (r.eventsAt (n + 1)) = some q ∧ r.Watched (n + 1) q ∧
      q.round = p.round ∧
      outputs (act defaultTuning) (called defaultTuning) p (r.eventsAt (n + 1)) = [] := by
  unfold eventsAt
  rw [if_neg hcheck]
  split
  next hecho =>
    have hrtt : 0 < r.rtt ((n + 1) / 5000) := by
      have hgood := r.good ((n + 1) / 5000)
      unfold trialSampleGood at hgood
      split at hgood
      · cases hgood
      next hknown => exact Nat.pos_of_ne_zero fun hzero => hknown (.inr hzero)
    -- a round trip of 0 would not be stored, but it is not good either
    refine ⟨_, ?_, h.echo hecho.1 hecho.2, rfl, rfl⟩
    simp only [run_cons, act, Option.bind_some, if_pos hrtt, run_nil]
  next hquiet => exact ⟨p, rfl, h.quiet hcheck hquiet, rfl, rfl⟩

end

/-! ## A healthy link -/

/-- The counters of a round that is going to be passed. -/
def Counts (r : ProbedRound) (n : Nat) (p : Gauges) : Prop :=
  if n < 6000 then p.round.base = r.entered ∧ p.trialLastEcho = 0 ∧ p.trialGood = 0
  else p.round.base = r.started + 6000 ∧ p.trialLastEcho = r.started + 5000 + r.delay 1 ∧
    p.trialGood = 1

theorem newGauges_base (now rtt : Time) : (newGauges now rtt).round.base = unixMilli now :=
  if_pos rfl

theorem counts_newGauges (rtt : Time) : r.Counts 0 (newGauges (ofMilli r.entered) rtt) := by
  rw [Counts, if_pos (by decide), newGauges_base, unixMilli_ofMilli]
  exact ⟨rfl, rfl, rfl⟩

theorem Counts.of_round (h : r.Counts n p) (hcheck : (n + 1) % 1000 ≠ 0)
    (hround : q.round = p.round) : r.Counts (n + 1) q := by
  have hsame : n + 1 < 6000 ↔ n < 6000 := by omega
  have hgood : q.trialGood = p.trialGood := congrArg Round.good hround
  have hecho : q.trialLastEcho = p.trialLastEcho := congrArg Round.lastEcho hround
  unfold Counts at h ⊢
  rw [hround, hgood, hecho]
  simpa only [hsame] using h

theorem echoed_eq (hn : n / 5000 = k) (hlate : 999 ≤ n % 5000) : r.echoed n = k := by
  have hlt := r.delay_lt (n / 5000)
  rw [echoed, if_pos (by omega), hn]

theorem Watched.good_sample (h : r.Watched n p) (hknown : r.known = ofMilli r.relay)
    (hechoed : 0 < r.echoed n) : trialSampleGood p.rtt r.known 100 = true := by
  rw [h.rtt hechoed, hknown]
  exact r.good _

theorem lastEcho_eq (hechoed : r.echoed n = k) (hk : k ≠ 0) :
    r.lastEcho n = r.started + 5000 * k + r.delay k := by
  rw [ProbedRound.lastEcho, hechoed, if_neg hk]

/-- In the check six seconds after the start of the loop the first sample is
taken, with the echo of the first probe. -/
theorem Watched.first_sample (h : r.Watched 5999 p) (hcounts : r.Counts 5999 p)
    (hknown : r.known = ofMilli r.relay) (hstart : r.started ≤ r.entered + 4999)
    (hentered : r.entered ≤ r.started) :
    called defaultTuning p (.check (r.checkAt 6000)) = none ∧
      r.Counts 6000 (p.check defaultTuning (r.checkAt 6000)) := by
  obtain ⟨hbase, hecho, hgood⟩ : p.round.base = r.entered ∧ p.trialLastEcho = 0 ∧
    p.trialGood = 0 := hcounts
  have hechoed : r.echoed 5999 = 1 := echoed_eq rfl (by decide)
  have hlast := lastEcho_eq hechoed (by decide)
  have hdue : r.entered + 5000 ≤ r.started + 6000 ∧ 0 < r.lastEcho 5999 := by omega
  have hcounted := h.counted_check (by decide) (by decide)
  rw [hbase, hecho, if_pos hdue, h.good_sample hknown (by omega)] at hcounted
  have hround := round_of_counted hcounted rfl
  refine ⟨?_, ?_, ?_, ?_⟩
  · rw [h.called_check, hcounted, hgood, if_neg (by simp), if_neg (by omega)]
  · rw [hround, count_base hcounted]
    exact unixMilli_ofMilli _
  · exact (congrArg Round.lastEcho hround).trans hlast
  · refine (congrArg Round.good hround).trans ?_
    simp [Round.count, Gauges.round, hgood]

/-- The other checks of the first ten seconds take none: there was no echo yet,
or the first sample is too fresh. -/
theorem Watched.not_counted (h : r.Watched n p) (hcounts : r.Counts n p)
    (hcheck : (n + 1) % 1000 = 0) (hn : n + 1 < 11000) (hsample : n + 1 ≠ 6000) :
    counted defaultTuning p (.check (r.checkAt (n + 1))) = none := by
  rw [h.counted_check hcheck (by omega)]
  apply if_neg
  rintro ⟨hdue, hecho⟩
  unfold Counts at hcounts
  split at hcounts
  next hearly =>
    -- the first probe is sent after five seconds
    have hechoed : r.echoed n = 0 := by
      have hzero : n / 5000 = 0 := by omega
      unfold echoed
      rw [hzero]
      split <;> rfl
    rw [ProbedRound.lastEcho, if_pos hechoed] at hecho
    exact Nat.not_lt_zero _ hecho
  next hlate =>
    -- the second sample has to keep its distance from the first
    have hdue : r.started + 6000 + 5000 ≤ r.started + (n + 1) := hcounts.1 ▸ hdue
    omega

theorem Counts.good_lt (h : r.Counts n p) : p.trialGood < 2 := by
  unfold Counts at h
  split at h
  · rw [h.2.2]
    decide
  · rw [h.2.2]
    decide

theorem Watched.check_counts (h : r.Watched n p) (hcounts : r.Counts n p)
    (hknown : r.known = ofMilli r.relay) (hstart : r.started ≤ r.entered + 4999)
    (hentered : r.entered ≤ r.started) (hcheck : (n + 1) % 1000 = 0) (hn : n + 1 < 11000) :
    called defaultTuning p (.check (r.checkAt (n + 1))) = none ∧
      r.Counts (n + 1) (p.check defaultTuning (r.checkAt (n + 1))) := by
  by_cases hsample : n + 1 = 6000
  · obtain rfl : n = 5999 := by omega
    exact h.first_sample hcounts hknown hstart hentered
  have hcounted := h.not_counted hcounts hcheck hn hsample
  have hkept := roundKept_of_not_counted hcounted rfl
  have hgood_lt := hcounts.good_lt
  constructor
  · rw [h.called_check, hcounted, if_neg (by simpa using hgood_lt), if_neg (by omega)]
  · have hsame : n + 1 < 6000 ↔ n < 6000 := by omega
    unfold Counts at hcounts ⊢
    rw [hkept.base, hkept.lastEcho, hkept.good]
    simpa only [hsame] using hcounts

theorem on_trial_of_healthy (hknown : r.known = ofMilli r.relay)
    (hstart : r.started ≤ r.entered + 4999) (hentered : r.entered ≤ r.started) (rtt : Time)
    (n : Nat) (hn : n < 11000) :
    ∃ p, run (act defaultTuning) (newGauges (ofMilli r.entered) rtt) (r.timeline n) = some p ∧
      r.Watched n p ∧ r.Counts n p ∧
      outputs (act defaultTuning) (called defaultTuning) (newGauges (ofMilli r.entered) rtt)
        (r.timeline n) = [] := by
  induction n with
  | zero => exact ⟨_, rfl, watched_newGauges rtt, counts_newGauges rtt, rfl⟩
  | succ n ih =>
    obtain ⟨p, hrun, hwatched, hcounts, hcalled⟩ := ih (by omega)
    rw [timeline, run_append, outputs_append _ hrun, hrun, hcalled]
    by_cases hcheck : (n + 1) % 1000 = 0
    · obtain ⟨hnone, hcounts⟩ :=
        hwatched.check_counts hcounts hknown hstart hentered hcheck hn
      rw [eventsAt_check r hcheck]
      refine ⟨_, rfl, hwatched.check hcheck hnone, hcounts, ?_⟩
      rw [outputs_cons _ rfl, hnone]
      rfl
    · obtain ⟨q, hevents, hq, hround, hquiet⟩ := hwatched.between hcheck
      exact ⟨q, hevents, hq, hcounts.of_round hcheck hround, hquiet⟩

theorem Watched.second_sample (h : r.Watched 10999 p) (hcounts : r.Counts 10999 p)
    (hknown : r.known = ofMilli r.relay) :
    called defaultTuning p (.check (r.checkAt 11000)) = some .passed := by
  obtain ⟨hbase, hecho, hgood⟩ : p.round.base = r.started + 6000 ∧
    p.trialLastEcho = r.started + 5000 + r.delay 1 ∧ p.trialGood = 1 := hcounts
  have hechoed : r.echoed 10999 = 2 := echoed_eq rfl (by decide)
  have hlast := lastEcho_eq hechoed (by decide)
  have hlt := r.delay_lt 1
  have hdue : r.started + 6000 + 5000 ≤ r.started + 11000 ∧
    r.started + 5000 + r.delay 1 < r.lastEcho 10999 := by omega
  have hcounted := h.counted_check (by decide) (by decide)
  rw [hbase, hecho, if_pos hdue, h.good_sample hknown (by omega)] at hcounted
  rw [h.called_check, hcounted, hgood]
  rfl

theorem run_check (hrun : run (act defaultTuning) s (r.timeline k) = some p)
    (hcheck : (k + 1) % 1000 = 0) :
    run (act defaultTuning) s (r.timeline (k + 1)) =
      some (p.check defaultTuning (r.checkAt (k + 1))) := by
  rw [timeline, run_append, hrun, eventsAt_check r hcheck]
  rfl

theorem outputs_of_called (hrun : run (act defaultTuning) s (r.timeline k) = some p)
    (hcheck : (k + 1) % 1000 = 0) (hdone : p.trialDone = false)
    (hcalled : called defaultTuning p (.check (r.checkAt (k + 1))) = some v) (hn : k + 1 ≤ n) :
    outputs (act defaultTuning) (called defaultTuning) s (r.timeline n) =
      outputs (act defaultTuning) (called defaultTuning) s (r.timeline k) ++ [v] := by
  obtain ⟨rest, hrest⟩ := r.timeline_append (k + 1) (n - (k + 1))
  rw [Nat.add_sub_cancel' hn, timeline, eventsAt_check r hcheck, List.append_assoc] at hrest
  rw [hrest, outputs_append _ hrun, List.singleton_append, outputs_cons _ rfl, hcalled,
    outputs_called_of_ne (check_state_ne hdone hcalled)]
  rfl

/-- **A healthy link passes its trial.**  Whatever the delays of the echoes and
the time between the start of the trial and that of the watch loop, eleven
seconds after the start of the loop the trial is over and the path in use, unless
it has lost its slot in the route table, and `tryFailTrial` is never called. -/
theorem healthy_link_passes (r : ProbedRound) (hentered : r.entered ≤ r.started)
    (hstart : r.started ≤ r.entered + 4999) (hreply : r.reply 1 = some (r.relay : Int))
    (rtt : Time) (n : Nat) :
    .failed ∉ outputs (act defaultTuning) (called defaultTuning)
        (newGauges (ofMilli r.entered) rtt) (r.timeline n) ∧
      (11000 ≤ n → .passed ∈ outputs (act defaultTuning) (called defaultTuning)
        (newGauges (ofMilli r.entered) rtt) (r.timeline n)) ∧
      ∃ p, run (act defaultTuning) (newGauges (ofMilli r.entered) rtt) (r.timeline 11000) =
          some p ∧
        p.trialDone = true ∧ p.state = if r.installed 11 then .up else .down := by
  have hknown : r.known = ofMilli r.relay := by
    rw [known, hreply]
    dsimp only
    split
    · rfl
    next hzero =>
      have hzero : r.relay = 0 := by omega
      rw [hzero]
      rfl
  obtain ⟨p, hrun, hwatched, hcounts, hquiet⟩ :=
    on_trial_of_healthy hknown hstart hentered rtt 10999 (by decide)
  have hpassed := hwatched.second_sample hcounts hknown
  refine ⟨?_, ?_, _, run_check hrun (by decide), ?_⟩
  · by_cases hn : n < 11000
    · obtain ⟨-, -, -, -, hquiet⟩ := on_trial_of_healthy hknown hstart hentered rtt n hn
      rw [hquiet]
      exact List.not_mem_nil
    · rw [outputs_of_called hrun (by decide) hwatched.undecided hpassed (Nat.not_lt.1 hn), hquiet]
      decide
  · intro hn
    rw [outputs_of_called hrun (by decide) hwatched.undecided hpassed hn]
    exact List.mem_append_right _ (List.mem_cons_self ..)
  -- the peer has answered, so the rest of the check leaves the state
  · obtain ⟨hclosed, hstate⟩ := evalTrial_of_called hwatched.undecided hpassed
    rw [check_of_trial hwatched.state, checkEcho_of_heard]
    · exact ⟨hclosed, hstate⟩
    · rw [evalTrial_silence]
      have hechoed : r.echoed 10999 = 2 := echoed_eq rfl (by decide)
      apply hwatched.silence_le
      rw [lastEcho_eq hechoed (by decide)]
      split <;> omega

/-- The first probe is echoed after 999 ms and the others after one, and the watch
loop starts as late as it may. -/
def unevenEchoes : ProbedRound where
  entered := 1000
  started := 5999
  delay := fun k => if k = 1 then 999 else 1
  rtt := fun _ => 20 * 1000000
  relay := 50
  reply := fun _ => some 50
  installed := fun _ => true
  scout := fun _ => false
  entered_pos := by decide
  entered_lt := by decide
  delay_pos := fun k => by split <;> decide
  delay_lt := fun k => by split <;> decide
  good := fun _ => by decide +kernel

theorem healthy_link_passes_uneven :
    ∃ p, run (act defaultTuning) (newGauges (ofMilli unevenEchoes.entered) 0)
        (unevenEchoes.timeline 11000) = some p ∧ p.trialDone = true ∧ p.state = .up :=
  (healthy_link_passes unevenEchoes (by decide) (by decide) rfl 0 11000).2.2

/-! ## A relay that is not known in time -/

theorem Watched.never_good (h : r.Watched n p) (hknown : r.known = 0)
    (hcheck : (n + 1) % 1000 = 0) (hn : n < 300000) :
    (counted defaultTuning p (.check (r.checkAt (n + 1)))).toList.countP (·.good) = 0 := by
  rw [h.counted_check hcheck hn, hknown]
  split <;> rfl

/-- Until a check comes after the end of the window, no sample is good and
nothing is settled. -/
theorem on_trial_or_failed (hknown : r.known = 0) (rtt : Time) (n : Nat) :
    (∃ k p, k + 1 ≤ n ∧ (k + 1) % 1000 = 0 ∧
        run (act defaultTuning) (newGauges (ofMilli r.entered) rtt) (r.timeline k) = some p ∧
        p.trialDone = false ∧
        called defaultTuning p (.check (r.checkAt (k + 1))) = some .failed) ∨
      ∃ p, run (act defaultTuning) (newGauges (ofMilli r.entered) rtt) (r.timeline n) = some p ∧
        r.Watched n p ∧ p.trialGood = 0 ∧
        (1000 ≤ n → r.started + (n - n % 1000) < r.entered + 15000) := by
  induction n with
  | zero => exact .inr ⟨_, rfl, watched_newGauges rtt, rfl, fun h => by omega⟩
  | succ n ih =>
    rcases ih with ⟨k, p, hk, hfailed⟩ | ⟨p, hrun, hwatched, hgood, hwindow⟩
    · exact .inl ⟨k, p, by omega, hfailed⟩
    have hentered := r.entered_lt
    by_cases hcheck : (n + 1) % 1000 = 0
    -- a check passes nothing, so it fails the trial or leaves it open
    · have hn : n < 300000 := by omega
      have hcalled := hwatched.called_check
      rw [hgood, hwatched.never_good hknown hcheck hn, if_neg (by decide)] at hcalled
      split at hcalled
      next hover =>
        exact .inl ⟨n, p, le_rfl, hcheck, hrun, hwatched.undecided, hcalled⟩
      next hopen =>
        refine .inr ⟨p.check defaultTuning (r.checkAt (n + 1)), ?_,
          hwatched.check hcheck hcalled, ?_, fun _ => by omega⟩
        · exact run_check hrun hcheck
        · rw [check_trialGood, hgood, hwatched.never_good hknown hcheck hn]
    · obtain ⟨q, hevents, hq, hround, -⟩ := hwatched.between hcheck
      refine .inr ⟨q, ?_, hq, (congrArg Round.good hround).trans hgood, fun _ => by omega⟩
      rw [timeline, run_append, hrun]
      exact hevents

theorem known_of_no_reply (hreply : ∀ ms ∈ r.reply 1, ms ≤ 0) : r.known = 0 := by
  unfold known
  split
  next ms hms => exact if_neg (Int.not_lt.2 (hreply ms hms))
  next => rfl

/-- By the time `n` a check has called `tryFailTrial` on the open trial, and has
left it closed and the path rejected, or down. -/
def FailedBy (r : ProbedRound) (rtt : Time) (n : Nat) : Prop :=
  .failed ∈ outputs (act defaultTuning) (called defaultTuning)
      (newGauges (ofMilli r.entered) rtt) (r.timeline n) ∧
    ∃ k p, k ≤ n ∧
      run (act defaultTuning) (newGauges (ofMilli r.entered) rtt) (r.timeline k) = some p ∧
      p.trialDone = true ∧ (p.state = (r.checkAt k).outcome .failed ∨ p.state = .down)

theorem failed_of_unknown (hknown : r.known = 0) (rtt : Time) (hfirst : 1000 ≤ n)
    (hover : r.entered + 16000 ≤ r.started + n) : r.FailedBy rtt n := by
  rcases on_trial_or_failed hknown rtt n with
    ⟨k, p, hk, hcheck, hrun, hdone, hfailed⟩ | ⟨p, -, -, -, hwindow⟩
  · refine ⟨?_, k + 1, _, hk, run_check hrun hcheck, check_of_called hdone hfailed⟩
    rw [outputs_of_called hrun hcheck hdone hfailed hk]
    exact List.mem_append_right _ (List.mem_cons_self ..)
  · have hopen := hwindow hfirst
    omega

/-- **A trial does not survive a failed query.**  The query of the first check is
the only one of the round.  If it fails or reports nothing, no sample is good,
and the trial fails at the end of its window, whatever the server would answer
afterwards. -/
theorem failed_query_fails_trial (r : ProbedRound) (hreply : ∀ ms ∈ r.reply 1, ms ≤ 0)
    (rtt : Time) (n : Nat) (hfirst : 1000 ≤ n) (hover : r.entered + 16000 ≤ r.started + n) :
    r.FailedBy rtt n :=
  failed_of_unknown (known_of_no_reply hreply) rtt hfirst hover

/-- The server does not know the round trip of the relay at the first check, and
would answer every later query. -/
def lateReply : ProbedRound where
  entered := 1000
  started := 1000
  delay := fun _ => 20
  rtt := fun _ => 20 * 1000000
  relay := 50
  reply := fun k => if k ≤ 1 then none else some 50
  installed := fun _ => true
  scout := fun _ => false
  entered_pos := by decide
  entered_lt := by decide
  delay_pos := fun _ => by decide
  delay_lt := fun _ => by decide
  good := fun _ => by decide +kernel

/-- All later queries are answered, and the trial fails all the same. -/
theorem late_reply_fails_trial :
    (∀ k, 1 < k → lateReply.reply k = some (lateReply.relay : Int)) ∧
      lateReply.FailedBy 0 16000 := by
  constructor
  · intro k hk
    exact if_neg (Nat.not_le.2 hk)
  · exact failed_of_unknown rfl 0 (by decide) (by decide)

theorem failed_query_fails_trial_late : lateReply.FailedBy 0 17000 :=
  failed_query_fails_trial lateReply (by rintro _ ⟨⟩) 0 17000 (by decide) (by decide)

end ProbedRound

end Hy2Link.Client.Path
