import Hy2Link.Client.PathGauges

/-! # The samples of a trial

A trial counts samples: one at most in every interval of `sampleStep`, and none
without an echo that has come since the last one.  What a round has counted is a
function of its run, and the verdict is one of what it has counted.

The times of the samples are kept in whole milliseconds, so the distance of two
samples is measured from the millisecond in which the first one was taken.
-/

namespace Hy2Link.Client.Path

open Interleaving

variable {cfg : Tuning} {c : Check} {p q : Gauges} {a : GaugeAction} {s : Sample}

namespace Gauges.Round

def base (round : Round) : Millis :=
  if round.lastSampleAt = 0 then round.startedAt else round.lastSampleAt

def count (round : Round) (s : Sample) : Round where
  startedAt := round.startedAt
  samples := round.samples + 1
  good := if s.good then round.good + 1 else round.good
  lastSampleAt := unixMilli s.time
  lastEcho := s.echo

end Gauges.Round

open Gauges

/-! ## One step -/

theorem counted_eq_some (hcounted : counted cfg p a = some s) :
    ∃ c, a = .check c ∧ p.state = .trial ∧ p.trialStartedAt ≠ 0 ∧
      (p.refreshed cfg c).sampleReady cfg c = true ∧
      s = ⟨c.now, p.lastEcho, (p.refreshed cfg c).sampleGood⟩ := by
  cases a with
  | check c =>
    simp only [counted] at hcounted
    split at hcounted
    next h =>
      obtain ⟨htrial, hstarted, hready⟩ := h
      rw [evalStandby_of_trial cfg c p htrial] at hready hcounted
      obtain rfl := Option.some.inj hcounted
      refine ⟨c, rfl, htrial, hstarted, hready, ?_⟩
      rw [(refreshed_unasked cfg c p).lastEcho]
    next => cases hcounted
  | _ => cases hcounted

open Round

theorem sampleReady_refreshed :
    (p.refreshed cfg c).sampleReady cfg c = true ↔
      ofMilli p.round.base + cfg.sampleStep ≤ c.now ∧ p.trialLastEcho < p.lastEcho := by
  have hunasked := refreshed_unasked cfg c p
  have hbase : (p.refreshed cfg c).sampleBase = p.round.base := by
    rw [← hunasked.round]
    rfl
  have hecho : (p.refreshed cfg c).trialLastEcho = p.trialLastEcho :=
    congrArg Round.lastEcho hunasked.round
  simp only [sampleReady, Bool.and_eq_true, decide_eq_true_eq, hbase, hecho, hunasked.lastEcho]

theorem due_of_counted (hcounted : counted cfg p a = some s) :
    p.trialStartedAt ≠ 0 ∧ ofMilli p.round.base + cfg.sampleStep ≤ s.time ∧
      p.trialLastEcho < s.echo := by
  obtain ⟨c, -, -, hstarted, hready, rfl⟩ := counted_eq_some hcounted
  exact ⟨hstarted, sampleReady_refreshed.1 hready⟩

theorem counted_of_trial (htrial : p.state = .trial) (hstarted : p.trialStartedAt ≠ 0) :
    counted cfg p (.check c) =
      if ofMilli p.round.base + cfg.sampleStep ≤ c.now ∧ p.trialLastEcho < p.lastEcho then
        some ⟨c.now, p.lastEcho, trialSampleGood p.rtt (p.refreshed cfg c).trialRelayRtt 100⟩
      else none := by
  have hunasked := refreshed_unasked cfg c p
  have hecho : (p.refreshed cfg c).trialLastEcho = p.trialLastEcho :=
    congrArg Round.lastEcho hunasked.round
  simp only [counted, evalStandby_of_trial cfg c p htrial, htrial, hstarted,
    sampleReady_refreshed, sampleGood, hecho, hunasked.lastEcho, hunasked.rtt, ne_eq,
    not_false_eq_true, true_and]
  split
  next h => rw [if_pos h.2]
  next => rfl

theorem round_of_counted (hcounted : counted cfg p a = some s) (hact : act cfg p a = some q) :
    q.round = p.round.count s := by
  obtain ⟨c, rfl, htrial, hstarted, hready, rfl⟩ := counted_eq_some hcounted
  have hunasked := refreshed_unasked cfg c p
  obtain rfl := Option.some.inj hact
  rw [check_round_of_trial cfg c p htrial hstarted, ← hunasked.round, ← hunasked.lastEcho]
  rw [← hunasked.startedAt] at hstarted
  simp only [trialSampleStep, if_neg hstarted, hready, if_true]
  rfl

theorem round_of_not_counted (hcounted : counted cfg p a = none) (hact : act cfg p a = some q) :
    q.round = p.round ∨ q.round = { p.round with lastSampleAt := p.round.base } := by
  cases a with
  | check c =>
    obtain rfl := Option.some.inj hact
    by_cases htrial : p.state = .trial
    · by_cases hstarted : p.trialStartedAt = 0
      -- a round that has not started takes no samples and writes nothing
      · left
        have hunasked := refreshed_unasked cfg c p
        rw [← hunasked.startedAt] at hstarted
        unfold check
        rw [if_pos (by rw [htrial]; rfl), evalStandby_of_trial cfg c p htrial, checkEcho_round,
          evalTrial, if_neg (fun h => h.2 hstarted), hunasked.round]
      · right
        have hunasked := refreshed_unasked cfg c p
        simp only [counted, evalStandby_of_trial cfg c p htrial] at hcounted
        have hready : (p.refreshed cfg c).sampleReady cfg c = false := by
          by_contra hready
          rw [if_pos ⟨htrial, hstarted, by simpa using hready⟩] at hcounted
          cases hcounted
        rw [check_round_of_trial cfg c p htrial hstarted, ← hunasked.round]
        rw [← hunasked.startedAt] at hstarted
        simp only [trialSampleStep, if_neg hstarted, hready, Bool.false_eq_true, if_false]
        rfl
    · exact .inl (check_round_of_ne cfg c p htrial)
  | echo | ended =>
    obtain rfl := Option.some.inj hact
    exact .inl rfl
  | measured rtt =>
    obtain rfl := Option.some.inj hact
    left
    split <;> rfl

theorem round_base_idem (round : Round) :
    ({ round with lastSampleAt := round.base } : Round).base = round.base := by
  unfold base
  dsimp only
  split
  next hlast =>
    split
    next hzero => rw [hzero]
    next => rfl
  next => rfl

structure RoundKept (p q : Gauges) : Prop where
  startedAt : q.trialStartedAt = p.trialStartedAt
  samples : q.trialSamples = p.trialSamples
  good : q.trialGood = p.trialGood
  lastEcho : q.trialLastEcho = p.trialLastEcho
  base : q.round.base = p.round.base

theorem roundKept_of_not_counted (hcounted : counted cfg p a = none)
    (hact : act cfg p a = some q) : RoundKept p q := by
  rcases round_of_not_counted hcounted hact with hround | hround
  · exact ⟨congrArg startedAt hround, congrArg samples hround,
      congrArg Round.good hround, congrArg Round.lastEcho hround, congrArg Round.base hround⟩
  · refine ⟨congrArg startedAt hround, congrArg samples hround,
      congrArg Round.good hround, congrArg Round.lastEcho hround, ?_⟩
    rw [hround, round_base_idem]

/-- A sample of a round that has started lies after the first millisecond, so
that its time is told from the time of no sample. -/
theorem count_base (hcounted : counted cfg p a = some s) :
    (p.round.count s).base = unixMilli s.time := by
  obtain ⟨hstarted, hdue, -⟩ := due_of_counted hcounted
  have hbase : p.round.base ≠ 0 := by
    unfold base
    split
    · exact hstarted
    next hlast => exact hlast
  refine if_neg ?_
  simp only [count, unixMilli, ofMilli] at hdue ⊢
  generalize p.round.base = base at hbase hdue
  unfold Time Millis at *
  omega

/-! ## A whole round -/

theorem act_total (cfg : Tuning) (p : Gauges) (a : GaugeAction) : ∃ q, act cfg p a = some q := by
  cases a <;> exact ⟨_, rfl⟩

/-- Each sample comes at least `step` after the millisecond stored before it,
and is backed by an echo newer than the one before. -/
def Spaced (step : Time) : Millis → Millis → List Sample → Prop
  | _, _, [] => True
  | last, echo, s :: rest =>
    ofMilli last + step ≤ s.time ∧ echo < s.echo ∧ Spaced step (unixMilli s.time) s.echo rest

theorem spaced_outputs (cfg : Tuning) (p : Gauges) (actions : List GaugeAction) :
    Spaced cfg.sampleStep p.round.base p.trialLastEcho
      (outputs (act cfg) (counted cfg) p actions) := by
  induction actions generalizing p with
  | nil => trivial
  | cons a rest ih =>
    obtain ⟨q, hact⟩ := act_total cfg p a
    rw [outputs_cons _ hact]
    cases hcounted : counted cfg p a with
    | none =>
      have hkept := roundKept_of_not_counted hcounted hact
      have hrest := ih q
      rwa [hkept.base, hkept.lastEcho] at hrest
    | some s =>
      have hround := round_of_counted hcounted hact
      have hrest := ih q
      rw [hround, count_base hcounted,
        show q.trialLastEcho = s.echo from congrArg Round.lastEcho hround] at hrest
      obtain ⟨-, hdue, hecho⟩ := due_of_counted hcounted
      exact ⟨hdue, hecho, hrest⟩

theorem counters_outputs (hrun : run (act cfg) p actions = some q) :
    q.trialStartedAt = p.trialStartedAt ∧
      q.trialSamples = p.trialSamples + (outputs (act cfg) (counted cfg) p actions).length ∧
      q.trialGood = p.trialGood +
        (outputs (act cfg) (counted cfg) p actions).countP (·.good) := by
  induction actions generalizing p with
  | nil =>
    obtain rfl : p = q := Option.some.inj hrun
    exact ⟨rfl, rfl, rfl⟩
  | cons a rest ih =>
    obtain ⟨next, hact, hrest⟩ := run_cons_eq_some.1 hrun
    obtain ⟨hstarted, hsamples, hgood⟩ := ih hrest
    rw [outputs_cons _ hact, hstarted, hsamples, hgood]
    cases hcounted : counted cfg p a with
    | none =>
      have hkept := roundKept_of_not_counted hcounted hact
      exact ⟨hkept.startedAt, congrArg (· + _) hkept.samples, congrArg (· + _) hkept.good⟩
    | some s =>
      have hround := round_of_counted hcounted hact
      have hcount : next.trialGood = p.trialGood + if s.good then 1 else 0 := by
        refine (congrArg good hround).trans ?_
        cases hs : s.good <;> simp [count, hs, Gauges.round]
      have hsample : next.trialSamples = p.trialSamples + 1 := congrArg samples hround
      rw [hsample, hcount]
      refine ⟨congrArg startedAt hround, ?_, ?_⟩
      · simp only [Option.toList_some, List.singleton_append, List.length_cons]
        omega
      · simp only [Option.toList_some, List.singleton_append, List.countP_cons]
        omega

/-! ## The verdict -/

theorem called_eq_some (hcalled : called cfg p a = some v) :
    ∃ c, a = .check c ∧ p.state = .trial ∧ p.trialStartedAt ≠ 0 := by
  cases a with
  | check c =>
    simp only [called] at hcalled
    split at hcalled
    next halive =>
      have htrial : p.state = .trial := by
        by_contra hstate
        rw [verdict_of_ne cfg c _ (evalStandby_state_ne cfg c p hstate)] at hcalled
        cases hcalled
      rw [evalStandby_of_trial cfg c p htrial] at hcalled
      refine ⟨c, rfl, htrial, ?_⟩
      rw [← (refreshed_unasked cfg c p).startedAt]
      intro hzero
      rw [verdict, if_neg (fun h => h.2 hzero)] at hcalled
      cases hcalled
    next => cases hcalled
  | _ => cases hcalled

theorem check_trialGood (cfg : Tuning) (c : Check) (p : Gauges) :
    (p.check cfg c).trialGood =
      p.trialGood + (counted cfg p (.check c)).toList.countP (·.good) := by
  have hstep : run (act cfg) p [.check c] = some (p.check cfg c) := rfl
  have hgood := (counters_outputs hstep).2.2
  rwa [outputs_cons _ (show act cfg p (.check c) = some (p.check cfg c) from rfl), outputs_nil,
    List.append_nil] at hgood

theorem trialSampleStep_eq (cfg : Tuning) (c : Check) (p : Gauges) :
    ∃ time echo samples good, p.trialSampleStep cfg c =
      { p with
        trialLastSampleAt := time, trialLastEcho := echo, trialSamples := samples
        trialGood := good } := by
  unfold trialSampleStep
  split
  · exact ⟨_, _, _, _, rfl⟩
  · split <;> exact ⟨_, _, _, _, rfl⟩

theorem called_eq_verdict (htrial : p.state = .trial) :
    called cfg p (.check c) = (p.refreshed cfg c).verdict cfg c := by
  have halive : p.state.alive = true := by rw [htrial]; rfl
  simp only [called, if_pos halive, evalStandby_of_trial cfg c p htrial]

theorem check_of_trial (htrial : p.state = .trial) :
    p.check cfg c = ((p.refreshed cfg c).evalTrial cfg c).checkEcho cfg c := by
  have halive : p.state.alive = true := by rw [htrial]; rfl
  rw [check, if_pos halive, evalStandby_of_trial cfg c p htrial]

theorem called_of_trial (htrial : p.state = .trial) (hstarted : p.trialStartedAt ≠ 0) :
    called cfg p (.check c) =
      if cfg.trialNeedGood ≤ p.trialGood + (counted cfg p (.check c)).toList.countP (·.good) then
        some .passed
      else if ofMilli p.trialStartedAt + cfg.trialWindow ≤ c.now then some .failed
      else none := by
  have hunasked := refreshed_unasked cfg c p
  have hgood : ((p.refreshed cfg c).trialSampleStep cfg c).trialGood = (p.check cfg c).trialGood :=
    (congrArg good (check_round_of_trial cfg c p htrial hstarted)).symm
  rw [← check_trialGood, ← hgood, called_eq_verdict htrial, verdict,
    if_pos ⟨hunasked.state.trans htrial, hunasked.startedAt ▸ hstarted⟩, hunasked.startedAt]

theorem passed_of_called (hcalled : called cfg p a = some .passed) :
    cfg.trialNeedGood ≤ p.trialGood + (counted cfg p a).toList.countP (·.good) := by
  obtain ⟨c, rfl, htrial, hstarted⟩ := called_eq_some hcalled
  rw [called_of_trial htrial hstarted] at hcalled
  split at hcalled
  next hneed => exact hneed
  next =>
    split at hcalled <;> cases hcalled

theorem failed_of_called (hcalled : called cfg p (.check c) = some .failed) :
    ofMilli p.trialStartedAt + cfg.trialWindow ≤ c.now := by
  obtain ⟨_, -, htrial, hstarted⟩ := called_eq_some hcalled
  rw [called_of_trial htrial hstarted] at hcalled
  split at hcalled
  · cases hcalled
  next =>
    split at hcalled
    next hwindow => exact hwindow
    next => cases hcalled

theorem checkEcho_state (cfg : Tuning) (c : Check) (p : Gauges) :
    ((p.checkEcho cfg c).trialDone = p.trialDone ∧ (p.checkEcho cfg c).state = p.state) ∨
      ((p.checkEcho cfg c).trialDone = true ∧ (p.checkEcho cfg c).state = .down) := by
  unfold checkEcho
  split
  · dsimp only
    split
    · exact .inr ⟨rfl, rfl⟩
    · exact .inl ⟨rfl, rfl⟩
  · exact .inl ⟨rfl, rfl⟩

/-- The verdict on an open trial closes it and takes the path where it belongs. -/
theorem evalTrial_of_called (hdone : p.trialDone = false)
    (hcalled : called cfg p (.check c) = some v) :
    ((p.refreshed cfg c).evalTrial cfg c).trialDone = true ∧
      ((p.refreshed cfg c).evalTrial cfg c).state = c.outcome v := by
  obtain ⟨_, -, htrial, hstarted⟩ := called_eq_some hcalled
  have hunasked := refreshed_unasked cfg c p
  obtain ⟨_, _, _, _, hsample⟩ := trialSampleStep_eq cfg c (p.refreshed cfg c)
  -- the gate is open, and the sample has left it so
  have hgate : ((p.refreshed cfg c).trialSampleStep cfg c).state = .trial ∧
      ((p.refreshed cfg c).trialSampleStep cfg c).trialDone = false := by
    rw [hsample]
    exact ⟨hunasked.state.trans htrial, hunasked.trialDone.trans hdone⟩
  rw [called_eq_verdict htrial] at hcalled
  rw [evalTrial, if_pos ⟨hunasked.state.trans htrial, hunasked.startedAt ▸ hstarted⟩, hcalled]
  cases v with
  | passed =>
    dsimp only
    rw [tryPassTrial, if_pos hgate]
    exact ⟨rfl, rfl⟩
  | failed =>
    dsimp only
    rw [tryFailTrial, if_pos hgate]
    exact ⟨rfl, rfl⟩

theorem evalTrial_of_not_called (htrial : p.state = .trial)
    (hquiet : ∀ v, called cfg p (.check c) = some v → p.trialDone = true) :
    ((p.refreshed cfg c).evalTrial cfg c).state = .trial := by
  have hunasked := refreshed_unasked cfg c p
  obtain ⟨_, _, _, _, hsample⟩ := trialSampleStep_eq cfg c (p.refreshed cfg c)
  rw [called_eq_verdict htrial] at hquiet
  have hopen : ∀ v, (p.refreshed cfg c).verdict cfg c = some v →
      ((p.refreshed cfg c).trialSampleStep cfg c).trialDone ≠ false := by
    intro v hv
    rw [hsample]
    simp [hunasked.trialDone, hquiet v hv]
  have hstate : ((p.refreshed cfg c).trialSampleStep cfg c).state = .trial := by
    rw [hsample]
    exact hunasked.state.trans htrial
  unfold evalTrial
  split
  · dsimp only
    split
    next hv => rwa [tryPassTrial, if_neg fun h => hopen _ hv h.2]
    next hv => rwa [tryFailTrial, if_neg fun h => hopen _ hv h.2]
    next => exact hstate
  · exact hunasked.state.trans htrial

/-- A check that takes the path from its trial to another state than `down` has
acted on a verdict. -/
theorem called_of_check (htrial : p.state = .trial) (hleft : (p.check cfg c).state ≠ .trial)
    (hdown : (p.check cfg c).state ≠ .down) :
    ∃ v, called cfg p (.check c) = some v ∧ (p.check cfg c).state = c.outcome v := by
  rw [check_of_trial htrial] at hleft hdown ⊢
  have hstate := ((checkEcho_state cfg c _).resolve_right fun h => hdown h.2).2
  rw [hstate] at hleft ⊢
  by_contra hnone
  refine hleft (evalTrial_of_not_called htrial fun v hv => ?_)
  by_contra hdone
  exact hnone ⟨v, hv, (evalTrial_of_called (by simpa using hdone) hv).2⟩

theorem check_of_called (hdone : p.trialDone = false)
    (hcalled : called cfg p (.check c) = some v) :
    (p.check cfg c).trialDone = true ∧
      ((p.check cfg c).state = c.outcome v ∨ (p.check cfg c).state = .down) := by
  obtain ⟨_, -, htrial, -⟩ := called_eq_some hcalled
  obtain ⟨hclosed, hstate⟩ := evalTrial_of_called hdone hcalled
  rw [check_of_trial htrial]
  rcases checkEcho_state cfg c ((p.refreshed cfg c).evalTrial cfg c) with h | h
  · exact ⟨h.1.trans hclosed, .inl (h.2.trans hstate)⟩
  · exact ⟨h.1, .inr h.2⟩

/-- **What a round counts and how it is settled.**  On the clock in
milliseconds, the samples of a round come at least one interval apart and after
its start, each backed by a newer echo; the counters are those of the samples;
the trial is passed by samples that were good when they were taken, and failed
at the end of the window.  A check that takes the path from its trial to another
state than `down` has acted on a verdict, and the state is that of the verdict;
and a verdict on an open trial closes it. -/
theorem trial_sampling_sound (cfg : Tuning) (before : Gauges) (start : Time)
    (actions : List GaugeAction) (p : Gauges)
    (hrun : run (act cfg) (before.startRound start) actions = some p) :
    let taken := outputs (act cfg) (counted cfg) (before.startRound start) actions
    Spaced (min cfg.sampleInterval cfg.trialWindow) (unixMilli start) before.lastEcho taken ∧
    p.trialSamples = taken.length ∧ p.trialGood = taken.countP (·.good) ∧
    p.trialGood ≤ p.trialSamples ∧
    ∀ c, (called cfg p (.check c) = some .passed →
        cfg.trialNeedGood ≤ (taken ++ (counted cfg p (.check c)).toList).countP (·.good)) ∧
      (called cfg p (.check c) = some .failed →
        ofMilli (unixMilli start) + cfg.trialWindow ≤ c.now) ∧
      (p.state = .trial → (p.check cfg c).state ≠ .trial → (p.check cfg c).state ≠ .down →
        ∃ v, called cfg p (.check c) = some v ∧ (p.check cfg c).state = c.outcome v) ∧
      ∀ v, p.trialDone = false → called cfg p (.check c) = some v →
        (p.check cfg c).trialDone = true ∧
          ((p.check cfg c).state = c.outcome v ∨ (p.check cfg c).state = .down) := by
  intro taken
  obtain ⟨hstarted, hsamples, hgood⟩ := counters_outputs hrun
  have hsamples : p.trialSamples = taken.length := hsamples.trans (Nat.zero_add _)
  have hgood : p.trialGood = taken.countP (·.good) := hgood.trans (Nat.zero_add _)
  refine ⟨spaced_outputs cfg (before.startRound start) actions, hsamples, hgood, ?_, ?_⟩
  · rw [hsamples, hgood]
    exact List.countP_le_length
  · intro c
    refine ⟨?_, ?_, called_of_check, fun v => check_of_called⟩
    · intro hcalled
      rw [List.countP_append, ← hgood]
      exact passed_of_called hcalled
    · intro hcalled
      have hfailed := failed_of_called hcalled
      rw [hstarted] at hfailed
      exact hfailed

/-- A check in production that finds nothing of note. -/
def plainCheck (now : Time) : Check := ⟨now, now, now, now, none, true, false⟩

/-- A round that starts at one second, with an echo at two seconds and one at
seven.  The check at 6.0009 s is stored as one at 6 s. -/
def earlySamples : List GaugeAction :=
  [.echo (2 * second), .check (plainCheck (6 * second + 900000)), .echo (7 * second),
    .check (plainCheck (11 * second))]

/-- The time of a sample is cut to milliseconds before it is compared. -/
theorem samples_closer_than_interval :
    let taken := outputs (act defaultTuning) (counted defaultTuning) (newGauges second 0)
      earlySamples
    taken.map (·.time) = [6 * second + 900000, 11 * second] ∧
      ¬ taken.Pairwise (fun s s' =>
        s.time + min defaultTuning.sampleInterval defaultTuning.trialWindow ≤ s'.time) := by
  decide +kernel

theorem trial_sampling_sound_early_samples :
    ∃ p, run (act defaultTuning) (newGauges second 0) earlySamples = some p ∧
      p.trialSamples = 2 ∧ p.trialGood ≤ p.trialSamples := by
  refine ⟨_, rfl, rfl, ?_⟩
  exact (trial_sampling_sound defaultTuning _ second earlySamples _ rfl).2.2.2.1

end Hy2Link.Client.Path
