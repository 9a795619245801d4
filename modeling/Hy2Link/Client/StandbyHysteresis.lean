import Hy2Link.Client.TrialSampling

/-! # Standby and back

A path in use goes to standby after it was worse than the relay in all its
evaluations for a time, and comes back after another time, when it is no worse
than the relay at all.

The times are compared in whole milliseconds, so each of the two spans is
measured between the milliseconds of its ends.
-/

namespace Hy2Link.Client.Path

open Interleaving Gauges

/-! ## One evaluation -/

/-- The direct round trip is more than `ratio` times that of the relay. -/
def Ratio.Exceeds (ratio : Ratio) (relay direct : Time) : Prop :=
  relay * ratio.num < direct * ratio.den

instance (ratio : Ratio) (relay direct : Time) : Decidable (ratio.Exceeds relay direct) :=
  inferInstanceAs (Decidable (_ < _))

theorem Ratio.le_scale {ratio : Ratio} :
    direct ≤ ratio.scale relay ↔ ¬ ratio.Exceeds relay direct := by
  rw [Ratio.scale, Ratio.Exceeds, Nat.le_div_iff_mul_le ratio.den_pos, Nat.not_lt]

/-- In an evaluation of a path in use, with both round trips known, the path is
worse than the relay. -/
def OnlyWorse (cfg : Tuning) (p : Gauges) (a : GaugeAction) : Prop :=
  ∀ c, a = .check c → p.state = .up → (p.refreshed cfg c).relayRtt ≠ 0 → p.rtt ≠ 0 →
    cfg.standbyRatio.Exceeds (p.refreshed cfg c).relayRtt p.rtt

def LookDue (cfg : Tuning) (c : Check) (p : Gauges) : Prop :=
  p.lastStandbyEval = 0 ∨
    p.lastStandbyEval + unixMilli cfg.standbyEvalInterval ≤ unixMilli c.evalAt

inductive Evaluation (cfg : Tuning) (c : Check) (p : Gauges) : Gauges → Prop
  | kept (q : Gauges) (hunasked : Unasked p q) (hworse : OnlyWorse cfg p (.check c)) :
      Evaluation cfg c p q
  | cleared (hup : p.state = .up) :
      Evaluation cfg c p { p.refreshed cfg c with degradeSince := 0 }
  | noted (hup : p.state = .up) (hworse : OnlyWorse cfg p (.check c)) :
      Evaluation cfg c p { p.refreshed cfg c with degradeSince := unixMilli c.evalAt }
  | entered (hup : p.state = .up)
      (hworse : cfg.standbyRatio.Exceeds (p.refreshed cfg c).relayRtt p.rtt)
      (hsince : p.degradeSince ≠ 0)
      (hlong : p.degradeSince + unixMilli cfg.standbyDegradeFor ≤ unixMilli c.evalAt) :
      Evaluation cfg c p ((p.refreshed cfg c).enterStandby c)
  | looked (hstandby : p.state = .standby) (hdue : LookDue cfg c p) :
      Evaluation cfg c p { p.refreshed cfg c with lastStandbyEval := unixMilli c.evalAt }
  | left (hstandby : p.state = .standby) (hdue : LookDue cfg c p)
      (hgood : ¬ cfg.standbyExitRatio.Exceeds (p.refreshed cfg c).relayRtt p.rtt) :
      Evaluation cfg c p
        (Gauges.exitStandby { p.refreshed cfg c with lastStandbyEval := unixMilli c.evalAt })

theorem Evaluation.of_not_up (hstate : p.state ≠ .up) (hunasked : Unasked p q) :
    Evaluation cfg c p q :=
  .kept q hunasked fun _ _ hup => (hstate hup).elim

theorem evalUp_evaluation (hup : p.state = .up) :
    Evaluation cfg c p ((p.refreshed cfg c).evalUp cfg c) := by
  have hunasked := refreshed_unasked cfg c p
  unfold evalUp
  split
  next => exact .cleared hup
  next hworse =>
    rw [Ratio.le_scale, not_not, hunasked.rtt] at hworse
    have honly : OnlyWorse cfg p (.check c) := by
      rintro _ ⟨⟩ - - -
      exact hworse
    split
    -- the first evaluation that finds the path worse starts the timer
    next => exact .noted hup honly
    next hsince =>
      rw [hunasked.degradeSince] at hsince
      split
      next hlong =>
        rw [hunasked.degradeSince] at hlong
        exact .entered hup hworse hsince hlong
      next => exact .kept _ hunasked honly

theorem evalInStandby_evaluation (hstandby : p.state = .standby) :
    Evaluation cfg c p ((p.refreshed cfg c).evalInStandby cfg c) := by
  have hunasked := refreshed_unasked cfg c p
  have hstate : p.state ≠ .up := by rw [hstandby]; decide
  unfold evalInStandby
  split
  next => exact .of_not_up hstate hunasked
  next hdue =>
    have hdue : LookDue cfg c p := by
      rw [hunasked.lastStandbyEval, not_and_or, not_not, not_lt] at hdue
      exact hdue
    dsimp only
    split
    next hgood =>
      rw [Ratio.le_scale, hunasked.rtt] at hgood
      exact .left hstandby hdue hgood
    next => exact .looked hstandby hdue

theorem evalStandby_evaluation (cfg : Tuning) (c : Check) (p : Gauges) :
    Evaluation cfg c p (p.evalStandby cfg c) := by
  have hunasked := refreshed_unasked cfg c p
  unfold evalStandby
  split
  next hdead =>
    refine .of_not_up ?_ ⟨rfl, rfl, rfl, rfl, rfl, rfl, rfl, rfl, rfl⟩
    rintro hup
    rw [hup] at hdead
    exact hdead rfl
  next =>
    dsimp only
    split
    next hunknown =>
      -- with a round trip unknown this is no evaluation at all
      refine .kept _ hunasked ?_
      rintro _ ⟨⟩ - hrelay hrtt
      rw [hunasked.rtt] at hunknown
      exact (hunknown.elim hrelay hrtt).elim
    next =>
      split
      next hup => exact evalUp_evaluation hup
      next hstandby => exact evalInStandby_evaluation hstandby
      next hother _ => exact .of_not_up hother hunasked

/-! ## One action -/

/-- The two timers are left, and the state is not that of a comparison. -/
structure TimersKept (p q : Gauges) : Prop where
  degradeSince : q.degradeSince = p.degradeSince
  lastStandbyEval : q.lastStandbyEval = p.lastStandbyEval
  state : q.state = p.state ∨ q.state = .down ∨ p.state = .trial ∧ q.state ≠ .standby

theorem TimersKept.refl (p : Gauges) : TimersKept p p := ⟨rfl, rfl, .inl rfl⟩

theorem TimersKept.trans (hpq : TimersKept p q) (hqr : TimersKept q r) :
    TimersKept p r where
  degradeSince := hqr.degradeSince.trans hpq.degradeSince
  lastStandbyEval := hqr.lastStandbyEval.trans hpq.lastStandbyEval
  state := by
    rcases hqr.state with hstate | hdown | ⟨htrial, hne⟩
    · rw [hstate]
      exact hpq.state
    · exact .inr (.inl hdown)
    · rcases hpq.state with hstate | hdown | ⟨hp, -⟩
      · exact .inr (.inr ⟨hstate.symm.trans htrial, hne⟩)
      · simp [hdown] at htrial
      · exact .inr (.inr ⟨hp, hne⟩)

theorem trialSampleStep_kept (cfg : Tuning) (c : Check) (p : Gauges) :
    TimersKept p (p.trialSampleStep cfg c) := by
  obtain ⟨_, _, _, _, hsample⟩ := trialSampleStep_eq cfg c p
  rw [hsample]
  exact ⟨rfl, rfl, .inl rfl⟩

theorem tryPassTrial_kept (c : Check) (p : Gauges) : TimersKept p (p.tryPassTrial c) := by
  unfold tryPassTrial
  split
  next htrial =>
    refine ⟨rfl, rfl, .inr (.inr ⟨htrial.1, ?_⟩)⟩
    dsimp only
    split <;> decide
  next => exact .refl p

theorem tryFailTrial_kept (c : Check) (p : Gauges) : TimersKept p (p.tryFailTrial c) := by
  unfold tryFailTrial
  split
  next htrial =>
    refine ⟨rfl, rfl, .inr (.inr ⟨htrial.1, ?_⟩)⟩
    dsimp only
    split <;> decide
  next => exact .refl p

theorem evalTrial_kept (cfg : Tuning) (c : Check) (p : Gauges) :
    TimersKept p (p.evalTrial cfg c) := by
  have hsample := trialSampleStep_kept cfg c p
  unfold evalTrial
  split
  · dsimp only
    split
    · exact hsample.trans (tryPassTrial_kept c _)
    · exact hsample.trans (tryFailTrial_kept c _)
    · exact hsample
  · exact .refl p

theorem checkEcho_kept (cfg : Tuning) (c : Check) (p : Gauges) :
    TimersKept p (p.checkEcho cfg c) := by
  unfold checkEcho
  split
  · dsimp only
    split
    · exact ⟨rfl, rfl, .inr (.inl rfl)⟩
    · exact ⟨rfl, rfl, .inl rfl⟩
  · exact .refl p

theorem onlyWorse_of_ne (hstate : p.state ≠ .up) : OnlyWorse cfg p a :=
  fun _ _ hup => (hstate hup).elim

theorem act_evaluation (hact : act cfg p a = some q) :
    OnlyWorse cfg p a ∧ TimersKept p q ∨
      ∃ c e, a = .check c ∧ Evaluation cfg c p e ∧ TimersKept e q := by
  cases a with
  | check c =>
    obtain rfl := Option.some.inj hact
    unfold check
    split
    next =>
      exact .inr ⟨c, _, rfl, evalStandby_evaluation cfg c p,
        (evalTrial_kept cfg c _).trans (checkEcho_kept cfg c _)⟩
    next hdead =>
      refine .inl ⟨onlyWorse_of_ne ?_, .refl p⟩
      intro hup
      rw [hup] at hdead
      exact hdead rfl
  | echo time =>
    obtain rfl := Option.some.inj hact
    exact .inl ⟨by rintro _ ⟨⟩, rfl, rfl, .inl rfl⟩
  | measured rtt =>
    obtain rfl := Option.some.inj hact
    refine .inl ⟨by rintro _ ⟨⟩, ?_⟩
    split
    · exact ⟨rfl, rfl, .inl rfl⟩
    · exact .refl p
  | ended =>
    obtain rfl := Option.some.inj hact
    exact .inl ⟨by rintro _ ⟨⟩, rfl, rfl, .inr (.inl rfl)⟩

theorem TimersKept.standby (h : TimersKept p q) (hq : q.state = .standby) : p.state = .standby := by
  rcases h.state with hstate | hdown | ⟨-, hne⟩
  · exact hstate.symm.trans hq
  · simp [hdown] at hq
  · exact (hne hq).elim

theorem TimersKept.ne_standby (h : TimersKept p q) (hq : q.state = .up) : p.state ≠ .standby := by
  intro hp
  rcases h.state with hstate | hdown | ⟨htrial, -⟩
  · simp [hstate, hp] at hq
  · simp [hdown] at hq
  · simp [hp] at htrial

section

variable (hact : act cfg p a = some q)
include hact

/-- A path goes to standby in an evaluation that finds it worse, after it was
noted as worse for long enough. -/
theorem entered_of_act (hp : p.state ≠ .standby)
    (hq : q.state = .standby) :
    ∃ c, a = .check c ∧ p.state = .up ∧
      cfg.standbyRatio.Exceeds (p.refreshed cfg c).relayRtt p.rtt ∧ p.degradeSince ≠ 0 ∧
      p.degradeSince + unixMilli cfg.standbyDegradeFor ≤ unixMilli c.evalAt ∧
      q.degradeSince = 0 ∧ q.lastStandbyEval = unixMilli c.enteredAt := by
  rcases act_evaluation hact with ⟨-, hkept⟩ | ⟨c, e, rfl, hevaluation, hkept⟩
  · exact (hp (hkept.standby hq)).elim
  have hstate := hkept.standby hq
  have hunasked := refreshed_unasked cfg c p
  cases hevaluation with
  | entered hup hworse hsince hlong =>
    have hentered : (p.refreshed cfg c).state = .up := hunasked.state.trans hup
    refine ⟨c, rfl, hup, hworse, hsince, hlong, ?_, ?_⟩
    · rw [hkept.degradeSince, enterStandby, if_pos hentered]
    · rw [hkept.lastStandbyEval, enterStandby, if_pos hentered]
  | kept _ hsame => exact (hp (hsame.state.symm.trans hstate)).elim
  | cleared | noted => exact (hp (hunasked.state.symm.trans hstate)).elim
  | looked hstandby | left hstandby => exact (hp hstandby).elim

theorem left_of_act (hp : p.state = .standby)
    (hq : q.state = .up) :
    ∃ c, a = .check c ∧ LookDue cfg c p ∧
      ¬ cfg.standbyExitRatio.Exceeds (p.refreshed cfg c).relayRtt p.rtt := by
  rcases act_evaluation hact with ⟨-, hkept⟩ | ⟨c, e, rfl, hevaluation, hkept⟩
  · exact (hkept.ne_standby hq hp).elim
  have hunasked := refreshed_unasked cfg c p
  have hstate := hkept.ne_standby hq
  cases hevaluation with
  | left _ hdue hgood => exact ⟨c, rfl, hdue, hgood⟩
  | kept _ hsame => exact (hstate (hsame.state.trans hp)).elim
  | looked => exact (hstate (hunasked.state.trans hp)).elim
  | cleared hup | noted hup | entered hup =>
    simp [hp] at hup

theorem lastStandbyEval_of_act (hp : p.state = .standby)
    (hq : q.state = .standby) (hlast : p.lastStandbyEval ≠ 0) :
    p.lastStandbyEval ≤ q.lastStandbyEval := by
  rcases act_evaluation hact with ⟨-, hkept⟩ | ⟨c, e, rfl, hevaluation, hkept⟩
  · exact hkept.lastStandbyEval.ge
  rw [hkept.lastStandbyEval]
  have hstate := hkept.standby hq
  have hunasked := refreshed_unasked cfg c p
  cases hevaluation with
  | kept _ hsame => exact hsame.lastStandbyEval.ge
  | looked _ hdue =>
    rcases hdue with hzero | hdue
    · exact (hlast hzero).elim
    · exact (Nat.le_add_right _ _).trans hdue
  | left =>
    simp [exitStandby, if_pos (hunasked.state.trans hp)] at hstate
  | cleared hup | noted hup | entered hup =>
    simp [hp] at hup

theorem degradeSince_of_act (hq : q.degradeSince ≠ 0) :
    OnlyWorse cfg p a ∧
      (q.degradeSince = p.degradeSince ∨
        ∃ c, a = .check c ∧ q.degradeSince = unixMilli c.evalAt) := by
  rcases act_evaluation hact with ⟨hworse, hkept⟩ | ⟨c, e, rfl, hevaluation, hkept⟩
  · exact ⟨hworse, .inl hkept.degradeSince⟩
  rw [hkept.degradeSince] at hq ⊢
  have hunasked := refreshed_unasked cfg c p
  cases hevaluation with
  | kept _ hsame hworse => exact ⟨hworse, .inl hsame.degradeSince⟩
  | cleared => exact (hq rfl).elim
  | noted _ hworse => exact ⟨hworse, .inr ⟨c, rfl, rfl⟩⟩
  | entered hup =>
    rw [enterStandby, if_pos (hunasked.state.trans hup)] at hq
    exact (hq rfl).elim
  | looked hstandby =>
    refine ⟨onlyWorse_of_ne ?_, .inl hunasked.degradeSince⟩
    rw [hstandby]
    decide
  | left hstandby =>
    rw [exitStandby, if_pos (hunasked.state.trans hstandby)] at hq
    exact (hq rfl).elim

end

/-! ## Whole runs -/

/-- The run has a check `c₀`, and from it on every evaluation of the path in use
finds it worse than the relay. -/
def WorseSince (cfg : Tuning) (s : Gauges) (c₀ : Check) (actions : List GaugeAction) : Prop :=
  ∃ front back p₀, actions = front ++ .check c₀ :: back ∧ run (act cfg) s front = some p₀ ∧
    Along (act cfg) (OnlyWorse cfg) p₀ (.check c₀ :: back)

/-- The path went to standby in the check `c₀` of the run and is there since. -/
def StandbySince (cfg : Tuning) (s : Gauges) (c₀ : Check) (actions : List GaugeAction) : Prop :=
  ∃ front back p₀, actions = front ++ .check c₀ :: back ∧ run (act cfg) s front = some p₀ ∧
    p₀.state = .up ∧ (p₀.check cfg c₀).state = .standby ∧
    Along (act cfg) (fun p _ => p.state = .standby) (p₀.check cfg c₀) back

section

variable (hrun : run (act cfg) s actions = some p)
include hrun

theorem worseSince_check
    (hworse : OnlyWorse cfg p (.check c)) : WorseSince cfg s c (actions ++ [.check c]) :=
  ⟨actions, [], p, rfl, hrun, hworse, fun _ _ => trivial⟩

theorem WorseSince.snoc (h : WorseSince cfg s c₀ actions) (hworse : OnlyWorse cfg p a) :
    WorseSince cfg s c₀ (actions ++ [a]) := by
  obtain ⟨front, back, p₀, rfl, hfront, halong⟩ := h
  refine ⟨front, back ++ [a], p₀, by simp, hfront, ?_⟩
  rw [run_append, hfront, Option.bind_some] at hrun
  rw [← List.cons_append, along_append]
  refine ⟨halong, fun next hnext => ?_⟩
  obtain rfl : p = next := Option.some.inj (hrun.symm.trans hnext)
  exact ⟨hworse, fun _ _ => trivial⟩

theorem StandbySince.snoc (h : StandbySince cfg s c₀ actions) (hstandby : p.state = .standby)
    (a : GaugeAction) : StandbySince cfg s c₀ (actions ++ [a]) := by
  obtain ⟨front, back, p₀, rfl, hfront, hup, hentered, halong⟩ := h
  refine ⟨front, back ++ [a], p₀, by simp, hfront, hup, hentered, ?_⟩
  rw [run_append, hfront, Option.bind_some] at hrun
  obtain ⟨p₁, hp₁, hback⟩ := run_cons_eq_some.1 hrun
  obtain rfl := Option.some.inj hp₁
  rw [along_append]
  refine ⟨halong, fun next hnext => ?_⟩
  obtain rfl : p = next := Option.some.inj (hback.symm.trans hnext)
  exact ⟨hstandby, fun _ _ => trivial⟩

end

/-- The first timer holds the time of a check since which the path is worse. -/
theorem worseSince_of_run {start rtt : Time}
    (hrun : run (act cfg) (newGauges start rtt) actions = some p) (hsince : p.degradeSince ≠ 0) :
    ∃ c₀, WorseSince cfg (newGauges start rtt) c₀ actions ∧
      p.degradeSince = unixMilli c₀.evalAt := by
  revert hsince
  refine run_history (P := fun actions p => p.degradeSince ≠ 0 →
    ∃ c₀, WorseSince cfg (newGauges start rtt) c₀ actions ∧
      p.degradeSince = unixMilli c₀.evalAt) (fun h => (h rfl).elim) ?_ hrun
  intro actions p a q hrun ih hact hq
  obtain ⟨hworse, hsame | ⟨c, rfl, hnow⟩⟩ := degradeSince_of_act hact hq
  -- the timer goes on, or this check has started it
  · obtain ⟨c₀, hsince, htime⟩ := ih (hsame ▸ hq)
    exact ⟨c₀, hsince.snoc hrun hworse, hsame.trans htime⟩
  · exact ⟨c, worseSince_check hrun hworse, hnow⟩

/-- The second timer is not before the entry into standby. -/
theorem standbySince_of_run {start rtt : Time}
    (hrun : run (act cfg) (newGauges start rtt) actions = some p)
    (hclock : ∀ c, .check c ∈ actions → 0 < unixMilli c.enteredAt)
    (hstandby : p.state = .standby) :
    ∃ c₀, StandbySince cfg (newGauges start rtt) c₀ actions ∧
      0 < unixMilli c₀.enteredAt ∧ unixMilli c₀.enteredAt ≤ p.lastStandbyEval := by
  revert hclock hstandby
  refine run_history (P := fun actions p =>
    (∀ c, .check c ∈ actions → 0 < unixMilli c.enteredAt) → p.state = .standby →
    ∃ c₀, StandbySince cfg (newGauges start rtt) c₀ actions ∧
      0 < unixMilli c₀.enteredAt ∧ unixMilli c₀.enteredAt ≤ p.lastStandbyEval)
    (fun _ hstate => by cases hstate) ?_ hrun
  intro actions p a q hrun ih hact hclock hq
  by_cases hp : p.state = .standby
  -- the path stays on standby, or goes there in this check
  · obtain ⟨c₀, hsince, hpos, hlast⟩ :=
      ih (fun c hc => hclock c (List.mem_append_left _ hc)) hp
    exact ⟨c₀, hsince.snoc hrun hp a, hpos,
      hlast.trans (lastStandbyEval_of_act hact hp hq (by grind))⟩
  · obtain ⟨c, rfl, hup, -, -, -, -, hentered⟩ := entered_of_act hact hp hq
    obtain rfl := Option.some.inj hact
    exact ⟨c, ⟨actions, [], p, rfl, hrun, hup, hq, trivial⟩, hclock c (by simp), hentered.ge⟩

/-- **Standby has a hysteresis.**  On the clock in milliseconds, a path in use
goes to standby only in a check that finds it worse than the relay, when all its
evaluations found that for the whole of a span of `standbyDegradeFor` before.
It comes back only in a check that finds it no worse than the relay, at least
`standbyEvalInterval` after it went. -/
theorem standby_hysteresis (cfg : Tuning) (start rtt : Time) (actions : List GaugeAction)
    (p : Gauges) (hrun : run (act cfg) (newGauges start rtt) actions = some p)
    (hclock : ∀ c, .check c ∈ actions → 0 < unixMilli c.enteredAt)
    (a : GaugeAction) (q : Gauges) (hact : act cfg p a = some q) :
    (p.state = .up → q.state = .standby →
      ∃ c, a = .check c ∧ cfg.standbyRatio.Exceeds (p.refreshed cfg c).relayRtt p.rtt ∧
        ∃ c₀, WorseSince cfg (newGauges start rtt) c₀ (actions ++ [.check c]) ∧
          unixMilli c₀.evalAt + unixMilli cfg.standbyDegradeFor ≤ unixMilli c.evalAt) ∧
    (p.state = .standby → q.state = .up →
      ∃ c, a = .check c ∧ ¬ cfg.standbyExitRatio.Exceeds (p.refreshed cfg c).relayRtt p.rtt ∧
        ∃ c₀, StandbySince cfg (newGauges start rtt) c₀ actions ∧
          unixMilli c₀.enteredAt + unixMilli cfg.standbyEvalInterval ≤ unixMilli c.evalAt) := by
  constructor
  · intro hp hq
    obtain ⟨c, rfl, -, hworse, hsince, hlong, -, -⟩ :=
      entered_of_act hact (by rw [hp]; decide) hq
    obtain ⟨c₀, hworseSince, htime⟩ := worseSince_of_run hrun hsince
    refine ⟨c, rfl, hworse, c₀, hworseSince.snoc hrun ?_, htime ▸ hlong⟩
    rintro _ ⟨⟩ - - -
    exact hworse
  · intro hp hq
    obtain ⟨c, rfl, hdue, hgood⟩ := left_of_act hact hp hq
    obtain ⟨c₀, hsince, hpos, hlast⟩ := standbySince_of_run hrun hclock hp
    refine ⟨c, rfl, hgood, c₀, hsince, ?_⟩
    rcases hdue with hzero | hdue
    -- a second timer that was never written is impossible, as the entry writes it
    · rw [hzero] at hlast
      exact (Nat.not_lt.2 hlast hpos).elim
    · exact (Nat.add_le_add_right hlast _).trans hdue

/-- A path that passes its trial at 11 s, against a relay at 50 ms. -/
def trialPassed : List GaugeAction :=
  [.check { plainCheck (2 * second) with reply := some 50 }, .measured (40 * 1000000),
    .echo (3 * second), .check (plainCheck (6 * second)), .echo (7 * second),
    .check (plainCheck (11 * second))]

def goodLook : Check := plainCheck (20 * second + 500000)

/-- In the same millisecond it is found worse, and still is at 50 s. -/
def worseLooks : List GaugeAction :=
  [.measured (100 * 1000000), .check (plainCheck (20 * second + 900000)), .echo (49 * second)]

/-- The span is measured in whole milliseconds, and so may be shorter. -/
theorem standby_after_shorter_span :
    ∃ p₀ p, run (act defaultTuning) (newGauges second 0) trialPassed = some p₀ ∧
      p₀.state = .up ∧ (p₀.refreshed defaultTuning goodLook).relayRtt ≠ 0 ∧ p₀.rtt ≠ 0 ∧
      ¬ defaultTuning.standbyRatio.Exceeds (p₀.refreshed defaultTuning goodLook).relayRtt p₀.rtt ∧
      run (act defaultTuning) p₀ (.check goodLook :: worseLooks) = some p ∧ p.state = .up ∧
      (p.evalStandby defaultTuning (plainCheck (50 * second))).state = .standby ∧
      50 * second < goodLook.evalAt + defaultTuning.standbyDegradeFor := by
  refine ⟨_, _, rfl, ?_, ?_, ?_, ?_, rfl, ?_, ?_, ?_⟩ <;> decide +kernel

def lookAgain : List GaugeAction :=
  [.check (plainCheck (50 * second)), .measured (45 * 1000000), .echo (349 * second)]

theorem standby_hysteresis_both_ways :
    (∃ c₀, WorseSince defaultTuning (newGauges second 0) c₀
        (trialPassed ++ .check goodLook :: worseLooks ++ [.check (plainCheck (50 * second))]) ∧
      unixMilli c₀.evalAt + unixMilli (30 * second) ≤ unixMilli (50 * second)) ∧
    ∃ c₀, StandbySince defaultTuning (newGauges second 0) c₀
        (trialPassed ++ .check goodLook :: worseLooks ++ lookAgain) ∧
      unixMilli c₀.enteredAt + unixMilli (5 * minute) ≤ unixMilli (350 * second) := by
  constructor
  · have hclock : ∀ c, .check c ∈ trialPassed ++ .check goodLook :: worseLooks →
        0 < unixMilli c.enteredAt := by
      simp [trialPassed, goodLook, worseLooks, plainCheck, unixMilli, second]
    obtain ⟨c, hc, -, hsince⟩ := (standby_hysteresis defaultTuning second 0 _ _ rfl hclock
      (.check (plainCheck (50 * second))) _ rfl).1 (by decide +kernel) (by decide +kernel)
    cases hc
    exact hsince
  · have hclock : ∀ c, .check c ∈ trialPassed ++ .check goodLook :: worseLooks ++ lookAgain →
        0 < unixMilli c.enteredAt := by
      simp [trialPassed, goodLook, worseLooks, lookAgain, plainCheck, unixMilli, second]
    obtain ⟨c, hc, -, hsince⟩ := (standby_hysteresis defaultTuning second 0 _ _ rfl hclock
      (.check (plainCheck (350 * second))) _ rfl).2 (by decide +kernel) (by decide +kernel)
    cases hc
    exact hsince

end Hy2Link.Client.Path
