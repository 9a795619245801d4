import Hy2Link.Congestion.OWQD
import Hy2Link.Interleaving.Run
import Mathlib.Algebra.Ring.Nat

/-! # The congestion controller

`QUICDCController`, which the client and the server have in the same words but
for the factor that a loss reduces the window by.

A reduction opens a recovery epoch.  A loss notes the largest packet sent, up to
which further losses and acknowledgements belong to the epoch; a reset by the
delay estimator does not, and a packet with the number 0 counts as noted from the
start.  So the epochs are kept in the runs without a reset in which the first
loss is not that of packet 0.

Byte counts and packet numbers are natural numbers.  What the estimator answers
is left open; `owqd` is the one of the source.  The counters that only `Stats`
reads are left out.
-/

namespace Hy2Link.Congestion

open Interleaving List

def initialCwndPackets : Nat := 10

def minCwndPackets : Nat := 4

/-- What the controller uses of a delay estimator. -/
structure Estimator (E : Type) where
  fresh : E
  update : E → Nat → Nat → E × Bool
  reset : E → E

def owqd : Estimator OWQDEstimator where
  fresh := newOWQDEstimator defaultOWQDThreshold
  update := OWQDEstimator.update
  reset := OWQDEstimator.reset

/-- A build of the controller: the estimator, two constants of the QUIC library,
and what a loss leaves of the window. -/
structure Build (E : Type) where
  estimator : Estimator E
  initialPacketSize : Nat
  maxCongestionWindowPackets : Nat
  lossReduced : Nat → Nat
  initial_le : initialCwndPackets ≤ maxCongestionWindowPackets
  reduced_le : ∀ cwnd, lossReduced cwnd ≤ cwnd

def client {E : Type} (b : Build E) : Build E :=
  { b with lossReduced := fun cwnd => cwnd * 7 / 10, reduced_le := by omega }

/-- The server keeps more of the window. -/
def server {E : Type} (b : Build E) : Build E :=
  { b with lossReduced := fun cwnd => cwnd * 85 / 100, reduced_le := by omega }

def quic : Build OWQDEstimator := client ⟨owqd, 1280, 20000, id, by decide, fun _ => le_refl _⟩

structure RTTStats where
  latest : Nat
  smoothed : Nat
  least : Nat

structure QUICDCController (E : Type) where
  cwnd : Nat
  ssthresh : Nat
  maxDatagramSize : Nat
  largestSentPacketNumber : Nat
  largestAckedPacketNumber : Nat
  largestSentAtLastCutback : Nat
  owqd : E
  inRecovery : Bool

/-- The calls of the QUIC connection, with what the provider answers if there is
one, and the time. -/
inductive Call
  | sent (number : Nat) (isRetransmittable : Bool)
  | acked (number ackedBytes : Nat) (stats : Option RTTStats) (now : Nat)
  | lost (number : Nat)
  | timeout (packetsRetransmitted : Bool)
  | resize (size : Nat)
  | exitSlowStart (stats : Option RTTStats)

variable {E : Type} (b : Build E)

def newQUICDCController : QUICDCController E where
  cwnd := b.initialPacketSize * initialCwndPackets
  ssthresh := b.initialPacketSize * b.maxCongestionWindowPackets
  maxDatagramSize := b.initialPacketSize
  largestSentPacketNumber := 0
  largestAckedPacketNumber := 0
  largestSentAtLastCutback := 0
  owqd := b.estimator.fresh
  inRecovery := false

namespace QUICDCController

variable (c : QUICDCController E)

def minCwnd : Nat := c.maxDatagramSize * minCwndPackets

def setMaxDatagramSize (size : Nat) : QUICDCController E :=
  { c with maxDatagramSize := size, cwnd := max c.cwnd (size * minCwndPackets) }

def onPacketSent (number : Nat) (isRetransmittable : Bool) : QUICDCController E :=
  if isRetransmittable then { c with largestSentPacketNumber := number } else c

/-- The estimator after the sample of an acknowledgement, and its answer. -/
def sample (stats : Option RTTStats) (now : Nat) : E × Bool :=
  match stats with
  | none => (c.owqd, false)
  | some stats =>
    let rtt := if stats.latest = 0 then stats.smoothed else stats.latest
    if rtt = 0 then (c.owqd, false) else b.estimator.update c.owqd now rtt

def resetCwndLocked : QUICDCController E :=
  { c with cwnd := c.minCwnd, ssthresh := c.minCwnd, inRecovery := true }

def grown (ackedBytes : Nat) : Nat :=
  min (c.maxDatagramSize * b.maxCongestionWindowPackets)
    (if c.cwnd < c.ssthresh then c.cwnd + ackedBytes
    else if 0 < c.cwnd then c.cwnd + c.maxDatagramSize * ackedBytes / c.cwnd
    else c.cwnd)

def staysInRecovery (number : Nat) : Bool :=
  c.inRecovery && max c.largestAckedPacketNumber number ≤ c.largestSentAtLastCutback

def onPacketAcked (number ackedBytes : Nat) (stats : Option RTTStats) (now : Nat) :
    QUICDCController E :=
  let noted := { c with largestAckedPacketNumber := max c.largestAckedPacketNumber number }
  if c.staysInRecovery number then noted
  else
    let sampled := { noted with inRecovery := false, owqd := (c.sample b stats now).1 }
    if (c.sample b stats now).2 then sampled.resetCwndLocked
    else { sampled with cwnd := c.grown b ackedBytes }

def maybeExitSlowStart (stats : Option RTTStats) : QUICDCController E :=
  match stats with
  | none => c
  | some stats =>
    if c.cwnd < c.ssthresh ∧ 0 < stats.smoothed ∧ 0 < stats.least ∧
        2 * stats.least < stats.smoothed then
      { c with ssthresh := c.cwnd }
    else c

def onCongestionEvent (number : Nat) : QUICDCController E :=
  if number ≤ c.largestSentAtLastCutback then c
  else
    let reduced := max (b.lossReduced c.cwnd) c.minCwnd
    { c with
      inRecovery := true
      ssthresh := reduced
      cwnd := reduced
      largestSentAtLastCutback := c.largestSentPacketNumber }

def onRetransmissionTimeout (packetsRetransmitted : Bool) : QUICDCController E :=
  let c := { c with largestSentAtLastCutback := 0 }
  if packetsRetransmitted then
    { c with
      owqd := b.estimator.reset c.owqd
      ssthresh := max (c.cwnd / 2) c.minCwnd
      cwnd := c.minCwnd
      inRecovery := true }
  else c

def call : Call → QUICDCController E
  | .sent number isRetransmittable => c.onPacketSent number isRetransmittable
  | .acked number ackedBytes stats now => c.onPacketAcked b number ackedBytes stats now
  | .lost number => c.onCongestionEvent b number
  | .timeout packetsRetransmitted => c.onRetransmissionTimeout b packetsRetransmitted
  | .resize size => c.setMaxDatagramSize size
  | .exitSlowStart stats => c.maybeExitSlowStart stats

/-- The call takes the branch of a loss that reduces the window, or that of the
reset. -/
def reduces : Call → Bool
  | .acked number _ stats now => !c.staysInRecovery number && (c.sample b stats now).2
  | .lost number => c.largestSentAtLastCutback < number
  | _ => false

variable {c}

theorem floor_grown (hfloor : c.minCwnd ≤ c.cwnd) (ackedBytes : Nat) :
    c.minCwnd ≤ c.grown b ackedBytes := by
  refine Nat.le_min.mpr ⟨?_, ?_⟩
  · exact Nat.mul_le_mul_left _ (Nat.le_trans (by decide) b.initial_le)
  · refine hfloor.trans ?_
    repeat' split
    all_goals simp

theorem floor_call (hfloor : c.minCwnd ≤ c.cwnd) (a : Call) :
    (c.call b a).minCwnd ≤ (c.call b a).cwnd := by
  cases a with
  | sent number isRetransmittable => cases isRetransmittable <;> exact hfloor
  | acked number ackedBytes stats now =>
    simp only [call, onPacketAcked]
    repeat' split
    · exact hfloor
    · exact le_refl _
    · exact floor_grown b hfloor ackedBytes
  | lost number =>
    simp only [call, onCongestionEvent]
    split
    · exact hfloor
    · exact Nat.le_max_right _ _
  | timeout packetsRetransmitted =>
    cases packetsRetransmitted
    · exact hfloor
    · exact le_refl _
  | resize size => exact Nat.le_max_right _ _
  | exitSlowStart stats =>
    simp only [call, maybeExitSlowStart]
    repeat' split
    all_goals exact hfloor

theorem onPacketAcked_numbers (c : QUICDCController E) (number ackedBytes : Nat)
    (stats : Option RTTStats) (now : Nat) :
    (c.onPacketAcked b number ackedBytes stats now).largestSentPacketNumber =
        c.largestSentPacketNumber ∧
      (c.onPacketAcked b number ackedBytes stats now).largestSentAtLastCutback =
        c.largestSentAtLastCutback ∧
      (c.onPacketAcked b number ackedBytes stats now).largestAckedPacketNumber =
        max c.largestAckedPacketNumber number := by
  unfold onPacketAcked
  repeat' split
  all_goals exact ⟨rfl, rfl, rfl⟩

theorem onPacketAcked_inRecovery (ackedBytes : Nat) (stats : Option RTTStats) (now : Nat) :
    (c.onPacketAcked b number ackedBytes stats now).inRecovery =
      (c.staysInRecovery number || (c.sample b stats now).2) := by
  unfold onPacketAcked
  split
  next hstays =>
    rw [hstays, Bool.true_or]
    exact (Bool.and_eq_true_iff.mp hstays).1
  next hends =>
    rw [Bool.not_eq_true] at hends
    rw [hends, Bool.false_or]
    split
    next hhigh => exact hhigh.symm
    next hlow => exact (Bool.not_eq_true _ ▸ hlow).symm

end QUICDCController

/-! ## The window -/

namespace QUICDCController

variable {b : Build E}

/-- The window is between its floor and the maximum for packets of `size`. -/
structure Bounded (b : Build E) (size : Nat) (c : QUICDCController E) : Prop where
  floor : c.minCwnd ≤ c.cwnd
  cap : c.cwnd ≤ size * b.maxCongestionWindowPackets
  size_le : c.maxDatagramSize ≤ size

theorem min_le_cap (b : Build E) (h : n ≤ size) :
    n * minCwndPackets ≤ size * b.maxCongestionWindowPackets :=
  Nat.mul_le_mul h (Nat.le_trans (by decide) b.initial_le)

theorem Bounded.call (h : Bounded b size c) (hsize : ∀ n, a = .resize n → n ≤ size) :
    Bounded b size (c.call b a) := by
  have hmin := min_le_cap b h.size_le
  refine ⟨floor_call b h.floor a, ?_, ?_⟩
  · cases a with
    | sent number isRetransmittable => cases isRetransmittable <;> exact h.cap
    | acked number ackedBytes stats now =>
      simp only [QUICDCController.call, onPacketAcked]
      repeat' split
      · exact h.cap
      · exact hmin
      · exact (Nat.min_le_left _ _).trans (Nat.mul_le_mul_right _ h.size_le)
    | lost number =>
      simp only [QUICDCController.call, onCongestionEvent]
      split
      · exact h.cap
      · exact Nat.max_le.2 ⟨(b.reduced_le c.cwnd).trans h.cap, hmin⟩
    | timeout packetsRetransmitted =>
      cases packetsRetransmitted
      · exact h.cap
      · exact hmin
    | resize n => exact Nat.max_le.2 ⟨h.cap, min_le_cap b (hsize n rfl)⟩
    | exitSlowStart stats =>
      simp only [QUICDCController.call, maybeExitSlowStart]
      repeat' split
      all_goals exact h.cap
  · cases a with
    | resize n => exact hsize n rfl
    | _ =>
      simp only [QUICDCController.call, onPacketSent, onPacketAcked, resetCwndLocked,
        onCongestionEvent, onRetransmissionTimeout, maybeExitSlowStart]
      repeat' split
      all_goals exact h.size_le

/-- Whatever is called on a new controller, the window stays between four packets
of the present size and the maximum for packets of the largest size so far. -/
theorem window_bounded (b : Build E) (calls : List Call) (size : Nat)
    (hinitial : b.initialPacketSize ≤ size) (hsizes : ∀ n, .resize n ∈ calls → n ≤ size) :
    Bounded b size (calls.foldl (QUICDCController.call b) (newQUICDCController b)) := by
  have hnew : Bounded b size (newQUICDCController b) :=
    ⟨Nat.mul_le_mul_left _ (by decide), Nat.mul_le_mul hinitial b.initial_le, hinitial⟩
  generalize newQUICDCController b = c at hnew ⊢
  induction calls generalizing c with
  | nil => exact hnew
  | cons a rest ih =>
    refine ih (fun n hn => hsizes n (.tail _ hn)) _ (hnew.call fun n ha => ?_)
    exact hsizes n (ha ▸ .head _)

theorem window_bounded_resized :
    Bounded quic 1400 ([.resize 1400, .timeout true].foldl (QUICDCController.call quic)
      (newQUICDCController quic)) :=
  window_bounded quic [.resize 1400, .timeout true] 1400 (by decide) (by simp)

end QUICDCController

/-! ## Recovery epochs -/

def Call.sentNumbers : Call → List Nat
  | .sent number _ => [number]
  | _ => []

def Call.ackedNumbers : Call → List Nat
  | .acked number _ _ _ => [number]
  | _ => []

/-- A controller and what has happened to it: the packets sent, which have
increasing numbers, the packets acknowledged, and for each reduction the largest
packet sent before it. -/
structure Trace (E : Type) where
  c : QUICDCController E
  sent : List Nat
  acked : List Nat
  reductions : List Nat

namespace Trace

open QUICDCController

variable (t : Trace E)

def initial : Trace E := ⟨newQUICDCController b, [], [], []⟩

/-- Packets are sent in order, and only packets that were sent are acknowledged or
lost. -/
def allowed : Call → Bool
  | .sent number isRetransmittable => isRetransmittable && t.sent.all (· < number)
  | .acked number _ _ _ => number ∈ t.sent
  | .lost number => number ∈ t.sent
  | _ => false

def step (a : Call) : Option (Trace E) :=
  if t.allowed a then
    some {
      c := t.c.call b a
      sent := t.sent ++ a.sentNumbers
      acked := t.acked ++ a.ackedNumbers
      reductions :=
        if t.c.reduces b a then t.reductions ++ [t.sent.getLast?.getD 0] else t.reductions }
  else none

/-- What a call does in the epoch of each reduction before it: the window grows
only when a later packet has been acknowledged, and the loss of a packet reduces
it exactly when the packet is a later one. -/
structure EpochLaw (a : Call) : Prop where
  floor : t.c.minCwnd ≤ t.c.cwnd
  growth : t.c.cwnd < (t.c.call b a).cwnd →
    ∀ largest ∈ t.reductions, ∃ number ∈ t.acked ++ a.ackedNumbers, largest < number
  loss : ∀ number, a = .lost number →
    (t.c.reduces b a = true ↔ ∀ largest ∈ t.reductions, largest < number)

/-- The call is no reset by the estimator, and not the loss of packet 0 before the
first reduction. -/
def clear : Call → Bool
  | .lost number => t.reductions ≠ [] || number ≠ 0
  | .acked number ackedBytes stats now =>
    !t.c.reduces b (.acked number ackedBytes stats now)
  | _ => true

/-- The bookkeeping of the controller: the number noted is that of the last
reduction and the largest of them, and outside of recovery the epochs are over. -/
structure Epochs : Prop where
  floor : t.c.minCwnd ≤ t.c.cwnd
  largest : t.c.largestSentPacketNumber = t.sent.getLast?.getD 0
  sent : ∀ number ∈ t.sent, number ≤ t.c.largestSentPacketNumber
  acked : t.c.largestAckedPacketNumber = 0 ∨ t.c.largestAckedPacketNumber ∈ t.acked
  noted : t.c.largestSentAtLastCutback = 0 ∨ t.c.largestSentAtLastCutback ∈ t.reductions
  le_noted : ∀ largest ∈ t.reductions, largest ≤ t.c.largestSentAtLastCutback
  ended : t.c.inRecovery = false → ∀ largest ∈ t.reductions, ∃ number ∈ t.acked, largest < number

variable {t} {b}

theorem epochs_initial : (initial b).Epochs where
  floor := Nat.mul_le_mul_left _ (by decide)
  largest := rfl
  sent := by simp [initial]
  acked := .inl rfl
  noted := .inl rfl
  le_noted := by simp [initial]
  ended := by simp [initial]

theorem Epochs.acked_max (h : t.Epochs) (number : Nat) :
    max t.c.largestAckedPacketNumber number = 0 ∨
      max t.c.largestAckedPacketNumber number ∈ t.acked ++ [number] := by
  rcases Nat.le_total t.c.largestAckedPacketNumber number with hle | hle
  · rw [Nat.max_eq_right hle]
    exact .inr (mem_append_right _ mem_cons_self)
  · rw [Nat.max_eq_left hle]
    exact h.acked.imp_right (mem_append_left _)

/-- Outside of recovery, or when an acknowledgement ends it, the epochs are over. -/
theorem Epochs.over_of_acked (h : t.Epochs) (hends : t.c.staysInRecovery number = false) :
    ∀ largest ∈ t.reductions, ∃ n ∈ t.acked ++ [number], largest < n := by
  intro largest hlargest
  cases hrecovery : t.c.inRecovery with
  | false =>
    obtain ⟨n, hn, hlt⟩ := h.ended hrecovery largest hlargest
    exact ⟨n, mem_append_left _ hn, hlt⟩
  | true =>
    simp only [staysInRecovery, hrecovery, Bool.true_and, decide_eq_false_iff_not,
      Nat.not_le] at hends
    have hle := h.le_noted largest hlargest
    exact ⟨_, (h.acked_max number).resolve_left (by omega), by omega⟩

theorem Epochs.law (h : t.Epochs) (hallowed : t.allowed a = true) (hclear : t.clear b a = true) :
    t.EpochLaw b a := by
  refine ⟨h.floor, fun hgrows => ?_, fun number hlost => ?_⟩
  · cases a with
    | sent number isRetransmittable => cases isRetransmittable <;> exact absurd hgrows (lt_irrefl _)
    | acked number ackedBytes stats now =>
      apply h.over_of_acked
      by_contra hstays
      rw [call, onPacketAcked, if_pos (Bool.not_eq_false _ ▸ hstays)] at hgrows
      exact lt_irrefl _ hgrows
    | lost number =>
      have hle : max (b.lossReduced t.c.cwnd) t.c.minCwnd ≤ t.c.cwnd :=
        Nat.max_le.mpr ⟨b.reduced_le _, h.floor⟩
      rw [call, onCongestionEvent] at hgrows
      split at hgrows
      · exact absurd hgrows (lt_irrefl _)
      · exact absurd hgrows (Nat.not_lt.mpr hle)
    | _ => cases hallowed
  · subst hlost
    simp only [reduces, decide_eq_true_eq]
    constructor
    · exact fun hnoted largest hlargest => (h.le_noted largest hlargest).trans_lt hnoted
    · intro hlater
      rcases h.noted with hzero | hmem
      · -- without a reduction the packet is not packet 0, and after one it is a later packet
        rw [hzero]
        cases hred : t.reductions with
        | nil => exact Nat.pos_of_ne_zero (by simpa [clear, hred] using hclear)
        | cons largest rest =>
          exact Nat.zero_lt_of_lt (hlater largest (hred ▸ mem_cons_self))
      · exact hlater _ hmem

/-- A call keeps the bookkeeping of the epochs. -/
theorem Epochs.step (h : t.Epochs) (hclear : t.clear b a = true) (hstep : t.step b a = some t') :
    t'.Epochs := by
  obtain ⟨hallowed, hstep⟩ := Option.ite_none_right_eq_some.mp hstep
  obtain rfl := Option.some.inj hstep
  have hfloor := floor_call b h.floor a
  cases a with
  | sent number isRetransmittable =>
    obtain ⟨rfl, hlater⟩ := Bool.and_eq_true_iff.mp hallowed
    simp only [all_eq_true, decide_eq_true_eq] at hlater
    refine ⟨hfloor, by simp [call, onPacketSent, Call.sentNumbers], fun n hn => ?_, ?_, h.noted,
      h.le_noted, fun hrecovery => ?_⟩
    · rcases mem_append.1 hn with hn | hn
      · exact (hlater n hn).le
      · exact (mem_singleton.1 hn).le
    · simp only [Call.ackedNumbers, append_nil]
      exact h.acked
    · simp only [Call.ackedNumbers, append_nil]
      exact h.ended hrecovery
  | acked number ackedBytes stats now =>
    obtain ⟨hsent, hcutback, hacked⟩ := t.c.onPacketAcked_numbers b number ackedBytes stats now
    have hreduces : t.c.reduces b (.acked number ackedBytes stats now) = false := by
      simpa [clear] using hclear
    simp only [hreduces, Bool.false_eq_true, if_false, Call.sentNumbers, append_nil]
    refine ⟨hfloor, hsent.trans h.largest, ?_, ?_, ?_, ?_, fun hrecovery => ?_⟩
    · exact fun n hn => (h.sent n hn).trans hsent.ge
    · simpa only [call, hacked, Call.ackedNumbers] using h.acked_max number
    · simpa only [call, hcutback] using h.noted
    · simpa only [call, hcutback] using h.le_noted
    · rw [call, onPacketAcked_inRecovery, Bool.or_eq_false_iff] at hrecovery
      exact h.over_of_acked hrecovery.1
  | lost number =>
    simp only [Call.sentNumbers, Call.ackedNumbers, append_nil]
    by_cases hnoted : number ≤ t.c.largestSentAtLastCutback
    · rw [call, onCongestionEvent, if_pos hnoted, if_neg (by simpa [reduces] using hnoted)]
      exact h
    -- the largest packet sent is beyond the number noted, as the lost one is
    · have hle := h.sent number (of_decide_eq_true hallowed)
      rw [call, onCongestionEvent, if_neg hnoted] at hfloor ⊢
      rw [if_pos (by simpa [reduces] using hnoted), ← h.largest]
      refine ⟨hfloor, h.largest, h.sent, h.acked,
        .inr (mem_append_right _ mem_cons_self), fun largest hlargest => ?_, by simp⟩
      rcases mem_append.1 hlargest with hlargest | hlargest
      · have hbefore := h.le_noted largest hlargest
        dsimp only
        omega
      · exact (mem_singleton.1 hlargest).le
  | _ => cases hallowed

/-- **Recovery epochs.**  In every run of calls on sent packets without a reset by
the estimator, in which packet 0 is not lost before the first reduction, the
window keeps to the epochs and never falls below four datagrams. -/
theorem recovery_epochs (b : Build E) (calls : List Call)
    (hclear : Along (step b) (fun t a => t.clear b a = true) (initial b) calls) :
    Along (step b) (fun t a => t.allowed a = true → t.EpochLaw b a) (initial b) calls ∧
      ∀ t, run (step b) (initial b) calls = some t → 4 * t.c.maxDatagramSize ≤ t.c.cwnd := by
  refine ⟨hclear.of_invariant (fun t a t' h hclear hstep => h.step hclear hstep)
    (fun t a h hclear hallowed => h.law hallowed hclear) epochs_initial, fun t hrun => ?_⟩
  have hend := run_invariant (fun t a t' h hclear hstep => h.step hclear hstep) epochs_initial
    hclear hrun
  rw [Nat.mul_comm]
  exact hend.floor

/-- Two packets of a flight of three are lost.  The third is acknowledged within
the epoch and the fourth after it, and the loss of the fifth opens another. -/
def twoEpochs : List Call :=
  [.sent 0 true, .sent 1 true, .sent 2 true, .lost 1, .lost 0, .acked 2 1280 none 0, .sent 3 true,
    .acked 3 1280 (some ⟨50, 50, 50⟩) 1, .sent 4 true, .lost 4]

theorem recovery_epochs_two :
    (run (step quic) (initial quic) twoEpochs).map (·.reductions) = some [2, 4] ∧
      Along (step quic) (fun t a => t.allowed a = true → t.EpochLaw quic a) (initial quic)
        twoEpochs :=
  ⟨by decide +kernel, (recovery_epochs quic twoEpochs (by decide +kernel)).1⟩

/-- The loss of the very first packet is taken for one that was noted. -/
theorem first_packet_lost :
    ∃ t, run (step quic) (initial quic) [.sent 0 true] = some t ∧
      t.allowed (.lost 0) = true ∧ ¬t.EpochLaw quic (.lost 0) := by
  refine ⟨_, rfl, rfl, fun h => ?_⟩
  have hreduces := (h.loss 0 rfl).2 (by simp [initial, reduces])
  exact absurd hreduces (by decide)

end Trace

/-! ## Congestion avoidance -/

structure Ack where
  number : Nat
  ackedBytes : Nat
  stats : Option RTTStats
  now : Nat

namespace QUICDCController

/-- Outside of recovery, at or above the threshold, and not beyond the limit. -/
structure Avoiding (c : QUICDCController E) : Prop where
  outside : c.inRecovery = false
  above : c.ssthresh ≤ c.cwnd
  below : c.cwnd ≤ c.maxDatagramSize * b.maxCongestionWindowPackets

variable {b} {c : QUICDCController E}

def acknowledge (b : Build E) (c : QUICDCController E) (a : Ack) : QUICDCController E :=
  c.onPacketAcked b a.number a.ackedBytes a.stats a.now

def Calm (b : Build E) (c : QUICDCController E) (a : Ack) : Prop :=
  (c.sample b a.stats a.now).2 = false

theorem Avoiding.acknowledge_eq (h : c.Avoiding b) (hcalm : c.Calm b a) :
    c.acknowledge b a =
      { c with
        largestAckedPacketNumber := max c.largestAckedPacketNumber a.number
        owqd := (c.sample b a.stats a.now).1
        cwnd := min (c.maxDatagramSize * b.maxCongestionWindowPackets)
          (c.cwnd + c.maxDatagramSize * a.ackedBytes / c.cwnd) } := by
  have hends : c.staysInRecovery a.number = false := by simp [staysInRecovery, h.outside]
  have hgrown : c.grown b a.ackedBytes = min (c.maxDatagramSize * b.maxCongestionWindowPackets)
      (c.cwnd + c.maxDatagramSize * a.ackedBytes / c.cwnd) := by
    rw [grown, if_neg (Nat.not_lt.mpr h.above)]
    split
    · rfl
    next hzero => simp [Nat.eq_zero_of_not_pos hzero]
  unfold acknowledge onPacketAcked
  rw [hends, show (c.sample b a.stats a.now).2 = false from hcalm, hgrown]
  simp [h.outside]

theorem Avoiding.next (h : c.Avoiding b) (hcalm : c.Calm b a) :
    (c.acknowledge b a).Avoiding b ∧ c.cwnd ≤ (c.acknowledge b a).cwnd := by
  have hle : c.cwnd ≤ min (c.maxDatagramSize * b.maxCongestionWindowPackets)
      (c.cwnd + c.maxDatagramSize * a.ackedBytes / c.cwnd) :=
    Nat.le_min.mpr ⟨h.below, Nat.le_add_right _ _⟩
  rw [h.acknowledge_eq hcalm]
  exact ⟨⟨h.outside, h.above.trans hle, Nat.min_le_left _ _⟩, hle⟩

theorem Avoiding.le_run (h : c.Avoiding b)
    (hcalm : Along (fun c a => some (c.acknowledge b a)) (Calm b) c acks) :
    c.cwnd ≤ (acks.foldl (acknowledge b) c).cwnd := by
  induction acks generalizing c with
  | nil => exact le_refl _
  | cons a rest ih =>
    obtain ⟨hnext, hle⟩ := h.next hcalm.1
    exact hle.trans (ih hnext (hcalm.2 _ rfl))

/-- Acknowledgements that are worth less than a byte each leave the window. -/
theorem Avoiding.stuck (h : c.Avoiding b)
    (hcalm : Along (fun c a => some (c.acknowledge b a)) (Calm b) c acks)
    (hsmall : ∀ a ∈ acks, c.maxDatagramSize * a.ackedBytes / c.cwnd = 0) :
    (acks.foldl (acknowledge b) c).cwnd = c.cwnd := by
  induction acks generalizing c with
  | nil => rfl
  | cons a rest ih =>
    have heq := h.acknowledge_eq hcalm.1
    rw [hsmall a mem_cons_self, Nat.add_zero, Nat.min_eq_right h.below] at heq
    rw [foldl_cons, ih (h.next hcalm.1).1 (hcalm.2 _ rfl), heq]
    intro a' ha'
    rw [heq]
    exact hsmall a' (mem_cons_of_mem _ ha')

/-- Congestion avoidance makes progress exactly if one of the acknowledgements is
worth at least a byte on its own: what the division cuts off is lost. -/
theorem avoidance_progress_iff (b : Build E) (c : QUICDCController E) (acks : List Ack)
    (hrecovery : c.inRecovery = false) (hssthresh : c.ssthresh ≤ c.cwnd)
    (hmax : c.cwnd < c.maxDatagramSize * b.maxCongestionWindowPackets)
    (hcalm : Along (fun c a => some (c.acknowledge b a)) (Calm b) c acks) :
    c.cwnd < (acks.foldl (acknowledge b) c).cwnd ↔
      0 < c.cwnd ∧ ∃ a ∈ acks, c.cwnd ≤ c.maxDatagramSize * a.ackedBytes := by
  have hc : c.Avoiding b := ⟨hrecovery, hssthresh, hmax.le⟩
  constructor
  · intro hgrows
    by_contra hnone
    refine hgrows.ne' (hc.stuck hcalm fun a ha => ?_)
    rw [Nat.div_eq_zero_iff]
    by_contra hworth
    exact hnone ⟨by omega, a, ha, by omega⟩
  · rintro ⟨hpos, a, ha, hworth⟩
    induction acks generalizing c with
    | nil => simp at ha
    | cons a' rest ih =>
      have hnext := hc.next hcalm.1
      have hrest := hnext.1.le_run (hcalm.2 _ rfl)
      rcases hnext.2.lt_or_eq with hlt | heq
      · exact hlt.trans_le hrest
      · -- nothing has come of the first one, so it is another one
        have hstep := hc.acknowledge_eq hcalm.1
        rcases mem_cons.mp ha with rfl | ha
        · have hone := Nat.div_pos hworth hpos
          have hcwnd := congrArg cwnd hstep
          simp only at hcwnd
          omega
        · have hsize : (c.acknowledge b a').maxDatagramSize = c.maxDatagramSize := by rw [hstep]
          rw [heq]
          apply ih _ hnext.1.outside hnext.1.above _ (hcalm.2 _ rfl) hnext.1
          · rw [← heq]
            exact hpos
          · exact ha
          · rw [← heq, hsize]
            exact hworth
          · rw [← heq, hsize]
            exact hmax

def congested : QUICDCController OWQDEstimator :=
  { newQUICDCController quic with cwnd := 2000000, ssthresh := 2000000 }

def fullAcks (n : Nat) : List Ack := replicate n ⟨0, 1280, none, 0⟩

theorem calm_fullAcks (c : QUICDCController OWQDEstimator) (n : Nat) :
    Along (fun c a => some (c.acknowledge quic a)) (Calm quic) c (fullAcks n) := by
  refine along_of_forall fun c a ha => ?_
  rw [eq_of_mem_replicate ha]
  rfl

theorem avoidance_progress_small_window :
    12800 < ((fullAcks 10).foldl (acknowledge quic)
      { newQUICDCController quic with ssthresh := 12800 }).cwnd :=
  (avoidance_progress_iff quic { newQUICDCController quic with ssthresh := 12800 } (fullAcks 10)
    rfl (by decide) (by decide) (calm_fullAcks _ _)).2 ⟨by decide, _, mem_cons_self, by decide⟩

/-- More than a whole window is acknowledged in full datagrams, and the window
stays as it is. -/
theorem large_window_stuck :
    2000000 ≤ ((fullAcks 1563).map (·.ackedBytes)).sum ∧
      ¬congested.cwnd < ((fullAcks 1563).foldl (acknowledge quic) congested).cwnd := by
  have hc : congested.Avoiding quic := ⟨rfl, by decide, by decide⟩
  refine ⟨by rw [fullAcks, map_replicate, sum_replicate_nat]; decide, ?_⟩
  rw [hc.stuck (calm_fullAcks _ _) fun a ha => ?_]
  · exact lt_irrefl _
  · rw [eq_of_mem_replicate ha]
    decide

end QUICDCController

/-! ## The two sides -/

section Sides

open QUICDCController

variable {b}

def Unaffected (c : QUICDCController E) : Prop :=
  c.cwnd * 85 / 100 ≤ c.minCwnd ∨ c.cwnd * 7 / 10 = c.cwnd * 85 / 100

def Harmless (c : QUICDCController E) (a : Call) : Prop :=
  ∀ number, a = .lost number → c.largestSentAtLastCutback < number → Unaffected c

def after (b : Build E) (c : QUICDCController E) (calls : List Call) : QUICDCController E :=
  calls.foldl (call b) c

theorem call_of_harmless (h : Harmless c a) : c.call (client b) a = c.call (server b) a := by
  cases a with
  | lost number =>
    simp only [call, onCongestionEvent]
    split
    · rfl
    next hlater =>
      have hmax : max (c.cwnd * 7 / 10) c.minCwnd = max (c.cwnd * 85 / 100) c.minCwnd := by
        have := h number rfl (Nat.not_le.mp hlater)
        unfold Unaffected at this
        omega
      simp only [client, server, hmax]
  | _ => rfl

theorem cwnd_of_not_harmless (h : ¬Harmless c a) :
    (c.call (client b) a).cwnd ≠ (c.call (server b) a).cwnd := by
  simp only [Harmless, not_forall] at h
  obtain ⟨number, rfl, hlater, haffected⟩ := h
  simp only [call, onCongestionEvent, if_neg (Nat.not_le.mpr hlater), client, server]
  unfold Unaffected at haffected
  omega

/-- The client and the server have the same window, threshold and recovery flag
after every call exactly if each loss that reduces the window finds it so small
that both sides leave the same of it. -/
theorem sides_agree_iff (b : Build E) (c : QUICDCController E) (calls : List Call) :
    (∀ front, front <+: calls →
      (after (client b) c front).cwnd = (after (server b) c front).cwnd ∧
      (after (client b) c front).ssthresh = (after (server b) c front).ssthresh ∧
      (after (client b) c front).inRecovery = (after (server b) c front).inRecovery) ↔
    Along (fun c a => some (c.call (client b) a)) Harmless c calls := by
  induction calls generalizing c with
  | nil => simp [after]
  | cons a rest ih =>
    by_cases h : Harmless c a
    · have hnext := ih (c.call (client b) a)
      constructor
      · intro hsame
        refine ⟨h, fun next hcall => ?_⟩
        obtain rfl := Option.some.inj hcall
        refine hnext.1 fun front hfront => ?_
        have := hsame (a :: front) (cons_prefix_cons.mpr ⟨rfl, hfront⟩)
        simpa only [after, foldl_cons, ← call_of_harmless h] using this
      · intro hok front hfront
        cases front with
        | nil => exact ⟨rfl, rfl, rfl⟩
        | cons a' front =>
          obtain ⟨rfl, hrest⟩ := cons_prefix_cons.mp hfront
          have := hnext.2 (hok.2 _ rfl) front hrest
          simpa only [after, foldl_cons, ← call_of_harmless h] using this
    · refine iff_of_false (fun hsame => ?_) fun hok => h hok.1
      have hfront : [a] <+: a :: rest := cons_prefix_cons.mpr ⟨rfl, nil_prefix⟩
      exact cwnd_of_not_harmless h (hsame [a] hfront).1

/-- The first loss in the initial window. -/
theorem sides_differ :
    (after (client quic) (newQUICDCController quic) [.sent 1 true, .lost 1]).cwnd = 8960 ∧
      (after (server quic) (newQUICDCController quic) [.sent 1 true, .lost 1]).cwnd = 10880 := by
  decide

end Sides

end Hy2Link.Congestion
