import Hy2Link.Limits.RingBuffer
import Hy2Link.Protocol
import Mathlib.Algebra.Order.Group.Nat
import Mathlib.Data.List.Induction

/-! # The estimate of the queueing delay

`OWQDEstimator`, which both sides have in the same words.  It keeps the latest
round trip times in a ring, takes the least one of the last minute for the
length of the empty path, and smooths what a sample exceeds it by.

The ring is scanned at most every 200 milliseconds; in between the minimum only
falls.  So it is at most every sample of the last 60 seconds, and one of the
samples of the last 60.2.

Times and durations are nanoseconds.  The products of the source with 0.5, 0.125
and 0.875 are exact for round trips below 2^50 nanoseconds, and the conversion
to `Duration` cuts the fraction off.
-/

namespace Hy2Link.Congestion

open List

def millisecond : Nat := 1000000

def hour : Nat := 60 * minute

def defaultOWQDThreshold : Nat := 24 * millisecond

def owqdThresholdMin : Nat := 15 * millisecond

def owqdThresholdMax : Nat := 100 * millisecond

def rttWindowDuration : Nat := 60 * second

def rttRingSize : Nat := 8192

def rttRecalcInterval : Nat := 200 * millisecond

structure RTTSample where
  t : Nat
  rtt : Nat

/-- An empty slot is the zero time of the source, and so is the last scan of a
new estimator. -/
structure OWQDEstimator where
  minRTT : Nat
  owqd : Nat
  owqdTh : Nat
  ring : RingBuffer RTTSample
  lastRecalc : Option Nat

def newOWQDEstimator (owqdThreshold : Nat) : OWQDEstimator where
  minRTT := hour
  owqd := 0
  owqdTh := owqdThreshold
  ring := .empty
  lastRecalc := none

namespace OWQDEstimator

/-- Half of the minimum, between 15 and 100 milliseconds. -/
def adaptedThreshold (minRTT : Nat) : Nat :=
  min (max (minRTT / 2) owqdThresholdMin) owqdThresholdMax

def recomputeThresholdLocked (e : OWQDEstimator) : OWQDEstimator :=
  if e.minRTT = 0 ∨ hour ≤ e.minRTT then e else { e with owqdTh := adaptedThreshold e.minRTT }

def lesser (now : Nat) (least : Nat) (slot : Option RTTSample) : Nat :=
  match slot with
  | none => least
  | some s => if s.t + rttWindowDuration < now then least else min least s.rtt

def scan (e : OWQDEstimator) (now : Nat) : Nat :=
  ((range rttRingSize).map e.ring.slots).foldl (lesser now) hour

/-- Nothing is found if no slot is below the initial value. -/
def recomputeMinRTTLocked (e : OWQDEstimator) (now : Nat) : OWQDEstimator :=
  if e.scan now = hour then e else { e with minRTT := e.scan now }.recomputeThresholdLocked

def record (e : OWQDEstimator) (s : RTTSample) : OWQDEstimator :=
  { e with ring := e.ring.push rttRingSize s }

def recalc (e : OWQDEstimator) (now : Nat) : OWQDEstimator :=
  if e.lastRecalc.all (rttRecalcInterval ≤ now - ·) then
    { e.recomputeMinRTTLocked now with lastRecalc := some now }
  else e

def lower (e : OWQDEstimator) (rtt : Nat) : OWQDEstimator :=
  if hour ≤ e.minRTT ∨ rtt < e.minRTT then { e with minRTT := rtt }.recomputeThresholdLocked
  else e

def smooth (e : OWQDEstimator) (rtt : Nat) : Nat :=
  if e.owqd = 0 then rtt - e.minRTT else (7 * e.owqd + (rtt - e.minRTT)) / 8

/-- The answer says that the delay is above the threshold. -/
def update (e : OWQDEstimator) (now rtt : Nat) : OWQDEstimator × Bool :=
  if rtt = 0 then (e, false)
  else
    let e := ((e.record ⟨now, rtt⟩).recalc now).lower rtt
    let owqd := e.smooth rtt
    if e.owqdTh < owqd then ({ e with owqd := e.owqdTh / 2 }, true)
    else ({ e with owqd := owqd }, false)

def reset (_ : OWQDEstimator) : OWQDEstimator := newOWQDEstimator defaultOWQDThreshold

/-! ## The minimum of a scan -/

variable {e : OWQDEstimator} {now : Nat} {slots : List (Option RTTSample)}

theorem foldl_lesser_le (least : Nat) : slots.foldl (lesser now) least ≤ least := by
  induction slots generalizing least with
  | nil => exact le_refl _
  | cons slot rest ih =>
    refine (ih _).trans ?_
    unfold lesser
    repeat' split
    all_goals simp

theorem foldl_lesser_le_of_mem (least : Nat) (hs : some s ∈ slots)
    (hnow : now ≤ s.t + rttWindowDuration) : slots.foldl (lesser now) least ≤ s.rtt := by
  induction slots generalizing least with
  | nil => simp at hs
  | cons slot rest ih =>
    rw [foldl_cons]
    rcases mem_cons.mp hs with rfl | hs
    · refine (foldl_lesser_le _).trans ?_
      simp only [lesser, if_neg (Nat.not_lt.mpr hnow)]
      exact Nat.min_le_right _ _
    · exact ih _ hs

theorem foldl_lesser_mem (least : Nat) :
    slots.foldl (lesser now) least = least ∨ ∃ s, some s ∈ slots ∧
      now ≤ s.t + rttWindowDuration ∧ slots.foldl (lesser now) least = s.rtt := by
  induction slots generalizing least with
  | nil => exact .inl rfl
  | cons slot rest ih =>
    rcases ih (lesser now least slot) with heq | ⟨s, hs, hnow, heq⟩
    · rw [foldl_cons, heq]
      unfold lesser
      split
      · exact .inl rfl
      next s =>
        split
        · exact .inl rfl
        · rcases Nat.le_total least s.rtt with hle | hle
          · exact .inl (Nat.min_eq_left hle)
          · exact .inr ⟨s, mem_cons_self, by omega, Nat.min_eq_right hle⟩
    · exact .inr ⟨s, mem_cons_of_mem _ hs, hnow, heq⟩

/-! ## The estimator and the samples it was given -/

/-- What the estimator knows after a history of samples: since the last scan the
minimum is that of the window of the scan and of all that came later. -/
structure Follows (history : List RTTSample) (e : OWQDEstimator) : Prop where
  ring : e.ring.Holds rttRingSize history
  scanned : ∀ last ∈ e.lastRecalc, (∃ s ∈ history, s.t = last) ∧
    (∀ s ∈ history, last ≤ s.t + rttWindowDuration → e.minRTT ≤ s.rtt) ∧
    ∃ s ∈ history, last ≤ s.t + rttWindowDuration ∧ s.rtt = e.minRTT
  threshold : e.lastRecalc ≠ none → e.owqdTh = adaptedThreshold e.minRTT

theorem follows_new (threshold : Nat) : Follows [] (newOWQDEstimator threshold) :=
  ⟨RingBuffer.holds_empty, by simp [newOWQDEstimator], by simp [newOWQDEstimator]⟩

/-- The samples are in the order of their times, positive and below an hour, and
there are fewer than the ring has slots in 60.2 seconds. -/
structure Paced (history : List RTTSample) : Prop where
  sorted : history.Pairwise fun s s' => s.t ≤ s'.t
  range : ∀ s ∈ history, 0 < s.rtt ∧ s.rtt < hour
  rate : ∀ start, (history.filter fun s => decide (start ≤ s.t) &&
    decide (s.t < start + (rttWindowDuration + rttRecalcInterval))).length < rttRingSize

section

variable (h : Paced (history ++ [s]))
include h

theorem Paced.front : Paced history where
  sorted := (pairwise_append.mp h.sorted).1
  range := fun s' hs' => h.range s' (mem_append_left _ hs')
  rate := fun start =>
    ((sublist_append_left history [s]).filter _).length_le.trans_lt (h.rate start)

theorem Paced.le_last (hs' : s' ∈ history ++ [s]) : s'.t ≤ s.t := by
  rcases mem_append.mp hs' with hs' | hs'
  · exact (pairwise_append.mp h.sorted).2.2 s' hs' s (mem_singleton_self s)
  · rw [mem_singleton.mp hs']

theorem Paced.mem_slots {ring : RingBuffer RTTSample}
    (hring : ring.Holds rttRingSize (history ++ [s])) (hs' : s' ∈ history ++ [s])
    (hnow : s.t ≤ s'.t + rttWindowDuration) :
    some s' ∈ (List.range rttRingSize).map ring.slots := by
  obtain ⟨j, hj⟩ := mem_iff_getElem?.mp hs'
  refine List.mem_map.mpr ⟨j % rttRingSize, List.mem_range.mpr (Nat.mod_lt _ (by decide)), ?_⟩
  refine hring.slot j s' hj ?_
  obtain ⟨hlt, hget⟩ := List.getElem?_eq_some_iff.mp hj
  -- from its place on, the samples are within one window
  have hwithin : ∀ x ∈ (history ++ [s]).drop j, s'.t ≤ x.t ∧
      x.t < s'.t + (rttWindowDuration + rttRecalcInterval) := by
    intro x hx
    have hle := h.le_last (mem_of_mem_drop hx)
    have hpos : 0 < rttRecalcInterval := by decide
    refine ⟨?_, by omega⟩
    rw [drop_eq_getElem_cons hlt, hget] at hx
    rcases mem_cons.mp hx with rfl | hx
    · exact le_refl _
    · have hsorted := h.sorted.sublist (drop_sublist j _)
      rw [drop_eq_getElem_cons hlt, hget] at hsorted
      exact (pairwise_cons.mp hsorted).1 x hx
  have hcount := ((drop_sublist j (history ++ [s])).filter _).length_le.trans_lt (h.rate s'.t)
  rw [filter_eq_self.mpr fun x hx => by simpa using hwithin x hx, length_drop] at hcount
  omega

end

theorem scan_spec (hpaced : Paced (history ++ [s]))
    (hring : e.ring.Holds rttRingSize (history ++ [s])) :
    (∀ s' ∈ history ++ [s], s.t ≤ s'.t + rttWindowDuration → e.scan s.t ≤ s'.rtt) ∧
      ∃ s' ∈ history ++ [s], s.t ≤ s'.t + rttWindowDuration ∧ s'.rtt = e.scan s.t := by
  have hle : ∀ s' ∈ history ++ [s], s.t ≤ s'.t + rttWindowDuration → e.scan s.t ≤ s'.rtt :=
    fun s' hs' hnow => foldl_lesser_le_of_mem _ (hpaced.mem_slots hring hs' hnow) hnow
  refine ⟨hle, ?_⟩
  rcases @foldl_lesser_mem s.t ((range rttRingSize).map e.ring.slots) hour
    with heq | ⟨s', hs', hnow, heq⟩
  · have hlast : s ∈ history ++ [s] := mem_append_right _ (mem_singleton_self s)
    have hscan : e.scan s.t = hour := heq
    have := hle s hlast (Nat.le_add_right _ _)
    have := (hpaced.range s hlast).2
    omega
  · obtain ⟨i, -, hi⟩ := mem_map.mp hs'
    exact ⟨s', hring.mem i s' hi, hnow, heq.symm⟩

theorem recomputeMinRTTLocked_eq (hpos : 0 < e.scan now) (hlow : e.scan now < hour) :
    e.recomputeMinRTTLocked now =
      { e with minRTT := e.scan now, owqdTh := adaptedThreshold (e.scan now) } := by
  rw [recomputeMinRTTLocked, if_neg hlow.ne, recomputeThresholdLocked, if_neg]
  dsimp only
  omega

theorem lower_eq (hrtt : 0 < rtt ∧ rtt < hour) (hlow : e.minRTT < hour)
    (hth : e.owqdTh = adaptedThreshold e.minRTT) :
    e.lower rtt =
      { e with minRTT := min e.minRTT rtt, owqdTh := adaptedThreshold (min e.minRTT rtt) } := by
  unfold lower
  split
  next hlower =>
    rw [Nat.min_eq_right (by omega), recomputeThresholdLocked, if_neg]
    dsimp only
    omega
  · rw [Nat.min_eq_left (by omega), ← hth]

theorem follows_lower (hpaced : Paced (history ++ [s]))
    (hring : e.ring.Holds rttRingSize (history ++ [s])) (hlast : e.lastRecalc = some last)
    (htime : ∃ s' ∈ history ++ [s], s'.t = last)
    (hle : ∀ s' ∈ history, last ≤ s'.t + rttWindowDuration → e.minRTT ≤ s'.rtt)
    (hmem : ∃ s' ∈ history ++ [s], last ≤ s'.t + rttWindowDuration ∧ s'.rtt = e.minRTT)
    (hth : e.owqdTh = adaptedThreshold e.minRTT) : Follows (history ++ [s]) (e.lower s.rtt) := by
  have hs : s ∈ history ++ [s] := mem_append_right _ (mem_singleton_self s)
  obtain ⟨least, hleast, hwindow, hrtt⟩ := hmem
  rw [lower_eq (hpaced.range s hs) (hrtt ▸ (hpaced.range least hleast).2) hth]
  refine ⟨hring, fun last' hlast' => ?_, fun _ => rfl⟩
  obtain rfl : last = last' := Option.some.inj (hlast.symm.trans hlast')
  refine ⟨htime, fun s' hs' hnow => ?_, ?_⟩
  · rcases mem_append.mp hs' with hs' | hs'
    · exact (Nat.min_le_left _ _).trans (hle s' hs' hnow)
    · rw [mem_singleton.mp hs']
      exact Nat.min_le_right _ _
  · rcases Nat.le_total e.minRTT s.rtt with hmin | hmin
    · exact ⟨least, hleast, hwindow, by rw [hrtt, Nat.min_eq_left hmin]⟩
    · obtain ⟨first, hfirst, rfl⟩ := htime
      exact ⟨s, hs, (hpaced.le_last hfirst).trans (Nat.le_add_right _ _),
        (Nat.min_eq_right hmin).symm⟩

/-- One sample more, and the last scan is less than an interval ago. -/
theorem Follows.update (h : Follows history e) (hpaced : Paced (history ++ [s])) :
    Follows (history ++ [s]) (e.update s.t s.rtt).1 ∧
      ∃ last ∈ (e.update s.t s.rtt).1.lastRecalc, s.t < last + rttRecalcInterval := by
  have hs : s ∈ history ++ [s] := mem_append_right _ (mem_singleton_self s)
  have hrange := hpaced.range s hs
  have hring : (e.record s).ring.Holds rttRingSize (history ++ [s]) := h.ring.push s
  have hlower : Follows (history ++ [s]) (((e.record s).recalc s.t).lower s.rtt) ∧
      ∃ last ∈ (((e.record s).recalc s.t).lower s.rtt).lastRecalc,
        s.t < last + rttRecalcInterval := by
    unfold recalc
    split
    · obtain ⟨hle, least, hleast, hnow, heq⟩ := scan_spec hpaced hring
      have hscan := hpaced.range least hleast
      rw [heq] at hscan
      rw [recomputeMinRTTLocked_eq hscan.1 hscan.2]
      generalize (e.record s).scan s.t = minRTT at hle heq hscan ⊢
      refine ⟨follows_lower hpaced hring rfl ⟨s, hs, rfl⟩
        (fun s' hs' => hle s' (mem_append_left _ hs')) ⟨least, hleast, hnow, heq⟩ rfl, ?_⟩
      rw [lower_eq hrange hscan.2 rfl]
      exact ⟨s.t, rfl, Nat.lt_add_of_pos_right (by decide)⟩
    next hrecent =>
      obtain ⟨last, hlast, hrecent⟩ : ∃ last, e.lastRecalc = some last ∧
          ¬rttRecalcInterval ≤ s.t - last := by
        cases hlast : e.lastRecalc <;> simp_all [record]
      obtain ⟨⟨first, hfirst, htime⟩, hle, least, hleast, hnow, heq⟩ := h.scanned last hlast
      have hth := h.threshold (by rw [hlast]; simp)
      refine ⟨follows_lower hpaced hring hlast ⟨first, mem_append_left _ hfirst, htime⟩ hle
        ⟨least, mem_append_left _ hleast, hnow, heq⟩ hth, ?_⟩
      have hlow := (hpaced.range least (mem_append_left _ hleast)).2
      rw [lower_eq (e := e.record s) hrange (heq ▸ hlow) hth]
      exact ⟨last, hlast, by omega⟩
  unfold OWQDEstimator.update
  rw [if_neg hrange.1.ne']
  dsimp only
  split
  · exact ⟨⟨hlower.1.ring, hlower.1.scanned, hlower.1.threshold⟩, hlower.2⟩
  · exact ⟨⟨hlower.1.ring, hlower.1.scanned, hlower.1.threshold⟩, hlower.2⟩

/-- An estimator with any initial threshold after a list of samples. -/
def after (threshold : Nat) (samples : List RTTSample) : OWQDEstimator :=
  samples.foldl (fun e s => (e.update s.t s.rtt).1) (newOWQDEstimator threshold)

theorem after_append (threshold : Nat) (samples : List RTTSample) (s : RTTSample) :
    after threshold (samples ++ [s]) = ((after threshold samples).update s.t s.rtt).1 := by
  simp [after]

theorem follows_after (threshold : Nat) (hpaced : Paced history) :
    Follows history (after threshold history) := by
  induction history using reverseRecOn with
  | nil => exact follows_new threshold
  | append_singleton front s ih =>
    rw [after_append]
    exact ((ih hpaced.front).update hpaced).1

/-- After every update the minimum is at most each sample of the last 60 seconds
and one of the samples of the last 60.2 seconds, and the threshold is half of it,
between 15 and 100 milliseconds. -/
theorem sliding_minimum (threshold : Nat) (samples : List RTTSample) (s : RTTSample)
    (hpaced : Paced (samples ++ [s])) :
    (∀ s' ∈ samples ++ [s], s.t ≤ s'.t + 60 * second →
      (after threshold (samples ++ [s])).minRTT ≤ s'.rtt) ∧
    (∃ s' ∈ samples ++ [s], s.t ≤ s'.t + (60 * second + 200 * millisecond) ∧
      (after threshold (samples ++ [s])).minRTT = s'.rtt) ∧
    (after threshold (samples ++ [s])).owqdTh =
      min (max ((after threshold (samples ++ [s])).minRTT / 2) (15 * millisecond))
        (100 * millisecond) := by
  rw [after_append]
  obtain ⟨hnew, last, hlast, hrecent⟩ := (follows_after threshold hpaced.front).update hpaced
  obtain ⟨⟨first, hfirst, rfl⟩, hle, least, hleast, hnow, heq⟩ := hnew.scanned last hlast
  refine ⟨fun s' hs' hwindow => hle s' hs' ((hpaced.le_last hfirst).trans hwindow),
    ⟨least, hleast, ?_, heq.symm⟩, hnew.threshold (by rw [hlast]; simp)⟩
  simp only [rttWindowDuration, rttRecalcInterval] at hnow hrecent
  omega

/-- After 61 seconds the first sample has left the window, and the second has not. -/
theorem sliding_minimum_first_gone :
    (after defaultOWQDThreshold ([⟨0, 40 * millisecond⟩, ⟨second, 50 * millisecond⟩] ++
      [⟨61 * second, 60 * millisecond⟩])).minRTT = 50 * millisecond := by
  have hpaced : Paced ([⟨0, 40 * millisecond⟩, ⟨second, 50 * millisecond⟩] ++
      [⟨61 * second, 60 * millisecond⟩]) := by
    refine ⟨by decide, by decide, fun start => ?_⟩
    exact (length_filter_le _ _).trans_lt (by decide)
  obtain ⟨hle, ⟨least, hleast, hrecent, heq⟩, -⟩ := sliding_minimum defaultOWQDThreshold _ _ hpaced
  have hsecond := hle ⟨second, 50 * millisecond⟩ (by simp) (by decide)
  rw [heq] at hsecond ⊢
  simp only [cons_append, nil_append, mem_cons, not_mem_nil, or_false] at hleast
  rcases hleast with rfl | rfl | rfl
  · exact absurd hrecent (by decide)
  · rfl
  · exact absurd hsecond (by decide)

end OWQDEstimator

end Hy2Link.Congestion
