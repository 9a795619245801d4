import Mathlib.Data.List.Basic

/-! # Sliding windows over lists of times

A limiter keeps the times of the events it has let through, forgets those that
have left the window, and lets an event through while fewer than a limit are
left.  What it forgets never matters again, as long as time does not go back,
and so the times it has let through are limited in every window.
-/

namespace SlidingWindow

/-- The times that are still inside the window that ends now. -/
def recent (window now : Nat) (times : List Nat) : List Nat :=
  times.filter fun t => now - t ≤ window

/-- No closed interval of the window's length holds more than `limit` of the
times. -/
def Limited (window limit : Nat) (times : List Nat) : Prop :=
  ∀ start, (times.filter fun t => start ≤ t && t ≤ start + window).length ≤ limit

variable {window limit now later : Nat} {times more : List Nat}

theorem mem_recent : t ∈ recent window now times ↔ t ∈ times ∧ now - t ≤ window := by
  simp [recent]

theorem recent_append :
    recent window now (times ++ more) = recent window now times ++ recent window now more :=
  List.filter_append ..

/-- Forgetting what has left the window early does not change what is in it
later. -/
theorem recent_recent (h : now ≤ later) :
    recent window later (recent window now times) = recent window later times := by
  simp only [recent, List.filter_filter]
  apply List.filter_congr
  intro t _
  have hwindow : later - t ≤ window → now - t ≤ window := fun hlater => by omega
  simpa using hwindow

theorem length_recent_le (h : now ≤ later) :
    (recent window later times).length ≤ (recent window now times).length := by
  apply List.Sublist.length_le
  apply List.monotone_filter_right
  intro t ht
  simp only [decide_eq_true_eq] at ht ⊢
  omega

theorem length_recent_le_after (h : window < now - last) :
    (recent window now times).length ≤ (times.filter fun t => last < t).length := by
  apply List.Sublist.length_le
  apply List.monotone_filter_right
  intro t ht
  simp only [decide_eq_true_eq] at ht ⊢
  omega

theorem limited_nil : Limited window limit [] := fun _ => Nat.zero_le _

/-- The step of a limiter: an event is let through while there is room. -/
theorem Limited.append_now (h : Limited window limit times)
    (hroom : (recent window now times).length < limit) :
    Limited window limit (times ++ [now]) := by
  intro start
  rw [List.filter_append, List.length_append]
  by_cases hnow : start ≤ now ∧ now ≤ start + window
  · -- the interval reaches up to now, so what it holds is still recent
    have hle : (times.filter fun t => start ≤ t && t ≤ start + window).length ≤
        (recent window now times).length := by
      apply List.Sublist.length_le
      apply List.monotone_filter_right
      intro t ht
      simp only [Bool.and_eq_true, decide_eq_true_eq] at ht ⊢
      omega
    simp only [List.filter_cons, List.filter_nil]
    split
    · simp only [List.length_singleton]
      omega
    · simp only [List.length_nil]
      omega
  · have hout : ([now].filter fun t => start ≤ t && t ≤ start + window) = [] := by
      simpa using hnow
    rw [hout]
    exact h start

end SlidingWindow
