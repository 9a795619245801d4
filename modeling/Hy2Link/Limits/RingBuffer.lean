import Mathlib.Data.List.Basic
import Mathlib.Logic.Function.Basic

/-! # Ring buffers

A buffer with a fixed number of slots, written one after the other and from the
first again after the last.  Nothing is taken out: a slot keeps its entry until
the writing comes round.
-/

structure RingBuffer (α : Type) where
  slots : Nat → Option α
  next : Nat

namespace RingBuffer

variable {α : Type}

def empty : RingBuffer α := ⟨fun _ => none, 0⟩

def push (size : Nat) (ring : RingBuffer α) (x : α) : RingBuffer α where
  slots := Function.update ring.slots ring.next (some x)
  next := (ring.next + 1) % size

/-- The buffer after the entries of a history: nothing else is in it, and the
last `size` of them are in their slots. -/
structure Holds (size : Nat) (history : List α) (ring : RingBuffer α) : Prop where
  next : ring.next = history.length % size
  mem : ∀ i x, ring.slots i = some x → x ∈ history
  slot : ∀ j x, history[j]? = some x → history.length ≤ j + size →
    ring.slots (j % size) = some x

variable {size : Nat} {history : List α} {ring : RingBuffer α}

theorem holds_empty : Holds size [] (empty : RingBuffer α) where
  next := (Nat.zero_mod size).symm
  mem := by simp [empty]
  slot := by simp

theorem Holds.push (h : Holds size history ring) (x : α) :
    Holds size (history ++ [x]) (ring.push size x) where
  next := by simp [RingBuffer.push, h.next]
  mem i y hy := by
    simp only [RingBuffer.push, Function.update_apply] at hy
    split at hy
    · simp_all
    · exact List.mem_append_left _ (h.mem i y hy)
  slot j y hy hroom := by
    rw [List.length_append, List.length_singleton] at hroom
    simp only [RingBuffer.push, Function.update_apply, h.next]
    rcases Nat.lt_or_ge j history.length with hj | hj
    · -- an older entry that is still there is in another slot
      have hne : j % size ≠ history.length % size := by
        intro heq
        have hdvd := Nat.dvd_of_mod_eq_zero (Nat.sub_mod_eq_zero_of_mod_eq heq.symm)
        have := Nat.le_of_dvd (by omega) hdvd
        omega
      rw [if_neg hne]
      rw [List.getElem?_append_left hj] at hy
      exact h.slot j y hy (by omega)
    · rw [List.getElem?_append_right hj, List.getElem?_singleton] at hy
      split at hy
      · rw [if_pos (by congr 1; omega), hy]
      · cases hy

end RingBuffer
