import Mathlib.Data.List.Basic
import Mathlib.Tactic.Ring

/-! # Byte streams

A stream delivers its bytes in order and in pieces, and then it ends: regularly,
or with a fault.  A reader that asks for a number of bytes gets them from as many
pieces as it takes.  How the bytes are cut into pieces makes no difference to
such a reader: what it gets and what it leaves are functions of the bytes alone.
-/

namespace Framing

/-! ## Numbers in network order -/

/-- The lowest bytes of a number, the highest of them first. -/
def bigEndian : Nat → Nat → List UInt8
  | 0, _ => []
  | width + 1, value => bigEndian width (value / 256) ++ [UInt8.ofNat (value % 256)]

def fromBigEndian : List UInt8 → Nat
  | [] => 0
  | b :: rest => b.toNat * 256 ^ rest.length + fromBigEndian rest

@[simp] theorem length_bigEndian (width value : Nat) : (bigEndian width value).length = width := by
  induction width generalizing value with
  | zero => rfl
  | succ width ih => simp [bigEndian, ih]

theorem fromBigEndian_append_singleton (bytes : List UInt8) (b : UInt8) :
    fromBigEndian (bytes ++ [b]) = fromBigEndian bytes * 256 + b.toNat := by
  induction bytes with
  | nil => simp [fromBigEndian]
  | cons first rest ih =>
    simp only [List.cons_append, fromBigEndian, ih, List.length_append, List.length_singleton]
    ring

theorem fromBigEndian_bigEndian (width value : Nat) :
    fromBigEndian (bigEndian width value) = value % 256 ^ width := by
  induction width generalizing value with
  | zero => simp [bigEndian, fromBigEndian, Nat.mod_one]
  | succ width ih =>
    have hlow : (UInt8.ofNat (value % 256)).toNat = value % 256 := by simp
    rw [bigEndian, fromBigEndian_append_singleton, ih, hlow, pow_succ', Nat.mod_mul]
    ring

/-! ## Reading -/

section Pieces

variable {α : Type}

/-- Up to a number of elements from the front of the pieces, and what is left. -/
def takePieces : Nat → List (List α) → List α × List (List α)
  | _, [] => ([], [])
  | n, piece :: rest =>
    if n ≤ piece.length then (piece.take n, piece.drop n :: rest)
    else
      let (more, left) := takePieces (n - piece.length) rest
      (piece ++ more, left)

theorem takePieces_fst (n : Nat) (pieces : List (List α)) :
    (takePieces n pieces).1 = pieces.flatten.take n := by
  induction pieces generalizing n with
  | nil => simp [takePieces]
  | cons piece rest ih =>
    unfold takePieces
    split
    next hle => simp [List.take_append, Nat.sub_eq_zero_of_le hle]
    next hlt =>
      rw [List.flatten_cons, List.take_append, List.take_of_length_le (by omega)]
      simp [ih]

theorem flatten_takePieces_snd (n : Nat) (pieces : List (List α)) :
    (takePieces n pieces).2.flatten = pieces.flatten.drop n := by
  induction pieces generalizing n with
  | nil => simp [takePieces]
  | cons piece rest ih =>
    unfold takePieces
    split
    next hle => simp [List.drop_append, Nat.sub_eq_zero_of_le hle]
    next hlt =>
      rw [List.flatten_cons, List.drop_append, List.drop_of_length_le (by omega)]
      simp [ih]

end Pieces

/-- What arrives: the pieces, and the fault that comes after them, if the stream
does not end regularly. -/
structure Stream (ε : Type) where
  chunks : List (List UInt8)
  ending : Option ε

inductive ReadError (ε : Type)
  | eof
  | unexpectedEOF
  | fault (e : ε)
deriving DecidableEq

namespace Stream

variable {ε : Type} (s : Stream ε) (n : Nat)

def bytes : List UInt8 := s.chunks.flatten

/-- What a read that did not get all its bytes reports, after those it got. -/
def shortError (got : List UInt8) : ReadError ε :=
  match s.ending with
  | some e => .fault e
  | none => if got = [] then .eof else .unexpectedEOF

def readFull : Except (ReadError ε) (List UInt8) × Stream ε :=
  let (got, left) := takePieces n s.chunks
  (if got.length = n then .ok got else .error (s.shortError got), { s with chunks := left })

@[simp] theorem bytes_readFull : (s.readFull n).2.bytes = s.bytes.drop n :=
  flatten_takePieces_snd n s.chunks

@[simp] theorem ending_readFull : (s.readFull n).2.ending = s.ending := rfl

theorem readFull_fst :
    (s.readFull n).1 =
      if n ≤ s.bytes.length then .ok (s.bytes.take n) else .error (s.shortError s.bytes) := by
  have hgot : (takePieces n s.chunks).1 = s.bytes.take n := takePieces_fst n s.chunks
  simp only [readFull, hgot, List.length_take]
  by_cases hle : n ≤ s.bytes.length
  · rw [if_pos (by omega), if_pos hle]
  · rw [if_neg (by omega), if_neg hle, List.take_of_length_le (by omega)]

end Stream

end Framing
