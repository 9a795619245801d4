import Mathlib.Algebra.Group.Nat.Defs
import Mathlib.Data.List.Basic

/-! # SHA-256

The digest of a list of bytes, and its usual form as a text of 64 hexadecimal
digits.
-/

namespace Sha256

abbrev Word := BitVec 32

/-- The fractional parts of the cube roots of the first 64 primes. -/
def roundConstants : List Word :=
  [0x428a2f98, 0x71374491, 0xb5c0fbcf, 0xe9b5dba5, 0x3956c25b, 0x59f111f1, 0x923f82a4, 0xab1c5ed5,
   0xd807aa98, 0x12835b01, 0x243185be, 0x550c7dc3, 0x72be5d74, 0x80deb1fe, 0x9bdc06a7, 0xc19bf174,
   0xe49b69c1, 0xefbe4786, 0x0fc19dc6, 0x240ca1cc, 0x2de92c6f, 0x4a7484aa, 0x5cb0a9dc, 0x76f988da,
   0x983e5152, 0xa831c66d, 0xb00327c8, 0xbf597fc7, 0xc6e00bf3, 0xd5a79147, 0x06ca6351, 0x14292967,
   0x27b70a85, 0x2e1b2138, 0x4d2c6dfc, 0x53380d13, 0x650a7354, 0x766a0abb, 0x81c2c92e, 0x92722c85,
   0xa2bfe8a1, 0xa81a664b, 0xc24b8b70, 0xc76c51a3, 0xd192e819, 0xd6990624, 0xf40e3585, 0x106aa070,
   0x19a4c116, 0x1e376c08, 0x2748774c, 0x34b0bcb5, 0x391c0cb3, 0x4ed8aa4a, 0x5b9cca4f, 0x682e6ff3,
   0x748f82ee, 0x78a5636f, 0x84c87814, 0x8cc70208, 0x90befffa, 0xa4506ceb, 0xbef9a3f7, 0xc67178f2]

/-- The eight working variables, and the chaining value between blocks. -/
structure State where
  a : Word
  b : Word
  c : Word
  d : Word
  e : Word
  f : Word
  g : Word
  h : Word

def State.initial : State :=
  ⟨0x6a09e667, 0xbb67ae85, 0x3c6ef372, 0xa54ff53a, 0x510e527f, 0x9b05688c, 0x1f83d9ab, 0x5be0cd19⟩

def State.add (s t : State) : State :=
  ⟨s.a + t.a, s.b + t.b, s.c + t.c, s.d + t.d, s.e + t.e, s.f + t.f, s.g + t.g, s.h + t.h⟩

def State.words (s : State) : List Word := [s.a, s.b, s.c, s.d, s.e, s.f, s.g, s.h]

def bigSigma0 (x : Word) : Word := x.rotateRight 2 ^^^ x.rotateRight 13 ^^^ x.rotateRight 22

def bigSigma1 (x : Word) : Word := x.rotateRight 6 ^^^ x.rotateRight 11 ^^^ x.rotateRight 25

def smallSigma0 (x : Word) : Word := x.rotateRight 7 ^^^ x.rotateRight 18 ^^^ (x >>> 3)

def smallSigma1 (x : Word) : Word := x.rotateRight 17 ^^^ x.rotateRight 19 ^^^ (x >>> 10)

def ch (x y z : Word) : Word := (x &&& y) ^^^ (~~~x &&& z)

def maj (x y z : Word) : Word := (x &&& y) ^^^ (x &&& z) ^^^ (y &&& z)

/-- One round, with the sum of its constant and its word of the schedule. -/
def State.round (s : State) (kw : Word) : State :=
  let t1 := s.h + bigSigma1 s.e + ch s.e s.f s.g + kw
  let t2 := bigSigma0 s.a + maj s.a s.b s.c
  ⟨t1 + t2, s.a, s.b, s.c, s.d + t1, s.e, s.f, s.g⟩

/-- `n` more words of the message schedule; the last word comes first. -/
def extend : Nat → List Word → List Word
  | 0, schedule => schedule
  | n + 1, schedule =>
    extend n ((smallSigma1 (schedule.getD 1 0) + schedule.getD 6 0 +
      smallSigma0 (schedule.getD 14 0) + schedule.getD 15 0) :: schedule)

def wordOfBytes (bytes : List UInt8) : Word :=
  BitVec.ofNat 32 (bytes.foldl (fun n byte => n * 256 + byte.toNat) 0)

def pieces {α : Type} (size n : Nat) (l : List α) : List (List α) :=
  (List.range n).map fun i => (l.drop (size * i)).take size

def compress (s : State) (block : List UInt8) : State :=
  let schedule := (extend 48 ((pieces 4 16 block).map wordOfBytes).reverse).reverse
  s.add ((roundConstants.zipWith (· + ·) schedule).foldl State.round s)

/-- A one bit, zeros up to eight bytes before a border of 64, and the length
in bits. -/
def pad (message : List UInt8) : List UInt8 :=
  message ++ 0x80 :: List.replicate ((119 - message.length % 64) % 64) 0 ++
    (List.range 8).reverse.map fun i => UInt8.ofNat (8 * message.length / 256 ^ i)

def hash (message : List UInt8) : State :=
  let padded := pad message
  (pieces 64 (padded.length / 64) padded).foldl compress .initial

/-! ## As a text -/

def hexDigit (n : Nat) : Char := "0123456789abcdef".toList.getD n '0'

def hexWord (w : Word) : List Char :=
  (List.range 8).reverse.map fun i => hexDigit (w.toNat / 16 ^ i % 16)

def hex (s : State) : List Char := s.words.flatMap hexWord

@[simp] theorem length_hexWord (w : Word) : (hexWord w).length = 8 := by
  simp [hexWord]

@[simp] theorem length_hex (s : State) : (hex s).length = 64 := by
  simp [hex, State.words]

example : hex (hash "abc".toUTF8.toList) =
    "ba7816bf8f01cfea414140de5dae2223b00361a396177a9cb410ff61f20015ad".toList := by decide +kernel

end Sha256
