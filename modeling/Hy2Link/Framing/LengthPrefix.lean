import Hy2Link.Framing.ByteStream

/-! # Frames with their length in front

A frame is its length, in four bytes, and its data.  A reader takes one frame
after the other from a stream, refuses a length beyond its limit and one that its
buffer has no room for, and gives back what was framed, however the stream was
cut into pieces.
-/

namespace Framing

inductive FrameError (ε : Type)
  | read (e : ReadError ε)
  | badLength (length : Nat)
  | noRoom (length room : Nat)
deriving DecidableEq

def frame (data : List UInt8) : List UInt8 := bigEndian 4 data.length ++ data

@[simp] theorem length_frame (data : List UInt8) : (frame data).length = 4 + data.length := by
  simp [frame]

variable {ε : Type}

def readFrame (limit room : Nat) (s : Stream ε) :
    Except (FrameError ε) (List UInt8) × Stream ε :=
  match s.readFull 4 with
  | (.error e, s) => (.error (.read e), s)
  | (.ok header, s) =>
    let length := fromBigEndian header
    if length = 0 then (.ok [], s)
    else if limit < length then (.error (.badLength length), s)
    else if room < length then (.error (.noRoom length room), s)
    else
      match s.readFull length with
      | (.error e, s) => (.error (.read e), s)
      | (.ok data, s) => (.ok data, s)

def readFrames (limit room : Nat) : Nat → Stream ε → List (Except (FrameError ε) (List UInt8))
  | 0, _ => []
  | n + 1, s =>
    (readFrame limit room s).1 :: readFrames limit room n (readFrame limit room s).2

/-! ## One call -/

section OneCall

variable (limit room : Nat) {s : Stream ε}

@[simp] theorem ending_readFrame : (readFrame limit room s).2.ending = s.ending := by
  unfold readFrame
  split
  next e s' hread =>
    have hending := s.ending_readFull 4
    rw [hread] at hending
    exact hending
  next header s' hread =>
    have hending := s.ending_readFull 4
    rw [hread] at hending
    dsimp only
    split
    · exact hending
    · split
      · exact hending
      · split
        · exact hending
        · have hrest := s'.ending_readFull (fromBigEndian header)
          split
          next hdata =>
            rw [hdata] at hrest
            exact hrest.trans hending
          next hdata =>
            rw [hdata] at hrest
            exact hrest.trans hending

theorem readFrame_short_header (h : s.bytes.length < 4) :
    (readFrame limit room s).1 = .error (.read (s.shortError s.bytes)) ∧
      (readFrame limit room s).2.bytes = [] := by
  have hread : s.readFull 4 = (.error (s.shortError s.bytes), (s.readFull 4).2) := by
    ext1
    · rw [s.readFull_fst, if_neg (by omega)]
    · rfl
  rw [readFrame, hread]
  refine ⟨rfl, ?_⟩
  rw [s.bytes_readFull, List.drop_of_length_le (by omega)]

theorem readFrame_header (h : 4 ≤ s.bytes.length) :
    readFrame limit room s =
      let length := fromBigEndian (s.bytes.take 4)
      let rest := (s.readFull 4).2
      if length = 0 then (.ok [], rest)
      else if limit < length then (.error (.badLength length), rest)
      else if room < length then (.error (.noRoom length room), rest)
      else ((rest.readFull length).1.mapError .read, (rest.readFull length).2) := by
  have hread : s.readFull 4 = (.ok (s.bytes.take 4), (s.readFull 4).2) := by
    ext1
    · rw [s.readFull_fst, if_pos h]
    · rfl
  rw [readFrame, hread]
  dsimp only
  congr 3
  split
  next hdata => simp [hdata, Except.mapError]
  next hdata => simp [hdata, Except.mapError]

theorem readFrame_bad_length (h : 4 ≤ s.bytes.length)
    (hlimit : limit < fromBigEndian (s.bytes.take 4)) :
    (readFrame limit room s).1 = .error (.badLength (fromBigEndian (s.bytes.take 4))) ∧
      (readFrame limit room s).2.bytes = s.bytes.drop 4 := by
  rw [readFrame_header limit room h]
  dsimp only
  rw [if_neg (by omega), if_pos hlimit]
  exact ⟨rfl, s.bytes_readFull 4⟩

theorem readFrame_frame (hwidth : data.length < 256 ^ 4) (hlimit : data.length ≤ limit)
    (hroom : data.length ≤ room) (hbytes : s.bytes = frame data ++ rest) :
    (readFrame limit room s).1 = .ok data ∧ (readFrame limit room s).2.bytes = rest := by
  have hheader : s.bytes.take 4 = bigEndian 4 data.length := by
    rw [hbytes, frame, List.append_assoc, List.take_left' (length_bigEndian ..)]
  have hlength : fromBigEndian (s.bytes.take 4) = data.length := by
    rw [hheader, fromBigEndian_bigEndian, Nat.mod_eq_of_lt hwidth]
  have hafter : (s.readFull 4).2.bytes = data ++ rest := by
    rw [s.bytes_readFull, hbytes, frame, List.append_assoc, List.drop_left' (length_bigEndian ..)]
  rw [readFrame_header limit room (by rw [hbytes]; simp; omega)]
  dsimp only
  rw [hlength]
  split
  next hzero =>
    obtain rfl : data = [] := List.length_eq_zero_iff.1 hzero
    exact ⟨rfl, hafter⟩
  next =>
    rw [if_neg (by omega), if_neg (by omega)]
    constructor
    · rw [Stream.readFull_fst, hafter, if_pos (by simp), List.take_left]
      rfl
    · rw [Stream.bytes_readFull, hafter, List.drop_left]

end OneCall

/-! ## One call after the other -/

theorem readFrames_end (hbytes : s.bytes = []) (hending : s.ending = none) (n : Nat) :
    readFrames limit room n s = List.replicate n (.error (.read .eof)) := by
  induction n generalizing s with
  | zero => rfl
  | succ n ih =>
    obtain ⟨hresult, hleft⟩ := readFrame_short_header limit room
      (show s.bytes.length < 4 by simp [hbytes])
    have heof : s.shortError s.bytes = .eof := by simp [Stream.shortError, hending, hbytes]
    rw [readFrames, hresult, ih hleft ((ending_readFrame limit room).trans hending), heof]
    rfl

theorem readFrames_frames (hwidth : limit < 256 ^ 4) {frames : List (List UInt8)}
    (hfits : ∀ data ∈ frames, data.length ≤ limit) (hroom : ∀ data ∈ frames, data.length ≤ room)
    (hbytes : s.bytes = frames.flatMap frame) (hending : s.ending = none) (n : Nat) :
    readFrames limit room (frames.length + n) s =
      frames.map .ok ++ List.replicate n (.error (.read .eof)) := by
  induction frames generalizing s with
  | nil =>
    rw [List.length_nil, Nat.zero_add]
    exact readFrames_end hbytes hending n
  | cons data rest ih =>
    rw [List.forall_mem_cons] at hfits hroom
    obtain ⟨hresult, hleft⟩ := readFrame_frame limit room
      (lt_of_le_of_lt hfits.1 hwidth) hfits.1 hroom.1 hbytes
    rw [List.length_cons, Nat.add_right_comm, readFrames, hresult,
      ih hfits.2 hroom.2 hleft ((ending_readFrame limit room).trans hending)]
    rfl

end Framing
