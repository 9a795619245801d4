import Hy2Link.Framing.LengthPrefix
import Hy2Link.Server.Packet

/-! # The frames of the tunnel streams

Client and server write the same frames to their streams, each with a writer and
a reader of its own.  The client makes a buffer for each frame; the server takes
one from a pool, with whatever its last use has left in it.
-/

namespace Hy2Link

open Framing List

inductive StreamFault
  | timeout
  | closed
deriving DecidableEq

inductive WriteError
  | tooLarge (length : Nat)
deriving DecidableEq

def WriteError.text : WriteError → String
  | .tooLarge length => "帧过大: " ++ toString length

/-- The texts of the reader's own errors; those of the stream are passed on. -/
def readErrorText : FrameError StreamFault → Option String
  | .read _ => none
  | .badLength length => some ("无效帧长度: " ++ toString length)
  | .noRoom length room =>
    some ("缓冲区不足: 需要 " ++ toString length ++ ", 实际 " ++ toString room)

def asciiBytes (s : List Char) : List UInt8 := s.map fun c => .ofNat c.toNat

def copyInto (buf : List UInt8) (start : Nat) (data : List UInt8) : List UInt8 :=
  buf.take start ++ data.take (buf.length - start) ++ buf.drop (start + data.length)

def fillFrame (buf data : List UInt8) : List UInt8 :=
  copyInto (copyInto buf 0 (bigEndian 4 data.length)) 4 data

variable {data stream : List UInt8}

theorem take_fillFrame (hroom : 4 + data.length ≤ buf.length) :
    (fillFrame buf data).take (4 + data.length) = frame data := by
  have hheader : copyInto buf 0 (bigEndian 4 data.length) =
      bigEndian 4 data.length ++ buf.drop 4 := by
    rw [copyInto, take_zero, nil_append, Nat.sub_zero,
      take_of_length_le (by simp; omega), length_bigEndian]
  have hfilled : fillFrame buf data = frame data ++ buf.drop (4 + data.length) := by
    rw [fillFrame, hheader, copyInto, take_left' (length_bigEndian ..),
      take_of_length_le (by simp; omega), frame]
    congr 1
    rw [drop_append, drop_of_length_le (by simp), drop_drop]
    simp
  rw [hfilled, take_left' (length_frame data)]

namespace Client

def maxFrameSize : Nat := 65535

/-- A frame is written behind what is on the stream already. -/
def writeFrameToStream (stream data : List UInt8) : Except WriteError Unit × List UInt8 :=
  if maxFrameSize < data.length then (.error (.tooLarge data.length), stream)
  else (.ok (), stream ++ fillFrame (replicate (4 + data.length) 0) data)

def readFrame (room : Nat) (s : Stream StreamFault) :
    Except (FrameError StreamFault) (List UInt8) × Stream StreamFault :=
  Framing.readFrame maxFrameSize room s

theorem writeFrameToStream_of_le (h : data.length ≤ maxFrameSize) :
    writeFrameToStream stream data = (.ok (), stream ++ frame data) := by
  have hwhole := take_fillFrame (show 4 + data.length ≤ (replicate (4 + data.length) 0).length
    by simp)
  have hlength :
      (fillFrame (replicate (4 + data.length) 0) data).length ≤ 4 + data.length := by
    simp [fillFrame, copyInto]
  rw [take_of_length_le hlength] at hwhole
  rw [writeFrameToStream, if_neg (by omega), hwhole]

end Client

namespace Server

structure PoolBuffer where
  bytes : List UInt8
  size : bytes.length = 4 + maxFrameSize

def writeFrameToStream (buf : PoolBuffer) (stream data : List UInt8) :
    Except WriteError Unit × List UInt8 :=
  if maxFrameSize < data.length then (.error (.tooLarge data.length), stream)
  else (.ok (), stream ++ (fillFrame buf.bytes data).take (4 + data.length))

def readFrame (room : Nat) (s : Stream StreamFault) :
    Except (FrameError StreamFault) (List UInt8) × Stream StreamFault :=
  Framing.readFrame maxFrameSize room s

theorem writeFrameToStream_of_le (h : data.length ≤ maxFrameSize) :
    writeFrameToStream buf stream data = (.ok (), stream ++ frame data) := by
  have hroom : 4 + data.length ≤ buf.bytes.length := by
    rw [buf.size]
    omega
  rw [writeFrameToStream, if_neg (by omega), take_fillFrame hroom]

end Server

/-! ## From one side to the other -/

inductive Side
  | client
  | server
deriving DecidableEq

variable {buf : Server.PoolBuffer}

namespace Side

def peer : Side → Side
  | .client => .server
  | .server => .client

def maxFrameSize : Side → Nat
  | .client => Client.maxFrameSize
  | .server => Server.maxFrameSize

/-- One call of the frame writer; the client has no use for the pool. -/
def write : Side → Server.PoolBuffer → List UInt8 → List UInt8 →
    Except WriteError Unit × List UInt8
  | .client, _, stream, data => Client.writeFrameToStream stream data
  | .server, buf, stream, data => Server.writeFrameToStream buf stream data

def readFrame : Side → Nat → Stream StreamFault →
    Except (FrameError StreamFault) (List UInt8) × Stream StreamFault
  | .client => Client.readFrame
  | .server => Server.readFrame

/-- One call of the writer after the other, each with the buffer it gets. -/
def writeAll (side : Side) (stream : List UInt8) :
    List (Server.PoolBuffer × List UInt8) → List (Except WriteError Unit) × List UInt8
  | [] => ([], stream)
  | (buf, data) :: rest =>
    let (result, stream) := side.write buf stream data
    let (results, stream) := side.writeAll stream rest
    (result :: results, stream)

/-- One call of the reader after the other, with a buffer of this length. -/
def readAll (side : Side) (room : Nat) :
    Nat → Stream StreamFault → List (Except (FrameError StreamFault) (List UInt8))
  | 0, _ => []
  | n + 1, s => (side.readFrame room s).1 :: side.readAll room n (side.readFrame room s).2

variable {side : Side}

theorem maxFrameSize_eq : ∀ side : Side, side.maxFrameSize = 65535 := by
  rintro (_ | _) <;> rfl

theorem readFrame_eq (room : Nat) (s : Stream StreamFault) :
    side.readFrame room s = Framing.readFrame side.maxFrameSize room s := by
  cases side <;> rfl

theorem readAll_eq (room n : Nat) (s : Stream StreamFault) :
    side.readAll room n s = readFrames side.maxFrameSize room n s := by
  induction n generalizing s with
  | zero => rfl
  | succ n ih => rw [readAll, readFrames, ih, readFrame_eq]

theorem write_of_le (h : data.length ≤ side.maxFrameSize) :
    side.write buf stream data = (.ok (), stream ++ frame data) := by
  cases side with
  | client => exact Client.writeFrameToStream_of_le h
  | server => exact Server.writeFrameToStream_of_le h

theorem write_of_lt (h : side.maxFrameSize < data.length) :
    side.write buf stream data = (.error (.tooLarge data.length), stream) := by
  cases side with
  | client | server => exact if_pos h

theorem writeAll_of_le (h : ∀ call ∈ calls, call.2.length ≤ side.maxFrameSize) :
    side.writeAll stream calls =
      (replicate calls.length (.ok ()), stream ++ calls.flatMap fun call => frame call.2) := by
  induction calls generalizing stream with
  | nil => simp [writeAll]
  | cons call rest ih =>
    rw [forall_mem_cons] at h
    simp only [writeAll, write_of_le h.1, ih h.2, length_cons, replicate_succ,
      flatMap_cons, append_assoc]

end Side

/-- **A stream gives back the frames that were written to it.**  Whatever one
side writes in frames that are not too long, and however the bytes are cut on
their way, the other side reads the same data, frame by frame, and then the end
of the stream.  Data that is too long is refused, and leaves the stream as it
was. -/
theorem frames_round_trip (side : Side) (calls : List (Server.PoolBuffer × List UInt8))
    (hfits : ∀ call ∈ calls, call.2.length ≤ side.maxFrameSize) (chunks : List (List UInt8))
    (hchunks : chunks.flatten = (side.writeAll [] calls).2) (n : Nat) :
    (side.writeAll [] calls).1 = replicate calls.length (.ok ()) ∧
      side.peer.readAll side.peer.maxFrameSize (calls.length + n) ⟨chunks, none⟩ =
        calls.map (fun call => .ok call.2) ++ replicate n (.error (.read .eof)) ∧
      ∀ buf stream (data : List UInt8), side.maxFrameSize < data.length →
        side.write buf stream data = (.error (.tooLarge data.length), stream) := by
  rw [Side.writeAll_of_le hfits] at hchunks ⊢
  have hlimit : ∀ data ∈ calls.map Prod.snd, data.length ≤ side.peer.maxFrameSize := by
    rw [forall_mem_map]
    intro call hcall
    rw [Side.maxFrameSize_eq]
    exact (hfits call hcall).trans_eq (Side.maxFrameSize_eq side)
  have hbytes : chunks.flatten = (calls.map Prod.snd).flatMap frame := by
    rw [hchunks, nil_append, flatMap_map]
  have hread := readFrames_frames (s := Stream.mk (ε := StreamFault) chunks none)
    (show side.peer.maxFrameSize < 256 ^ 4 by rw [Side.maxFrameSize_eq]; decide) hlimit hlimit
    hbytes rfl n
  refine ⟨rfl, ?_, fun buf stream data h => Side.write_of_lt h⟩
  rw [Side.readAll_eq]
  simpa [Function.comp_def] using hread

def freshBuffer : Server.PoolBuffer := ⟨replicate (4 + Server.maxFrameSize) 0, by simp⟩

/-- An empty frame and one of two bytes, cut in the middle of a header. -/
theorem frames_round_trip_two :
    Side.readAll .client 65535 3 ⟨[[0, 0], [0, 0, 0, 0, 0], [2, 7, 8]], none⟩ =
      [.ok [], .ok [7, 8], .error (.read .eof)] := by
  have hwritten : (Side.writeAll .server [] [(freshBuffer, []), (freshBuffer, [7, 8])]).2 =
      [0, 0, 0, 0, 0, 0, 0, 2, 7, 8] := by
    rw [Side.writeAll_of_le (by decide)]
    decide
  exact (frames_round_trip .server [(freshBuffer, []), (freshBuffer, [7, 8])] (by decide)
    [[0, 0], [0, 0, 0, 0, 0], [2, 7, 8]] hwritten.symm 1).2.1

end Hy2Link
