import Hy2Link.Client.PathTables
import Hy2Link.Client.StreamSetup

/-! # Packets on a direct path

On a direct path a frame carries one byte more than on the relay: the plane of
the packet.  The writer of the direct path does not look at the length, and the
reader allows frames of the same length as on the relay.
-/

namespace Hy2Link.Client

open Framing Hy2Link.Client.Path List

inductive PathPlane
  | tcp
  | udp
  | matching
  | gameTCP
  | icmp
deriving DecidableEq

namespace PathPlane

def index : PathPlane → UInt8
  | .tcp => 1
  | .udp => 2
  | .matching => 3
  | .gameTCP => 4
  | .icmp => 5

/-- A byte below or above the five is no plane. -/
def ofIndex (b : UInt8) : Option PathPlane :=
  [tcp, udp, matching, gameTCP, icmp].find? fun plane => plane.index = b

theorem ofIndex_index (plane : PathPlane) : ofIndex plane.index = some plane := by
  cases plane <;> decide

end PathPlane

def planeStream : PathPlane → StreamKind
  | .tcp => .bulk
  | .udp => .bulk
  | .icmp => .crit
  | .matching => .crit
  | .gameTCP => .crit

/-! ## The sending end -/

structure SendingEnd where
  state : PathState
  streams : StreamKind → Option (List UInt8)

inductive WriteFailure
  | noStream (kind : StreamKind)
  | stream (fault : StreamFault)
deriving DecidableEq

namespace SendingEnd

/-- `writeData`, on a stream that fails if a fault is given. -/
def writeData (e : SendingEnd) (fault : Option StreamFault) (kind : StreamKind) (plane : PathPlane)
    (pkt : List UInt8) : Except WriteFailure SendingEnd :=
  match e.streams kind with
  | none => .error (.noStream kind)
  | some written =>
    match fault with
    | some fault => .error (.stream fault)
    | none =>
      let buf := bigEndian 4 (1 + pkt.length) ++ plane.index :: pkt
      .ok { e with streams := Function.update e.streams kind (some (written ++ buf)) }

/-- One round of the write loop of a stream: a failure demotes the path. -/
def send (e : SendingEnd) (fault : Option StreamFault) (kind : StreamKind)
    (pkt : PathPlane × List UInt8) : SendingEnd :=
  match e.writeData fault kind pkt.1 pkt.2 with
  | .error _ => { e with state := .down }
  | .ok e => e

/-- The packets of a stream's queue, on a stream that works. -/
def sendAll (e : SendingEnd) (kind : StreamKind) (pkts : List (PathPlane × List UInt8)) :
    SendingEnd :=
  pkts.foldl (fun e pkt => e.send none kind pkt) e

end SendingEnd

def directFrame (pkt : PathPlane × List UInt8) : List UInt8 := frame (pkt.1.index :: pkt.2)

theorem sendAll_spec {e : SendingEnd} (h : e.streams kind = some written)
    (pkts : List (PathPlane × List UInt8)) :
    (e.sendAll kind pkts).state = e.state ∧
      (e.sendAll kind pkts).streams kind = some (written ++ pkts.flatMap directFrame) := by
  induction pkts generalizing e written with
  | nil => simpa [SendingEnd.sendAll] using h
  | cons pkt rest ih =>
    have hsend : e.send none kind pkt =
        { e with
          streams := Function.update e.streams kind (some (written ++ directFrame pkt)) } := by
      simp [SendingEnd.send, SendingEnd.writeData, h, directFrame, frame, Nat.add_comm]
    have hstream : (e.send none kind pkt).streams kind = some (written ++ directFrame pkt) := by
      simp [hsend]
    have hrest := ih hstream
    rw [SendingEnd.sendAll, foldl_cons]
    refine ⟨hrest.1.trans (by rw [hsend]), ?_⟩
    rw [flatMap_cons, ← append_assoc]
    exact hrest.2

/-! ## The receiving end -/

structure ReadLoop where
  state : PathState
  stream : Stream StreamFault
  running : Bool
  delivered : List (PathPlane × List UInt8)

/-- One round of `readStreamLoop`.  A frame without a packet and one of an
unknown plane are passed over. -/
def ReadLoop.round (l : ReadLoop) (closing : Bool) : ReadLoop :=
  match readFrame maxFrameSize l.stream with
  | (.error _, s) =>
    if closing || !l.state.alive then { l with stream := s, running := false }
    else { l with stream := s, running := false, state := .down }
  | (.ok pkt, s) =>
    match pkt with
    | [] => { l with stream := s }
    | index :: payload =>
      if payload = [] then { l with stream := s }
      else
        match PathPlane.ofIndex index with
        | none => { l with stream := s }
        | some plane => { l with stream := s, delivered := l.delivered ++ [(plane, payload)] }

def readStreamLoop : Nat → ReadLoop → ReadLoop
  | 0, l => l
  | n + 1, l => if l.running then readStreamLoop n (l.round false) else l

section Rounds

variable {l : ReadLoop} {pkt : PathPlane × List UInt8} {later : List UInt8}

theorem round_directFrame (hpos : 1 ≤ pkt.2.length) (hfits : pkt.2.length < maxFrameSize)
    (hbytes : l.stream.bytes = directFrame pkt ++ later) :
    ∃ s, s.bytes = later ∧
      l.round false = { l with stream := s, delivered := l.delivered ++ [pkt] } := by
  obtain ⟨plane, payload⟩ := pkt
  have hlength : (plane.index :: payload).length ≤ maxFrameSize := hfits
  have hwidth : (plane.index :: payload).length < 256 ^ 4 :=
    lt_of_le_of_lt hlength (by decide)
  obtain ⟨hresult, hleft⟩ := readFrame_frame maxFrameSize maxFrameSize hwidth hlength hlength hbytes
  refine ⟨_, hleft, ?_⟩
  have hread : readFrame maxFrameSize l.stream =
      (.ok (plane.index :: payload), (readFrame maxFrameSize l.stream).2) := Prod.ext hresult rfl
  have hne : payload ≠ [] := ne_nil_of_length_pos hpos
  rw [ReadLoop.round, hread]
  simp [hne, PathPlane.ofIndex_index, readFrame]

theorem round_tooLong (hstate : l.state = .up) (hlong : pkt.2.length = maxFrameSize)
    (hbytes : l.stream.bytes = directFrame pkt ++ later) : (l.round false).state = .down := by
  have hheader : l.stream.bytes.take 4 = bigEndian 4 (maxFrameSize + 1) := by
    rw [hbytes, directFrame, frame, append_assoc, take_left' (length_bigEndian ..),
      length_cons, hlong]
  have hvalue : fromBigEndian (l.stream.bytes.take 4) = maxFrameSize + 1 := by
    rw [hheader, fromBigEndian_bigEndian]
    rfl
  have hresult := (readFrame_bad_length maxFrameSize maxFrameSize
    (show 4 ≤ l.stream.bytes.length by rw [hbytes, directFrame]; simp; omega) (by omega)).1
  have hread : readFrame maxFrameSize l.stream =
      (.error (.badLength (fromBigEndian (l.stream.bytes.take 4))),
        (readFrame maxFrameSize l.stream).2) := Prod.ext hresult rfl
  rw [ReadLoop.round, hread]
  simp [hstate, PathState.alive]

theorem readStreamLoop_frames (hrunning : l.running = true)
    (hpkts : ∀ pkt ∈ pkts, 1 ≤ pkt.2.length ∧ pkt.2.length < maxFrameSize)
    (hbytes : l.stream.bytes = pkts.flatMap directFrame ++ later) (n : Nat) :
    ∃ s, s.bytes = later ∧ readStreamLoop (pkts.length + n) l =
      readStreamLoop n { l with stream := s, delivered := l.delivered ++ pkts } := by
  induction pkts generalizing l with
  | nil => exact ⟨l.stream, by simpa using hbytes, by simp⟩
  | cons pkt rest ih =>
    rw [forall_mem_cons] at hpkts
    rw [flatMap_cons, append_assoc] at hbytes
    obtain ⟨s, hs, hround⟩ := round_directFrame hpkts.1.1 hpkts.1.2 hbytes
    obtain ⟨t, ht, hrest⟩ := ih (l := l.round false) (by rw [hround]; exact hrunning) hpkts.2
      (by rw [hround]; exact hs)
    refine ⟨t, ht, ?_⟩
    rw [length_cons, Nat.add_right_comm, readStreamLoop, if_pos hrunning, hrest, hround,
      append_assoc]
    rfl

end Rounds

/-- **The direct path carries what the relay carries, up to one byte.**  A packet
that the relay accepts is put on an up path behind any packets that have come
through.  The sender accepts it.  The peer delivers it on its plane, and neither
end demotes the path, if and only if the packet is shorter than the longest
frame. -/
theorem direct_carries_iff (plane : PathPlane) (pkt stream : List UInt8) (hpos : 1 ≤ pkt.length)
    (hrelay : (writeFrameToStream stream pkt).1 = .ok ())
    (before : List (PathPlane × List UInt8))
    (hbefore : ∀ p ∈ before, 1 ≤ p.2.length ∧ p.2.length < maxFrameSize)
    (sender : SendingEnd) (hup : sender.state = .up)
    (hstream : sender.streams (planeStream plane) = some []) (written later : List UInt8)
    (hwritten : (sender.sendAll (planeStream plane) (before ++ [(plane, pkt)])).streams
      (planeStream plane) = some written)
    (chunks : List (List UInt8)) (hchunks : chunks.flatten = written ++ later)
    (ending : Option StreamFault) :
    ((sender.sendAll (planeStream plane) (before ++ [(plane, pkt)])).state = .up ∧
      (readStreamLoop (before.length + 1) ⟨.up, ⟨chunks, ending⟩, true, []⟩).delivered =
        before ++ [(plane, pkt)] ∧
      (readStreamLoop (before.length + 1) ⟨.up, ⟨chunks, ending⟩, true, []⟩).state = .up) ↔
      pkt.length < maxFrameSize := by
  have hlimit : pkt.length ≤ maxFrameSize := by
    by_contra hlong
    rw [writeFrameToStream, if_pos (by omega)] at hrelay
    cases hrelay
  obtain ⟨hstate, hsent⟩ := sendAll_spec hstream (before ++ [(plane, pkt)])
  obtain rfl := Option.some.inj (hwritten.symm.trans hsent)
  rw [nil_append, flatMap_append, append_assoc, flatMap_singleton] at hchunks
  obtain ⟨s, hs, hloop⟩ := readStreamLoop_frames (l := ⟨.up, ⟨chunks, ending⟩, true, []⟩)
    rfl hbefore hchunks 1
  rw [hloop, hstate, hup]
  simp only [readStreamLoop, if_true, nil_append, true_and]
  constructor
  · rintro ⟨-, hnotDown⟩
    by_contra hlong
    rw [round_tooLong rfl (show (plane, pkt).2.length = maxFrameSize by
      simp only; omega) hs] at hnotDown
    cases hnotDown
  · intro hfits
    obtain ⟨t, -, hround⟩ := round_directFrame (l := ⟨.up, s, true, before⟩)
      (show 1 ≤ (plane, pkt).2.length from hpos) hfits hs
    rw [hround]
    exact ⟨rfl, rfl⟩

def freshEnd : SendingEnd := ⟨.up, fun _ => some []⟩

theorem direct_carries_icmp :
    (freshEnd.sendAll .crit [(.icmp, [7])]).state = .up ∧
      (readStreamLoop 1 ⟨.up, ⟨[[0, 0], [0, 2, 5], [7]], none⟩, true, []⟩).delivered =
        [(.icmp, [7])] ∧
      (readStreamLoop 1 ⟨.up, ⟨[[0, 0], [0, 2, 5], [7]], none⟩, true, []⟩).state = .up := by
  refine (direct_carries_iff .icmp [7] [] (by decide) ?_ [] nofun freshEnd rfl rfl
    [0, 0, 0, 2, 5, 7] [] ?_ [[0, 0], [0, 2, 5], [7]] rfl none).2 (by decide)
  · rw [writeFrameToStream_of_le (by decide)]
  · decide

/-- The relay takes the longest frame.  On the direct path it is one byte too
long: the sender writes it, and the peer gives the path up. -/
theorem longest_packet_demotes :
    (writeFrameToStream [] (replicate 65535 7)).1 = .ok () ∧
      (freshEnd.sendAll .bulk [(.tcp, replicate 65535 7)]).state = .up ∧
      (freshEnd.sendAll .bulk [(.tcp, replicate 65535 7)]).streams .bulk =
        some (directFrame (.tcp, replicate 65535 7)) ∧
      (readStreamLoop 1 ⟨.up, ⟨[directFrame (.tcp, replicate 65535 7)], none⟩, true,
        []⟩).state = .down := by
  have hlength : (replicate 65535 (7 : UInt8)).length = maxFrameSize :=
    length_replicate
  obtain ⟨hstate, hstream⟩ := sendAll_spec (show freshEnd.streams .bulk = some [] from rfl)
    [(.tcp, replicate 65535 7)]
  refine ⟨by rw [writeFrameToStream_of_le hlength.le], hstate, ?_, ?_⟩
  · rw [hstream, nil_append, flatMap_singleton]
  · rw [readStreamLoop, if_pos rfl, readStreamLoop]
    exact round_tooLong rfl hlength (by rw [Stream.bytes, flatten_singleton, append_nil])

end Hy2Link.Client
