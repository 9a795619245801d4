import Hy2Link.Protocol

/-! # Packets

The fields of an IPv4 packet that the relay looks at, and the echo reply that
it builds.  A packet is the list of its bytes; every access below stands
behind the length check of the source.
-/

namespace Hy2Link.Server

abbrev Packet := List UInt8

def maxFrameSize : Nat := 65535

variable {pkt : Packet} {i : Nat}

namespace Packet

variable (pkt : Packet)

def byte (i : Nat) : UInt8 := pkt.getD i 0

def version : UInt8 := pkt.byte 0 >>> 4 &&& 0xF

def ihl : Nat := (pkt.byte 0 &&& 0x0F).toNat * 4

def address (i : Nat) : IPv4 :=
  (pkt.byte i).toBitVec ++ (pkt.byte (i + 1)).toBitVec ++ (pkt.byte (i + 2)).toBitVec ++
    (pkt.byte (i + 3)).toBitVec

def source : IPv4 := pkt.address 12

def extractDstIPv4 : Option IPv4 :=
  if pkt.length < 20 then none
  else if pkt.version ≠ 4 then none
  else if pkt.ihl < 20 ∨ pkt.length < pkt.ihl then none
  else some (pkt.address 16)

def uint16 (i : Nat) : UInt16 := (pkt.byte i).toUInt16 <<< 8 ||| (pkt.byte (i + 1)).toUInt16

/-- A port of the transport header, at an offset from the end of the IP header.
The protocol field is checked if one is given. -/
def extractPort (protocol : Option UInt8) (offset : Nat) : Option UInt16 :=
  if pkt.length < 20 then none
  else if pkt.version ≠ 4 then none
  else if protocol.any (· ≠ pkt.byte 9) then none
  else if pkt.ihl < 20 ∨ pkt.length < pkt.ihl + 4 then none
  else some (pkt.uint16 (pkt.ihl + offset))

/-- Alone of the four it does not look at the protocol. -/
def extractTCPDstPort : Option UInt16 := pkt.extractPort none 2

def extractTCPSrcPort : Option UInt16 := pkt.extractPort (some 6) 0

def extractUDPSrcPort : Option UInt16 := pkt.extractPort (some 17) 0

def extractUDPDstPort : Option UInt16 := pkt.extractPort (some 17) 2

/-- The game loop takes the port of a UDP packet for a TCP port. -/
theorem extractTCPDstPort_of_udp (h : pkt.extractUDPDstPort = some port) :
    pkt.extractTCPDstPort = some port := by
  simp only [extractUDPDstPort, extractPort, Option.ite_none_left_eq_some] at h
  obtain ⟨hlength, hversion, -, hihl, hport⟩ := h
  simp only [extractTCPDstPort, extractPort, if_neg hlength, if_neg hversion, Option.any_none,
    Bool.false_eq_true, if_false, if_neg hihl, hport]

end Packet

def isBroadcastOrMulticast (ip : IPv4) : Bool :=
  let first := ip >>> 24
  let last := ip &&& 0xff#32
  (0xe0#32 ≤ first && first ≤ 0xef#32) || ip = 0xffffffff#32 || last = 0xff#32 || ip = 0#32

/-! ## The echo reply -/

/-- The sum of the 16-bit words, with what an odd byte at the end adds to it. -/
def wordSum (odd : UInt8 → UInt32) : List UInt8 → UInt32
  | [] => 0
  | [b] => odd b
  | b :: b' :: rest => (b.toUInt32 <<< 8 ||| b'.toUInt32) + wordSum odd rest

def foldCarry (sum : UInt32) : UInt32 :=
  if 0xffff < sum then (sum >>> 16) + (sum &&& 0xffff) else sum

def icmpChecksum (data : List UInt8) : UInt16 :=
  ~~~(foldCarry (foldCarry (wordSum (fun b => b.toUInt32 <<< 8) data))).toUInt16

/-- A header has an even length, and an odd byte would be left out. -/
def ipv4Checksum (header : List UInt8) : UInt16 :=
  ~~~(foldCarry (foldCarry (wordSum (fun _ => 0) header))).toUInt16

def setWord (pkt : Packet) (i : Nat) (word : UInt16) : Packet :=
  (pkt.set i (word >>> 8).toUInt8).set (i + 1) (word &&& 0xff).toUInt8

def swapAddresses (pkt : Packet) : Packet :=
  pkt.take 12 ++ (pkt.drop 16).take 4 ++ (pkt.drop 12).take 4 ++ pkt.drop 20

def buildICMPEchoReply (req : Packet) : Option Packet :=
  if req.length < 28 then none
  else if req.version ≠ 4 then none
  else if req.ihl < 20 ∨ req.length < req.ihl + 8 then none
  else if req.byte 9 ≠ 1 then none
  else if req.byte req.ihl ≠ 8 then none
  else
    let icmpStart := req.ihl
    let resp := setWord ((swapAddresses req).set icmpStart 0) (icmpStart + 2) 0
    let resp := setWord resp (icmpStart + 2) (icmpChecksum (resp.drop icmpStart))
    let resp := setWord resp 10 0
    some (setWord resp 10 (ipv4Checksum (resp.take icmpStart)))

end Hy2Link.Server
