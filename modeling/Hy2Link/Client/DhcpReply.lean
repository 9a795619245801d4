import Hy2Link.EndpointText
import Hy2Link.Protocol
import Mathlib.Data.Finset.Basic

/-! # What the client makes of a DHCP reply

`Connect` reads the reply of the server once and takes its fields apart.  The
address and the mask are checked before anything else is read.
-/

namespace Hy2Link.Client

open Text

/-! ## The tunnel address -/

inductive TunnelError
  | badAddress (ip : List Char)
  | unspecified (ip : List Char)
  | multicast (ip : List Char)
  | broadcast (ip : List Char)
  | badMask (mask : List Char)
  | maskSize (mask : List Char) (ones : Nat)
deriving DecidableEq

def TunnelError.text : TunnelError → String
  | .badAddress ip => "无效的 IPv4 地址: " ++ quoted ip
  | .unspecified ip => "服务端下发了未指定地址: " ++ String.ofList ip
  | .multicast ip => "服务端下发了组播地址: " ++ String.ofList ip
  | .broadcast ip => "服务端下发了广播地址: " ++ String.ofList ip
  | .badMask mask => "无效的 IPv4 掩码: " ++ quoted mask
  | .maskSize mask ones =>
    "不合理的掩码: " ++ String.ofList mask ++ "（/" ++ toString ones ++
      "，仅接受 /8–/30 的连续掩码）"

def leadingOnes (n : Nat) : IPv4 := BitVec.ofNat 32 (2 ^ 32 - 2 ^ (32 - n))

/-- `net.IPMask.Size` of four bytes: the leading ones and the width, both 0 for
a mask that is not ones followed by zeros. -/
def maskSize (mask : IPv4) : Nat × Nat :=
  match (List.range 33).find? fun n => mask = leadingOnes n with
  | some ones => (ones, 32)
  | none => (0, 0)

def validateTunnelIPv4 (ip mask : List Char) : Except TunnelError Unit :=
  match parseTo4 ip with
  | none => .error (.badAddress ip)
  | some ip4 =>
    if ip4 = 0 then .error (.unspecified ip)
    else if ip4 >>> 28 = 0xe then .error (.multicast ip)
    else if ip4 = 0xffffffff then .error (.broadcast ip)
    else
      match parseTo4 mask with
      | none => .error (.badMask mask)
      | some mask4 =>
        let (ones, bits) := maskSize mask4
        if bits ≠ 32 || ones < 8 || 30 < ones then .error (.maskSize mask ones) else .ok ()

def ReasonableMask (mask : IPv4) : Prop := ∃ n, 8 ≤ n ∧ n ≤ 30 ∧ mask = leadingOnes n

theorem leadingOnes_injective : ∀ n ≤ 32, ∀ m ≤ 32, leadingOnes n = leadingOnes m → n = m := by
  decide +kernel

theorem maskSize_reasonable (mask : IPv4) :
    ((maskSize mask).2 = 32 ∧ 8 ≤ (maskSize mask).1 ∧ (maskSize mask).1 ≤ 30) ↔
      ReasonableMask mask := by
  unfold maskSize ReasonableMask
  split
  next ones hfind =>
    have hmask : mask = leadingOnes ones := by simpa using List.find?_some hfind
    have hones : ones < 33 := List.mem_range.1 (List.mem_of_find?_eq_some hfind)
    constructor
    · rintro ⟨-, hlow, hhigh⟩
      exact ⟨ones, hlow, hhigh, hmask⟩
    · rintro ⟨n, hlow, hhigh, hn⟩
      obtain rfl : n = ones := leadingOnes_injective n (by omega) ones (by omega) (hn ▸ hmask)
      exact ⟨rfl, hlow, hhigh⟩
  next hnone =>
    refine ⟨by simp, ?_⟩
    rintro ⟨n, -, hhigh, hn⟩
    rw [List.find?_eq_none] at hnone
    exact absurd (decide_eq_true hn) (hnone n (List.mem_range.2 (by omega)))

theorem validateTunnelIPv4_dotted (v mask : IPv4) :
    validateTunnelIPv4 (dotted v) (dotted mask) = .ok () ↔
      v ≠ 0 ∧ v >>> 28 ≠ 0xe ∧ v ≠ 0xffffffff ∧ ReasonableMask mask := by
  rw [← maskSize_reasonable]
  simp only [validateTunnelIPv4, parseTo4_dotted]
  split
  next h => simp [h]
  split
  next h => simp [h]
  split
  next h => simp [h]
  split
  next h =>
    simp only [Bool.or_eq_true, decide_eq_true_eq] at h
    simp only [reduceCtorEq, false_iff]
    omega
  next hzero hmulti hbroad h =>
    simp only [Bool.or_eq_true, decide_eq_true_eq, not_or] at h
    simp only [true_iff]
    exact ⟨hzero, hmulti, hbroad, by omega⟩

/-! ## Ports -/

/-- The bounds are of 16 bits in the code; both parsers refuse others. -/
structure PortRange where
  lo : Int
  hi : Int
deriving DecidableEq

def PortRange.contains (r : PortRange) (p : Int) : Bool := r.lo ≤ p && p ≤ r.hi

def defaultUDPMatchRanges : List PortRange := [⟨42300, 42800⟩]

def defaultUDPUnreliableRanges : List PortRange := [⟨50000, 50550⟩]

def parsePortRangeStr (s : List Char) : Option PortRange :=
  let s := trimSpace s
  if s = [] then none
  else
    match index '-' s with
    | some i =>
      match atoi (trimSpace (s.take i)), atoi (trimSpace (s.drop (i + 1))) with
      | some lo, some hi =>
        if lo < 1 || 65535 < hi || hi < lo then none else some ⟨lo, hi⟩
      | _, _ => none
    | none =>
      match atoi s with
      | some p => if p < 1 || 65535 < p then none else some ⟨p, p⟩
      | none => none

/-- `parsePortRanges`, whose first argument nothing reads. -/
def parsePortRanges (items : List (List Char)) : List PortRange :=
  items.filterMap fun it =>
    if trimSpace it = [] then none else parsePortRangeStr (trimSpace it)

/-- One item of a list of ports, skipped if it is not one. -/
def portNumber (s : List Char) : Option Int :=
  match atoi (trimSpace s) with
  | some n => if n < 1 || 65535 < n then none else some n
  | none => none

def portList (s : List Char) : List Int := (s.splitOn '|').filterMap portNumber

def rangeList (s : List Char) : List PortRange := parsePortRanges (s.splitOn '|')

/-! ## The fields of a reply -/

/-- A field of the reply without the space around it, if the reply has it. -/
def field (parts : List (List Char)) (i : Nat) : Option (List Char) := parts[i]?.map trimSpace

def parseP2PFlag (parts : List (List Char)) : Bool :=
  match field parts 10 with
  | none => false
  | some flag => equalFold flag "on".toList

def parseBuiltinSTUNPorts (parts : List (List Char)) : List Int :=
  match field parts 11 with
  | none => []
  | some raw => if raw = [] || equalFold raw "off".toList then [] else portList raw

structure DhcpSettings where
  ip : List Char
  mask : List Char
  serverSplitEnabled : Bool
  serverSplitPorts : Finset Int
  udpMatchRanges : List PortRange
  udpUnreliableRanges : List PortRange
  serverCertMode : List Char
  serverHostname : List Char
  p2pServerEnabled : Bool
  builtinSTUNPorts : List Int
deriving DecidableEq

/-- The ports of field 3 if field 2 is on, and the default if there are none. -/
def splitPorts (parts : List (List Char)) : Finset Int :=
  if field parts 2 = some "on".toList then
    let ports := ((parts[3]?.map portList).getD []).toFinset
    if ports = ∅ then {22345, 443} else ports
  else ∅

/-- The ranges of field `i + 1` if field `i` is on, and the default if there
are none. -/
def udpRanges (parts : List (List Char)) (i : Nat) (default : List PortRange) :
    List PortRange :=
  if field parts i = some "on".toList then
    match parts[i + 1]?.map rangeList with
    | none => []
    | some ranges => if ranges = [] then default else ranges
  else []

def filled (default : List Char) : Option (List Char) → List Char
  | none => default
  | some text => if text = [] then default else text

def settings (serverIPv4 ip mask : List Char) (parts : List (List Char)) : DhcpSettings where
  ip := ip
  mask := mask
  serverSplitEnabled := field parts 2 = some "on".toList
  serverSplitPorts := splitPorts parts
  udpMatchRanges := udpRanges parts 4 defaultUDPMatchRanges
  udpUnreliableRanges := udpRanges parts 6 defaultUDPUnreliableRanges
  serverCertMode := filled "selfsigned".toList (field parts 8)
  serverHostname := filled serverIPv4 (field parts 9)
  p2pServerEnabled := parseP2PFlag parts
  builtinSTUNPorts := parseBuiltinSTUNPorts parts

inductive ReplyError
  | invalid (response : List Char)
  | tunnel (error : TunnelError)
deriving DecidableEq

def ReplyError.text : ReplyError → String
  | .invalid response => "无效 DHCP 响应: " ++ String.ofList response
  | .tunnel error => error.text

/-- The size of the buffer that the reply is read into, once. -/
def replyBufferSize : Nat := 512

/-- `Connect` from the reading of the reply `line` to its last field. -/
def readReply (serverIPv4 line : List Char) : Except ReplyError DhcpSettings :=
  let response := trimSpace (takeBytes replyBufferSize line)
  let parts := response.splitOn ','
  match field parts 0, field parts 1 with
  | some ip, some mask =>
    match validateTunnelIPv4 ip mask with
    | .error error => .error (.tunnel error)
    | .ok () => .ok (settings serverIPv4 ip mask parts)
  | _, _ => .error (.invalid response)

end Hy2Link.Client
