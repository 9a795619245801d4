import Hy2Link.EndpointText
import Mathlib.Data.List.Sort
import Mathlib.Data.List.Dedup

/-! # The addresses a punch session advertises

A session asks STUN servers for the endpoints of its socket, normalises the
list and, behind a symmetric NAT, adds ports that the NAT is likely to use
next.  `punch-intent` and `punch-ready` carry the first candidate as
`punchAddr` and all of them as `punchAddrs`.
-/

namespace Hy2Link.Client

open Text

/-- `netip.Addr`: the zero value is no address. -/
inductive Addr
  | zero
  | v4 (ip : BitVec 32)
  | v6 (ip : IP)
deriving DecidableEq

structure AddrPort where
  addr : Addr
  port : Nat
deriving DecidableEq

def maxPunchAddrs : Nat := 32

def predictPortWindow : Nat := 16

def predictExtraPorts : Nat := 16

/-- `Unmap` followed by `Is4`. -/
def Addr.is4 : Addr → Option (BitVec 32)
  | .zero => none
  | .v4 ip => some ip
  | .v6 ip => ip.to4

def AddrPort.endpoint (a : AddrPort) : Option Endpoint :=
  if a.port = 0 then none else a.addr.is4.map fun ip => ⟨ip, a.port⟩

def AddrPort.ofEndpoint (e : Endpoint) : AddrPort := ⟨.v4 e.ip, e.port⟩

/-- The order of the candidates: by address and then by port. -/
def precedes (a b : Endpoint) : Bool :=
  a.ip.toNat < b.ip.toNat || (a.ip = b.ip && a.port ≤ b.port)

/-- The code drops later duplicates and sorts; which duplicate stays is not
seen after the sort. -/
def normalizePunchAddrs (addrs : List AddrPort) : List Endpoint :=
  (((addrs.filterMap AddrPort.endpoint).dedup).insertionSort
    fun a b => precedes a b = true).take maxPunchAddrs

/-! ## Prediction of ports -/

def portStep (ports : List Nat) : Nat :=
  let gaps := (List.zipWith (fun later earlier => later - earlier) ports.tail ports).filter (· ≠ 0)
  match gaps with
  | [] => 1
  | gap :: rest => rest.foldl min gap

/-- The closure `add`; the list is full at `maxPunchAddrs`. -/
def addPort (out : List Nat) (port : Nat) : List Nat :=
  if port = 0 || 65535 < port || maxPunchAddrs ≤ out.length || port ∈ out then out
  else out ++ [port]

/-- The ports of `for p := first; p <= last; p += step`.  The loops of the code
also stop when the list is full, where `add` does nothing. -/
def portRange (first last step : Nat) : List Nat :=
  if first ≤ last then List.range' first ((last - first) / step + 1) step else []

/-- The four loops over the ports: the range of the observed ones, some more
above it, the observed ones themselves, and the next ones from the smallest. -/
def predictPorts (ports : List Nat) (minPort maxPort : Nat) : List Nat :=
  let single := ports.length = 1
  let step := portStep ports
  let last := if single then minPort + predictPortWindow - 1 else maxPort + 4
  let extraLast := if single then minPort + predictPortWindow + predictExtraPorts
    else maxPort + 4 + predictExtraPorts
  let tries := portRange minPort last step ++ portRange (last + step) extraLast step ++ ports ++
    portRange minPort (minPort + maxPunchAddrs) 1
  (tries.foldl addPort []).insertionSort fun a b => a ≤ b

/-- `noPredict` is the switch `HY2_NO_PORT_PREDICT`. -/
def predictSymmetricCandidates (noPredict : Bool) (addrs : List AddrPort) : List Endpoint :=
  match normalizePunchAddrs addrs with
  | [] => []
  | first :: rest =>
    let obs := first :: rest
    if noPredict || rest.any fun e => e.ip ≠ first.ip then obs
    else
      let maxPort := (obs.getLast?.map Endpoint.port).getD first.port
      (predictPorts (obs.map Endpoint.port) first.port maxPort).map fun p => ⟨first.ip, p⟩

def natSymmetric : String := "symmetric"

def candidatesForNATType (noPredict : Bool) (natType : String) (addrs : List AddrPort) :
    List Endpoint :=
  if natType ≠ natSymmetric then normalizePunchAddrs addrs
  else
    match predictSymmetricCandidates noPredict addrs with
    | [] => normalizePunchAddrs addrs
    | got => got

/-! ## The fields of the messages -/

/-- `netip.AddrPort.String` of the first candidate; without a candidate it is
the zero value that is printed. -/
def punchAddrText : Option Endpoint → List Char
  | some e => e.text
  | none => "invalid AddrPort".toList

/-- The switches that turn the prediction off: the environment's and the
manager's. -/
structure Prediction where
  envOff : Bool
  managerOff : Bool
deriving DecidableEq

/-- The candidates of `runInitiator`, after a discovery that has found some. -/
def initiatorCandidates (off : Prediction) (natType : String) (addrs : List AddrPort) :
    List Endpoint :=
  let observed := normalizePunchAddrs addrs
  let adv := if off.managerOff then observed
    else candidatesForNATType off.envOff natType (observed.map .ofEndpoint)
  if adv = [] then observed else adv

/-- The candidates of `runResponder`; a discovery without result leaves none. -/
def responderCandidates (off : Prediction) (natType : String) (addrs : List AddrPort) :
    List Endpoint :=
  if addrs = [] then []
  else if off.managerOff then normalizePunchAddrs addrs
  else candidatesForNATType off.envOff natType addrs

structure AddressFields where
  punchAddr : List Char
  punchAddrs : List (List Char)
deriving DecidableEq

def addressFields (candidates : List Endpoint) : AddressFields :=
  ⟨punchAddrText candidates.head?, candidates.map Endpoint.text⟩

/-! ## The fields at the receiver -/

/-- `netip.ParseAddr`.  The zone of an IPv6 address is not kept: it is dropped
with the addresses that are not IPv4. -/
def parseAddr (s : List Char) : Option Addr :=
  match s.find? fun c => c = '.' || c = ':' || c = '%' with
  | some '.' => (parseIPv4 s).map .v4
  | some ':' =>
    match index '%' s with
    | none => (parseIPv6 s).map .v6
    | some i => if s.drop (i + 1) = [] then none else (parseIPv6 (s.take i)).map .v6
  | _ => none

def splitAddrPort (s : List Char) : Option (List Char × List Char × Bool) :=
  match lastIndex [':'] s with
  | none => none
  | some i =>
    let ip := s.take i
    let port := s.drop (i + 1)
    if ip = [] || port = [] then none
    else if ip.head? = some '[' then
      if ip.length < 2 || ip.getLast? ≠ some ']' then none
      else some ((ip.drop 1).dropLast, port, true)
    else some (ip, port, false)

/-- `strconv.ParseUint` to the base 10 and of 16 bits. -/
def parseUint16 (s : List Char) : Option Nat := (decimal s).filter (· ≤ 65535)

/-- `netip.ParseAddrPort`: brackets are for IPv6 addresses, and only for these. -/
def parseAddrPort (s : List Char) : Option AddrPort :=
  match splitAddrPort s with
  | none => none
  | some (ip, port, v6) =>
    (parseUint16 port).bind fun port =>
      match parseAddr ip, v6 with
      | some (.v4 ip), false => some ⟨.v4 ip, port⟩
      | some (.v6 ip), true => some ⟨.v6 ip, port⟩
      | _, _ => none

/-- The empty text is accepted and gives the zero value. -/
def parsePunchAddr (s : List Char) : Option AddrPort :=
  if trimSpace s = [] then some ⟨.zero, 0⟩ else parseAddrPort (trimSpace s)

def Addr.unmap : Addr → Addr
  | .v6 ip => match ip.to4 with
    | some v => .v4 v
    | none => .v6 ip
  | addr => addr

def keepPunchAddrs : List AddrPort → List (List Char) → List AddrPort
  | out, [] => out
  | out, s :: rest =>
    match parsePunchAddr s with
    | none => keepPunchAddrs out rest
    | some ap =>
      if ap.addr = .zero || ap.port = 0 then keepPunchAddrs out rest
      else
        let ap : AddrPort := ⟨ap.addr.unmap, ap.port⟩
        if ap ∈ out then keepPunchAddrs out rest else keepPunchAddrs (out ++ [ap]) rest

def parsePunchAddrs (list : List (List Char)) : List Endpoint :=
  normalizePunchAddrs (keepPunchAddrs [] list)

end Hy2Link.Client
