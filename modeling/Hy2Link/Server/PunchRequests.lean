import Hy2Link.Server.Registry
import Hy2Link.Server.PunchTable

/-! # The checks of a punch request

`punch-intent` and `punch-ready` carry addresses that the peer will send to and
a fingerprint it will pin, besides the fields of a registration.  The checks
run before the punch table is touched.
-/

namespace Hy2Link.Server

open Text

def punchWindowDefaultMs : Int := 10000

def punchWindowMinMs : Int := 3000

def punchWindowMaxMs : Int := 15000

def maxPunchAddrs : Nat := 32

def clampPunchWindowMs (v : Int) : Int :=
  if v ≤ 0 then punchWindowDefaultMs
  else if v < punchWindowMinMs then punchWindowMinMs
  else if punchWindowMaxMs < v then punchWindowMaxMs
  else v

structure PunchMessage where
  attemptID : List Char
  peerVIP : List Char
  publicAddr : String
  natType : String
  metadata : String
  punchAddr : List Char
  punchAddrs : List (List Char)
  directFingerprint : List Char
  windowMs : Int
deriving DecidableEq

/-! ## Identifiers -/

/-- Why a text is not a row of hexadecimal digits of the right length. -/
inductive HexError
  | length (actual : Nat)
  | digit
deriving DecidableEq

/-- The shared body of the checks of an attempt id and of a fingerprint. -/
def validateHex (length : Nat) (s : List Char) : Except HexError Unit :=
  let actual := (String.ofList s).utf8ByteSize
  if actual ≠ length then .error (.length actual)
  else if s.all fun c => (hexDigit c).isSome then .ok ()
  else .error .digit

def validatePunchAttemptID (s : List Char) : Except HexError Unit := validateHex 16 (trimSpace s)

def validateDirectFingerprint (s : List Char) : Except HexError Unit :=
  validateHex 64 (trimSpace (s.map Char.toLower))

/-! ## Addresses -/

inductive PunchAddrError
  | empty
  | publicAddr (error : UpdateError)
  | form (detail : AddrError)
  | ip (host : List Char)
  | notPublic (host : List Char)
deriving DecidableEq

/-- The peer would be made to send there. -/
def unreachableFromOutside (ip : IP) : Bool :=
  ip.isPrivate || ip.isLoopback || ip.isLinkLocalUnicast || ip.isLinkLocalMulticast ||
    ip.isMulticast

def validatePunchAddr (s : List Char) (allowEmpty : Bool) : Except PunchAddrError Unit :=
  let addr := trimSpace s
  if addr = [] then if allowEmpty then .ok () else .error .empty
  else
    match validatePublicAddr (String.ofList addr) with
    | .error e => .error (.publicAddr e)
    | .ok () =>
      match splitHostPort addr with
      | .error detail => .error (.form detail)
      | .ok (host, _) =>
        match parseIP host with
        | none => .error (.ip host)
        | some ip => if unreachableFromOutside ip then .error (.notPublic host) else .ok ()

inductive PunchAddrsError
  | tooMany (actual : Nat)
  | item (index : Nat) (error : PunchAddrError)
  | duplicate (index : Nat) (addr : List Char)
  | mixed (group other : IP)
  | anchor (group : Option IP) (want : Option IP)
deriving DecidableEq

/-- The loop of `ValidatePunchAddrs`: `seen` are the addresses before, and
`group` is the IP they share.  The code compares the canonical texts of two
IPs, which are equal exactly when the IPs are. -/
def checkPunchAddrs : Nat → List (List Char) → Option IP → List (List Char) →
    Except PunchAddrsError (Option IP)
  | _, _, group, [] => .ok group
  | index, seen, group, raw :: rest =>
    let addr := trimSpace raw
    match validatePunchAddr addr false with
    | .error e => .error (.item index e)
    | .ok () =>
      if addr ∈ seen then .error (.duplicate index addr)
      else
        match splitHostPort addr with
        | .error detail => .error (.item index (.form detail))
        | .ok (host, _) =>
          match parseIP host with
          | none => .error (.item index (.ip host))
          | some ip =>
            match group with
            | none => checkPunchAddrs (index + 1) (addr :: seen) (some ip) rest
            | some shared =>
              if ip = shared then
                checkPunchAddrs (index + 1) (addr :: seen) (some shared) rest
              else .error (.mixed shared ip)

/-- An anchor that is not an IP matches no group. -/
def validatePunchAddrs (addrs : List (List Char)) (anchorIP : List Char) :
    Except PunchAddrsError Unit :=
  if addrs = [] then .ok ()
  else if maxPunchAddrs < addrs.length then .error (.tooMany addrs.length)
  else
    match checkPunchAddrs 0 [] none addrs with
    | .error e => .error e
    | .ok group =>
      let anchor := trimSpace anchorIP
      if anchor ≠ [] && group ≠ parseIP anchor then .error (.anchor group (parseIP anchor))
      else .ok ()

/-- The host of `punchAddr`, or the empty text. -/
def punchAddrIP (punchAddr : List Char) : List Char :=
  match splitHostPort (trimSpace punchAddr) with
  | .error _ => []
  | .ok (host, _) => host

/-! ## Requests -/

/-- Errors of the checks that need nothing but the request. -/
inductive RequestError
  | noClientIdentity
  | p2pDisabled
  | peerVIPRequired
  | cannotPunchSelf
  | attemptID (error : HexError)
  | punchAddr (error : PunchAddrError)
  | punchAddrs (error : PunchAddrsError)
  | directFingerprint (error : HexError)
  | report (error : UpdateError)
deriving DecidableEq

inductive PunchError
  | request (error : RequestError)
  | peerUnreachable
  | peerBusy
  | start (error : StartError)
  | peerNotReady
  | unknownAttempt
deriving DecidableEq

/-- The texts of the errors that quote no field. -/
def PunchError.reason : PunchError → Option String
  | .request .noClientIdentity => some "no client identity"
  | .request .p2pDisabled => some "p2p disabled"
  | .request .peerVIPRequired => some "peerVIP required"
  | .request .cannotPunchSelf => some "cannot punch self"
  | .request _ => none
  | .peerUnreachable => some "peer-unreachable"
  | .peerBusy => some "peer-busy"
  | .start e => some e.text
  | .peerNotReady => some "peer-not-ready"
  | .unknownAttempt => some "unknown-attempt"

/-- The two checks of the addresses, which both requests make. -/
def checkAddresses (allowEmpty : Bool) (msg : PunchMessage) : Except RequestError Unit := do
  (validatePunchAddr msg.punchAddr allowEmpty).mapError .punchAddr
  (validatePunchAddrs msg.punchAddrs (punchAddrIP msg.punchAddr)).mapError .punchAddrs

def validateSignalSelfFields (msg : PunchMessage) : Except RequestError Unit :=
  ((validateReport msg.publicAddr msg.natType msg.metadata).mapError .report).map fun _ => ()

def require (p : Prop) [Decidable p] (e : RequestError) : Except RequestError Unit :=
  if p then .ok () else .error e

/-- The checks of `handlePunchIntent` before it asks for the peer.  `open_`
tells whether there is a punch table. -/
def checkIntent (open_ : Bool) (vip : List Char) (msg : PunchMessage) :
    Except RequestError Unit := do
  require (vip ≠ []) .noClientIdentity
  require (open_ = true) .p2pDisabled
  require (trimSpace msg.peerVIP ≠ []) .peerVIPRequired
  require (trimSpace msg.peerVIP ≠ vip) .cannotPunchSelf
  (validatePunchAttemptID msg.attemptID).mapError .attemptID
  checkAddresses false msg
  (validateDirectFingerprint msg.directFingerprint).mapError .directFingerprint
  validateSignalSelfFields msg

def checkReady (open_ : Bool) (vip : List Char) (msg : PunchMessage) :
    Except RequestError Unit := do
  require (vip ≠ []) .noClientIdentity
  require (open_ = true) .p2pDisabled
  require (trimSpace msg.peerVIP ≠ []) .peerVIPRequired
  (validatePunchAttemptID msg.attemptID).mapError .attemptID
  checkAddresses true msg
  validateSignalSelfFields msg

/-! ## What an accepted request has passed -/

theorem check_bind_eq_ok {check : Except ε Unit} {f : Unit → Except ε α} {a : α} :
    (check >>= f) = .ok a ↔ check = .ok () ∧ f () = .ok a := by
  cases check <;> simp [bind, Except.bind]

theorem require_eq_ok [Decidable p] : require p e = .ok u ↔ p := by
  unfold require
  split <;> simp [*]

theorem mapError_eq_ok {x : Except ε α} {f : ε → ε'} {a : α} :
    x.mapError f = .ok a ↔ x = .ok a := by
  cases x <;> simp [Except.mapError]

variable {open_ : Bool} {vip : List Char} {msg : PunchMessage}

theorem validateSignalSelfFields_eq_ok :
    validateSignalSelfFields msg = .ok u ↔
      ∃ metadata, validateReport msg.publicAddr msg.natType msg.metadata = .ok metadata := by
  unfold validateSignalSelfFields
  cases validateReport msg.publicAddr msg.natType msg.metadata <;>
    simp [Except.map, Except.mapError]

theorem checkIntent_eq_ok :
    checkIntent open_ vip msg = .ok () ↔
      vip ≠ [] ∧ open_ = true ∧ trimSpace msg.peerVIP ≠ [] ∧ trimSpace msg.peerVIP ≠ vip ∧
        validatePunchAttemptID msg.attemptID = .ok () ∧ checkAddresses false msg = .ok () ∧
        validateDirectFingerprint msg.directFingerprint = .ok () ∧
        ∃ metadata, validateReport msg.publicAddr msg.natType msg.metadata = .ok metadata := by
  simp only [checkIntent, check_bind_eq_ok, require_eq_ok, mapError_eq_ok,
    validateSignalSelfFields_eq_ok]

end Hy2Link.Server
