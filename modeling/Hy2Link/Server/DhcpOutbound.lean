import Hy2Link.TunnelAddresses

/-! # The address service of the server

A client asks for its address over a connection that the server answers itself.
`Write` takes the request and allocates the address, and `Read` gives one line
with the address, the mask and the settings that the client takes over.
-/

namespace Hy2Link.Server

open Text

inductive CertMode
  | selfSigned
  | acme
deriving DecidableEq

def CertMode.text : CertMode → List Char
  | .selfSigned => "selfsigned".toList
  | .acme => "acme".toList

/-- `Announce` for the ports that the built-in STUN server has opened, none if
it was not started. -/
def announce (ports : List Int) : List Char :=
  if ports = [] then "off".toList else ['|'].intercalate (ports.map itoa)

structure DHCPOutbound where
  tcpSplitEnabled : Bool
  tcpSplitPorts : List Int
  udpReliableEnabled : Bool
  udpReliablePorts : List (List Char)
  udpUnreliableEnabled : Bool
  udpUnreliablePorts : List (List Char)
  certMode : List Char
  serverHostname : List Char
  p2pEnabled : Bool
  builtinSTUN : List Char
deriving DecidableEq

def newDHCPOutbound (c : Config.ServerConfig) (mode : CertMode) (hostname : List Char)
    (stunPorts : List Int) : DHCPOutbound where
  tcpSplitEnabled := c.tcpSplitEnabled
  tcpSplitPorts := c.tcpSplitPorts
  udpReliableEnabled := c.udpReliableEnabled
  udpReliablePorts := c.udpReliablePorts
  udpUnreliableEnabled := c.udpUnreliableEnabled
  udpUnreliablePorts := c.udpUnreliablePorts
  certMode := mode.text
  serverHostname := hostname
  p2pEnabled := c.p2pEnabled
  builtinSTUN := announce stunPorts

inductive DhcpError
  | invalidRequest
  | invalidCommand (cmd : List Char)
  | noAddressAvailable
  | noAddressAssigned
  | closed
deriving DecidableEq

def DhcpError.text : DhcpError → String
  | .invalidRequest => "invalid request"
  | .invalidCommand cmd => "invalid command: " ++ String.ofList cmd
  | .noAddressAvailable => "no IP available"
  | .noAddressAssigned => "no IP assigned"
  | .closed => "closed"

/-- `dhcpConn`; an address that is not set is the empty text. -/
structure DHCPConn where
  deviceID : List Char
  ip : List Char
  mask : List Char
  ready : Bool
  responded : Bool
  err : Option DhcpError
deriving DecidableEq

def newDHCPConn : DHCPConn := ⟨[], [], [], false, false, none⟩

/-! ## The reply -/

def onOff (enabled : Bool) : List Char := if enabled then "on".toList else "off".toList

def joined (enabled : Bool) (texts : List (List Char)) : List Char :=
  if enabled then ['|'].intercalate texts else []

namespace DHCPOutbound

def replyFields (o : DHCPOutbound) (ip mask : List Char) : List (List Char) :=
  [ip, mask,
    onOff o.tcpSplitEnabled, joined o.tcpSplitEnabled (o.tcpSplitPorts.map itoa),
    onOff o.udpReliableEnabled, joined o.udpReliableEnabled o.udpReliablePorts,
    onOff o.udpUnreliableEnabled, joined o.udpUnreliableEnabled o.udpUnreliablePorts,
    o.certMode, o.serverHostname, onOff o.p2pEnabled,
    if o.builtinSTUN = [] then "off".toList else o.builtinSTUN]

def response (o : DHCPOutbound) (ip mask : List Char) : List Char :=
  [','].intercalate (o.replyFields ip mask) ++ ['\n']

end DHCPOutbound

namespace DHCPConn

inductive Reading
  | eof
  | waiting
  | failed (err : DhcpError)
  | line (text : List Char)
deriving DecidableEq

/-- `Read` with a buffer that the line fits in, which that of the relay loop
does; `waiting` is a call that blocks on the condition. -/
def read (conn : DHCPConn) (o : DHCPOutbound) : Reading × DHCPConn :=
  if conn.responded then (.eof, conn)
  else
    match conn.err with
    | some err => (.failed err, conn)
    | none =>
      if !conn.ready then (.waiting, conn)
      else if conn.ip = [] then (.failed .noAddressAssigned, conn)
      else (.line (o.response conn.ip conn.mask),
        { conn with responded := true, ready := false })

/-! ## The request -/

/-- The device that a request names; a request without one gets a name from
the clock. -/
def requestDevice (nano : Nat) (b : List Char) : Except DhcpError (List Char) :=
  let data := trimSpace b
  if data.contains '\n' then
    match splitN '\n' 2 data with
    | [device, cmd] =>
      if trimSpace cmd = "REQUEST_IP".toList then .ok (trimSpace device)
      else .error (.invalidCommand (trimSpace cmd))
    | _ => .error .invalidRequest
  else if data = "REQUEST_IP".toList then .ok ("client-".toList ++ Nat.toDigits 10 nano)
  else .error (.invalidCommand data)

/-- `Write` at the time `now`, with the clock at `nano`. -/
def write (conn : DHCPConn) (service : Config.AddressService) (now : Time) (nano : Nat)
    (b : List Char) : DHCPConn × Config.AddressService :=
  match requestDevice nano b with
  | .error err => ({ conn with err := some err }, service)
  | .ok device =>
    let conn := { conn with deviceID := device }
    let result := service.pool.allocator.allocateByDeviceID now (String.ofList device)
    let pool := service.pool.call now (.allocateByDeviceID (String.ofList device))
    let service := { service with pool := pool }
    match result.1 with
    | none => ({ conn with err := some .noAddressAvailable }, service)
    | some vip =>
      ({ conn with ip := dotted vip, mask := service.getSubnetMask, ready := true }, service)

def close (conn : DHCPConn) : DHCPConn := { conn with err := some .closed }

structure Leased (conn : DHCPConn) (vip mask : IPv4) : Prop where
  ip : conn.ip = dotted vip
  mask : conn.mask = dotted mask
  ready : conn.ready = true
  responded : conn.responded = false
  err : conn.err = none

/-- A `Write` that succeeds leaves the address that the allocator gives the device. -/
theorem leased_of_write (conn : DHCPConn) (hresponded : conn.responded = false)
    (hok : (conn.write service now nano request).1.err = none) :
    ∃ device vip,
      (service.pool.allocator.allocateByDeviceID now (String.ofList device)).1 = some vip ∧
      (conn.write service now nano request).1.Leased vip service.subnetMask := by
  revert hok
  unfold write
  split
  · exact nofun
  next device _ =>
    dsimp only
    split
    · exact nofun
    next vip hvip =>
      exact fun herr => ⟨device, vip, hvip, rfl, rfl, rfl, hresponded, herr⟩

theorem Leased.read {conn : DHCPConn} {vip mask : IPv4} (h : conn.Leased vip mask)
    (hip : dotted vip ≠ []) (o : DHCPOutbound) :
    (conn.read o).1 = .line (o.response (dotted vip) (dotted mask)) := by
  unfold DHCPConn.read
  rw [h.responded, h.err, h.ready, h.ip, h.mask]
  simp [hip]

end DHCPConn

end Hy2Link.Server
