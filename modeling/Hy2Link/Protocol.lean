import Mathlib.Data.List.Basic

/-! # Names shared by the client and the server

Times are nanoseconds since a fixed origin.  The message types of the
signalling stream fall into requests, responses and pushes; both sides hold
the same three lists.
-/

namespace Hy2Link

abbrev Time := Nat

def second : Time := 1000000000

def minute : Time := 60 * second

/-- An IPv4 address; the virtual address of a client is one. -/
abbrev IPv4 := BitVec 32

/-- One end of a QUIC connection, as the handlers identify it by its pointer. -/
abbrev ConnId := Nat

inductive MsgType
  | register | registered | peer | error
  | punchIntent | punchReady | punchInvite | punchPeer | punchBusy
  | peers | peersList
  | unknown (name : String)
deriving DecidableEq

def signalRequestTypes : List MsgType := [.register, .punchIntent, .punchReady, .peers]

def signalResponseTypes : List MsgType := [.registered, .peer, .error, .peersList]

end Hy2Link
