import Hy2Link.Interleaving.System
import Hy2Link.Protocol

/-! # The client's signalling stream

One client holds at most one signalling stream on its control connection.
`signalRoundTripCtx` serialises the requests, `ensureSignalStreamLocked` opens
the stream and writes a wake-up `register` frame that nobody waits for, and
the resident `signalReadLoop` hands every response-typed message to the one
waiting slot.  The protocol carries no request id: a `Message` here remembers
the frame it answers, but no client operation reads that field.

The server is part of the environment.  It handles the frames of a stream in
order, answers each with exactly one response, and may push in between.
-/

namespace Hy2Link.Client.SignalStream

abbrev CallId := Nat
abbrev StreamId := Nat

def signalReopenCooldown : Time := 30 * second

/-- A frame the client wrote.  A call writes at most one wake-up frame and at
most one request frame, so the two constructors identify every frame. -/
inductive Frame
  | wakeUp (call : CallId)
  | request (call : CallId)
deriving DecidableEq

structure Message where
  type : MsgType
  error : String
  answers : Option Frame
deriving DecidableEq

def Message.isResponseType (m : Message) : Bool := signalResponseTypes.contains m.type

inductive CallError
  | natPending | coolingDown | p2pDisabled | noCtrlConn | openFailed | firstRegisterFailed
  | notEstablished | writeFailed | timeout | streamClosed | connClosed | cancelled
  | refused (reply : Message)
deriving DecidableEq

abbrev Outcome := Except CallError Message

/-- `readable` is lost by `CancelRead` and by a failed read; afterwards the
reader of the stream obtains no further message. -/
structure Stream where
  published : Bool
  readable : Bool
  writable : Bool
  toServer : List Frame
  toClient : List Message
  genClosed : Bool

def Stream.opened : Stream := ⟨false, true, true, [], [], false⟩

inductive Thread
  | call (n : CallId)
  | reader (k : StreamId)
  | closer (n : Nat)
deriving DecidableEq

/-- `signalStream` stands for the pair `signalStream`/`signalGen`, which the
code always writes together.  `slots` holds the one-element buffers of the
channels the calls wait on; `signalPending` names the channel by its call. -/
structure Shared where
  now : Time
  selfInfo : Bool
  p2pEffective : Bool
  ctrlConn : Bool
  ctrlDone : Bool
  signalReqMu : Option Thread
  signalOpenMu : Option Thread
  nextStream : StreamId
  streams : Interleaving.Table StreamId Stream
  signalStream : Option StreamId
  signalPending : Option CallId
  signalDeadUntil : Option Time
  slots : Interleaving.Table CallId Message

def Shared.setStream (s : Shared) (k : StreamId) (stream : Stream) : Shared :=
  { s with streams := s.streams.insert k stream }

inductive Op : Type → Type
  | lockReq : Op Unit
  | unlockReq : Op Unit
  | signalSelfInfo : Op Bool
  | lockOpen : Op Unit
  | unlockOpen : Op Unit
  | loadStream : Op (Bool × Option Time)
  | clock : Op Time
  | p2pEffective : Op Bool
  | loadCtrlConn : Op Bool
  | openStream : Op StreamId
  | openFails : Op Unit
  | publish (k : StreamId) : Op Unit
  | write (k : StreamId) (frame : Frame) : Op Unit
  | writeFails (k : StreamId) (frame : Frame) (sent : Bool) : Op Unit
  | install (n : CallId) : Op (Option StreamId)
  | receive (n : CallId) : Op Message
  | expire : Op Unit
  | awaitGen (k : StreamId) : Op Unit
  | awaitCtrlDone : Op Unit
  | clearSlot (n : CallId) : Op Unit
  | detach : Op (Option StreamId)
  | cancelRead (k : StreamId) : Op Unit
  | clearCooldown : Op Unit
  | readFrame (k : StreamId) : Op Message
  | readFails (k : StreamId) : Op Unit
  | takeSlot : Op (Option CallId)
  | deliver (n : CallId) (m : Message) : Op Unit
  | retire (k : StreamId) : Op Unit
  | closeGen (k : StreamId) : Op Unit

def exec {Result : Type} (t : Thread) (s : Shared) : Op Result → Option (Shared × Result)
  | .lockReq => if s.signalReqMu = none then some ({ s with signalReqMu := some t }, ()) else none
  | .unlockReq => some ({ s with signalReqMu := none }, ())
  | .signalSelfInfo => some (s, s.selfInfo)
  | .lockOpen =>
    if s.signalOpenMu = none then some ({ s with signalOpenMu := some t }, ()) else none
  | .unlockOpen => some ({ s with signalOpenMu := none }, ())
  | .loadStream => some (s, (s.signalStream.isSome, s.signalDeadUntil))
  | .clock => some (s, s.now)
  | .p2pEffective => some (s, s.p2pEffective)
  | .loadCtrlConn => some (s, s.ctrlConn)
  | .openStream =>
    some ({ s.setStream s.nextStream .opened with nextStream := s.nextStream + 1 }, s.nextStream)
  | .openFails => some (s, ())
  | .publish k =>
    (s.streams.lookup k).map fun stream =>
      ({ s.setStream k { stream with published := true } with
        signalStream := some k
        signalDeadUntil := none }, ())
  | .write k frame =>
    (s.streams.lookup k).bind fun stream =>
      if stream.writable then
        some (s.setStream k { stream with toServer := stream.toServer ++ [frame] }, ())
      else none
  -- A failing write may nevertheless have handed its frame to the connection.
  | .writeFails k frame sent =>
    (s.streams.lookup k).map fun stream =>
      if sent && stream.writable then
        (s.setStream k { stream with toServer := stream.toServer ++ [frame] }, ())
      else (s, ())
  | .install n =>
    match s.signalStream with
    | none => some (s, none)
    | some k => some ({ s with signalPending := some n }, some k)
  | .receive n => (s.slots.lookup n).map fun m => ({ s with slots := s.slots.erase n }, m)
  | .expire => some (s, ())
  | .awaitGen k =>
    (s.streams.lookup k).bind fun stream => if stream.genClosed then some (s, ()) else none
  | .awaitCtrlDone => if s.ctrlDone then some (s, ()) else none
  | .clearSlot n =>
    some ({ s with
      signalPending := if s.signalPending = some n then none else s.signalPending }, ())
  | .detach => some ({ s with signalStream := none, signalPending := none }, s.signalStream)
  | .cancelRead k =>
    (s.streams.lookup k).map fun stream =>
      (s.setStream k { stream with readable := false, writable := false }, ())
  | .clearCooldown => some ({ s with signalDeadUntil := none }, ())
  | .readFrame k =>
    (s.streams.lookup k).bind fun stream =>
      match stream.readable, stream.toClient with
      | true, m :: rest => some (s.setStream k { stream with toClient := rest }, m)
      | _, _ => none
  | .readFails k =>
    (s.streams.lookup k).map fun stream => (s.setStream k { stream with readable := false }, ())
  | .takeSlot => some ({ s with signalPending := none }, s.signalPending)
  -- The channel holds one message; a send into a full channel is dropped.
  | .deliver n m =>
    if n ∈ s.slots then some (s, ()) else some ({ s with slots := s.slots.insert n m }, ())
  | .retire k =>
    (s.streams.lookup k).map fun stream =>
      let s := s.setStream k { stream with writable := false }
      if s.signalStream = some k then
        ({ s with
          signalStream := none
          signalDeadUntil := some (s.now + signalReopenCooldown) }, ())
      else (s, ())
  | .closeGen k =>
    (s.streams.lookup k).map fun stream => (s.setStream k { stream with genClosed := true }, ())

/-- Where `closeSignalStreamLocked` returns to. -/
inductive Return
  | wakeUp
  | exchange (e : CallError)
  | external
deriving DecidableEq

/-- The control points of the three goroutines.  Each names the operation
that is performed next. -/
inductive Local
  -- `signalRoundTripCtx` up to the end of `ensureSignalStream`
  | lockReq | selfInfo | lockOpen | loadStream
  | cooldown (deadUntil : Option Time)
  | p2pEffective | loadCtrlConn | openStream
  | publish (k : StreamId)
  | wakeUp (k : StreamId)
  | unlockOpen (failed : Option CallError)
  -- `signalExchange`
  | install
  | write (k : StreamId)
  | wait (k : StreamId)
  | resetLock (e : CallError)
  | resetUnlock (e : CallError)
  | clearSlot (r : Outcome)
  | unlockReq (r : Outcome)
  | returned (r : Outcome)
  -- `closeSignalStreamLocked`
  | detach (back : Return)
  | cancelRead (k : StreamId) (back : Return)
  | awaitReader (k : StreamId) (back : Return)
  | clearCooldown (back : Return)
  -- `signalReadLoop`
  | reading
  | holding (m : Message)
  | delivering (n : CallId) (m : Message)
  | retiring | closingGen | stopped
  -- `closeSignalStream`, called by `Close` and `cleanupPartial`
  | closeLock | closeUnlock | closed
deriving DecidableEq

/-- `fail` is a call that returns an error, `timeout` a timer that fires
(`signalExchangeWait`, `signalCloseWait`), `cancel` the caller's context. -/
inductive Choice
  | proceed
  | fail (sent : Bool)
  | timeout | genClosed | ctrlClosed | cancel
deriving DecidableEq

def Return.resume : Return → Local
  | .wakeUp => .unlockOpen (some .firstRegisterFailed)
  | .exchange e => .resetUnlock e
  | .external => .closeUnlock

/-- The result of `signalExchange` on a message taken from its slot. -/
def outcomeOf (m : Message) : Outcome :=
  if m.type = .error then .error (.refused m) else .ok m

def closeSignalStreamLocked : Local → Choice → Option (Interleaving.Request Op Local)
  | .detach back, .proceed =>
    some ⟨.detach, fun stream => stream.elim back.resume fun k => .cancelRead k back⟩
  | .cancelRead k back, .proceed => some ⟨.cancelRead k, fun _ => .awaitReader k back⟩
  | .awaitReader k back, .genClosed => some ⟨.awaitGen k, fun _ => .clearCooldown back⟩
  | .awaitReader _ back, .timeout => some ⟨.expire, fun _ => .clearCooldown back⟩
  | .clearCooldown back, .proceed => some ⟨.clearCooldown, fun _ => back.resume⟩
  | _, _ => none

def signalRoundTripCtx (n : CallId) : Local → Choice → Option (Interleaving.Request Op Local)
  | .lockReq, .proceed => some ⟨.lockReq, fun _ => .selfInfo⟩
  | .selfInfo, .proceed =>
    some ⟨.signalSelfInfo, fun ok => if ok then .lockOpen else .unlockReq (.error .natPending)⟩
  | .lockOpen, .proceed => some ⟨.lockOpen, fun _ => .loadStream⟩
  | .loadStream, .proceed =>
    some ⟨.loadStream, fun r => if r.1 then .unlockOpen none else .cooldown r.2⟩
  | .cooldown deadUntil, .proceed =>
    some ⟨.clock, fun now =>
      if deadUntil.any (fun t => now < t) then .unlockOpen (some .coolingDown)
      else .p2pEffective⟩
  | .p2pEffective, .proceed =>
    some ⟨.p2pEffective, fun on =>
      if on then .loadCtrlConn else .unlockOpen (some .p2pDisabled)⟩
  | .loadCtrlConn, .proceed =>
    some ⟨.loadCtrlConn, fun up => if up then .openStream else .unlockOpen (some .noCtrlConn)⟩
  | .openStream, .proceed => some ⟨.openStream, fun k => .publish k⟩
  | .openStream, .fail _ => some ⟨.openFails, fun _ => .unlockOpen (some .openFailed)⟩
  | .publish k, .proceed => some ⟨.publish k, fun _ => .wakeUp k⟩
  | .wakeUp k, .proceed => some ⟨.write k (.wakeUp n), fun _ => .unlockOpen none⟩
  | .wakeUp k, .fail sent => some ⟨.writeFails k (.wakeUp n) sent, fun _ => .detach .wakeUp⟩
  | .unlockOpen failed, .proceed =>
    some ⟨.unlockOpen, fun _ => failed.elim .install fun e => .unlockReq (.error e)⟩
  | .install, .proceed =>
    some ⟨.install n, fun stream => stream.elim (.unlockReq (.error .notEstablished)) .write⟩
  | .write k, .proceed => some ⟨.write k (.request n), fun _ => .wait k⟩
  | .write k, .fail sent => some ⟨.writeFails k (.request n) sent, fun _ => .resetLock .writeFailed⟩
  | .wait _, .proceed => some ⟨.receive n, fun m => .clearSlot (outcomeOf m)⟩
  | .wait _, .timeout => some ⟨.expire, fun _ => .resetLock .timeout⟩
  | .wait k, .genClosed => some ⟨.awaitGen k, fun _ => .clearSlot (.error .streamClosed)⟩
  | .wait _, .ctrlClosed => some ⟨.awaitCtrlDone, fun _ => .clearSlot (.error .connClosed)⟩
  -- The caller's cancellation keeps the stream; only the slot is given back.
  | .wait _, .cancel => some ⟨.expire, fun _ => .clearSlot (.error .cancelled)⟩
  | .resetLock e, .proceed => some ⟨.lockOpen, fun _ => .detach (.exchange e)⟩
  | .resetUnlock e, .proceed => some ⟨.unlockOpen, fun _ => .clearSlot (.error e)⟩
  | .clearSlot r, .proceed => some ⟨.clearSlot n, fun _ => .unlockReq r⟩
  | .unlockReq r, .proceed => some ⟨.unlockReq, fun _ => .returned r⟩
  | l, choice => closeSignalStreamLocked l choice

/-- The step of `signalReadLoop` and `dispatchSignalMessage` on stream `k`. -/
def signalReadLoop (k : StreamId) : Local → Choice → Option (Interleaving.Request Op Local)
  | .reading, .proceed => some ⟨.readFrame k, fun m => .holding m⟩
  | .reading, .fail _ => some ⟨.readFails k, fun _ => .retiring⟩
  | .holding m, .proceed =>
    if m.isResponseType then
      some ⟨.takeSlot, fun slot => slot.elim .reading fun n => .delivering n m⟩
    else some ⟨.expire, fun _ => .reading⟩
  | .delivering n m, .proceed => some ⟨.deliver n m, fun _ => .reading⟩
  | .retiring, .proceed => some ⟨.retire k, fun _ => .closingGen⟩
  | .closingGen, .proceed => some ⟨.closeGen k, fun _ => .stopped⟩
  | _, _ => none

def closeSignalStream : Local → Choice → Option (Interleaving.Request Op Local)
  | .closeLock, .proceed => some ⟨.lockOpen, fun _ => .detach .external⟩
  | .closeUnlock, .proceed => some ⟨.unlockOpen, fun _ => .closed⟩
  | l, choice => closeSignalStreamLocked l choice

def control : Thread → Local → Choice → Option (Interleaving.Request Op Local)
  | .call n => signalRoundTripCtx n
  | .reader k => signalReadLoop k
  | .closer _ => closeSignalStream

/-- What happens outside the client's goroutines: time, the facts the guards
of `ensureSignalStream` read, and the server on the other end of a stream. -/
inductive Event
  | tick (elapsed : Time)
  | setSelfInfo (known : Bool)
  | setP2PEffective (on : Bool)
  | setCtrlConn (up : Bool)
  | ctrlDone
  | reply (k : StreamId) (type : MsgType) (error : String)
  | push (k : StreamId) (type : MsgType)
deriving DecidableEq

def environment (s : Shared) : Event → Option Shared
  | .tick elapsed => some { s with now := s.now + elapsed }
  | .setSelfInfo known => some { s with selfInfo := known }
  | .setP2PEffective on => some { s with p2pEffective := on }
  | .setCtrlConn up => some { s with ctrlConn := up }
  | .ctrlDone => some { s with ctrlDone := true }
  | .reply k type error =>
    (s.streams.lookup k).bind fun stream =>
      match stream.toServer with
      | [] => none
      | frame :: rest =>
        if type ∈ signalResponseTypes then
          some (s.setStream k { stream with
            toServer := rest
            toClient := stream.toClient ++ [⟨type, error, some frame⟩] })
        else none
  | .push k type =>
    (s.streams.lookup k).bind fun stream =>
      if type ∈ signalResponseTypes then none
      else some (s.setStream k { stream with
        toClient := stream.toClient ++ [⟨type, "", none⟩] })

abbrev Config := Interleaving.Config Thread Shared Local
abbrev Action := Interleaving.Action Thread Local Choice Event

/-- Calls and closers start at any time; the reader of a stream is started
once, after the stream has been published. -/
def spawnable (cfg : Config) : Thread → Local → Bool
  | .call _, .lockReq => true
  | .reader k, .reading => (cfg.shared.streams.lookup k).any Stream.published
  | .closer _, .closeLock => true
  | _, _ => false

def system : Interleaving.System Thread Shared Local Choice Event Op :=
  ⟨exec, control, spawnable, environment⟩

def initial : Config where
  shared :=
    { now := 0, selfInfo := false, p2pEffective := false, ctrlConn := false, ctrlDone := false
      signalReqMu := none, signalOpenMu := none, nextStream := 0
      streams := ∅, signalStream := none, signalPending := none
      signalDeadUntil := none, slots := ∅ }
  threads := ∅

end Hy2Link.Client.SignalStream
