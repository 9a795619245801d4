import Hy2Link.Interleaving.System
import Hy2Link.Server.Allocator
import Hy2Link.Server.Registry
import Hy2Link.Server.Store

/-! # The server

The goroutines of the server over its tables.  Every goroutine is a sequence
of sections under one of the mutexes (authenticator, allocator, shards,
clientStream pointers, registry), and one step is one section.  What happens
outside the server (a client that closes its connection, a kick, an expiring
lease, an administrator) are events that may come between any two steps.
-/

namespace Hy2Link.Server

open Interleaving

structure Shared where
  now : Time
  alloc : IPAllocator
  auth : AuthTables
  data : DataTables
  signal : SignalTables
  users : Store

/-- The operations that only look: `time.Now` and `Store.Get`. -/
inductive ReadOp : Type → Type
  | clock : ReadOp Time
  | getUser (username : String) : ReadOp (Option User)

inductive Op (Result : Type)
  | read (op : ReadOp Result)
  | alloc (op : IPAllocator.Op Result)
  | auth (op : AuthOp Result)
  | data (op : DataOp Result)
  | signal (op : SignalOp Result)

def Shared.read (s : Shared) {Result : Type} : ReadOp Result → Result
  | .clock => s.now
  | .getUser username => s.users.lookup username

def exec {Result : Type} (t : Thread) (s : Shared) : Op Result → Option (Shared × Result)
  | .read op => some (s, s.read op)
  | .alloc op => some ({ s with alloc := (s.alloc.exec s.now op).1 }, (s.alloc.exec s.now op).2)
  | .auth op => (s.auth.exec t s.now op).map fun r => ({ s with auth := r.1 }, r.2)
  | .data op => (s.data.exec op).map fun r => ({ s with data := r.1 }, r.2)
  | .signal op =>
    some ({ s with signal := (s.signal.exec s.now op).1 }, (s.signal.exec s.now op).2)

/-! ## Plane connections -/

/-- The program points of `handleDataConn` and `handleCtrlConn` after the
registration frame has been read.  A point that carries a clientStream is in
the handler of the bulk or of an auxiliary plane that works on it. -/
inductive PlanePC
  | start
  | authorize (now : Time)
  | isLeased (now : Time)
  | claimOwner (now : Time)
  | markActive
  | unlock (ok : Bool)
  | accept
  | markLease
  | lookup
  | staleConn (stale : StreamId)
  | unregisterStale (stale : StreamId) (conn : Option ConnId)
  | snapshotStale (stale : StreamId)
  | closeStale (conn : ConnId) (rest : List ConnId)
  | oldConn (cs : StreamId)
  | closeOld (cs : StreamId) (old : ConnId)
  | setBulk (cs : StreamId)
  | register
  | online (cs : StreamId)
  | serving (cs : StreamId)
  | unregister (cs : StreamId)
  | releaseVIP (cs : StreamId)
  | releaseSession (cs : StreamId)
  | offline (cs : StreamId)
  | snapshot (cs : StreamId)
  | closing (cs : StreamId) (conn : ConnId) (rest : List ConnId)
  | await (tries : Nat)
  | acknowledge (cs : StreamId)
  | setAux (cs : StreamId)
  | attached (cs : StreamId)
  | clearAux (cs : StreamId)
  | reject
  | done (cs : Option StreamId)
deriving DecidableEq

namespace PlanePC

def lookupTries : Nat := 50

def closeStaleAll : List ConnId → PlanePC
  | [] => .register
  | conn :: rest => .closeStale conn rest

def closeAll (cs : StreamId) : List ConnId → PlanePC
  | [] => .done (some cs)
  | conn :: rest => .closing cs conn rest

def accepted (reg : Registration) : PlanePC :=
  match reg.plane with
  | none => .reject
  | some _ => .accept

def streamsOpen (reg : Registration) : PlanePC :=
  if reg.plane = some .data then .markLease else .await lookupTries

/-- The identity test of `handleBulkDataConn` on the registered object. -/
def found (reg : Registration) : Option (StreamId × SessionKey) → PlanePC
  | none => .register
  | some (cs, key) => if key = reg.key then .oldConn cs else .staleConn cs

def bulkFound (reg : Registration) (tries : Nat) : Option (StreamId × SessionKey) → PlanePC
  | none => if tries ≤ 1 then .reject else .await (tries - 1)
  | some (cs, _) => if reg.plane = some .dataGame then .acknowledge cs else .setAux cs

end PlanePC

inductive PeerName
  | empty
  | canonical (vip : IPv4)
  | other
deriving DecidableEq

/-- The fields of a `register`, `punch-intent` or `punch-ready` frame that
`signalReply` reads.  A peer name that is not the canonical form of an address
has no entry and no sink. -/
structure SignalRequest where
  publicAddr : String
  natType : String
  metadata : String
  peer : PeerName
deriving DecidableEq

/-- What a step does not decide by itself: whether an operation on a stream
succeeds, and the frame a signalling stream delivers. -/
inductive Choice
  | go
  | fail
  | frame (request : SignalRequest)
deriving DecidableEq

open PlanePC in
def planeControl (conn : ConnId) (reg : Registration) (choice : Choice) :
    PlanePC → Option (Request Op PlanePC)
  | .start => some ⟨.read .clock, fun now => if reg.username = "" then .reject else .authorize now⟩
  | .authorize now =>
    some ⟨.auth (.authorize reg.key now), fun ok => if ok then .isLeased now else .reject⟩
  | .isLeased now =>
    some ⟨.alloc (.isLeased reg.vip), fun ok => if ok then .claimOwner now else .unlock false⟩
  | .claimOwner now =>
    some ⟨.auth (.claimOwner reg.key reg.vip now),
      fun ok => if ok then .markActive else .unlock false⟩
  | .markActive => some ⟨.alloc (.markLeaseActive reg.vip), fun _ => .unlock true⟩
  | .unlock ok => some ⟨.auth .unlock, fun _ => if ok then accepted reg else .reject⟩
  | .accept =>
    some ⟨.data (.onStream conn (choice ≠ .fail)),
      fun ok => if ok then streamsOpen reg else .reject⟩
  | .markLease => some ⟨.alloc (.markLeaseActive reg.vip), fun _ => .lookup⟩
  | .lookup => some ⟨.data (.lookup reg.vip), found reg⟩
  -- another identity: the registration goes first, then its connections
  | .staleConn stale => some ⟨.data (.getDataConn stale), .unregisterStale stale⟩
  | .unregisterStale stale c =>
    some ⟨.data (.unregisterData reg.vip c), fun _ => .snapshotStale stale⟩
  | .snapshotStale stale => some ⟨.data (.snapshot stale), closeStaleAll⟩
  | .closeStale c rest => some ⟨.data (.closeConn c), fun _ => closeStaleAll rest⟩
  -- the same identity: the object is taken over
  | .oldConn cs =>
    some ⟨.data (.getDataConn cs), fun old =>
      match old with
      | some old => if old = conn then .setBulk cs else .closeOld cs old
      | none => .setBulk cs⟩
  | .closeOld cs old => some ⟨.data (.closeConn old), fun _ => .setBulk cs⟩
  | .setBulk cs => some ⟨.data (.attach cs conn .data), fun _ => .online cs⟩
  | .register => some ⟨.data (.register reg.vip reg.key conn), .online⟩
  | .online cs => some ⟨.data (.onConnect reg.vip reg.username), fun _ => .serving cs⟩
  | .serving cs => some ⟨.data (.awaitClosed conn), fun _ => .unregister cs⟩
  -- cleanupDataConnVIP, then closeAll
  | .unregister cs =>
    some ⟨.data (.unregisterData reg.vip (some conn)),
      fun mine => if mine then .releaseVIP cs else .snapshot cs⟩
  | .releaseVIP cs => some ⟨.alloc (.releaseByVirtualIP reg.vip), fun _ => .releaseSession cs⟩
  | .releaseSession cs => some ⟨.auth (.releaseSession reg.key reg.vip), fun _ => .offline cs⟩
  | .offline cs => some ⟨.data (.onDisconnect reg.vip), fun _ => .snapshot cs⟩
  | .snapshot cs => some ⟨.data (.snapshot cs), closeAll cs⟩
  | .closing cs c rest => some ⟨.data (.closeConn c), fun _ => closeAll cs rest⟩
  -- auxiliary planes
  | .await tries => some ⟨.data (.lookup reg.vip), bulkFound reg tries⟩
  | .acknowledge cs =>
    some ⟨.data (.onStream conn (choice ≠ .fail)),
      fun ok => if ok then .setAux cs else .reject⟩
  | .setAux cs => reg.plane.map fun plane =>
    ⟨.data (.attach cs conn plane), fun _ => .attached cs⟩
  | .attached cs => some ⟨.data (.awaitClosed conn), fun _ => .clearAux cs⟩
  | .clearAux cs => reg.plane.map fun plane =>
    ⟨.data (.detach cs plane), fun _ => .done (some cs)⟩
  | .reject => some ⟨.data (.closeConn conn), fun _ => .done none⟩
  | .done _ => none

/-! ## Signalling streams -/

inductive ReplyError
  | signalingDisabled
  | report (error : UpdateError)
deriving DecidableEq

/-- `PeerOnline` is true exactly when there is an info. -/
inductive SignalReply
  | registered
  | error (error : ReplyError)
  | peer (info : Option PeerInfo) (signalReady : Bool)
deriving DecidableEq

/-- The program points of `acceptSignalStream`, `serveSignalStream` and
`signalReply`; `index` counts the streams the loop has accepted. -/
inductive SignalPC
  | start
  | accepting (index : Nat)
  | switchedOn (index : Nat)
  | acceptStream (index : Nat)
  | attach (index : Nat)
  | ready (index : Nat)
  | enabled (index : Nat)
  | reading (index : Nat)
  | reply (index : Nat) (request : SignalRequest)
  | readSelf (index : Nat) (request : SignalRequest)
  | dropSelf (index : Nat) (request : SignalRequest) (info : PeerInfo)
  | update (index : Nat) (request : SignalRequest)
  | lookupPeer (index : Nat) (vip : IPv4)
  | readPeer (index : Nat) (vip : IPv4)
  | dropPeer (index : Nat) (vip : IPv4) (info : PeerInfo)
  | hasSink (index : Nat) (vip : IPv4) (info : Option PeerInfo)
  | answer (index : Nat) (reply : SignalReply)
  | detach (index : Nat)
  | done
deriving DecidableEq

namespace SignalPC

def updated (index : Nat) (request : SignalRequest) : Except UpdateError Unit → SignalPC
  | .error e => .answer index (.error (.report e))
  | .ok () =>
    match request.peer with
    | .empty => .answer index .registered
    | .canonical vip => .lookupPeer index vip
    | .other => .answer index (.peer none false)

/-- `Get` of the own entry: an entry found is dropped if it has expired. -/
def selfRead (index : Nat) (request : SignalRequest) : Option PeerInfo → SignalPC
  | none => .update index request
  | some info => .dropSelf index request info

def peerRead (index : Nat) (vip : IPv4) : Option PeerInfo → SignalPC
  | none => .hasSink index vip none
  | some info => .dropPeer index vip info

end SignalPC

open SignalPC in
def signalControl (conn : ConnId) (cs : StreamId) (own : IPv4) (choice : Choice) :
    SignalPC → Option (Request Op SignalPC)
  | .start => some ⟨.signal .p2pOn, fun on => if on then .accepting 0 else .done⟩
  | .accepting i =>
    some ⟨.data (.isClosed conn), fun closed => if closed then .done else .switchedOn i⟩
  | .switchedOn i => some ⟨.signal .p2pOn, fun on => if on then .acceptStream i else .done⟩
  -- the first stream may never come; after it the loop waits for the next one
  | .acceptStream i =>
    some ⟨.data (.onStream conn (choice ≠ .fail)), fun ok =>
      if ok then .attach i else if i = 0 then .done else .accepting i⟩
  | .attach i => some ⟨.signal (.attachSink own ⟨conn, i, cs⟩), fun _ => .ready i⟩
  | .ready i =>
    some ⟨.data (.isClosed conn), fun closed => if closed then .detach i else .enabled i⟩
  | .enabled i => some ⟨.signal .p2pOn, fun on => if on then .reading i else .detach i⟩
  | .reading i =>
    match choice with
    | .frame request =>
      some ⟨.data (.onStream conn true), fun ok => if ok then .reply i request else .detach i⟩
    | _ => some ⟨.data (.onStream conn false), fun _ => .detach i⟩
  | .reply i request =>
    some ⟨.signal .p2pOn, fun on =>
      if on then .readSelf i request else .answer i (.error .signalingDisabled)⟩
  | .readSelf i request => some ⟨.signal (.readPeer own), selfRead i request⟩
  | .dropSelf i request info =>
    some ⟨.signal (.dropExpired own info), fun _ => .update i request⟩
  | .update i request =>
    some ⟨.signal (.update cs own request.publicAddr request.natType request.metadata),
      updated i request⟩
  | .lookupPeer i vip =>
    some ⟨.data (.lookup vip), fun found =>
      if found.isSome then .readPeer i vip else .hasSink i vip none⟩
  | .readPeer i vip => some ⟨.signal (.readPeer vip), peerRead i vip⟩
  | .dropPeer i vip info =>
    some ⟨.signal (.dropExpired vip info), fun valid =>
      .hasSink i vip (if valid then some info else none)⟩
  | .hasSink i vip info =>
    some ⟨.signal (.hasSink vip), fun ready => .answer i (.peer info ready)⟩
  | .answer i _ => some ⟨.data (.onStream conn (choice ≠ .fail)), fun _ => .ready i⟩
  | .detach i => some ⟨.signal (.detachSink own ⟨conn, i, cs⟩), fun _ => .accepting (i + 1)⟩
  | .done => none

/-! ## Datagram loops -/

/-- The program points of `handleGameDatagrams`, of which only the end matters
to the tables of the server: the loop receives until its connection is closed,
and its deferred statement resets the ready flag. -/
inductive DatagramPC
  | receiving
  | clearReady
  | done
deriving DecidableEq

def datagramControl (conn : ConnId) (cs : StreamId) : DatagramPC → Option (Request Op DatagramPC)
  | .receiving => some ⟨.data (.awaitClosed conn), fun _ => .clearReady⟩
  | .clearReady => some ⟨.data (.clearReady cs), fun _ => .done⟩
  | .done => none

/-! ## Logins, address requests and pushes -/

inductive LoginPC
  | start (ip auth : String)
  | getUser (ip username password : String)
  | checkUser (ip username : String) (user : User)
  | succeed (ip username : String)
  | register (ip username : String)
  | accepted (key : SessionKey)
  | fail (ip : String)
  | refused
deriving DecidableEq

def LoginPC.userFound (ip username password : String) : Option User → LoginPC
  | none => .fail ip
  | some user =>
    if user.enabled && user.password = password then .checkUser ip username user else .fail ip

def loginControl (gate : VersionGate) : LoginPC → Option (Request Op LoginPC)
  | .start ip auth =>
    some ⟨.auth (.isBanned ip), fun banned =>
      if banned then .refused
      else
        match gate.readAuth auth with
        | none => .fail ip
        | some (username, password) => .getUser ip username password⟩
  | .getUser ip username password =>
    some ⟨.read (.getUser username), LoginPC.userFound ip username password⟩
  | .checkUser ip username user =>
    some ⟨.read .clock, fun now =>
      if user.expired now || user.overQuota then .fail ip else .succeed ip username⟩
  | .succeed ip username => some ⟨.auth (.recordSuccess ip), fun _ => .register ip username⟩
  | .register ip username =>
    some ⟨.auth (.registerSession ⟨ip, username⟩), fun _ => .accepted ⟨ip, username⟩⟩
  | .fail ip => some ⟨.auth (.recordFailure ip), fun _ => .refused⟩
  | .accepted _ => none
  | .refused => none

inductive DhcpPC
  | request (device : DeviceID)
  | answered (vip : IPv4)
  | refused
deriving DecidableEq

/-- `Write` of a `dhcpConn` with a well-formed request. -/
def dhcpControl : DhcpPC → Option (Request Op DhcpPC)
  | .request device =>
    some ⟨.alloc (.allocateByDeviceID device), fun vip =>
      match vip with
      | none => .refused
      | some vip => .answered vip⟩
  | _ => none

inductive PushPC
  | start (vip : IPv4) (type : MsgType)
  | select (vip : IPv4)
  | handed (vip : IPv4) (sink : Sink)
  | failed
deriving DecidableEq

def isRequestOrResponseType (type : MsgType) : Bool :=
  type ∈ signalRequestTypes || type ∈ signalResponseTypes

def pushControl : PushPC → Option (Request Op PushPC)
  | .start vip type =>
    some ⟨.signal .p2pOn, fun on =>
      if on && !isRequestOrResponseType type && type ≠ .unknown "" then .select vip
      else .failed⟩
  | .select vip =>
    some ⟨.signal (.selectSink vip), fun sink =>
      match sink with
      | none => .failed
      | some sink => .handed vip sink⟩
  | _ => none

/-! ## The whole server -/

inductive Local
  | plane (reg : Registration) (pc : PlanePC)
  | signal (stream : StreamId) (vip : IPv4) (pc : SignalPC)
  | datagrams (stream : StreamId) (pc : DatagramPC)
  | login (pc : LoginPC)
  | dhcp (key : SessionKey) (pc : DhcpPC)
  | push (pc : PushPC)
deriving DecidableEq

/-- The first stage of `AuthorizeDataPlane` and of `Authenticate` is entered
at any time.  A signalling loop belongs to a control connection that has been
attached, a datagram loop to a game connection that has been, and an address
request to a login that was accepted. -/
def spawnable (cfg : Config Thread Shared Local) : Thread → Local → Bool
  | .plane _, .plane _ .start => true
  | .signal conn, .signal cs vip .start =>
    match cfg.threads.lookup (.plane conn) with
    | some (.plane reg (.attached cs')) =>
      reg.plane = some .ctrl && cs' = cs && reg.vip = vip
    | _ => false
  | .datagrams conn, .datagrams cs .receiving =>
    match cfg.threads.lookup (.plane conn) with
    | some (.plane reg (.attached cs')) => reg.plane = some .dataGame && cs' = cs
    | _ => false
  | .login _, .login (.start _ _) => true
  | .dhcp login _, .dhcp key (.request _) =>
    cfg.threads.lookup (.login login) = some (.login (.accepted key))
  | .push _, .push (.start _ _) => true
  | _, _ => false

def control (gate : VersionGate) : Thread → Local → Choice → Option (Request Op Local)
  | .plane conn, .plane reg pc, choice => (planeControl conn reg choice pc).map (·.map (.plane reg))
  | .signal conn, .signal cs vip pc, choice =>
    (signalControl conn cs vip choice pc).map (·.map (.signal cs vip))
  | .datagrams conn, .datagrams cs pc, _ =>
    (datagramControl conn cs pc).map (·.map (.datagrams cs))
  | .login _, .login pc, _ => (loginControl gate pc).map (·.map .login)
  | .dhcp _ _, .dhcp key pc, _ => (dhcpControl pc).map (·.map (.dhcp key))
  | .push _, .push pc, _ => (pushControl pc).map (·.map .push)
  | _, _, _ => none

/-- `closeConn` is a client or its network, or a kick; `reap` and `sweepPeer`
carry the time their loop has read before it took the mutex. -/
inductive Event
  | tick (elapsed : Nat)
  | closeConn (conn : ConnId)
  | reap (at_ : Time) (order : List IPv4)
  | sweepKey (key : SessionKey)
  | sweepBan (ip : String)
  | sweepOwner (vip : IPv4)
  | sweepPeer (vip : IPv4) (at_ : Time)
  | enableP2P (enabled : Bool)
  | store (event : StoreEvent)
deriving DecidableEq

def environment (s : Shared) : Event → Option Shared
  | .tick elapsed => some { s with now := s.now + elapsed }
  | .closeConn conn => some { s with data := s.data.closeConn conn }
  | .reap at_ order =>
    if at_ ≤ s.now then some { s with alloc := s.alloc.reapExpiredLeases at_ order } else none
  | .sweepKey key =>
    if s.auth.mu = none then some { s with auth := s.auth.sweepKey key s.now } else none
  | .sweepBan ip =>
    if s.auth.mu = none then some { s with auth := s.auth.sweepBan ip s.now } else none
  | .sweepOwner vip =>
    if s.auth.mu = none then
      some { s with auth := s.auth.sweepOwner vip (s.alloc.isLeased vip) }
    else none
  | .sweepPeer vip at_ =>
    if at_ ≤ s.now then some { s with signal := s.signal.removeStale vip at_ } else none
  | .enableP2P enabled => some { s with signal := s.signal.enableP2PSignal enabled }
  | .store event => some { s with users := s.users.apply event }

def system (gate : VersionGate) : System Thread Shared Local Choice Event Op where
  exec := exec
  control := control gate
  spawnable := spawnable
  environment := environment

/-- How a server is started: the versions it admits, its address pool, its
accounts, its P2P switch and the time of day. -/
structure Setup where
  gate : VersionGate
  startIP : IPv4
  endIP : IPv4
  users : Store
  p2pEnabled : Bool
  now : Time

abbrev ServerConfig := Config Thread Shared Local

abbrev ServerAction := Action Thread Local Choice Event

def Setup.initial (setup : Setup) : ServerConfig where
  shared :=
    { now := setup.now
      alloc := .setIPPool setup.startIP setup.endIP
      auth := .empty
      data := .empty
      signal := .empty setup.p2pEnabled
      users := setup.users }
  threads := ∅

def Setup.next (setup : Setup) : ServerConfig → ServerAction → Option ServerConfig :=
  (system setup.gate).next

/-! ## Inversion of a step -/

section Inversion

variable {Result : Type} {t : Thread} {s s' : Shared} {result : Result}

theorem exec_read : exec t s (.read op) = some (s', result) ↔ s' = s ∧ result = s.read op := by
  simp only [exec, Option.some.injEq, Prod.mk.injEq, eq_comm]

theorem exec_alloc :
    exec t s (.alloc op) = some (s', result) ↔
      s' = { s with alloc := (s.alloc.exec s.now op).1 } ∧
        result = (s.alloc.exec s.now op).2 := by
  simp only [exec, Option.some.injEq, Prod.mk.injEq, eq_comm]

theorem exec_auth :
    exec t s (.auth op) = some (s', result) ↔
      ∃ a, s.auth.exec t s.now op = some (a, result) ∧ s' = { s with auth := a } := by
  simp only [exec, Option.map_eq_some_iff, Prod.exists, Prod.mk.injEq]
  constructor
  · rintro ⟨a, r, h, rfl, rfl⟩
    exact ⟨a, h, rfl⟩
  · rintro ⟨a, h, rfl⟩
    exact ⟨a, result, h, rfl, rfl⟩

theorem exec_data :
    exec t s (.data op) = some (s', result) ↔
      ∃ d, s.data.exec op = some (d, result) ∧ s' = { s with data := d } := by
  simp only [exec, Option.map_eq_some_iff, Prod.exists, Prod.mk.injEq]
  constructor
  · rintro ⟨d, r, h, rfl, rfl⟩
    exact ⟨d, h, rfl⟩
  · rintro ⟨d, h, rfl⟩
    exact ⟨d, result, h, rfl, rfl⟩

theorem exec_signal :
    exec t s (.signal op) = some (s', result) ↔
      s' = { s with signal := (s.signal.exec s.now op).1 } ∧
        result = (s.signal.exec s.now op).2 := by
  simp only [exec, Option.some.injEq, Prod.mk.injEq, eq_comm]

end Inversion

section

variable (gate : VersionGate) (cfg : ServerConfig)

inductive ServerStep : ServerAction → ServerConfig → Prop
  | spawn (hfresh : cfg.threads.lookup t = none)
      (hspawn : spawnable cfg t l = true) :
      ServerStep (.spawn t l) { cfg with threads := cfg.threads.insert t l }
  | plane {conn : ConnId} {choice : Choice} {reg : Registration} {pc : PlanePC}
      {request : Request Op PlanePC} {shared : Shared} {result : request.Result}
      (hlocal : cfg.threads.lookup (.plane conn) = some (.plane reg pc))
      (hcontrol : planeControl conn reg choice pc = some request)
      (hexec : exec (.plane conn) cfg.shared request.op = some (shared, result)) :
      ServerStep (.step (.plane conn) choice)
        { shared := shared
          threads := cfg.threads.insert (.plane conn) (.plane reg (request.resume result)) }
  | signal
      (hlocal : cfg.threads.lookup (.signal conn) = some (.signal cs vip pc))
      (hcontrol : signalControl conn cs vip choice pc = some request)
      (hexec : exec (.signal conn) cfg.shared request.op = some (shared, result)) :
      ServerStep (.step (.signal conn) choice)
        { shared := shared
          threads := cfg.threads.insert (.signal conn)
            (.signal cs vip (request.resume result)) }
  | datagrams {conn : ConnId} {choice : Choice} {cs : StreamId} {pc : DatagramPC}
      {request : Request Op DatagramPC} {shared : Shared} {result : request.Result}
      (hlocal : cfg.threads.lookup (.datagrams conn) = some (.datagrams cs pc))
      (hcontrol : datagramControl conn cs pc = some request)
      (hexec : exec (.datagrams conn) cfg.shared request.op = some (shared, result)) :
      ServerStep (.step (.datagrams conn) choice)
        { shared := shared
          threads := cfg.threads.insert (.datagrams conn) (.datagrams cs (request.resume result)) }
  | login {n : Nat} {choice : Choice} {pc : LoginPC}
      {request : Request Op LoginPC} {shared : Shared} {result : request.Result}
      (hlocal : cfg.threads.lookup (.login n) = some (.login pc))
      (hcontrol : loginControl gate pc = some request)
      (hexec : exec (.login n) cfg.shared request.op = some (shared, result)) :
      ServerStep (.step (.login n) choice)
        { shared := shared
          threads := cfg.threads.insert (.login n) (.login (request.resume result)) }
  | dhcp {m n : Nat} {choice : Choice} {key : SessionKey} {pc : DhcpPC}
      {request : Request Op DhcpPC} {shared : Shared} {result : request.Result}
      (hlocal : cfg.threads.lookup (.dhcp m n) = some (.dhcp key pc))
      (hcontrol : dhcpControl pc = some request)
      (hexec : exec (.dhcp m n) cfg.shared request.op = some (shared, result)) :
      ServerStep (.step (.dhcp m n) choice)
        { shared := shared
          threads := cfg.threads.insert (.dhcp m n) (.dhcp key (request.resume result)) }
  | push
      (hlocal : cfg.threads.lookup (.push n) = some (.push pc))
      (hcontrol : pushControl pc = some request)
      (hexec : exec (.push n) cfg.shared request.op = some (shared, result)) :
      ServerStep (.step (.push n) choice)
        { shared := shared
          threads := cfg.threads.insert (.push n) (.push (request.resume result)) }
  | env (henv : environment cfg.shared e = some shared) :
      ServerStep (.env e) { cfg with shared := shared }

end

/-- Everything that a step of the server can do. -/
theorem serverStep_of_next {setup : Setup} (hnext : setup.next cfg action = some cfg') :
    ServerStep setup.gate cfg action cfg' := by
  cases action with
  | spawn t l =>
    obtain ⟨hfresh, hspawn, rfl⟩ := next_spawn.1 hnext
    exact .spawn hfresh hspawn
  | env e =>
    obtain ⟨shared, henv, rfl⟩ := next_env.1 hnext
    exact .env henv
  | step t choice =>
    obtain ⟨l, request, shared, result, hlocal, hcontrol, hexec, rfl⟩ := next_step.1 hnext
    change control setup.gate t l choice = some request at hcontrol
    unfold control at hcontrol
    split at hcontrol
    all_goals
      first
      | cases hcontrol
      | obtain ⟨inner, hinner, rfl⟩ := Option.map_eq_some_iff.1 hcontrol
    · exact .plane hlocal hinner hexec
    · exact .signal hlocal hinner hexec
    · exact .datagrams hlocal hinner hexec
    · exact .login hlocal hinner hexec
    · exact .dhcp hlocal hinner hexec
    · exact .push hlocal hinner hexec

/-! ## Pieces of runs -/

def steps (t : Thread) (n : Nat) : List ServerAction := List.replicate n (.step t .go)

def loginRun (n : Nat) (ip auth : String) : List ServerAction :=
  .spawn (.login n) (.login (.start ip auth)) :: steps (.login n) 5

def requestRun (n : Nat) (key : SessionKey) (device : DeviceID) : List ServerAction :=
  .spawn (.dhcp n 0) (.dhcp key (.request device)) :: steps (.dhcp n 0) 1

def connectRun (conn : ConnId) (reg : Registration) (n : Nat) : List ServerAction :=
  .spawn (.plane conn) (.plane reg .start) :: steps (.plane conn) n

def signalRun (conn : ConnId) (cs : StreamId) (vip : IPv4) : List ServerAction :=
  .spawn (.signal conn) (.signal cs vip .start) :: steps (.signal conn) 7

def frameRun (conn : ConnId) (request : SignalRequest) (n : Nat) : List ServerAction :=
  .step (.signal conn) (.frame request) :: steps (.signal conn) n

/-- A pool of one hundred addresses, two accounts without limits and P2P on. -/
def smallSetup : Setup where
  gate := ⟨[], []⟩
  startIP := 0x0a000064
  endIP := 0x0a0000c8
  users :=
    let user : User := ⟨"pw", true, 0, 0, none⟩
    ((∅ : Store).insert "ann" user).insert "bob" user
  p2pEnabled := true
  now := 0

def annVIP : IPv4 := 0x0a000064

def annData : Registration := ⟨some .data, "198.51.100.1", "ann", annVIP⟩

def bobData : Registration := ⟨some .data, "198.51.100.2", "bob", annVIP⟩

/-- Ann logs in, gets an address and is served on connection 1. -/
def annServedRun : List ServerAction :=
  loginRun 0 annData.peerIP "ann:pw" ++ requestRun 0 annData.key "dev" ++ connectRun 1 annData 11

/-- Ann's control connection 2, with a signalling stream. -/
def annSignalRun : List ServerAction :=
  connectRun 2 { annData with plane := some .ctrl } 9 ++ signalRun 2 0 annVIP

def annLeavesRun : List ServerAction := .env (.closeConn 1) :: steps (.plane 1) 5

def bobServedRun : List ServerAction :=
  loginRun 1 bobData.peerIP "bob:pw" ++ requestRun 1 bobData.key "dev2" ++
    connectRun 3 bobData 11

end Hy2Link.Server
