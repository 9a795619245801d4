import Hy2Link.Server.Authenticator

/-! # Client streams and their registration

The object a data plane is registered under, `clientStream`, with the pointers
to the five connections of a client, and the tables of `DataChannelServer`
that hold it.  A clientStream is a heap object that several handlers share, so
it is a number here, and the table `streams` is the heap.

The sixteen shards of the registration are one table, because a shard is
chosen by the address alone.
-/

namespace Hy2Link.Server

open Interleaving Finmap Option

abbrev StreamId := Nat

inductive Plane
  | data | dataMatch | dataGameTCP | dataGame | ctrl
deriving DecidableEq

/-- What a registration frame says, with the peer address of the connection
that carries it.  An unknown connection type is `none`.  An address text that
is not the canonical form of an IPv4 address names no leased address and is
refused by `AuthorizeDataPlane`; such frames are left out. -/
structure Registration where
  plane : Option Plane
  peerIP : String
  username : String
  vip : IPv4
deriving DecidableEq

def Registration.key (reg : Registration) : SessionKey := ⟨reg.peerIP, reg.username⟩

/-- The streams of a connection are numbered as they are accepted; the first
one, number 0, carries the registration frame. -/
structure QuicStream where
  conn : ConnId
  index : Nat
deriving DecidableEq

structure ClientStream where
  vip : IPv4
  username : String
  peerIP : String
  dataConn : Option ConnId
  tcpStream : Option QuicStream
  udpStream : Option QuicStream
  matchConn : Option ConnId
  matchStream : Option QuicStream
  gameTCPConn : Option ConnId
  gameTCPStream : Option QuicStream
  gameConn : Option ConnId
  gameDatagramReady : Bool
  ctrlConn : Option ConnId
  ctrlReady : Bool
  icmpStream : Option QuicStream
  hbStream : Option QuicStream
deriving DecidableEq

namespace ClientStream

variable (cs : ClientStream)

def key : SessionKey := ⟨cs.peerIP, cs.username⟩

def setBulkStreams (conn : ConnId) (tcp udp : QuicStream) : ClientStream :=
  { cs with dataConn := some conn, tcpStream := some tcp, udpStream := some udp }

def setMatch (conn : ConnId) (stream : QuicStream) : ClientStream :=
  { cs with matchConn := some conn, matchStream := some stream }

def clearMatch : ClientStream := { cs with matchConn := none, matchStream := none }

def setGameTCP (conn : ConnId) (stream : QuicStream) : ClientStream :=
  { cs with gameTCPConn := some conn, gameTCPStream := some stream }

def clearGameTCP : ClientStream := { cs with gameTCPConn := none, gameTCPStream := none }

def setGame (conn : ConnId) : ClientStream :=
  { cs with gameConn := some conn, gameDatagramReady := true }

def clearGame : ClientStream := { cs with gameDatagramReady := false, gameConn := none }

def setCtrl (conn : ConnId) (icmp hb : QuicStream) : ClientStream :=
  { cs with
    ctrlConn := some conn
    icmpStream := some icmp
    hbStream := some hb
    ctrlReady := true }

def clearCtrl : ClientStream :=
  { cs with ctrlReady := false, icmpStream := none, hbStream := none, ctrlConn := none }

def conn : Plane → Option ConnId
  | .data => cs.dataConn
  | .dataMatch => cs.matchConn
  | .dataGameTCP => cs.gameTCPConn
  | .dataGame => cs.gameConn
  | .ctrl => cs.ctrlConn

/-- The handlers pass the streams they have accepted after the first one. -/
def attach (conn : ConnId) : Plane → ClientStream
  | .data => cs.setBulkStreams conn ⟨conn, 1⟩ ⟨conn, 2⟩
  | .dataMatch => cs.setMatch conn ⟨conn, 1⟩
  | .dataGameTCP => cs.setGameTCP conn ⟨conn, 1⟩
  | .dataGame => cs.setGame conn
  | .ctrl => cs.setCtrl conn ⟨conn, 1⟩ ⟨conn, 2⟩

/-- The bulk handler never clears its pointer. -/
def detach : Plane → ClientStream
  | .data => cs
  | .dataMatch => cs.clearMatch
  | .dataGameTCP => cs.clearGameTCP
  | .dataGame => cs.clearGame
  | .ctrl => cs.clearCtrl

/-- The deferred statement of `handleGameDatagrams`, outside the mutex. -/
def clearReady : ClientStream := { cs with gameDatagramReady := false }

/-- The snapshot `closeAll` takes, in its order and without the nil pointers. -/
def attached : List ConnId :=
  [cs.dataConn, cs.matchConn, cs.gameTCPConn, cs.gameConn, cs.ctrlConn].filterMap id

theorem mem_attached : c ∈ cs.attached ↔ ∃ plane, cs.conn plane = some c := by
  simp only [attached, List.mem_filterMap, List.mem_cons, List.not_mem_nil, or_false, id]
  constructor
  · rintro ⟨p, rfl | rfl | rfl | rfl | rfl, hp⟩
    exacts [⟨.data, hp⟩, ⟨.dataMatch, hp⟩, ⟨.dataGameTCP, hp⟩, ⟨.dataGame, hp⟩, ⟨.ctrl, hp⟩]
  · rintro ⟨plane, hplane⟩
    refine ⟨cs.conn plane, ?_, hplane⟩
    cases plane <;> simp [conn]

theorem conn_attach (c : ConnId) (plane other : Plane) :
    (cs.attach c plane).conn other = if other = plane then some c else cs.conn other := by
  cases plane <;> cases other <;> rfl

theorem conn_detach (plane other : Plane) :
    (cs.detach plane).conn other =
      if other = plane ∧ plane ≠ .data then none else cs.conn other := by
  cases plane <;> cases other <;> rfl

theorem conn_clearReady (plane : Plane) : cs.clearReady.conn plane = cs.conn plane := by
  cases plane <;> rfl

@[simp] theorem attach_vip (c : ConnId) (plane : Plane) : (cs.attach c plane).vip = cs.vip := by
  cases plane <;> rfl

@[simp] theorem detach_vip (plane : Plane) : (cs.detach plane).vip = cs.vip := by
  cases plane <;> rfl

@[simp] theorem attach_key (c : ConnId) (plane : Plane) : (cs.attach c plane).key = cs.key := by
  cases plane <;> rfl

@[simp] theorem detach_key (plane : Plane) : (cs.detach plane).key = cs.key := by
  cases plane <;> rfl

end ClientStream

/-! ## Tables -/

/-- `closed` are the connections whose context is done; `clients` is the
online list of `AdminState`, of which only the username is kept. -/
structure DataTables where
  conns : Table IPv4 StreamId
  streams : Table StreamId ClientStream
  nextStream : StreamId
  closed : Finset ConnId
  clients : Table IPv4 String

/-- `lookup` also answers the identity fields of the object, which never
change.  `onStream` is an operation on streams of the connection (accepting,
reading or writing) that succeeds if the client plays its part and the
connection is open. -/
inductive DataOp : Type → Type
  | lookup (vip : IPv4) : DataOp (Option (StreamId × SessionKey))
  | getDataConn (cs : StreamId) : DataOp (Option ConnId)
  | attach (cs : StreamId) (conn : ConnId) (plane : Plane) : DataOp Unit
  | detach (cs : StreamId) (plane : Plane) : DataOp Unit
  | clearReady (cs : StreamId) : DataOp Unit
  | register (vip : IPv4) (key : SessionKey) (conn : ConnId) : DataOp StreamId
  | unregisterData (vip : IPv4) (conn : Option ConnId) : DataOp Bool
  | snapshot (cs : StreamId) : DataOp (List ConnId)
  | closeConn (conn : ConnId) : DataOp Unit
  | awaitClosed (conn : ConnId) : DataOp Unit
  | isClosed (conn : ConnId) : DataOp Bool
  | onStream (conn : ConnId) (succeeds : Bool) : DataOp Bool
  | onConnect (vip : IPv4) (username : String) : DataOp Unit
  | onDisconnect (vip : IPv4) : DataOp Unit

namespace DataTables

variable (d : DataTables)

def empty : DataTables := ⟨∅, ∅, 0, ∅, ∅⟩

def lookup (vip : IPv4) : Option (StreamId × SessionKey) :=
  (d.conns.lookup vip).bind fun cs =>
    (d.streams.lookup cs).map fun stream => (cs, stream.key)

def getDataConn (cs : StreamId) : Option ConnId := (d.streams.lookup cs).bind (·.dataConn)

def modifyStream (cs : StreamId) (f : ClientStream → ClientStream) : DataTables :=
  match d.streams.lookup cs with
  | none => d
  | some stream => { d with streams := d.streams.insert cs (f stream) }

def snapshot (cs : StreamId) : List ConnId :=
  match d.streams.lookup cs with
  | none => []
  | some stream => stream.attached

/-- A fresh clientStream with the bulk connection set, as `handleBulkDataConn`
builds it. -/
def newStream (vip : IPv4) (key : SessionKey) (conn : ConnId) : ClientStream where
  vip := vip
  username := key.username
  peerIP := key.peerIP
  dataConn := some conn
  tcpStream := some ⟨conn, 1⟩
  udpStream := some ⟨conn, 2⟩
  matchConn := none
  matchStream := none
  gameTCPConn := none
  gameTCPStream := none
  gameConn := none
  gameDatagramReady := false
  ctrlConn := none
  ctrlReady := false
  icmpStream := none
  hbStream := none

/-- `register` closes every connection of the object it replaces. -/
def register (vip : IPv4) (key : SessionKey) (conn : ConnId) : DataTables × StreamId :=
  let replaced := match d.conns.lookup vip with
    | none => []
    | some old => d.snapshot old
  ({ d with
    conns := d.conns.insert vip d.nextStream
    streams := d.streams.insert d.nextStream (newStream vip key conn)
    nextStream := d.nextStream + 1
    closed := d.closed ∪ replaced.toFinset }, d.nextStream)

/-- The registration goes only while `conn` is still its data connection. -/
def unregisterData (vip : IPv4) (conn : Option ConnId) : DataTables × Bool :=
  match d.conns.lookup vip with
  | none => (d, false)
  | some cur =>
    if d.getDataConn cur = conn then ({ d with conns := d.conns.erase vip }, true)
    else (d, false)

def closeConn (conn : ConnId) : DataTables := { d with closed := insert conn d.closed }

/-- `awaitClosed` blocks until the context of the connection is done. -/
def exec {Result : Type} : DataOp Result → Option (DataTables × Result)
  | .lookup vip => some (d, d.lookup vip)
  | .getDataConn cs => some (d, d.getDataConn cs)
  | .attach cs conn plane => some (d.modifyStream cs fun stream => stream.attach conn plane, ())
  | .detach cs plane => some (d.modifyStream cs fun stream => stream.detach plane, ())
  | .clearReady cs => some (d.modifyStream cs ClientStream.clearReady, ())
  | .register vip key conn => some (d.register vip key conn)
  | .unregisterData vip conn => some (d.unregisterData vip conn)
  | .snapshot cs => some (d, d.snapshot cs)
  | .closeConn conn => some (d.closeConn conn, ())
  | .awaitClosed conn => if conn ∈ d.closed then some (d, ()) else none
  | .isClosed conn => some (d, conn ∈ d.closed)
  | .onStream conn succeeds => some (d, succeeds && conn ∉ d.closed)
  | .onConnect vip username => some ({ d with clients := d.clients.insert vip username }, ())
  | .onDisconnect vip => some ({ d with clients := d.clients.erase vip }, ())

/-- A registration points to an object for its address, and the numbers of the
objects are below the next one. -/
structure Valid : Prop where
  registered : ∀ vip cs, d.conns.lookup vip = some cs →
    ∃ stream, d.streams.lookup cs = some stream ∧ stream.vip = vip
  bounded : ∀ cs stream, d.streams.lookup cs = some stream → cs < d.nextStream

end DataTables

def DataOp.rebinds {Result : Type} (vip : IPv4) : DataOp Result → Bool
  | .register v _ _ => v = vip
  | .unregisterData v _ => v = vip
  | _ => false

def DataOp.Registers {Result : Type} (vip : IPv4) (key : SessionKey) : DataOp Result → Prop
  | .register v k _ => v = vip ∧ k = key
  | _ => False

def DataOp.Attaches {Result : Type} (cs : StreamId) (conn : ConnId) :
    DataOp Result → Result → Prop
  | .attach x c _, _ => x = cs ∧ c = conn
  | .register _ _ c, x => x = cs ∧ c = conn
  | _, _ => False

def DataOp.setsData {Result : Type} (cs : StreamId) : DataOp Result → Bool
  | .attach x _ .data => x = cs
  | _ => false

def DataOp.Closes {Result : Type} (d : DataTables) (conn : ConnId) : DataOp Result → Prop
  | .closeConn c => c = conn
  | .register vip _ _ => ∃ old, d.conns.lookup vip = some old ∧ conn ∈ d.snapshot old
  | _ => False

namespace DataTables

variable {d d' : DataTables} {Result : Type}

theorem empty_valid : empty.Valid :=
  ⟨fun vip cs h => by simp [empty] at h, fun cs stream h => by simp [empty] at h⟩

theorem lookup_eq_some :
    d.lookup vip = some (cs, key) ↔
      d.conns.lookup vip = some cs ∧
        ∃ stream, d.streams.lookup cs = some stream ∧ stream.key = key := by
  simp only [lookup, bind_eq_some_iff, map_eq_some_iff, Prod.mk.injEq]
  constructor
  · rintro ⟨x, hx, stream, hstream, rfl, rfl⟩
    exact ⟨hx, stream, hstream, rfl⟩
  · rintro ⟨hcs, stream, hstream, rfl⟩
    exact ⟨cs, hcs, stream, hstream, rfl, rfl⟩

theorem getDataConn_eq_some :
    d.getDataConn cs = some conn ↔
      ∃ stream, d.streams.lookup cs = some stream ∧ stream.dataConn = some conn := by
  simp only [getDataConn, bind_eq_some_iff]

theorem mem_snapshot :
    conn ∈ d.snapshot cs ↔
      ∃ stream, d.streams.lookup cs = some stream ∧ ∃ plane, stream.conn plane = some conn := by
  unfold snapshot
  cases d.streams.lookup cs with
  | none => simp
  | some stream => simp [ClientStream.mem_attached]

@[simp] theorem modifyStream_conns (cs : StreamId) (f : ClientStream → ClientStream) :
    (d.modifyStream cs f).conns = d.conns := by
  unfold modifyStream
  split <;> rfl

@[simp] theorem modifyStream_nextStream (cs : StreamId) (f : ClientStream → ClientStream) :
    (d.modifyStream cs f).nextStream = d.nextStream := by
  unfold modifyStream
  split <;> rfl

@[simp] theorem modifyStream_closed (cs : StreamId) (f : ClientStream → ClientStream) :
    (d.modifyStream cs f).closed = d.closed := by
  unfold modifyStream
  split <;> rfl

@[simp] theorem modifyStream_clients (cs : StreamId) (f : ClientStream → ClientStream) :
    (d.modifyStream cs f).clients = d.clients := by
  unfold modifyStream
  split <;> rfl

theorem modifyStream_lookup :
    (d.modifyStream cs f).streams.lookup x = some stream ↔
      x = cs ∧ (∃ old, d.streams.lookup cs = some old ∧ stream = f old) ∨
        x ≠ cs ∧ d.streams.lookup x = some stream := by
  unfold modifyStream
  split
  next hnone =>
    simp only [hnone, reduceCtorEq, false_and, exists_false, and_false, false_or]
    refine ⟨fun h => ⟨fun heq => ?_, h⟩, And.right⟩
    rw [heq, hnone] at h
    cases h
  next old hold =>
    rw [lookup_insert_eq_some, hold]
    simp

structure Unmoved (d d' : DataTables) : Prop where
  conns : d'.conns = d.conns
  closed : d'.closed = d.closed
  clients : d'.clients = d.clients
  lookup : ∀ vip, d'.lookup vip = d.lookup vip
  snapshot : ∀ cs, d'.snapshot cs = d.snapshot cs
  dataConn : ∀ cs, d'.getDataConn cs = d.getDataConn cs

theorem Unmoved.refl (d : DataTables) : d.Unmoved d :=
  ⟨rfl, rfl, rfl, fun _ => rfl, fun _ => rfl, fun _ => rfl⟩

theorem lookup_modifyStream (cs : StreamId) (hf : ∀ stream, (f stream).key = stream.key)
    (vip : IPv4) : (d.modifyStream cs f).lookup vip = d.lookup vip := by
  simp only [lookup, modifyStream_conns]
  congr 1
  funext x
  unfold modifyStream
  split
  · rfl
  next stream hstream =>
    by_cases hx : x = cs
    · subst hx
      simp [hstream, hf]
    · rw [lookup_insert_of_ne _ hx]

theorem lookup_register (vip : IPv4) (key : SessionKey) (conn : ConnId) :
    (d.register vip key conn).1.lookup vip = some (d.nextStream, key) :=
  lookup_eq_some.2 ⟨lookup_insert _, _, lookup_insert _, rfl⟩

theorem Valid.lookup_register_of_ne (h : d.Valid) (hne : v ≠ vip) (key : SessionKey)
    (conn : ConnId) : (d.register vip key conn).1.lookup v = d.lookup v := by
  simp only [lookup, register, lookup_insert_of_ne _ hne]
  cases hcs : d.conns.lookup v with
  | none => rfl
  | some cs =>
    obtain ⟨stream, hstream, -⟩ := h.registered v cs hcs
    have hfresh : cs ≠ d.nextStream := Nat.ne_of_lt (h.bounded cs stream hstream)
    simp only [bind_some, lookup_insert_of_ne _ hfresh]

open DataTables

theorem unmoved_clearReady (d : DataTables) (cs : StreamId) :
    d.Unmoved (d.modifyStream cs ClientStream.clearReady) := by
  refine ⟨modifyStream_conns cs _, modifyStream_closed cs _, modifyStream_clients cs _,
    lookup_modifyStream cs fun _ => rfl, fun x => ?_, fun x => ?_⟩ <;>
  · unfold modifyStream
    split
    · rfl
    next stream hstream =>
      by_cases hx : x = cs
      · subst hx
        simp only [snapshot, getDataConn, lookup_insert, hstream]
        rfl
      · simp only [snapshot, getDataConn, lookup_insert_of_ne _ hx]

theorem Valid.modifyStream (h : d.Valid) (cs : StreamId)
    (hf : ∀ stream, (f stream).vip = stream.vip) : (d.modifyStream cs f).Valid := by
  refine ⟨fun vip x hx => ?_, fun x stream hx => ?_⟩
  · rw [modifyStream_conns] at hx
    obtain ⟨stream, hstream, hvip⟩ := h.registered vip x hx
    by_cases heq : x = cs
    · subst heq
      exact ⟨f stream, modifyStream_lookup.2 (.inl ⟨rfl, stream, hstream, rfl⟩),
        (hf stream).trans hvip⟩
    · exact ⟨stream, modifyStream_lookup.2 (.inr ⟨heq, hstream⟩), hvip⟩
  · rw [modifyStream_nextStream]
    rcases modifyStream_lookup.1 hx with ⟨rfl, old, hold, -⟩ | ⟨-, hold⟩
    · exact h.bounded x old hold
    · exact h.bounded x stream hold

theorem Valid.fresh (h : d.Valid) (hcs : d.streams.lookup cs = some stream) : cs ≠ d.nextStream :=
  Nat.ne_of_lt (h.bounded cs stream hcs)

theorem Valid.register (h : d.Valid) (vip : IPv4) (key : SessionKey) (conn : ConnId) :
    (d.register vip key conn).1.Valid := by
  refine ⟨fun v x hx => ?_, fun x stream hx => ?_⟩
  · rcases lookup_insert_eq_some.1 hx with ⟨rfl, rfl⟩ | ⟨-, hx⟩
    · exact ⟨newStream v key conn, lookup_insert _, rfl⟩
    · obtain ⟨stream, hstream, hvip⟩ := h.registered v x hx
      exact ⟨stream, (lookup_insert_of_ne _ (h.fresh hstream)).trans hstream, hvip⟩
  · rcases lookup_insert_eq_some.1 hx with ⟨rfl, -⟩ | ⟨-, hx⟩
    · exact Nat.lt_succ_self _
    · exact Nat.lt_succ_of_lt (h.bounded x stream hx)

theorem unregisterData_cases (d : DataTables) (vip : IPv4) (conn : Option ConnId) :
    d.unregisterData vip conn = (d, false) ∨
      d.unregisterData vip conn = ({ d with conns := d.conns.erase vip }, true) := by
  unfold unregisterData
  split
  · exact .inl rfl
  · split
    · exact .inr rfl
    · exact .inl rfl

theorem unregisterData_of_ne (hcs : d.conns.lookup vip = some cs)
    (hother : d.getDataConn cs = some other) (hne : other ≠ conn) :
    d.unregisterData vip (some conn) = (d, false) := by
  simp only [unregisterData, hcs, hother, some.injEq, hne, if_false]

theorem unregisterData_streams (vip : IPv4) (conn : Option ConnId) :
    (d.unregisterData vip conn).1.streams = d.streams := by
  rcases d.unregisterData_cases vip conn with h | h <;> rw [h]

theorem lookup_unregisterData_of_ne (hne : v ≠ vip) (conn : Option ConnId) :
    (d.unregisterData vip conn).1.lookup v = d.lookup v := by
  rcases d.unregisterData_cases vip conn with h | h <;> rw [h]
  simp only [lookup, lookup_erase_ne hne]

theorem lookup_unregisterData (hmine : (d.unregisterData vip conn).2 = true) :
    (d.unregisterData vip conn).1.lookup vip = none := by
  rcases d.unregisterData_cases vip conn with h | h <;> rw [h] at hmine ⊢
  · cases hmine
  · simp [lookup]

theorem unregisterData_of_not (hmine : (d.unregisterData vip conn).2 = false) :
    (d.unregisterData vip conn).1 = d := by
  rcases d.unregisterData_cases vip conn with h | h <;> rw [h] at hmine ⊢
  cases hmine

@[simp] theorem unregisterData_closed (vip : IPv4) (conn : Option ConnId) :
    (d.unregisterData vip conn).1.closed = d.closed := by
  rcases d.unregisterData_cases vip conn with h | h <;> rw [h]

@[simp] theorem unregisterData_clients (vip : IPv4) (conn : Option ConnId) :
    (d.unregisterData vip conn).1.clients = d.clients := by
  rcases d.unregisterData_cases vip conn with h | h <;> rw [h]

theorem exec_unregisterData :
    d.exec (.unregisterData vip conn) = some (d', mine) ↔
      d' = (d.unregisterData vip conn).1 ∧ mine = (d.unregisterData vip conn).2 := by
  simp only [exec, some.injEq, Prod.ext_iff, eq_comm]

theorem exec_awaitClosed :
    d.exec (.awaitClosed conn) = some (d', u) ↔ conn ∈ d.closed ∧ d' = d := by
  simp only [exec, ite_none_right_eq_some, some.injEq, Prod.mk.injEq, and_true, eq_comm]

section

variable (d : DataTables) (op : DataOp Result) (result : Result)

inductive Change : DataTables → Prop
  | same : Change d
  | stream (x : StreamId) (f : ClientStream → ClientStream) (hvip : ∀ s, (f s).vip = s.vip)
      (hkey : ∀ s, (f s).key = s.key)
      (hconn : ∀ s plane c, (f s).conn plane = some c →
        s.conn plane = some c ∨ op.Attaches x c result)
      (hdata : ∀ s, op.setsData x = false → (f s).dataConn = s.dataConn) :
      Change (d.modifyStream x f)
  | register (v : IPv4) (key : SessionKey) (c : ConnId) (hregisters : op.Registers v key)
      (hrebinds : op.rebinds v = true) (hattaches : op.Attaches d.nextStream c result)
      (hcloses : ∀ old x, d.conns.lookup v = some old → x ∈ d.snapshot old → op.Closes d x) :
      Change (d.register v key c).1
  | unregister (v : IPv4) (hrebinds : op.rebinds v = true) :
      Change { d with conns := d.conns.erase v }
  | close (c : ConnId) (hcloses : op.Closes d c) : Change (d.closeConn c)
  | clients (online : Table IPv4 String) : Change { d with clients := online }

end

theorem change_of_exec (hexec : d.exec op = some (d', result)) : Change d op result d' := by
  cases op with
  | attach x c plane =>
    cases hexec
    refine .stream x _ (fun s => s.attach_vip c plane) (fun s => s.attach_key c plane)
      (fun s other c' hc' => ?_) fun s hdata => ?_
    · rw [ClientStream.conn_attach] at hc'
      split at hc'
      · exact .inr ⟨rfl, some.inj hc'⟩
      · exact .inl hc'
    · cases plane with
      | data => simp [DataOp.setsData] at hdata
      | _ => rfl
  | detach x plane =>
    cases hexec
    refine .stream x _ (fun s => s.detach_vip plane) (fun s => s.detach_key plane)
      (fun s other c' hc' => ?_) fun s _ => by cases plane <;> rfl
    rw [ClientStream.conn_detach] at hc'
    split at hc'
    · cases hc'
    · exact .inl hc'
  | clearReady x =>
    cases hexec
    refine .stream x _ (fun _ => rfl) (fun _ => rfl) (fun s plane c hc => .inl ?_) fun _ _ => rfl
    rwa [ClientStream.conn_clearReady] at hc
  | register v key c =>
    cases hexec
    exact .register v key c ⟨rfl, rfl⟩ (decide_eq_true rfl) ⟨rfl, rfl⟩
      fun old _ hold hmem => ⟨old, hold, hmem⟩
  | unregisterData v c =>
    obtain ⟨rfl, -⟩ := exec_unregisterData.1 hexec
    rcases d.unregisterData_cases v c with h | h <;> rw [h]
    · exact .same
    · exact .unregister v (decide_eq_true rfl)
  | closeConn c =>
    cases hexec
    exact .close c rfl
  | awaitClosed c =>
    obtain ⟨-, rfl⟩ := exec_awaitClosed.1 hexec
    exact .same
  | onConnect | onDisconnect =>
    cases hexec
    exact .clients _
  | _ =>
    cases hexec
    exact .same

theorem Valid.exec (h : d.Valid) (hexec : d.exec op = some (d', result)) : d'.Valid := by
  cases change_of_exec hexec with
  | same => exact h
  | stream x f hvip => exact h.modifyStream x hvip
  | register v key c => exact h.register v key c
  | unregister v =>
    exact ⟨fun x cs hcs => h.registered x cs (lookup_erase_eq_some.1 hcs).2, h.bounded⟩
  | close | clients => exact ⟨h.registered, h.bounded⟩

theorem Valid.exec_stream (h : d.Valid) (hexec : d.exec op = some (d', result))
    (hcs : d.streams.lookup cs = some stream) :
    ∃ stream', d'.streams.lookup cs = some stream' ∧ stream'.vip = stream.vip ∧
      stream'.key = stream.key := by
  cases change_of_exec hexec with
  | same | unregister | close | clients => exact ⟨stream, hcs, rfl, rfl⟩
  | stream x f hvip hkey =>
    by_cases heq : cs = x
    · subst heq
      exact ⟨f stream, modifyStream_lookup.2 (.inl ⟨rfl, stream, hcs, rfl⟩), hvip stream,
        hkey stream⟩
    · exact ⟨stream, modifyStream_lookup.2 (.inr ⟨heq, hcs⟩), rfl, rfl⟩
  | register v key c =>
    exact ⟨stream, (lookup_insert_of_ne _ (h.fresh hcs)).trans hcs, rfl, rfl⟩

theorem exec_attached (hexec : d.exec op = some (d', result)) (hmem : conn ∈ d'.snapshot cs) :
    conn ∈ d.snapshot cs ∨ op.Attaches cs conn result := by
  cases change_of_exec hexec with
  | same | unregister | close | clients => exact .inl hmem
  | stream x f _ _ hconn =>
    obtain ⟨stream, hstream, plane, hplane⟩ := mem_snapshot.1 hmem
    rcases modifyStream_lookup.1 hstream with ⟨rfl, old, hold, rfl⟩ | ⟨-, hold⟩
    · exact (hconn old plane conn hplane).imp_left fun hplane =>
        mem_snapshot.2 ⟨old, hold, plane, hplane⟩
    · exact .inl (mem_snapshot.2 ⟨stream, hold, plane, hplane⟩)
  | register v key c _ _ hattaches =>
    obtain ⟨stream, hstream, plane, hplane⟩ := mem_snapshot.1 hmem
    rcases lookup_insert_eq_some.1 hstream with ⟨rfl, rfl⟩ | ⟨-, hold⟩
    · -- a new object has only its bulk connection
      cases plane with
      | data => exact .inr (some.inj hplane ▸ hattaches)
      | _ => cases hplane
    · exact .inl (mem_snapshot.2 ⟨stream, hold, plane, hplane⟩)

theorem exec_conns (hexec : d.exec op = some (d', result)) (hop : op.rebinds vip = false) :
    d'.conns.lookup vip = d.conns.lookup vip := by
  have hne : ∀ v, op.rebinds v = true → vip ≠ v := by
    rintro v hv rfl
    simp [hop] at hv
  cases change_of_exec hexec with
  | same | close | clients => rfl
  | stream x f => rw [modifyStream_conns]
  | register v _ _ _ hrebinds => exact lookup_insert_of_ne _ (hne v hrebinds)
  | unregister v hrebinds => exact lookup_erase_ne (hne v hrebinds)

theorem exec_registered (hexec : d.exec op = some (d', result))
    (hcs : d'.conns.lookup vip = some cs) :
    d.conns.lookup vip = some cs ∨
      ∃ key, op.Registers vip key ∧
        ∃ conn, d'.streams.lookup cs = some (newStream vip key conn) := by
  cases change_of_exec hexec with
  | same | close | clients => exact .inl hcs
  | stream x f => exact .inl (modifyStream_conns x f ▸ hcs)
  | register v key c hregisters =>
    rcases lookup_insert_eq_some.1 hcs with ⟨rfl, rfl⟩ | ⟨-, hold⟩
    · exact .inr ⟨key, hregisters, c, lookup_insert _⟩
    · exact .inl hold
  | unregister v => exact .inl (lookup_erase_eq_some.1 hcs).2

theorem exec_closed (hexec : d.exec op = some (d', result)) (hconn : conn ∈ d'.closed) :
    conn ∈ d.closed ∨ op.Closes d conn := by
  cases change_of_exec hexec with
  | same | unregister | clients => exact .inl hconn
  | stream x f => exact .inl (modifyStream_closed x f ▸ hconn)
  | register v key c _ _ _ hcloses =>
    rcases Finset.mem_union.1 hconn with hold | hreplaced
    · exact .inl hold
    · simp only [List.mem_toFinset] at hreplaced
      split at hreplaced
      · cases hreplaced
      next old hold => exact .inr (hcloses old conn hold hreplaced)
  | close c hcloses =>
    rcases Finset.mem_insert.1 hconn with rfl | hold
    · exact .inr hcloses
    · exact .inl hold

theorem Valid.exec_dataConn (h : d.Valid) (hexec : d.exec op = some (d', result))
    (hop : op.setsData cs = false) (hconn : d.getDataConn cs = some conn) :
    d'.getDataConn cs = some conn := by
  obtain ⟨stream, hstream, hdata⟩ := getDataConn_eq_some.1 hconn
  cases change_of_exec hexec with
  | same | unregister | close | clients => exact hconn
  | stream x f _ _ _ hsame =>
    by_cases heq : cs = x
    · subst heq
      exact getDataConn_eq_some.2 ⟨f stream,
        modifyStream_lookup.2 (.inl ⟨rfl, stream, hstream, rfl⟩), (hsame stream hop).trans hdata⟩
    · exact getDataConn_eq_some.2 ⟨stream, modifyStream_lookup.2 (.inr ⟨heq, hstream⟩), hdata⟩
  | register v key c =>
    exact getDataConn_eq_some.2
      ⟨stream, (lookup_insert_of_ne _ (h.fresh hstream)).trans hstream, hdata⟩

end DataTables

end Hy2Link.Server
