import Hy2Link.Interleaving.Beside
import Hy2Link.Server.Packet
import Hy2Link.Server.Wiring

/-! # The packet relay

Six loops read packets from the connections of a client and write them to the
streams or datagrams of the client that is registered for the destination; one
more loop does the same for packets from the TUN device.  They run beside the
handlers: they look up registrations and pointers, and the only thing of the
server they change is the traffic of an account.

What a loop has done with its packets is kept in two lists: every packet that
was written to a client, with where it came from, and every packet that a
client loop is done with, with what it cost the account of the sender.
-/

namespace Hy2Link.Server

open Interleaving Option

/-- What packets travel on: five streams, and the datagrams of a connection. -/
inductive Channel
  | tcp | udp | matching | gameTCP | game | icmp
deriving DecidableEq

def Channel.plane : Channel → Plane
  | .tcp => .data
  | .udp => .data
  | .matching => .dataMatch
  | .gameTCP => .dataGameTCP
  | .game => .dataGame
  | .icmp => .ctrl

def ClientStream.endpoint (cs : ClientStream) : Channel → Option ConnId
  | .tcp => cs.tcpStream.map (·.conn)
  | .udp => cs.udpStream.map (·.conn)
  | .matching => cs.matchStream.map (·.conn)
  | .gameTCP => cs.gameTCPStream.map (·.conn)
  | .game => cs.gameConn
  | .icmp => cs.icmpStream.map (·.conn)

/-- `serverVIP` is the address of the TUN device, if there is one. -/
structure RelaySetup where
  server : Setup
  serverVIP : Option IPv4
  gamePorts : List UInt16
  udpMatchPorts : List UInt16
  udpUnreliablePorts : List UInt16

/-- A loop: the one of a client's channel on a connection, or the one of the
TUN device. -/
inductive Reader
  | client (loop : Channel) (conn : ConnId)
  | tun
deriving DecidableEq

/-- Where a packet to be written comes from.  `attached` says whether the
connection it was read from was, at that time, attached to the clientStream
registered for its source address. -/
inductive Origin
  | client (read : Packet) (attached : Bool)
  | tun (read : Packet)
  | echo (request : Packet)

structure Job where
  pkt : Packet
  origin : Origin

/-- The points of a loop.  `pointer` is the entry of a write function: it takes
the pointer of its channel or, if there is none, falls back on another. -/
inductive ReaderPC
  | reading
  | lookup (job : Job) (dst : IPv4)
  | check (job : Job) (target : StreamId) (channel : Channel) (fallback : List Channel)
  | pointer (job : Job) (target : StreamId) (channel : Channel) (fallback : List Channel)
  | write (job : Job) (target : StreamId) (channel : Channel) (conn : ConnId)
  | record (job : Job) (target : StreamId) (wrote : Bool)
  | returned

/-- `own` is the clientStream that the loop of a client was started for. -/
structure ReaderState where
  own : Option StreamId
  pc : ReaderPC

structure Written where
  pkt : Packet
  origin : Origin
  target : StreamId
  conn : ConnId

/-- A packet from a client that its loop is done with: for whom it was, whether
the write to that client returned no error, and by how much the traffic of the
sender's account has grown, if the account is known. -/
structure Handled where
  loop : Channel
  own : StreamId
  pkt : Packet
  target : Option StreamId
  wrote : Bool
  known : Bool
  gain : UInt64

structure Relay where
  readers : Table Reader ReaderState
  written : List Written
  handled : List Handled

def Relay.empty : Relay := ⟨∅, [], []⟩

/-- What comes from outside in a step: a packet that has arrived, or whether a
call fails. -/
inductive Input
  | packet (pkt : Packet)
  | fail
  | go

inductive RelayAction
  | start (reader : Reader) (own : Option StreamId)
  | step (reader : Reader) (input : Input)

/-! ## The steps of a loop -/

structure Outcome where
  pc : ReaderPC
  written : Option Written
  handled : Option Handled
  event : Option StoreEvent

def Outcome.go (pc : ReaderPC) : Outcome := ⟨pc, none, none, none⟩

def Store.used (s : Store) (username : String) : UInt64 :=
  ((s.lookup username).map User.usedBytes).getD 0

def DataTables.username (d : DataTables) (cs : StreamId) : String :=
  ((d.streams.lookup cs).map ClientStream.username).getD ""

def Store.after (s : Store) : Option StoreEvent → Store
  | none => s
  | some event => s.apply event

/-- The loop is done with a packet, with the last change it makes to the
accounts. -/
def handle (s : Shared) (loop : Channel) (own : StreamId) (pkt : Packet)
    (target : Option StreamId) (wrote : Bool) (event : Option StoreEvent) : Handled where
  loop := loop
  own := own
  pkt := pkt
  target := target
  wrote := wrote
  known := (s.users.lookup (s.data.username own)).isSome
  gain :=
    (s.users.after event).used (s.data.username own) - s.users.used (s.data.username own)

def Outcome.next (s : Shared) (reader : Reader) (own : Option StreamId) (job : Job)
    (target : Option StreamId) (wrote : Bool) (event : Option StoreEvent) : Outcome where
  pc := .reading
  written := none
  handled :=
    match reader, own, job.origin with
    | .client loop _, some cs, .client read _ => some (handle s loop cs read target wrote event)
    | .client loop _, some cs, .echo request => some (handle s loop cs request none false event)
    | _, _, _ => none
  event := event

/-- At the time of the call the connection is attached, on this channel, to the
clientStream registered for the address. -/
def attachedFor (d : DataTables) (vip : IPv4) (channel : Channel) (conn : ConnId) : Bool :=
  ((d.conns.lookup vip).bind d.streams.lookup).any fun cs => cs.endpoint channel = some conn

def clientJob (s : Shared) (loop : Channel) (conn : ConnId) (pkt : Packet) : Job :=
  ⟨pkt, .client pkt (attachedFor s.data pkt.source loop conn)⟩

section Program

variable (relay : RelaySetup) (s : Shared)

/-- The loops of a client up to their lookup.  The ICMP loop answers for the
server and does not drop broadcasts. -/
def receive (loop : Channel) (conn : ConnId) (own : StreamId) (pkt : Packet) : Outcome :=
  let job := clientJob s loop conn pkt
  let drop := Outcome.next s (.client loop conn) (some own) job none false none
  if pkt.length = 0 then .go .reading
  else
    match pkt.extractDstIPv4 with
    | none => drop
    | some dst =>
      if loop ≠ .icmp ∧ isBroadcastOrMulticast dst then drop
      else if relay.serverVIP = some dst then
        match loop, buildICMPEchoReply pkt with
        | .icmp, some resp => .go (.pointer ⟨resp, .echo pkt⟩ own .icmp [])
        | _, _ => drop
      else .go (.lookup job dst)

/-- `ServerTunReadLoop` up to its lookup. -/
def receiveTun (pkt : Packet) : Outcome :=
  if pkt.length < 20 then .go .reading
  else if pkt.version ≠ 4 then .go .reading
  else
    match pkt.extractDstIPv4 with
    | none => .go .reading
    | some dst =>
      if relay.serverVIP = some dst then .go .reading else .go (.lookup ⟨pkt, .tun pkt⟩ dst)

/-- Which write function the loop of a client calls. -/
def routeClient (job : Job) (target : StreamId) : Channel → ReaderPC
  | .tcp => .pointer job target .tcp []
  | .matching => .pointer job target .matching [.udp]
  | .gameTCP =>
    if job.pkt.extractTCPDstPort.any (· ∈ relay.gamePorts) then
      .pointer job target .gameTCP [.tcp]
    else .pointer job target .tcp []
  | .game => .pointer job target .game [.udp]
  | .udp =>
    if job.pkt.extractUDPDstPort.any (· ∈ relay.udpMatchPorts) then .check job target .udp []
    else .pointer job target .udp []
  | .icmp => .pointer job target .icmp []

/-- The TUN loop goes by the protocol and the source port. -/
def routeTun (job : Job) (target : StreamId) : ReaderPC :=
  let port := job.pkt.extractUDPSrcPort
  let unmatched : Channel × List Channel :=
    if port.any (· ∈ relay.udpUnreliablePorts) then (.game, [.udp]) else (.udp, [])
  match job.pkt.byte 9 with
  | 6 =>
    if job.pkt.extractTCPSrcPort.any (· ∈ relay.gamePorts) then
      .pointer job target .gameTCP [.tcp]
    else .pointer job target .tcp []
  | 17 =>
    if port.any (· ∈ relay.udpMatchPorts) then .check job target unmatched.1 unmatched.2
    else .pointer job target unmatched.1 unmatched.2
  | 1 => .pointer job target .icmp []
  | _ => .pointer job target .tcp []

def route (job : Job) (target : StreamId) : Reader → ReaderPC
  | .client loop _ => routeClient relay job target loop
  | .tun => routeTun relay job target

/-- The write itself: a frame that is too long and a closed connection make it
fail. -/
def writes (job : Job) (channel : Channel) (conn : ConnId) (input : Input) : Bool :=
  (match input with
    | .fail => false
    | _ => true) && conn ∉ s.data.closed && (channel = .game || job.pkt.length ≤ maxFrameSize)

/-- After the write.  The datagram loop records the traffic after an error of
`SendDatagram` as well, and the ICMP loop never does. -/
def afterWrite (reader : Reader) (own : Option StreamId) (job : Job) (target : StreamId)
    (channel : Channel) (ok : Bool) : Outcome :=
  match reader, job.origin with
  | .client loop _, .client _ _ =>
    if (ok ∧ loop ≠ .icmp) ∨ (¬ ok ∧ loop = .game ∧ channel = .game) then
      .go (.record job target ok)
    else .next s reader own job (some target) ok none
  | _, _ => .next s reader own job (some target) ok none

/-- `recordTraffic`, of which the counters of the panel are left out. -/
def recordTraffic (own : Option StreamId) (size : Nat) : Option StoreEvent :=
  own.map fun cs => .addTraffic (s.data.username cs) (.ofNat size)

end Program

/-- The loop can read: the stream is alive, or the datagram loop of the handler
is at its receive call. -/
def readable (cfg : ServerConfig) (own : Option StreamId) : Reader → Bool
  | .client .game conn =>
    match cfg.threads.lookup (.datagrams conn), own with
    | some (.datagrams cs .receiving), some x => cs = x
    | _, _ => false
  | .client _ conn => conn ∉ cfg.shared.data.closed
  | .tun => true

def readerStep (relay : RelaySetup) (cfg : ServerConfig) (reader : Reader)
    (own : Option StreamId) (input : Input) : ReaderPC → Option Outcome
  | .reading =>
    match input, reader, own with
    | .fail, _, _ => some (.go .returned)
    | .packet pkt, .client loop conn, some cs =>
      if readable cfg own reader ∧ (loop = .game ∨ pkt.length ≤ maxFrameSize) then
        some (receive relay cfg.shared loop conn cs pkt)
      else none
    | .packet pkt, .tun, _ => some (receiveTun relay pkt)
    | _, _, _ => none
  | .lookup job dst =>
    match cfg.shared.data.lookup dst with
    | none => some (.next cfg.shared reader own job none false none)
    | some (target, _) => some (.go (route relay job target reader))
  | .check job target channel fallback =>
    match (cfg.shared.data.streams.lookup target).bind (·.matchStream) with
    | some _ => some (.go (.pointer job target .matching [.udp]))
    | none => some (.go (.pointer job target channel fallback))
  | .pointer job target channel fallback =>
    match (cfg.shared.data.streams.lookup target).bind (·.endpoint channel), fallback with
    | some conn, _ => some (.go (.write job target channel conn))
    | none, next :: rest => some (.go (.pointer job target next rest))
    | none, [] => some (.next cfg.shared reader own job (some target) false none)
  | .write job target channel conn =>
    some
      { afterWrite cfg.shared reader own job target channel
          (writes cfg.shared job channel conn input) with
        written := some ⟨job.pkt, job.origin, target, conn⟩ }
  | .record job target wrote =>
    some (.next cfg.shared reader own job (some target) wrote
      (recordTraffic cfg.shared own job.pkt.length))
  | .returned => none

/-- A handler starts the loops of its connection when it has put it into the
clientStream. -/
def startable (relay : RelaySetup) (cfg : ServerConfig) : Reader → Option StreamId → Bool
  | .client loop conn, some cs =>
    match cfg.threads.lookup (.plane conn) with
    | some (.plane reg (.serving x)) => x = cs && reg.plane = some loop.plane
    | some (.plane reg (.attached x)) => x = cs && reg.plane = some loop.plane
    | _ => false
  | .tun, none => relay.serverVIP.isSome
  | _, _ => false

def Relay.advance (setup : RelaySetup) (cfg : ServerConfig) (relay : Relay) :
    RelayAction → Option (Relay × Option ServerAction)
  | .start reader own =>
    if (relay.readers.lookup reader).isNone ∧ startable setup cfg reader own then
      some ({ relay with readers := relay.readers.insert reader ⟨own, .reading⟩ }, none)
    else none
  | .step reader input =>
    (relay.readers.lookup reader).bind fun state =>
      (readerStep setup cfg reader state.own input state.pc).map fun outcome =>
        ({ readers := relay.readers.insert reader ⟨state.own, outcome.pc⟩
           written := outcome.written.toList ++ relay.written
           handled := outcome.handled.toList ++ relay.handled },
          outcome.event.map fun e => .env (.store e))

abbrev RelayConfig := Joint ServerConfig Relay

abbrev RelayTurn := Turn ServerAction RelayAction

def RelaySetup.next (relay : RelaySetup) : RelayConfig → RelayTurn → Option RelayConfig :=
  joint relay.server.next (Relay.advance relay)

def RelaySetup.initial (relay : RelaySetup) : RelayConfig := ⟨relay.server.initial, .empty⟩

def ReaderPC.job : ReaderPC → Option Job
  | .lookup job _ => some job
  | .check job _ _ _ => some job
  | .pointer job _ _ _ => some job
  | .write job _ _ _ => some job
  | .record job _ _ => some job
  | _ => none

theorem job_route (relay : RelaySetup) (job : Job) (target : StreamId) (reader : Reader) :
    (route relay job target reader).job = some job ∧
      ∀ job' target' wrote, route relay job target reader ≠ .record job' target' wrote := by
  cases reader with
  | client loop conn =>
    cases loop <;> simp only [route, routeClient]
    case udp | gameTCP => split <;> exact ⟨rfl, nofun⟩
    all_goals exact ⟨rfl, nofun⟩
  | tun =>
    simp only [route, routeTun]
    repeat' split
    all_goals exact ⟨rfl, nofun⟩

/-! ## The edges of a loop -/

section

variable (relay : RelaySetup) (cfg : ServerConfig) (reader : Reader) (own : Option StreamId)
  (input : Input)

inductive ReaderEdge : ReaderPC → Outcome → Prop
  | stopped : ReaderEdge .reading (.go .returned)
  | skipped : ReaderEdge .reading (.go .reading)
  | dropped
      (hreader : reader = .client loop conn) (hown : own = some cs)
      (hinput : input = .packet pkt) :
      ReaderEdge .reading
        (.next cfg.shared reader own (clientJob cfg.shared loop conn pkt) none false none)
  | accepted
      (hreader : reader = .client loop conn) (hown : own = some cs)
      (hinput : input = .packet pkt) :
      ReaderEdge .reading
        (.go (.lookup (clientJob cfg.shared loop conn pkt) dst))
  | answered
      (hreader : reader = .client .icmp conn) (hown : own = some cs)
      (hreply : buildICMPEchoReply pkt = some resp) :
      ReaderEdge .reading
        (.go (.pointer ⟨resp, .echo pkt⟩ cs .icmp []))
  | acceptedTun (hreader : reader = .tun) : ReaderEdge .reading (.go (.lookup ⟨pkt, .tun pkt⟩ dst))
  | unregistered (hlookup : cfg.shared.data.lookup dst = none) : ReaderEdge (.lookup job dst)
        (.next cfg.shared reader own job none false none)
  | routed {job : Job} {dst : IPv4} {target : StreamId} {key : SessionKey}
      (hlookup : cfg.shared.data.lookup dst = some (target, key)) :
      ReaderEdge (.lookup job dst)
        (.go (route relay job target reader))
  | checked : ReaderEdge (.check job target channel fallback)
        (.go (.pointer job target next rest))
  | pointed
      (hpointer : (cfg.shared.data.streams.lookup target).bind (·.endpoint channel) = some conn) :
      ReaderEdge (.pointer job target channel fallback)
        (.go (.write job target channel conn))
  | fellBack : ReaderEdge (.pointer job target channel (next :: rest))
        (.go (.pointer job target next rest))
  | notReady : ReaderEdge (.pointer job target channel [])
        (.next cfg.shared reader own job (some target) false none)
  | charges {job : Job} {target : StreamId} {channel loop : Channel} {conn c : ConnId}
      {read : Packet} {attached : Bool} (hreader : reader = .client loop c)
      (horigin : job.origin = .client read attached)
      (hcharges : writes cfg.shared job channel conn input = true ∧ loop ≠ .icmp ∨
        writes cfg.shared job channel conn input = false ∧ loop = .game ∧ channel = .game) :
      ReaderEdge (.write job target channel conn)
        { Outcome.go (.record job target (writes cfg.shared job channel conn input)) with
          written := some ⟨job.pkt, job.origin, target, conn⟩ }
  | finishes {job : Job} {target : StreamId} {channel : Channel} {conn : ConnId}
      (hfinishes : ∀ loop c read attached, reader = .client loop c →
        job.origin = .client read attached →
        writes cfg.shared job channel conn input = true → loop = .icmp) :
      ReaderEdge (.write job target channel conn)
        { Outcome.next cfg.shared reader own job (some target)
            (writes cfg.shared job channel conn input) none with
          written := some ⟨job.pkt, job.origin, target, conn⟩ }
  | recorded : ReaderEdge (.record job target wrote)
        (.next cfg.shared reader own job (some target) wrote
          (recordTraffic cfg.shared own job.pkt.length))

end

theorem readerEdge_receive :
    ReaderEdge relay cfg (.client loop conn) (some cs) (.packet pkt) .reading
      (receive relay cfg.shared loop conn cs pkt) := by
  unfold receive
  split
  · exact .skipped
  · split
    · exact .dropped rfl rfl rfl
    · split
      · exact .dropped rfl rfl rfl
      · split
        · split
          · exact .answered rfl rfl ‹buildICMPEchoReply pkt = some _›
          · exact .dropped rfl rfl rfl
        · exact .accepted rfl rfl rfl

theorem readerEdge_receiveTun :
    ReaderEdge relay cfg .tun own (.packet pkt) .reading (receiveTun relay pkt) := by
  unfold receiveTun
  split
  · exact .skipped
  · split
    · exact .skipped
    · split
      · exact .skipped
      · split
        · exact .skipped
        · exact .acceptedTun rfl

theorem readerEdge_write :
    ReaderEdge relay cfg reader own input (.write job target channel conn)
      { afterWrite cfg.shared reader own job target channel
          (writes cfg.shared job channel conn input) with
        written := some ⟨job.pkt, job.origin, target, conn⟩ } := by
  unfold afterWrite
  split
  next loop c read attached horigin =>
    split
    next hcharges =>
      refine .charges rfl horigin ?_
      simpa [Bool.not_eq_true] using hcharges
    next hfinishes =>
      refine .finishes fun loop' c' read' attached' hreader _ hwrites => ?_
      cases hreader
      by_contra hne
      exact hfinishes (.inl ⟨hwrites, hne⟩)
  next hother =>
    exact .finishes fun loop c read attached hreader horigin _ =>
      absurd horigin (hother loop c read attached hreader)

theorem readerEdge_of_step (hstep : readerStep relay cfg reader own input pc = some outcome) :
    ReaderEdge relay cfg reader own input pc outcome := by
  cases pc with
  | reading =>
    simp only [readerStep] at hstep
    split at hstep
    · cases hstep
      exact .stopped
    · split at hstep <;> cases hstep
      · exact readerEdge_receive
    · cases hstep
      exact readerEdge_receiveTun
    · cases hstep
  | lookup job dst =>
    simp only [readerStep] at hstep
    split at hstep <;> cases hstep
    next hlookup =>
      exact .unregistered hlookup
    next target key hlookup =>
      exact .routed hlookup
  | check job target channel fallback =>
    simp only [readerStep] at hstep
    split at hstep <;>
    · cases hstep
      exact .checked
  | pointer job target channel fallback =>
    simp only [readerStep] at hstep
    split at hstep <;> cases hstep
    next conn hpointer =>
      exact .pointed hpointer
    · exact .fellBack
    · exact .notReady
  | write job target channel conn =>
    cases hstep
    exact readerEdge_write
  | record job target wrote =>
    cases hstep
    exact .recorded
  | returned => cases hstep

/-! ## What a turn does -/

inductive RelayStep (relay : RelaySetup) (cfg : RelayConfig) : RelayTurn → RelayConfig → Prop
  | server
      (hnext : relay.server.next cfg.main action = some main) :
      RelayStep relay cfg (.main action) ⟨main, cfg.side⟩
  | start
      (hfresh : cfg.side.readers.lookup reader = none)
      (hstart : startable relay cfg.main reader own = true) :
      RelayStep relay cfg (.side (.start reader own))
        ⟨cfg.main, { cfg.side with readers := cfg.side.readers.insert reader ⟨own, .reading⟩ }⟩
  | step {reader : Reader} {input : Input} {state : ReaderState} {outcome : Outcome}
      (hreader : cfg.side.readers.lookup reader = some state)
      (hedge : ReaderEdge relay cfg.main reader state.own input state.pc outcome) :
      RelayStep relay cfg (.side (.step reader input))
        ⟨{ cfg.main with
            shared :=
              { cfg.main.shared with users := cfg.main.shared.users.after outcome.event } },
          { readers := cfg.side.readers.insert reader ⟨state.own, outcome.pc⟩
            written := outcome.written.toList ++ cfg.side.written
            handled := outcome.handled.toList ++ cfg.side.handled }⟩

/-- Everything that a turn of the relay can do. -/
theorem relayStep_of_next (h : relay.next cfg turn = some cfg') :
    RelayStep relay cfg turn cfg' := by
  cases jointStep_of_joint h with
  | main hnext => exact .server hnext
  | @look action side hadvance =>
    cases action with
    | start reader own =>
      simp only [Relay.advance, ite_none_right_eq_some, isNone_iff_eq_none,
        some.injEq, Prod.mk.injEq, and_true] at hadvance
      obtain ⟨⟨hfresh, hstart⟩, rfl⟩ := hadvance
      exact .start hfresh hstart
    | step reader input =>
      obtain ⟨state, hreader, hmap⟩ := bind_eq_some_iff.1 hadvance
      obtain ⟨outcome, hstep, heq⟩ := map_eq_some_iff.1 hmap
      obtain ⟨rfl, hevent⟩ := Prod.mk.inj heq
      have hstay := RelayStep.step hreader (readerEdge_of_step hstep)
      rw [map_eq_none_iff.1 hevent] at hstay
      exact hstay
  | @act effect action main side hadvance hnext =>
    cases action with
    | start reader own =>
      simp only [Relay.advance, ite_none_right_eq_some, some.injEq,
        Prod.mk.injEq, reduceCtorEq, and_false] at hadvance
    | step reader input =>
      obtain ⟨state, hreader, hmap⟩ := bind_eq_some_iff.1 hadvance
      obtain ⟨outcome, hstep, heq⟩ := map_eq_some_iff.1 hmap
      obtain ⟨rfl, hevent⟩ := Prod.mk.inj heq
      obtain ⟨event, hsome, rfl⟩ := map_eq_some_iff.1 hevent
      have hmove := RelayStep.step hreader (readerEdge_of_step hstep)
      rw [hsome] at hmove
      obtain ⟨shared, henv, rfl⟩ := next_env.1 hnext
      cases henv
      exact hmove

/-! ## Pieces of runs -/

def smallRelay : RelaySetup where
  server := smallSetup
  serverVIP := some 0x0a000001
  gamePorts := [7777]
  udpMatchPorts := [27015]
  udpUnreliablePorts := [7778]

def bobBeside : Registration := { bobData with vip := 0x0a000065 }

def pairRun : List RelayTurn :=
  (loginRun 0 annData.peerIP "ann:pw" ++ requestRun 0 annData.key "dev" ++
    loginRun 1 bobBeside.peerIP "bob:pw" ++ requestRun 1 bobBeside.key "dev2" ++
    connectRun 1 annData 11 ++ connectRun 2 bobBeside 11).map .main

/-- A bare IPv4 header with the protocol, the last byte of the source and the
destination Bob. -/
def toBob (protocol source : UInt8) : Packet :=
  [0x45, 0, 0, 20, 0, 0, 0, 0, 64, protocol, 0, 0, 10, 0, 0, source, 10, 0, 0, 101]

def forwardRun (loop : Channel) (conn : ConnId) (own : StreamId) (pkt : Packet) (n : Nat) :
    List RelayTurn :=
  .side (.start (.client loop conn) (some own)) ::
    .side (.step (.client loop conn) (.packet pkt)) ::
    List.replicate n (.side (.step (.client loop conn) .go))

end Hy2Link.Server
