import Hy2Link.DhcpRoundTrip
import Hy2Link.PortNotations
import Hy2Link.Server.Relay

/-! # The planes of a UDP flow

Two sets of UDP ports have planes of their own: the matchmaking ports a stream,
the battle ports the datagrams of a connection.  The client chooses the plane of
a packet by its destination port, and the server chooses the plane of the answer
by the source port.  Each asks for the two sets in its own order.
-/

namespace Hy2Link

open Interleaving Config Config.Announcement Server Client Option

/-! ## The client -/

variable {port : UInt16}

namespace Client

/-- What the read loop of the client's TUN device looks at.  A stream is given
by whether there is one. -/
structure Forwarder where
  serverSplitEnabled : Bool
  gameTCPStream : Bool
  serverSplitPorts : Finset Int
  gameDatagramReady : Bool
  matchStream : Bool
  udpMatchRanges : List PortRange
  udpUnreliableRanges : List PortRange

namespace Forwarder

variable (c : Forwarder)

def isUDPMatchPort (port : UInt16) : Bool := c.udpMatchRanges.any (·.contains port.toNat)

def isUDPUnreliablePort (port : UInt16) : Bool :=
  c.udpUnreliableRanges.any (·.contains port.toNat)

/-- The queue that `forwardData` puts a packet into; a full queue drops it. -/
def forwardData (data : Packet) : Option Channel :=
  if data.length < 20 then none
  else if data.version ≠ 4 then none
  else
    match data.byte 9 with
    | 1 => some .icmp
    | 6 =>
      if c.serverSplitEnabled && c.gameTCPStream &&
          data.extractTCPDstPort.any (fun port => (port.toNat : Int) ∈ c.serverSplitPorts) then
        some .gameTCP
      else some .tcp
    | 17 =>
      if c.gameDatagramReady && data.extractUDPDstPort.any c.isUDPUnreliablePort then some .game
      else if c.matchStream && data.extractUDPDstPort.any c.isUDPMatchPort then some .matching
      else some .udp
    | _ => some .tcp

end Forwarder

theorem any_contains_iff :
    ranges.any (·.contains port.toNat) = true ↔ (port.toNat : Int) ∈ portSet ranges := by
  rw [List.any_eq_true]
  exact Iff.rfl

end Client

/-! ## The server -/

namespace Server

/-- The loop of `NewDataChannelServer` over a list of ports. -/
def portMap (ports : List Int) : List UInt16 :=
  ports.filterMap fun p => if 0 < p && p ≤ 65535 then some (.ofNat p.toNat) else none

def udpPortMap (enabled : Bool) (texts : List (List Char)) : List UInt16 :=
  portMap (if enabled then expandUDPSplitPorts texts else [])

/-- The data plane as `Start` sets it up.  `serverVIP` is the address of the TUN
device, if it could be made. -/
def relaySetup (config : Config.ServerConfig) (server : Setup) (serverVIP : Option IPv4) :
    RelaySetup where
  server := server
  serverVIP := serverVIP
  gamePorts := portMap (if config.tcpSplitEnabled then config.tcpSplitPorts else [])
  udpMatchPorts := udpPortMap config.udpReliableEnabled config.udpReliablePorts
  udpUnreliablePorts := udpPortMap config.udpUnreliableEnabled config.udpUnreliablePorts

theorem mem_portMap : port ∈ portMap ports ↔ (port.toNat : Int) ∈ ports ∧ 0 < port.toNat := by
  rw [portMap, List.mem_filterMap]
  simp only [Bool.and_eq_true, decide_eq_true_eq, ite_none_right_eq_some, some.injEq]
  constructor
  · rintro ⟨p, hp, ⟨hlow, hhigh⟩, rfl⟩
    have hport : (UInt16.ofNat p.toNat).toNat = p.toNat :=
      UInt16.toNat_ofNat_of_lt' (by simp only [UInt16.size]; omega)
    rw [hport]
    refine ⟨?_, by omega⟩
    rwa [Int.toNat_of_nonneg (by omega)]
  · rintro ⟨hmem, hpos⟩
    have := port.toNat_lt
    exact ⟨_, hmem, by omega, by simp⟩

theorem mem_udpPortMap :
    port ∈ udpPortMap enabled texts ↔ (port.toNat : Int) ∈ udpPorts enabled texts := by
  rw [udpPortMap, mem_portMap]
  cases enabled with
  | false => simp [udpPorts]
  | true =>
    simp only [if_true, udpPorts, Set.mem_ofPred_eq, true_and]
    rw [mem_expandUDPSplitPorts]
    refine and_iff_left_of_imp ?_
    rintro ⟨s, -, lo, hi, hrange, hlow, -⟩
    have := (bounds_of_parsePortRange hrange).1
    omega

/-- The channel that the TUN loop writes on, from one of its points.  The server
may be in another state at each step. -/
def tunSends (relay : RelaySetup) : ReaderPC → List ServerConfig → Option Channel
  | .write _ _ channel _, _ => some channel
  | _, [] => none
  | pc, cfg :: rest =>
    (readerStep relay cfg .tun none .go pc).bind fun outcome => tunSends relay outcome.pc rest

def ChannelUp (cfg : ServerConfig) (target : StreamId) (channel : Channel) : Prop :=
  ∃ conn, (cfg.shared.data.streams.lookup target).bind (·.endpoint channel) = some conn

structure PlanesUp (config : Config.ServerConfig) (cfg : ServerConfig) (target : StreamId) :
    Prop where
  udp : ChannelUp cfg target .udp
  matching : (udpPorts config.udpReliableEnabled config.udpReliablePorts).Nonempty →
    ChannelUp cfg target .matching
  game : (udpPorts config.udpUnreliableEnabled config.udpUnreliablePorts).Nonempty →
    ChannelUp cfg target .game

theorem tunSends_pointer (hup : ChannelUp cfg target channel) :
    tunSends relay (.pointer job target channel fallback) (cfg :: rest) = some channel := by
  obtain ⟨conn, hconn⟩ := hup
  simp [tunSends, readerStep, hconn, Outcome.go]

theorem tunSends_check (hup : ChannelUp cfg target .matching) :
    tunSends relay (.check job target channel fallback) (cfg :: rest) =
      tunSends relay (.pointer job target .matching [.udp]) rest := by
  obtain ⟨conn, hconn⟩ := hup
  obtain ⟨cs, hcs, hendpoint⟩ := bind_eq_some_iff.1 hconn
  obtain ⟨stream, hstream, -⟩ := map_eq_some_iff.1 hendpoint
  simp [tunSends, readerStep, hcs, hstream, Outcome.go]

theorem header_of_udpPort {pkt : Packet} (h : pkt.extractPort (some 17) offset = some port) :
    ¬ pkt.length < 20 ∧ pkt.version = 4 ∧ pkt.byte 9 = 17 ∧
      pkt.extractDstIPv4 = some (pkt.address 16) := by
  simp only [Packet.extractPort, ite_none_left_eq_some] at h
  obtain ⟨hlength, hversion, hprotocol, hihl, -⟩ := h
  rw [not_not] at hversion
  have hudp : pkt.byte 9 = 17 := by
    rw [any_some, decide_eq_true_eq, not_not] at hprotocol
    exact hprotocol.symm
  refine ⟨hlength, hversion, hudp, ?_⟩
  rw [Packet.extractDstIPv4, if_neg hlength, if_neg (not_not.2 hversion), if_neg (by omega)]

theorem tunSends_of_port {key : SessionKey} {first second third : ServerConfig}
    (hport : pkt.extractUDPSrcPort = some port) (hserver : relay.serverVIP ≠ some (pkt.address 16))
    (hreg : first.shared.data.lookup (pkt.address 16) = some (target, key))
    (hmatching : port ∈ relay.udpMatchPorts →
      ChannelUp second target .matching ∧ ChannelUp third target .matching)
    (hgame : port ∈ relay.udpUnreliablePorts → ChannelUp second target .game)
    (hudp : ChannelUp second target .udp) :
    tunSends relay (receiveTun relay pkt).pc [first, second, third] =
      if port ∈ relay.udpMatchPorts then some .matching
      else if port ∈ relay.udpUnreliablePorts then some .game
      else some .udp := by
  obtain ⟨hlength, hversion, hprotocol, hdst⟩ := header_of_udpPort hport
  have hread : (receiveTun relay pkt).pc = .lookup ⟨pkt, .tun pkt⟩ (pkt.address 16) := by
    simp [receiveTun, hlength, hversion, hdst, hserver, Outcome.go]
  have hroute : tunSends relay (.lookup ⟨pkt, .tun pkt⟩ (pkt.address 16)) [first, second, third] =
      tunSends relay (routeTun relay ⟨pkt, .tun pkt⟩ target) [second, third] := by
    simp [tunSends, readerStep, hreg, route, Outcome.go]
  rw [hread, hroute]
  simp only [routeTun, hprotocol, hport, any_some, decide_eq_true_eq]
  split
  next hmem =>
    rw [tunSends_check (hmatching hmem).1]
    exact tunSends_pointer (hmatching hmem).2
  next hmem =>
    split
    next hunreliable => exact tunSends_pointer (hgame hunreliable)
    next hunreliable => exact tunSends_pointer hudp

end Server

/-! ## Both directions -/

theorem forwardData_of_port {c : Client.Forwarder} (hport : data.extractUDPDstPort = some port)
    (hmatching : c.isUDPMatchPort port = true → c.matchStream = true)
    (hgame : c.isUDPUnreliablePort port = true → c.gameDatagramReady = true) :
    c.forwardData data =
      if c.isUDPUnreliablePort port then some .game
      else if c.isUDPMatchPort port then some .matching
      else some .udp := by
  obtain ⟨hlength, hversion, hprotocol, -⟩ := header_of_udpPort hport
  simp only [Client.Forwarder.forwardData, hlength, hversion, hprotocol, hport, if_false, ne_eq,
    not_true_eq_false, any_some, Bool.and_eq_true]
  cases hunreliable : c.isUDPUnreliablePort port with
  | true => simp [hgame hunreliable]
  | false =>
    cases hmatch : c.isUDPMatchPort port with
    | true => simp [hmatching hmatch]
    | false => simp

/-- The client has the configured ports, and a plane for each set that is not
empty. -/
structure ClientUp (config : Config.ServerConfig) (c : Client.Forwarder) : Prop where
  matchPorts : portSet c.udpMatchRanges =
    udpPorts config.udpReliableEnabled config.udpReliablePorts
  unreliablePorts : portSet c.udpUnreliableRanges =
    udpPorts config.udpUnreliableEnabled config.udpUnreliablePorts
  matchStream : (portSet c.udpMatchRanges).Nonempty → c.matchStream = true
  gameDatagramReady : (portSet c.udpUnreliableRanges).Nonempty → c.gameDatagramReady = true

/-- **Both directions of a UDP flow take the same plane unless its port has two.**
With the same port sets on both sides and all planes up, for every port: a packet
to the port leaves the client on the plane on which the TUN loop of the server
sends a packet from the port, if and only if the port is not in both sets. -/
theorem udp_planes_agree_iff (config : Config.ServerConfig) (server : Setup)
    (serverVIP : Option IPv4) (c : Client.Forwarder) (hclient : ClientUp config c)
    (port : UInt16) (request answer : Packet) (hrequest : request.extractUDPDstPort = some port)
    (hanswer : answer.extractUDPSrcPort = some port)
    (hserver : serverVIP ≠ some (answer.address 16)) (target : StreamId) (key : SessionKey)
    (first second third : Server.ServerConfig)
    (hreg : first.shared.data.lookup (answer.address 16) = some (target, key))
    (hup : ∀ cfg ∈ [first, second, third], PlanesUp config cfg target) :
    (∃ channel, c.forwardData request = some channel ∧
      tunSends (relaySetup config server serverVIP)
        (receiveTun (relaySetup config server serverVIP) answer).pc
          [first, second, third] = some channel) ↔
      ¬ ((port.toNat : Int) ∈ udpPorts config.udpReliableEnabled config.udpReliablePorts ∧
        (port.toNat : Int) ∈ udpPorts config.udpUnreliableEnabled config.udpUnreliablePorts) := by
  have hmatch : c.isUDPMatchPort port = true ↔
      (port.toNat : Int) ∈ udpPorts config.udpReliableEnabled config.udpReliablePorts := by
    rw [← hclient.matchPorts]
    exact any_contains_iff
  have hunreliable : c.isUDPUnreliablePort port = true ↔
      (port.toNat : Int) ∈ udpPorts config.udpUnreliableEnabled config.udpUnreliablePorts := by
    rw [← hclient.unreliablePorts]
    exact any_contains_iff
  have hsend := forwardData_of_port hrequest
    (fun h => hclient.matchStream ⟨_, any_contains_iff.1 h⟩)
    (fun h => hclient.gameDatagramReady ⟨_, any_contains_iff.1 h⟩)
  have hrelay : (relaySetup config server serverVIP).serverVIP ≠ some (answer.address 16) := hserver
  have hreturn := tunSends_of_port hanswer hrelay hreg
    (fun h => ⟨(hup second (by simp)).matching ⟨_, mem_udpPortMap.1 h⟩,
      (hup third (by simp)).matching ⟨_, mem_udpPortMap.1 h⟩⟩)
    (fun h => (hup second (by simp)).game ⟨_, mem_udpPortMap.1 h⟩) (hup second (by simp)).udp
  rw [hsend, hreturn]
  -- a port in both sets is the only one where the order of the questions counts
  by_cases hm : (port.toNat : Int) ∈ udpPorts config.udpReliableEnabled config.udpReliablePorts <;>
    by_cases hu : (port.toNat : Int) ∈
      udpPorts config.udpUnreliableEnabled config.udpUnreliablePorts <;>
    simp [relaySetup, mem_udpPortMap, hmatch, hunreliable, hm, hu]

/-! ## A port in both sets -/

def battleConfig : Config.ServerConfig :=
  { Config.ServerConfig.default with
    udpReliableEnabled := true
    udpReliablePorts := ["27015-27016".toList]
    udpUnreliableEnabled := true
    udpUnreliablePorts := ["27016-27017".toList] }

def battleClient : Client.Forwarder where
  serverSplitEnabled := false
  gameTCPStream := false
  serverSplitPorts := ∅
  gameDatagramReady := true
  matchStream := true
  udpMatchRanges := parsePortRanges battleConfig.udpReliablePorts
  udpUnreliableRanges := parsePortRanges battleConfig.udpUnreliablePorts

theorem battleClient_up : ClientUp battleConfig battleClient where
  matchPorts := by simp [battleClient, battleConfig, portSet_parsePortRanges, udpPorts]
  unreliablePorts := by simp [battleClient, battleConfig, portSet_parsePortRanges, udpPorts]
  matchStream := fun _ => rfl
  gameDatagramReady := fun _ => rfl

def battlePacket (port : UInt16) : Packet :=
  [0x45, 0, 0, 24, 0, 0, 0, 0, 64, 17, 0, 0, 10, 0, 0, 1, 10, 0, 0, 100,
    (port >>> 8).toUInt8, port.toUInt8, (port >>> 8).toUInt8, port.toUInt8]

def planesRun : List ServerAction :=
  annServedRun ++ connectRun 2 { annData with plane := some .dataMatch } 9 ++
    connectRun 3 { annData with plane := some .dataGame } 10

theorem planesUp_of_endpoints {config : Config.ServerConfig}
    (h : (cfg.shared.data.streams.lookup target).any fun cs =>
      (cs.endpoint .udp).isSome && (cs.endpoint .matching).isSome && (cs.endpoint .game).isSome) :
    PlanesUp config cfg target := by
  obtain ⟨cs, hcs, htest⟩ := (any_eq_true _ _).1 h
  simp only [Bool.and_eq_true] at htest
  have hup (channel : Channel) (hsome : (cs.endpoint channel).isSome = true) :
      ChannelUp cfg target channel := by
    obtain ⟨conn, hconn⟩ := isSome_iff_exists.1 hsome
    exact ⟨conn, by rw [hcs, bind_some, hconn]⟩
  exact ⟨hup _ htest.1.1, fun _ => hup _ htest.1.2, fun _ => hup _ htest.2⟩

/-- The client sends a port that is in both lists on the game plane, the server on
the one for matches. -/
theorem udp_planes_differ :
    ∃ cfg : Server.ServerConfig, run smallSetup.next smallSetup.initial planesRun = some cfg ∧
      battleConfig.validate = .ok () ∧ ClientUp battleConfig battleClient ∧
      PlanesUp battleConfig cfg 0 ∧
      battleClient.forwardData (battlePacket 27016) = some .game ∧
      tunSends (relaySetup battleConfig smallSetup (some 0x0a000001))
        (receiveTun (relaySetup battleConfig smallSetup (some 0x0a000001))
          (battlePacket 27016)).pc [cfg, cfg, cfg] = some .matching := by
  obtain ⟨cfg, hcfg, hplanes, hsent⟩ : ∃ cfg,
      run smallSetup.next smallSetup.initial planesRun = some cfg ∧
      (cfg.shared.data.streams.lookup 0).any (fun cs =>
        (cs.endpoint .udp).isSome && (cs.endpoint .matching).isSome &&
          (cs.endpoint .game).isSome) = true ∧
      tunSends (relaySetup battleConfig smallSetup (some 0x0a000001))
        (receiveTun (relaySetup battleConfig smallSetup (some 0x0a000001))
          (battlePacket 27016)).pc [cfg, cfg, cfg] = some .matching := by
    decide +kernel
  exact ⟨cfg, hcfg, by decide +kernel, battleClient_up, planesUp_of_endpoints hplanes,
    by decide +kernel, hsent⟩

theorem udp_planes_agree_27015 :
    ∃ cfg : Server.ServerConfig, run smallSetup.next smallSetup.initial planesRun = some cfg ∧
      ∃ channel, battleClient.forwardData (battlePacket 27015) = some channel ∧
        tunSends (relaySetup battleConfig smallSetup (some 0x0a000001))
          (receiveTun (relaySetup battleConfig smallSetup (some 0x0a000001))
            (battlePacket 27015)).pc [cfg, cfg, cfg] = some channel := by
  obtain ⟨cfg, hcfg, hplanes, hlookup⟩ : ∃ cfg,
      run smallSetup.next smallSetup.initial planesRun = some cfg ∧
      (cfg.shared.data.streams.lookup 0).any (fun cs =>
        (cs.endpoint .udp).isSome && (cs.endpoint .matching).isSome &&
          (cs.endpoint .game).isSome) = true ∧
      cfg.shared.data.lookup ((battlePacket 27015).address 16) = some (0, annData.key) := by
    decide +kernel
  refine ⟨cfg, hcfg, (udp_planes_agree_iff battleConfig smallSetup (some 0x0a000001) battleClient
    battleClient_up 27015 (battlePacket 27015) (battlePacket 27015) (by decide +kernel)
    (by decide +kernel) (by decide +kernel) 0 annData.key cfg cfg cfg hlookup ?_).2 ?_⟩
  · intro state hstate
    obtain rfl : state = cfg := by simpa using hstate
    exact planesUp_of_endpoints hplanes
  · rintro ⟨-, hunreliable⟩
    rw [← mem_udpPortMap] at hunreliable
    exact absurd hunreliable (by decide +kernel)

end Hy2Link
