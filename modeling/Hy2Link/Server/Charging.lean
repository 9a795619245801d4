import Hy2Link.Server.Relay

/-! # What the relay charges

Four of the loops charge the sender after a write that returned no error, and
only then.  The datagram loop goes on to `recordTraffic` after an error of
`SendDatagram` too, and the ICMP loop never calls it.

`forwarding_charged_exactly` holds for the runs in which `SendDatagram` does
not fail and the ICMP loop forwards nothing to other clients.
-/

namespace Hy2Link.Server

open Interleaving

/-- A packet to another client has cost the account of its sender the length of
the packet if the write returned no error, and nothing otherwise. -/
def Handled.Exact (h : Handled) : Prop :=
  h.target ≠ some h.own → h.known = true →
    h.gain = if h.wrote then .ofNat h.pkt.length else 0

def ChargesExact (cfg : RelayConfig) : Prop := ∀ h ∈ cfg.side.handled, h.Exact

def Origin.isEcho : Origin → Bool
  | .echo _ => true
  | _ => false

/-- A write of the ICMP loop to another client fails, and a datagram that the
game loop sends to another client does not. -/
def chargesRight (cfg : RelayConfig) : RelayTurn → Bool
  | .side (.step (.client loop c) input) =>
    match cfg.side.readers.lookup (.client loop c) with
    | some ⟨own, .write job target channel conn⟩ =>
      own = some target ||
        (match loop with
          | .icmp => job.origin.isEcho || !writes cfg.main.shared job channel conn input
          | .game => channel ≠ .game || writes cfg.main.shared job channel conn input
          | _ => true)
    | _ => true
  | _ => true

/-! ## The account of the sender -/

theorem used_addTraffic {s : Store} (delta : UInt64) (hknown : (s.lookup username).isSome = true) :
    (s.addTraffic username delta).used username = s.used username + delta := by
  obtain ⟨u, hu⟩ := Option.isSome_iff_exists.1 hknown
  simp [Store.addTraffic, Store.modify, Store.used, hu]

theorem gain_none (s : Shared) (loop : Channel) (own : StreamId) (pkt : Packet)
    (target : Option StreamId) (wrote : Bool) :
    (handle s loop own pkt target wrote none).gain = 0 := by
  simp [handle, Store.after]

theorem gain_recordTraffic {wrote : Bool}
    (hknown : (handle s loop own pkt target wrote (recordTraffic s (some own) size)).known = true) :
    (handle s loop own pkt target wrote (recordTraffic s (some own) size)).gain = .ofNat size := by
  have hused := used_addTraffic (.ofNat size) hknown
  simp only [handle, recordTraffic, Option.map_some, Store.after, Store.apply, hused]
  rw [UInt64.add_comm, UInt64.add_sub_cancel]

/-! ## The loops -/

/-- What a loop knows about the packet it is working on: it is the one that was
read, and traffic is recorded for packets of clients that were written. -/
structure ReaderPC.Charged (own : Option StreamId) (pc : ReaderPC) : Prop where
  read : ∀ job ∈ pc.job, ∀ read attached, job.origin = .client read attached → read = job.pkt
  record : ∀ job target wrote, pc = .record job target wrote →
    (∃ attached, job.origin = .client job.pkt attached) ∧ (wrote = true ∨ own = some target)

def ChargedWrite (s : Shared) (reader : Reader) (own : Option StreamId) (input : Input)
    (pc : ReaderPC) : Prop :=
  ∀ loop c job target channel conn, reader = .client loop c →
    pc = .write job target channel conn → own ≠ some target →
    (loop = .icmp → job.origin.isEcho = true ∨ writes s job channel conn input = false) ∧
      (loop = .game → channel ≠ .game ∨ writes s job channel conn input = true)

theorem ReaderEdge.charged (h : ReaderEdge relay cfg reader own input pc outcome)
    (hpc : pc.Charged own) (hok : ChargedWrite cfg.shared reader own input pc) :
    outcome.pc.Charged own := by
  cases h with
  | stopped | skipped | dropped | unregistered | notReady | finishes | recorded =>
    exact ⟨nofun, nofun⟩
  | accepted hreader hown hinput =>
    refine ⟨fun job hjob read attached horigin => ?_, nofun⟩
    cases hjob
    cases horigin
    rfl
  | answered | acceptedTun =>
    refine ⟨fun job hjob read attached horigin => ?_, nofun⟩
    cases hjob
    cases horigin
  | @routed job dst target key hlookup =>
    obtain ⟨hjob, hne⟩ := job_route relay job target reader
    refine ⟨fun job' hjob' => ?_, fun _ _ _ heq => absurd heq (hne _ _ _)⟩
    rw [Outcome.go, hjob] at hjob'
    cases hjob'
    exact hpc.read job rfl
  | checked | pointed | fellBack => exact ⟨hpc.read, nofun⟩
  | @charges job target channel loop conn c read attached hreader horigin hcharges =>
    refine ⟨hpc.read, fun job' target' wrote heq => ?_⟩
    cases heq
    refine ⟨⟨attached, ?_⟩, ?_⟩
    · rw [horigin, hpc.read job rfl read attached horigin]
    · -- an error is recorded only by the game loop
      by_cases hself : own = some target
      · exact .inr hself
      · left
        rcases hcharges with ⟨hwrites, -⟩ | ⟨hfails, hgame, hchannel⟩
        · exact hwrites
        · exact ((hok loop c job target channel conn hreader rfl hself).2 hgame).resolve_left
            fun hne => hne hchannel

theorem exact_of_not_wrote (hh : h ∈ (Outcome.next s reader own job target false none).handled) :
    h.Exact := by
  intro _ _
  simp only [Outcome.next] at hh
  split at hh <;> cases hh
  · exact gain_none _ _ _ _ _ _
  · exact gain_none _ _ _ _ _ _

theorem ReaderEdge.exact (h : ReaderEdge relay cfg reader own input pc outcome)
    (hpc : pc.Charged own) (hok : ChargedWrite cfg.shared reader own input pc)
    (hh : h' ∈ outcome.handled) : h'.Exact := by
  cases h with
  | stopped | skipped | accepted | answered | acceptedTun | routed | checked | pointed
  | fellBack | charges => cases hh
  | dropped | unregistered | notReady => exact exact_of_not_wrote hh
  | @finishes job target channel conn hfinishes =>
    cases hwrites : writes cfg.shared job channel conn input with
    | false =>
      rw [hwrites] at hh
      exact exact_of_not_wrote hh
    | true =>
      rw [hwrites] at hh
      simp only [Outcome.next] at hh
      split at hh
      next loop c cs read attached horigin =>
        -- a write that is not charged is one of the ICMP loop
        cases hh
        intro hother _
        obtain rfl := hfinishes loop c read attached rfl horigin hwrites
        have hself : some cs ≠ some target := fun heq => hother heq.symm
        rcases (hok .icmp c job target channel conn rfl rfl hself).1 rfl with hecho | hfails
        · rw [horigin] at hecho
          cases hecho
        · simp [hwrites] at hfails
      · cases hh
        exact fun _ _ => gain_none _ _ _ _ _ _
      · cases hh
  | @recorded job target wrote =>
    obtain ⟨⟨attached, horigin⟩, hwrote⟩ := hpc.record job target wrote rfl
    simp only [Outcome.next, horigin] at hh
    split at hh
    next loop c cs read attached' heq =>
      cases heq
      cases hh
      intro hother hknown
      obtain rfl : wrote = true := hwrote.resolve_right fun heq => hother heq.symm
      exact gain_recordTraffic hknown
    next heq => cases heq
    · cases hh

theorem chargedWrite_of_chargesRight (hreader : cfg.side.readers.lookup reader = some state)
    (hok : chargesRight cfg (.side (.step reader input)) = true) :
    ChargedWrite cfg.main.shared reader state.own input state.pc := by
  obtain ⟨own, pc⟩ := state
  rintro loop c job target channel conn rfl rfl hself
  simp only [chargesRight, hreader, hself, decide_false, Bool.false_or] at hok
  constructor
  · rintro rfl
    simpa using hok
  · rintro rfl
    simpa using hok

/-- The loops know their packets, and the packets they are done with were
charged exactly. -/
structure RelayCharged (cfg : RelayConfig) : Prop where
  readers : ∀ reader state, cfg.side.readers.lookup reader = some state →
    state.pc.Charged state.own
  handled : ChargesExact cfg

theorem RelayCharged.step (h : RelayCharged cfg) (hok : chargesRight cfg turn = true)
    (hstep : RelayStep relay cfg turn cfg') : RelayCharged cfg' := by
  cases hstep with
  | server hnext => exact ⟨h.readers, h.handled⟩
  | start hfresh hstart =>
    refine ⟨fun reader state hreader => ?_, h.handled⟩
    rcases lookup_insert_eq_some.1 hreader with ⟨rfl, rfl⟩ | ⟨-, hold⟩
    · exact ⟨nofun, nofun⟩
    · exact h.readers reader state hold
  | @step reader input state outcome hreader hedge =>
    have hwrite := chargedWrite_of_chargesRight hreader hok
    have hpc := h.readers reader state hreader
    refine ⟨fun other state' hother => ?_, fun h' hh => ?_⟩
    · rcases lookup_insert_eq_some.1 hother with ⟨rfl, rfl⟩ | ⟨-, hold⟩
      · exact hedge.charged hpc hwrite
      · exact h.readers other state' hold
    · rcases List.mem_append.1 hh with hnew | hold
      · exact hedge.exact hpc hwrite (Option.mem_toList.1 hnew)
      · exact h.handled h' hold

/-- In every run in which datagrams are sent without an error and the ICMP loop
forwards nothing to other clients, every packet to another client is charged
exactly. -/
theorem forwarding_charged_exactly (relay : RelaySetup) (turns : List RelayTurn)
    (cfg : RelayConfig)
    (hsteps : Along relay.next (fun cfg turn => chargesRight cfg turn = true) relay.initial turns)
    (hrun : run relay.next relay.initial turns = some cfg) : ChargesExact cfg := by
  have hkept : ∀ s turn next, RelayCharged s → chargesRight s turn = true →
      relay.next s turn = some next → RelayCharged next :=
    fun s turn next hs hok hnext => hs.step hok (relayStep_of_next hnext)
  have hinitial : RelayCharged relay.initial := by
    refine ⟨fun reader state hreader => ?_, nofun⟩
    cases hreader
  exact (run_invariant hkept hinitial hsteps hrun).handled

/-! ## Packets that are charged wrongly -/

/-- The packet was for another client of a known account, and the gain is not
what it should be. -/
def Handled.wrong (h : Handled) : Bool :=
  h.target ≠ some h.own && h.known && h.gain ≠ if h.wrote then .ofNat h.pkt.length else 0

def pingedRun : List RelayTurn :=
  pairRun ++ (connectRun 3 { annData with plane := some .ctrl } 9 ++
    connectRun 4 { bobBeside with plane := some .ctrl } 9).map .main ++
    forwardRun .icmp 3 0 (toBob 1 100) 3

/-- The packet was written to Bob's stream, and nothing was charged. -/
theorem ping_not_charged :
    ¬ ∀ (relay : RelaySetup) turns cfg,
      run relay.next relay.initial turns = some cfg → ChargesExact cfg := by
  intro h
  obtain ⟨cfg, hcfg, hany⟩ : ∃ cfg, run smallRelay.next smallRelay.initial pingedRun = some cfg ∧
      cfg.side.handled.any Handled.wrong = true := by
    decide +kernel
  obtain ⟨w, hw, hwrong⟩ := List.any_eq_true.1 hany
  simp only [Handled.wrong, Bool.and_eq_true, decide_eq_true_eq] at hwrong
  exact hwrong.2 (h smallRelay pingedRun cfg hcfg w hw hwrong.1.1 hwrong.1.2)

/-- Both have game connections, and Bob's has been closed when Ann's datagram
loop forwards a packet. -/
def lostDatagramRun : List RelayTurn :=
  let connects : List ServerAction :=
    connectRun 3 { annData with plane := some .dataGame } 10 ++
      connectRun 4 { bobBeside with plane := some .dataGame } 10 ++
      [.spawn (.datagrams 3) (.datagrams 0 .receiving), .env (.closeConn 4)]
  pairRun ++ connects.map .main ++ forwardRun .game 3 0 (toBob 17 100) 4

-- a datagram that could not be sent is charged all the same
example : (run smallRelay.next smallRelay.initial lostDatagramRun).any (fun cfg =>
    cfg.side.handled.any fun h => h.wrong && !h.wrote && h.gain = 20) = true := by
  decide +kernel

def chargedRun : List RelayTurn := pairRun ++ forwardRun .tcp 1 0 (toBob 6 100) 4

theorem forwarding_charged_exactly_tcp :
    ∃ cfg, run smallRelay.next smallRelay.initial chargedRun = some cfg ∧
      (cfg.side.handled.map fun h => (h.target, h.wrote, h.known)) = [(some 1, true, true)] ∧
      ChargesExact cfg := by
  obtain ⟨cfg, hcfg, hhandled⟩ : ∃ cfg,
      run smallRelay.next smallRelay.initial chargedRun = some cfg ∧
      (cfg.side.handled.map fun h => (h.target, h.wrote, h.known)) = [(some 1, true, true)] := by
    decide +kernel
  exact ⟨cfg, hcfg, hhandled,
    forwarding_charged_exactly smallRelay chargedRun cfg (by decide +kernel) hcfg⟩

end Hy2Link.Server
