import Hy2Link.Server.Relay

/-! # The source addresses of relayed packets

No loop of the relay looks at the source address of a packet, so a client can
send packets in the name of any address.  The relay itself adds nothing to
that: what it writes to a client is a packet as it was read, or an echo reply
that it has built.

`relayed_sources_sound` holds for the runs in which every packet is read from
a connection that is attached to the clientStream registered for the packet's
source address, which a check at the read could establish.
-/

namespace Hy2Link.Server

open Interleaving

/-- The packet is the one that was read, from a connection attached for its
source address or from the TUN device, or it is the reply to an echo request. -/
def Origin.Sound (pkt : Packet) : Origin → Prop
  | .client read attached => read = pkt ∧ attached = true
  | .tun read => read = pkt
  | .echo request => buildICMPEchoReply request = some pkt

def SourcesSound (cfg : RelayConfig) : Prop := ∀ w ∈ cfg.side.written, w.origin.Sound w.pkt

/-- A packet that a client loop reads carries the address of the loop's own
clientStream, which is registered for it with the loop's connection. -/
def readsOwn (cfg : RelayConfig) : RelayTurn → Bool
  | .side (.step (.client loop conn) (.packet pkt)) =>
    match cfg.side.readers.lookup (.client loop conn) with
    | some ⟨some cs, .reading⟩ =>
      (cfg.main.shared.data.streams.lookup cs).any fun stream =>
        pkt.source = stream.vip && cfg.main.shared.data.conns.lookup stream.vip = some cs &&
          stream.endpoint loop = some conn
    | _ => true
  | _ => true

def ReaderPC.Sound (pc : ReaderPC) : Prop := ∀ job ∈ pc.job, job.origin.Sound job.pkt

theorem attachedFor_of_readsOwn
    (hreader : cfg.side.readers.lookup (.client loop conn) = some ⟨some cs, .reading⟩)
    (hok : readsOwn cfg (.side (.step (.client loop conn) (.packet pkt))) = true) :
    attachedFor cfg.main.shared.data pkt.source loop conn = true := by
  simp only [readsOwn, hreader, Option.any_eq_true, Bool.and_eq_true, decide_eq_true_eq] at hok
  obtain ⟨stream, hstream, ⟨hsource, hcs⟩, hendpoint⟩ := hok
  rw [attachedFor, hsource, hcs]
  simp [hstream, hendpoint]

theorem ReaderEdge.sound (h : ReaderEdge relay cfg reader own input pc outcome) (hpc : pc.Sound)
    (hread : ∀ loop conn cs pkt, reader = .client loop conn → own = some cs →
      input = .packet pkt → pc = .reading →
      attachedFor cfg.shared.data pkt.source loop conn = true) :
    outcome.pc.Sound ∧ ∀ w ∈ outcome.written, w.origin.Sound w.pkt := by
  cases h with
  | stopped | skipped | dropped | unregistered | notReady | recorded => exact ⟨nofun, nofun⟩
  | accepted hreader hown hinput =>
    refine ⟨fun job hjob => ?_, nofun⟩
    cases hjob
    exact ⟨rfl, hread _ _ _ _ hreader hown hinput rfl⟩
  | answered hreader hown hreply =>
    refine ⟨fun job hjob => ?_, nofun⟩
    cases hjob
    exact hreply
  | acceptedTun hreader =>
    refine ⟨fun job hjob => ?_, nofun⟩
    cases hjob
    rfl
  | @routed job dst target key hlookup =>
    refine ⟨fun job' hjob => ?_, nofun⟩
    rw [Outcome.go, (job_route relay job target reader).1] at hjob
    cases hjob
    exact hpc job rfl
  | checked | pointed | fellBack => exact ⟨hpc, nofun⟩
  | charges hreader horigin hcharges =>
    refine ⟨hpc, fun w hw => ?_⟩
    cases hw
    exact hpc _ rfl
  | finishes hfinishes =>
    refine ⟨nofun, fun w hw => ?_⟩
    cases hw
    exact hpc _ rfl

structure RelaySound (cfg : RelayConfig) : Prop where
  readers : ∀ reader state, cfg.side.readers.lookup reader = some state → state.pc.Sound
  written : SourcesSound cfg

theorem RelaySound.step (h : RelaySound cfg) (hok : readsOwn cfg turn = true)
    (hstep : RelayStep relay cfg turn cfg') : RelaySound cfg' := by
  cases hstep with
  | server hnext => exact ⟨h.readers, h.written⟩
  | start hfresh hstart =>
    refine ⟨fun reader state hreader => ?_, h.written⟩
    rcases lookup_insert_eq_some.1 hreader with ⟨rfl, rfl⟩ | ⟨-, hold⟩
    · exact nofun
    · exact h.readers reader state hold
  | @step reader input state outcome hreader hedge =>
    have hread : ∀ loop conn cs pkt, reader = .client loop conn → state.own = some cs →
        input = .packet pkt → state.pc = .reading →
        attachedFor cfg.main.shared.data pkt.source loop conn = true := by
      rintro loop conn cs pkt rfl hown rfl hpc
      obtain ⟨own, pc⟩ := state
      cases hown
      cases hpc
      exact attachedFor_of_readsOwn hreader hok
    obtain ⟨hnext, hwritten⟩ := hedge.sound (h.readers reader state hreader) hread
    refine ⟨fun other state' hother => ?_, fun w hw => ?_⟩
    · rcases lookup_insert_eq_some.1 hother with ⟨rfl, rfl⟩ | ⟨-, hold⟩
      · exact hnext
      · exact h.readers other state' hold
    · rcases List.mem_append.1 hw with hnew | hold
      · exact hwritten w (Option.mem_toList.1 hnew)
      · exact h.written w hold

/-- In every run in which each packet is read from the connection of the client
that is registered for its source address, every packet written to a client is
one that was read so, or comes from the TUN device or is an echo reply. -/
theorem relayed_sources_sound (relay : RelaySetup) (turns : List RelayTurn) (cfg : RelayConfig)
    (hsteps : Along relay.next (fun cfg turn => readsOwn cfg turn = true) relay.initial turns)
    (hrun : run relay.next relay.initial turns = some cfg) : SourcesSound cfg := by
  have hkept : ∀ s turn next, RelaySound s → readsOwn s turn = true →
      relay.next s turn = some next → RelaySound next :=
    fun s turn next hs hok hnext => hs.step hok (relayStep_of_next hnext)
  have hinitial : RelaySound relay.initial := by
    refine ⟨fun reader state hreader => ?_, nofun⟩
    cases hreader
  exact (run_invariant hkept hinitial hsteps hrun).written

/-! ## A packet in another name -/

def spoofedRun : List RelayTurn := pairRun ++ forwardRun .tcp 1 0 (toBob 6 200) 3

def Origin.foreign : Origin → Bool
  | .client _ attached => !attached
  | _ => false

/-- The packet is written to Bob's stream. -/
theorem spoofed_source_relayed :
    ¬ ∀ (relay : RelaySetup) turns cfg,
      run relay.next relay.initial turns = some cfg → SourcesSound cfg := by
  intro h
  obtain ⟨cfg, hcfg, hany⟩ : ∃ cfg, run smallRelay.next smallRelay.initial spoofedRun = some cfg ∧
      (cfg.side.written.any fun w => w.origin.foreign) = true := by
    decide +kernel
  obtain ⟨w, hw, hforeign⟩ := List.any_eq_true.1 hany
  have hsound := h smallRelay spoofedRun cfg hcfg w hw
  cases horigin : w.origin with
  | client read attached =>
    rw [horigin] at hsound hforeign
    rw [hsound.2] at hforeign
    cases hforeign
  | tun | echo =>
    rw [horigin] at hforeign
    cases hforeign

def honestRun : List RelayTurn := pairRun ++ forwardRun .tcp 1 0 (toBob 6 100) 3

theorem relayed_sources_sound_ann :
    ∃ cfg, run smallRelay.next smallRelay.initial honestRun = some cfg ∧
      cfg.side.written.length = 1 ∧ SourcesSound cfg := by
  obtain ⟨cfg, hcfg, hwritten⟩ : ∃ cfg,
      run smallRelay.next smallRelay.initial honestRun = some cfg ∧
      cfg.side.written.length = 1 := by
    decide +kernel
  exact ⟨cfg, hcfg, hwritten,
    relayed_sources_sound smallRelay honestRun cfg (by decide +kernel) hcfg⟩

end Hy2Link.Server
