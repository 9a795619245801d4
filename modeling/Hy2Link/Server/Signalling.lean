import Hy2Link.Server.Wiring

/-! # Who writes the signalling registry

Entries and sinks are entered by signalling loops only, each for the address
of the clientStream it belongs to.  Sweeps and the P2P switch only remove.
-/

namespace Hy2Link.Server

open Interleaving SignalTables

theorem signal_of_exec {op : Op Result} {result : Result} (hexec : exec t s op = some (s', result))
    :
    s'.signal = s.signal ∨
      ∃ signalOp, op = .signal signalOp ∧ s'.signal = (s.signal.exec s.now signalOp).1 ∧
        result = (s.signal.exec s.now signalOp).2 := by
  cases op with
  | signal op =>
    obtain ⟨rfl, rfl⟩ := exec_signal.1 hexec
    exact .inr ⟨op, rfl, rfl, rfl⟩
  | _ => exact .inl ((frame_of_exec hexec).signal nofun)

inductive SignalEffect (cfg : ServerConfig) : ServerAction → SignalTables → Prop
  | same : SignalEffect cfg action cfg.shared.signal
  | loop {conn : ConnId} {choice : Choice} {cs : StreamId} {own : IPv4} {pc : SignalPC}
      {request : Request Op SignalPC} {op : SignalOp request.Result}
      (hlocal : cfg.threads.lookup (.signal conn) = some (.signal cs own pc))
      (hcontrol : signalControl conn cs own choice pc = some request)
      (hop : request.op = .signal op) :
      SignalEffect cfg (.step (.signal conn) choice)
        (cfg.shared.signal.exec cfg.shared.now op).1
  | sweep (vip : IPv4) (at_ : Time) :
      SignalEffect cfg (.env (.sweepPeer vip at_)) (cfg.shared.signal.removeStale vip at_)
  | switch (enabled : Bool) :
      SignalEffect cfg (.env (.enableP2P enabled)) (cfg.shared.signal.enableP2PSignal enabled)

theorem push_signal {result : request.Result} (hcontrol : pushControl pc = some request)
    (hexec : exec t s request.op = some (s', result)) : s'.signal = s.signal := by
  cases pc with
  | start | select =>
    cases hcontrol
    obtain ⟨rfl, -⟩ := exec_signal.1 hexec
    rfl
  | _ => cases hcontrol

/-- What a step can change in the tables of the signalling. -/
theorem signalEffect_of_step {cfg cfg' : ServerConfig} {action : ServerAction}
    (hstep : ServerStep gate cfg action cfg') : SignalEffect cfg action cfg'.shared.signal := by
  have hareas : ∀ t choice, action = .step t choice → Area.signal ∉ t.areas →
      cfg'.shared.signal = cfg.shared.signal :=
    fun t choice haction hareas => signal_of_areas (haction ▸ hstep) hareas
  cases hstep with
  | spawn hfresh hspawn => exact .same
  | signal hlocal hcontrol hexec =>
    rcases signal_of_exec hexec with heq | ⟨op, hop, heq, -⟩
    · exact heq ▸ .same
    · exact heq ▸ .loop hlocal hcontrol hop
  | push hlocal hcontrol hexec => exact push_signal hcontrol hexec ▸ .same
  | plane | datagrams | login | dhcp => exact hareas _ _ rfl (by simp [Thread.areas]) ▸ .same
  | @env e shared henv =>
    cases e with
    | sweepPeer vip at_ =>
      simp only [environment, Option.ite_none_right_eq_some] at henv
      cases henv.2
      exact .sweep vip at_
    | enableP2P enabled =>
      cases henv
      exact .switch enabled
    | tick elapsed | closeConn conn | store event =>
      cases henv
      exact .same
    | _ =>
      simp only [environment, Option.ite_none_right_eq_some] at henv
      cases henv.2
      exact .same

/-! ## Consequences -/

theorem loop_updates (hcontrol : signalControl conn cs own choice pc = some request)
    (hop : request.op = .signal op) (hupdates : op.Updates stream vip) :
    cs = stream ∧ own = vip ∧ ∃ i report, pc = .update i report := by
  cases pc with
  | update i report =>
    cases hcontrol
    cases hop
    exact ⟨hupdates.1, hupdates.2, i, report, rfl⟩
  | reading i => cases choice <;> cases hcontrol <;> cases hop
  | done => cases hcontrol
  | _ =>
    cases hcontrol
    first
    | (cases hop; exact hupdates.elim)
    | cases hop

theorem loop_attaches (hcontrol : signalControl conn cs own choice pc = some request)
    (hop : request.op = .signal op) (hattaches : op.Attaches vip sink) :
    own = vip ∧ ∃ i, pc = .attach i ∧ sink = ⟨conn, i, cs⟩ := by
  cases pc with
  | attach i =>
    cases hcontrol
    cases hop
    exact ⟨hattaches.1, i, rfl, hattaches.2.symm⟩
  | reading i => cases choice <;> cases hcontrol <;> cases hop
  | done => cases hcontrol
  | _ =>
    cases hcontrol
    first
    | (cases hop; exact hattaches.elim)
    | cases hop

section

variable (cfg cfg' : ServerConfig) (conn : ConnId) (cs : StreamId) (own : IPv4)

inductive LoopPast : SignalPC → Prop
  | started (hspawn : spawnable cfg (.signal conn) (.signal cs own .start) = true) : LoopPast .start
  | stayed (hlocal : cfg.threads.lookup (.signal conn) = some (.signal cs own pc)) : LoopPast pc
  | moved
      (hlocal : cfg.threads.lookup (.signal conn) = some (.signal cs own pc))
      (hcontrol : signalControl conn cs own choice pc = some request)
      (hexec : exec (.signal conn) cfg.shared request.op = some (cfg'.shared, result)) :
      LoopPast (request.resume result)

end

section

variable (hstep : ServerStep gate cfg action cfg')
include hstep

theorem loopPast_of_step
    (hlocal : cfg'.threads.lookup (.signal conn) = some (.signal cs own pc)) :
    LoopPast cfg cfg' conn cs own pc := by
  cases hstep with
  | spawn hfresh hspawn =>
    rcases lookup_insert_eq_some.1 hlocal with ⟨rfl, rfl⟩ | ⟨-, hold⟩
    · cases pc with
      | start => exact .started hspawn
      | _ => cases hspawn
    · exact .stayed hold
  | signal hmine hcontrol hexec =>
    rcases lookup_insert_eq_some.1 hlocal with ⟨heq, hl⟩ | ⟨-, hold⟩
    · cases heq
      cases hl
      exact .moved hmine hcontrol hexec
    · exact .stayed hold
  | env henv => exact .stayed hlocal
  | _ =>
    rcases lookup_insert_eq_some.1 hlocal with ⟨heq, -⟩ | ⟨-, hold⟩
    · cases heq
    · exact .stayed hold

theorem reports_of_step :
    ∀ report ∈ cfg.shared.signal.reports, report ∈ cfg'.shared.signal.reports := by
  intro report hreport
  have heffect := signalEffect_of_step hstep
  generalize cfg'.shared.signal = signal at heffect ⊢
  cases heffect with
  | same | switch => exact hreport
  | loop hlocal hcontrol hop => exact exec_reports hreport
  | sweep vip at_ =>
    rw [removeStale_reports]
    exact hreport

theorem peers_of_step
    (hinfo : cfg'.shared.signal.peers.lookup vip = some info) :
    cfg.shared.signal.peers.lookup vip = some info ∨
      ∃ conn choice cs i report, action = .step (.signal conn) choice ∧
        cfg.threads.lookup (.signal conn) = some (.signal cs vip (.update i report)) ∧
        ((∀ old, cfg.shared.signal.peers.lookup vip = some old →
          Reported cfg.shared.signal cs old) → Reported cfg'.shared.signal cs info) := by
  have heffect := signalEffect_of_step hstep
  generalize cfg'.shared.signal = signal at heffect hinfo ⊢
  cases heffect with
  | same | switch => exact .inl hinfo
  | @loop conn choice cs own pc request op hlocal hcontrol hop =>
    rcases exec_peers hinfo with hold | ⟨stream, hupdates, hreported⟩
    · exact .inl hold
    · obtain ⟨rfl, rfl, i, report, rfl⟩ := loop_updates hcontrol hop hupdates
      exact .inr ⟨conn, choice, cs, i, report, rfl, hlocal, hreported⟩
  | sweep v at_ => exact .inl (removeStale_peers hinfo)

theorem sinks_of_step
    (hsink : cfg'.shared.signal.sinks.lookup vip = some sink) :
    cfg.shared.signal.sinks.lookup vip = some sink ∨
      ∃ conn choice cs i, action = .step (.signal conn) choice ∧
        cfg.threads.lookup (.signal conn) = some (.signal cs vip (.attach i)) ∧
        sink = ⟨conn, i, cs⟩ := by
  have heffect := signalEffect_of_step hstep
  generalize cfg'.shared.signal = signal at heffect hsink
  cases heffect with
  | same => exact .inl hsink
  | @loop conn choice cs own pc request op hlocal hcontrol hop =>
    rcases exec_sinks hsink with hold | hattaches
    · exact .inl hold
    · obtain ⟨rfl, i, rfl, rfl⟩ := loop_attaches hcontrol hop hattaches
      exact .inr ⟨conn, choice, cs, i, rfl, hlocal, rfl⟩
  | sweep v at_ =>
    rw [removeStale_sinks] at hsink
    exact .inl hsink
  | switch enabled =>
    cases enabled with
    | true => exact .inl hsink
    | false => simp [enableP2PSignal] at hsink

end

end Hy2Link.Server
