import Hy2Link.Server.Signalling

/-! # Where a push goes

A push to an address is handed to the sink that is attached for it.  The sink
follows the life of a signalling stream, the address that of a data plane: a
teardown gives the address up first and closes the control connection later,
so that in between the sink of the last holder is still attached when the next
one is registered.

`pushes_isolated` holds for the runs in which a control connection joins the
clientStream of its own client, a sink is attached while its clientStream is
registered, and a registration changes only when no sink is attached.
-/

namespace Hy2Link.Server

open Interleaving

def Serves (cfg : ServerConfig) (cs : StreamId) (key : SessionKey) : Prop :=
  ∃ stream, cfg.shared.data.streams.lookup cs = some stream ∧ stream.key = key

/-- Whenever a push is about to select a sink, the control connection of that
sink was opened by the client whose clientStream is registered for the
address; without a registration there is no sink. -/
def Isolated (cfg : ServerConfig) : Prop :=
  ∀ n vip sink, cfg.threads.lookup (.push n) = some (.push (.select vip)) →
    cfg.shared.signal.sinks.lookup vip = some sink →
    ∃ holder reg, cfg.shared.data.conns.lookup vip = some holder ∧
      (∃ pc, cfg.threads.lookup (.plane sink.conn) = some (.plane reg pc)) ∧
      Serves cfg holder reg.key

/-! ## Runs in which sinks and registrations go together -/

/-- A control connection joins the clientStream of its own client, a
registration changes while no sink is attached for its address, and a sink is
attached while its clientStream is registered. -/
def sinksBound (cfg : ServerConfig) : ServerAction → Bool
  | .step (.plane conn) _ =>
    match handlerAt cfg conn with
    | some (reg, .await _) =>
      reg.plane != some .ctrl ||
        (cfg.shared.data.lookup reg.vip).all fun found => found.2 = reg.key
    | some (reg, pc) => !pc.rebinds || (cfg.shared.signal.sinks.lookup reg.vip).isNone
    | none => true
  | .step (.signal conn) _ =>
    match cfg.threads.lookup (.signal conn) with
    | some (.signal cs own (.attach _)) => cfg.shared.data.conns.lookup own = some cs
    | _ => true
  | _ => true

theorem sinksBound_rebinds (hok : sinksBound cfg (.step (.plane conn) choice) = true)
    (hlocal : cfg.threads.lookup (.plane conn) = some (.plane reg pc))
    (hrebinds : pc.rebinds = true) : cfg.shared.signal.sinks.lookup reg.vip = none := by
  cases pc with
  | unregisterStale stale c | register | unregister cs =>
    simpa [sinksBound, handlerAt_eq_some.2 hlocal, PlanePC.rebinds] using hok
  | _ => cases hrebinds

theorem sinksBound_await (hok : sinksBound cfg (.step (.plane conn) choice) = true)
    (hlocal : cfg.threads.lookup (.plane conn) = some (.plane reg (.await tries)))
    (hctrl : reg.plane = some .ctrl) (hfound : cfg.shared.data.lookup reg.vip = some (cs, key)) :
    key = reg.key := by
  simpa [sinksBound, handlerAt_eq_some.2 hlocal, hctrl, hfound] using hok

/-! ## The invariant -/

def PlanePC.joins : PlanePC → Option StreamId
  | .acknowledge cs => some cs
  | .setAux cs => some cs
  | .attached cs => some cs
  | _ => none

structure Bound (cfg : ServerConfig) : Prop where
  wiring : Wiring cfg
  ctrl : ∀ conn reg pc cs, cfg.threads.lookup (.plane conn) = some (.plane reg pc) →
    reg.plane = some .ctrl → pc.joins = some cs → Serves cfg cs reg.key
  loop : ∀ conn cs own pc, cfg.threads.lookup (.signal conn) = some (.signal cs own pc) →
    ∃ reg, (∃ pc, cfg.threads.lookup (.plane conn) = some (.plane reg pc)) ∧
      Serves cfg cs reg.key
  sink : ∀ vip sink, cfg.shared.signal.sinks.lookup vip = some sink →
    cfg.shared.data.conns.lookup vip = some sink.stream ∧
      ∃ reg, (∃ pc, cfg.threads.lookup (.plane sink.conn) = some (.plane reg pc)) ∧
        Serves cfg sink.stream reg.key

theorem Serves.step (hvalid : cfg.shared.data.Valid) (hstep : ServerStep gate cfg action cfg')
    (h : Serves cfg cs key) : Serves cfg' cs key := by
  obtain ⟨stream, hstream, hkey⟩ := h
  obtain ⟨stream', hstream', -, hkey'⟩ := stream_kept hvalid hstep hstream
  exact ⟨stream', hstream', hkey'.trans hkey⟩

theorem opened_step (hvalid : cfg.shared.data.Valid) (hstep : ServerStep gate cfg action cfg')
    (h : ∃ reg, (∃ pc, cfg.threads.lookup (.plane conn) = some (.plane reg pc)) ∧
      Serves cfg cs reg.key) :
    ∃ reg, (∃ pc, cfg'.threads.lookup (.plane conn) = some (.plane reg pc)) ∧
      Serves cfg' cs reg.key := by
  obtain ⟨reg, hlocal, hserves⟩ := h
  exact ⟨reg, handler_step hstep hlocal, hserves.step hvalid hstep⟩

theorem HandlerStep.joins (hedge : HandlerStep conn reg choice s pc s' pc')
    (hjoins : pc'.joins = some cs) :
    pc.joins = some cs ∨
      ∃ tries key, pc = .await tries ∧ s.data.lookup reg.vip = some (cs, key) := by
  cases hedge with
  | bulkFound hlookup | gameBulkFound hlookup =>
    cases hjoins
    exact .inr ⟨_, _, rfl, hlookup⟩
  | snapshotStale | snapshot =>
    generalize s.data.snapshot _ = conns at hjoins
    cases conns <;> cases hjoins
  | @closeStale _ rest | @closing _ _ rest => cases rest <;> cases hjoins
  | unlock | accept =>
    dsimp only [PlanePC.accepted, PlanePC.streamsOpen] at hjoins
    repeat' split at hjoins
    all_goals cases hjoins
  | _ =>
    first
    | exact .inl hjoins
    | cases hjoins

section

variable (hok : sinksBound cfg action = true)
include hok

theorem Bound.ctrl_step (h : Bound cfg)
    (hstep : ServerStep gate cfg action cfg')
    (hlocal : cfg'.threads.lookup (.plane conn) = some (.plane reg pc))
    (hctrl : reg.plane = some .ctrl) (hjoins : pc.joins = some cs) : Serves cfg' cs reg.key := by
  have hkeep : ∀ pc', cfg.threads.lookup (.plane conn) = some (.plane reg pc') →
      pc'.joins = some cs → Serves cfg' cs reg.key := fun pc' hold hold' =>
    (h.ctrl conn reg pc' cs hold hctrl hold').step h.wiring.valid hstep
  cases handlerPast_of_step hstep hlocal with
  | started => cases hjoins
  | stayed hold => exact hkeep pc hold hjoins
  | moved haction hold hedge =>
    subst haction
    rcases hedge.joins hjoins with hbefore | ⟨tries, key, rfl, hfound⟩
    · exact hkeep _ hold hbefore
    · -- the lookup of a control connection finds its own client
      obtain rfl := sinksBound_await hok hold hctrl hfound
      exact Serves.step h.wiring.valid hstep (DataTables.lookup_eq_some.1 hfound).2

omit hok in
theorem Bound.loop_step (h : Bound cfg) (hstep : ServerStep gate cfg action cfg')
    (hlocal : cfg'.threads.lookup (.signal conn) = some (.signal cs own pc)) :
    ∃ reg, (∃ pc, cfg'.threads.lookup (.plane conn) = some (.plane reg pc)) ∧
      Serves cfg' cs reg.key := by
  apply opened_step h.wiring.valid hstep
  cases loopPast_of_step hstep hlocal with
  | started hspawn =>
    -- a loop starts from its attached control connection
    simp only [spawnable] at hspawn
    split at hspawn
    next reg cs' hattached =>
      simp only [Bool.and_eq_true, decide_eq_true_eq] at hspawn
      obtain ⟨⟨hctrl, rfl⟩, -⟩ := hspawn
      exact ⟨reg, ⟨_, hattached⟩, h.ctrl conn reg _ cs' hattached hctrl rfl⟩
    · cases hspawn
  | stayed hold => exact h.loop conn cs own pc hold
  | moved hold => exact h.loop conn cs own _ hold

theorem Bound.sink_step (h : Bound cfg)
    (hstep : ServerStep gate cfg action cfg') {sink : Sink}
    (hsink : cfg'.shared.signal.sinks.lookup vip = some sink) :
    cfg'.shared.data.conns.lookup vip = some sink.stream ∧
      ∃ reg, (∃ pc, cfg'.threads.lookup (.plane sink.conn) = some (.plane reg pc)) ∧
        Serves cfg' sink.stream reg.key := by
  rcases sinks_of_step hstep hsink with hold | ⟨conn, choice, cs, i, rfl, hlocal, rfl⟩
  · obtain ⟨hconns, hopened⟩ := h.sink vip sink hold
    refine ⟨?_, opened_step h.wiring.valid hstep hopened⟩
    rcases conns_of_step hstep vip with hsame | ⟨conn, choice, reg, pc, rfl, hother, rfl, hrebinds⟩
    · exact hsame.trans hconns
    · simp [sinksBound_rebinds hok hother hrebinds] at hold
  · refine ⟨?_, opened_step h.wiring.valid hstep (h.loop conn cs vip _ hlocal)⟩
    simp only [sinksBound, hlocal, decide_eq_true_eq] at hok
    rw [(data_of_other hstep nofun).conns]
    exact hok

/-- A step keeps every sink with the client that it was bound for. -/
theorem Bound.step (h : Bound cfg) (hstep : ServerStep gate cfg action cfg') : Bound cfg' :=
  ⟨h.wiring.step hstep,
    fun _ _ _ _ hlocal hctrl hjoins => h.ctrl_step hok hstep hlocal hctrl hjoins,
    fun _ _ _ _ hlocal => h.loop_step hstep hlocal, fun _ _ hsink => h.sink_step hok hstep hsink⟩

end

theorem Setup.initial_bound (setup : Setup) : Bound setup.initial := by
  refine ⟨setup.initial_wiring, fun conn reg pc cs hlocal => ?_, fun conn cs own pc hlocal => ?_,
    fun vip sink hsink => ?_⟩
  · simp [Setup.initial] at hlocal
  · simp [Setup.initial] at hlocal
  · simp [Setup.initial, SignalTables.empty] at hsink

/-- In every run in which sinks and registrations go together, a push goes to
the client that is registered for the address, or fails. -/
theorem pushes_isolated (setup : Setup) (actions : List ServerAction) (cfg : ServerConfig)
    (hsteps : Along setup.next (fun cfg action => sinksBound cfg action = true) setup.initial
      actions)
    (hrun : run setup.next setup.initial actions = some cfg) : Isolated cfg := by
  have hbound : Bound cfg := by
    refine run_invariant ?_ setup.initial_bound hsteps hrun
    intro s action next hs hok hnext
    exact hs.step hok (serverStep_of_next hnext)
  intro n vip sink _ hsink
  obtain ⟨hconns, reg, hlocal, hserves⟩ := hbound.sink vip sink hsink
  exact ⟨sink.stream, reg, hconns, hlocal, hserves⟩

/-! ## A sink that outlives the registration -/

/-- A push of an invitation to the address, up to the selection of the sink. -/
def pushRun : List ServerAction :=
  .spawn (.push 0) (.push (.start annVIP .punchInvite)) :: steps (.push 0) 1

/-- Ann's data plane is gone and Bob is registered under her address while her
signalling stream is still attached. -/
theorem push_reaches_last_holder :
    ¬ ∀ (setup : Setup) actions cfg,
      run setup.next setup.initial actions = some cfg → Isolated cfg := by
  intro h
  obtain ⟨cfg, hcfg, hpush, hsink, hann, hconns, hbob⟩ : ∃ cfg,
      run smallSetup.next smallSetup.initial
        (annServedRun ++ annSignalRun ++ annLeavesRun ++ bobServedRun ++ pushRun) = some cfg ∧
      cfg.threads.lookup (.push 0) = some (.push (.select annVIP)) ∧
      cfg.shared.signal.sinks.lookup annVIP = some ⟨2, 0, 0⟩ ∧
      (∀ handler ∈ handlerAt cfg 2, handler.1.key = annData.key) ∧
      cfg.shared.data.conns.lookup annVIP = some 1 ∧
      ∀ stream ∈ cfg.shared.data.streams.lookup 1, stream.key = bobData.key := by
    decide +kernel
  obtain ⟨holder, reg, hholder, ⟨pc, hlocal⟩, stream, hstream, hkey⟩ :=
    h smallSetup _ cfg hcfg 0 annVIP _ hpush hsink
  obtain rfl : (1 : StreamId) = holder := Option.some.inj (hconns.symm.trans hholder)
  have hreg : reg.key = annData.key := hann (reg, pc) (handlerAt_eq_some.2 hlocal)
  have hsame : annData.key = bobData.key := hreg.symm.trans (hkey.symm.trans (hbob stream hstream))
  exact absurd hsame (by decide)

theorem push_reaches_holder :
    ∃ cfg, run smallSetup.next smallSetup.initial (annServedRun ++ annSignalRun ++ pushRun) =
        some cfg ∧
      cfg.threads.lookup (.push 0) = some (.push (.select annVIP)) ∧
      cfg.shared.signal.sinks.lookup annVIP = some ⟨2, 0, 0⟩ ∧ Isolated cfg := by
  obtain ⟨cfg, hcfg, hpush, hsink⟩ : ∃ cfg, run smallSetup.next smallSetup.initial
        (annServedRun ++ annSignalRun ++ pushRun) = some cfg ∧
      cfg.threads.lookup (.push 0) = some (.push (.select annVIP)) ∧
      cfg.shared.signal.sinks.lookup annVIP = some ⟨2, 0, 0⟩ := by
    decide +kernel
  exact ⟨cfg, hcfg, hpush, hsink, pushes_isolated smallSetup _ cfg (by decide +kernel) hcfg⟩

end Hy2Link.Server
