import Hy2Link.Server.Signalling

/-! # Whose address a peer query answers

A query for an address is answered from the registry when a data plane is
registered under the address.  The registration and the registry entry have
different lifetimes: a teardown leaves the entry, a freed address is leased
again, and the next holder of the address inherits what the last one has
reported about himself.

`answers_attributed` holds for the runs in which an address is registered only
when no entry is left, a report is made only while its clientStream is
registered, and a registration does not change under a running query.
-/

namespace Hy2Link.Server

open Interleaving

/-- Whenever a query is about to be answered with the data of a peer, the
clientStream that is registered for the address has reported them. -/
def Attributed (cfg : ServerConfig) : Prop :=
  ∀ conn cs own index vip info,
    cfg.threads.lookup (.signal conn) = some (.signal cs own (.hasSink index vip (some info))) →
    ∃ holder, cfg.shared.data.conns.lookup vip = some holder ∧
      Reported cfg.shared.signal holder info

/-! ## Runs in which the tables go together -/

def SignalPC.asks (vip : IPv4) : SignalPC → Bool
  | .readPeer _ v => v = vip
  | .dropPeer _ v _ => v = vip
  | .hasSink _ v info => v = vip && info.isSome
  | _ => false

def Local.asks (vip : IPv4) : Local → Bool
  | .signal _ _ pc => pc.asks vip
  | _ => false

def unasked (cfg : ServerConfig) (vip : IPv4) : Bool :=
  decide (∀ t l, cfg.threads.lookup t = some l → l.asks vip = false)

/-- A handler changes the registration of an address while no query for it is
running, and enters it when the registry has no entry; a report is made while
its clientStream is registered. -/
def attributable (cfg : ServerConfig) : ServerAction → Bool
  | .step (.plane conn) _ =>
    match handlerAt cfg conn with
    | some (reg, pc) =>
      (!pc.rebinds || unasked cfg reg.vip) &&
        (pc != .register || (cfg.shared.signal.peers.lookup reg.vip).isNone)
    | none => true
  | .step (.signal conn) _ =>
    match cfg.threads.lookup (.signal conn) with
    | some (.signal cs own (.update _ _)) => cfg.shared.data.conns.lookup own = some cs
    | _ => true
  | _ => true

theorem attributable_plane (hok : attributable cfg (.step (.plane conn) choice) = true)
    (hlocal : cfg.threads.lookup (.plane conn) = some (.plane reg pc)) :
    (pc.rebinds = true → unasked cfg reg.vip = true) ∧
      (pc = .register → cfg.shared.signal.peers.lookup reg.vip = none) := by
  simp only [attributable, handlerAt_eq_some.2 hlocal, Bool.and_eq_true, Bool.or_eq_true,
    Bool.not_eq_true', bne_iff_ne, Option.isNone_iff_eq_none] at hok
  obtain ⟨hasked, hentry⟩ := hok
  refine ⟨fun hrebinds => hasked.resolve_left ?_, fun hpc => hentry.resolve_left fun hne => hne hpc⟩
  rw [hrebinds]
  nofun

theorem not_asks_of_unasked (h : unasked cfg vip = true)
    (hlocal : cfg.threads.lookup (.signal conn) = some (.signal cs own pc)) : pc.asks vip = false :=
  of_decide_eq_true h (.signal conn) (.signal cs own pc) hlocal

/-! ## The invariant -/

def Asked (s : Shared) : SignalPC → Prop
  | .readPeer _ vip => ∃ holder, s.data.conns.lookup vip = some holder
  | .dropPeer _ vip info =>
    ∃ holder, s.data.conns.lookup vip = some holder ∧ Reported s.signal holder info
  | .hasSink _ vip (some info) =>
    ∃ holder, s.data.conns.lookup vip = some holder ∧ Reported s.signal holder info
  | _ => True

structure Attribution (cfg : ServerConfig) : Prop where
  wiring : Wiring cfg
  entry : ∀ vip holder info, cfg.shared.data.conns.lookup vip = some holder →
    cfg.shared.signal.peers.lookup vip = some info → Reported cfg.shared.signal holder info
  asked : ∀ conn cs own pc, cfg.threads.lookup (.signal conn) = some (.signal cs own pc) →
    Asked cfg.shared pc

theorem Asked.keep (h : Asked s pc)
    (hconns : ∀ vip, pc.asks vip = true → s'.data.conns.lookup vip = s.data.conns.lookup vip)
    (hreports : ∀ report ∈ s.signal.reports, report ∈ s'.signal.reports) : Asked s' pc := by
  cases pc with
  | readPeer i vip =>
    obtain ⟨holder, hholder⟩ := h
    exact ⟨holder, (hconns vip (decide_eq_true rfl)).trans hholder⟩
  | dropPeer i vip info =>
    obtain ⟨holder, hholder, hreported⟩ := h
    exact ⟨holder, (hconns vip (decide_eq_true rfl)).trans hholder, hreported.mono hreports⟩
  | hasSink i vip info =>
    cases info with
    | none => trivial
    | some info =>
      obtain ⟨holder, hholder, hreported⟩ := h
      refine ⟨holder, (hconns vip ?_).trans hholder, hreported.mono hreports⟩
      simp [SignalPC.asks]
  | _ => trivial

theorem Asked.resume (h : Asked s pc)
    (hentry : ∀ vip holder info, s.data.conns.lookup vip = some holder →
      s.signal.peers.lookup vip = some info → Reported s.signal holder info)
    (hcontrol : signalControl conn cs own choice pc = some request)
    (hexec : exec (.signal conn) s request.op = some (s', result)) (hdata : s'.data = s.data)
    (hreports : ∀ report ∈ s.signal.reports, report ∈ s'.signal.reports) :
    Asked s' (request.resume result) := by
  cases pc with
  | lookupPeer i vip =>
    cases hcontrol
    obtain ⟨d, hlookup, rfl⟩ := exec_data.1 hexec
    cases hlookup
    cases hfound : s.data.lookup vip with
    | none => trivial
    | some found =>
      change Asked _ (.readPeer i vip)
      exact ⟨found.1, (DataTables.lookup_eq_some.1 hfound).1⟩
  | readPeer i vip =>
    cases hcontrol
    obtain ⟨rfl, rfl⟩ := exec_signal.1 hexec
    obtain ⟨holder, hholder⟩ := h
    cases hinfo : s.signal.peers.lookup vip <;> simp only [SignalTables.exec, hinfo]
    · trivial
    · exact ⟨holder, hholder, hentry vip holder _ hholder hinfo⟩
  | dropPeer i vip info =>
    cases hcontrol
    obtain ⟨holder, hholder, hreported⟩ := h
    cases hvalid : (result : Bool) with
    | false => trivial
    | true => exact ⟨holder, hdata ▸ hholder, hreported.mono hreports⟩
  | update i report =>
    cases hcontrol
    cases hupdate : (result : Except UpdateError Unit) with
    | error e => trivial
    | ok u =>
      cases hpeer : report.peer <;> simp only [SignalPC.updated, hpeer] <;> trivial
  | readSelf i report =>
    cases hcontrol
    cases hinfo : (result : Option PeerInfo) <;> trivial
  | reading i =>
    cases choice <;> cases hcontrol <;> dsimp only <;> first | trivial | (split <;> trivial)
  | acceptStream i =>
    cases hcontrol
    dsimp only
    repeat' split
    all_goals trivial
  | done => cases hcontrol
  | _ =>
    cases hcontrol
    dsimp only
    first
    | trivial
    | (split <;> trivial)

theorem conns_of_asked (hstep : ServerStep gate cfg action cfg')
    (hok : attributable cfg action = true)
    (hlocal : cfg.threads.lookup (.signal conn) = some (.signal cs own pc))
    (hasks : pc.asks vip = true) :
    cfg'.shared.data.conns.lookup vip = cfg.shared.data.conns.lookup vip := by
  rcases conns_of_step hstep vip with hsame | ⟨other, choice, reg, ppc, rfl, hother, rfl, hrebinds⟩
  · exact hsame
  · have hunasked := (attributable_plane hok hother).1 hrebinds
    simp [not_asks_of_unasked hunasked hlocal] at hasks

theorem Attribution.entry_step (h : Attribution cfg) (hstep : ServerStep gate cfg action cfg')
    (hok : attributable cfg action = true)
    (hholder : cfg'.shared.data.conns.lookup vip = some holder)
    (hinfo : cfg'.shared.signal.peers.lookup vip = some info) :
    Reported cfg'.shared.signal holder info := by
  obtain ⟨stream, hstream, -⟩ := (h.wiring.step hstep).valid.registered vip holder hholder
  rcases h.wiring.registered_step hstep hholder hstream with
    ⟨hold, -⟩ | ⟨conn, choice, reg, rfl, hlocal, rfl, -⟩
  · rcases peers_of_step hstep hinfo with
      hentry | ⟨conn, choice, cs, i, report, rfl, hlocal, hreported⟩
    · exact (h.entry vip holder info hold hentry).mono (reports_of_step hstep)
    · -- the report of a registered clientStream
      simp only [attributable, hlocal, decide_eq_true_eq] at hok
      obtain rfl : cs = holder := Option.some.inj (hok.symm.trans hold)
      exact hreported fun old hentry => h.entry vip cs old hold hentry
  · -- a new registration finds no entry
    have hnone := (attributable_plane hok hlocal).2 rfl
    rcases peers_of_step hstep hinfo with hentry | ⟨conn', choice', cs, i, report, haction, -⟩
    · simp [hnone] at hentry
    · cases haction

/-- A step keeps every entry of the registry with the one who reported it. -/
theorem Attribution.step (h : Attribution cfg) (hok : attributable cfg action = true)
    (hstep : ServerStep gate cfg action cfg') : Attribution cfg' := by
  refine ⟨h.wiring.step hstep, fun vip holder info => h.entry_step hstep hok,
    fun conn cs own pc hpc => ?_⟩
  have hkeep : cfg.threads.lookup (.signal conn) = some (.signal cs own pc) →
      Asked cfg'.shared pc := fun hold =>
    (h.asked conn cs own pc hold).keep (fun vip hasks => conns_of_asked hstep hok hold hasks)
      (reports_of_step hstep)
  cases loopPast_of_step hstep hpc with
  | started => trivial
  | stayed hold => exact hkeep hold
  | moved hold hcontrol hexec =>
    exact (h.asked conn cs own _ hold).resume h.entry hcontrol hexec
      (signal_data hcontrol hexec) (reports_of_step hstep)

theorem Setup.initial_attribution (setup : Setup) : Attribution setup.initial := by
  refine ⟨setup.initial_wiring, fun vip holder info hholder => ?_, fun conn cs own pc hpc => ?_⟩
  · simp [Setup.initial, DataTables.empty] at hholder
  · simp [Setup.initial] at hpc

/-- In every run in which the tables go together, every peer that a query
answers has been reported by the clientStream registered for its address. -/
theorem answers_attributed (setup : Setup) (actions : List ServerAction) (cfg : ServerConfig)
    (hsteps : Along setup.next (fun cfg action => attributable cfg action = true) setup.initial
      actions)
    (hrun : run setup.next setup.initial actions = some cfg) : Attributed cfg := by
  have hattribution : Attribution cfg := by
    refine run_invariant ?_ setup.initial_attribution hsteps hrun
    intro s action next hs hok hnext
    exact hs.step hok (serverStep_of_next hnext)
  intro conn cs own index vip info hlocal
  exact hattribution.asked conn cs own _ hlocal

/-! ## An entry that outlives its client -/

def trioSetup : Setup :=
  { smallSetup with users := smallSetup.users.insert "carol" ⟨"pw", true, 0, 0, none⟩ }

def carolData : Registration := ⟨some .data, "198.51.100.3", "carol", 0x0a000065⟩

def annInfo : PeerInfo := ⟨"203.0.113.7:4000", "symmetric", "", 0⟩

def annReportsRun : List ServerAction :=
  annServedRun ++ annSignalRun ++
    frameRun 2 ⟨annInfo.publicAddr, annInfo.natType, annInfo.metadata, .empty⟩ 3

/-- Carol, whose clientStream is `cs`, asks for the address that Ann had first. -/
def carolAsksRun (cs : StreamId) : List ServerAction :=
  loginRun 2 carolData.peerIP "carol:pw" ++ requestRun 2 carolData.key "dev3" ++
    connectRun 4 carolData 11 ++ connectRun 5 { carolData with plane := some .ctrl } 9 ++
    signalRun 5 cs carolData.vip ++
    frameRun 5 ⟨"203.0.113.9:4000", "symmetric", "", .canonical annVIP⟩ 6

/-- Ann leaves, Bob gets her address, and Carol is told Ann's address for it. -/
theorem stale_entry_answered :
    ¬ ∀ (setup : Setup) actions cfg,
      run setup.next setup.initial actions = some cfg → Attributed cfg := by
  intro h
  obtain ⟨cfg, hcfg, hlocal, hbob, hreports⟩ : ∃ cfg, run trioSetup.next trioSetup.initial
        (annReportsRun ++ annLeavesRun ++ bobServedRun ++ carolAsksRun 2) = some cfg ∧
      cfg.threads.lookup (.signal 5) =
        some (.signal 2 carolData.vip (.hasSink 0 annVIP (some annInfo))) ∧
      cfg.shared.data.conns.lookup annVIP = some 1 ∧
      ∀ report ∈ cfg.shared.signal.reports, report.stream ≠ 1 := by
    decide +kernel
  obtain ⟨holder, hholder, hreported⟩ := h trioSetup _ cfg hcfg 5 2 _ 0 annVIP annInfo hlocal
  obtain rfl : (1 : StreamId) = holder := Option.some.inj (hbob.symm.trans hholder)
  obtain ⟨report, hmem, hstream, -⟩ := hreported.address
  exact hreports report hmem hstream

theorem current_entry_attributed :
    ∃ cfg, run trioSetup.next trioSetup.initial (annReportsRun ++ carolAsksRun 1) = some cfg ∧
      cfg.threads.lookup (.signal 5) =
        some (.signal 1 carolData.vip (.hasSink 0 annVIP (some annInfo))) ∧
      Attributed cfg := by
  obtain ⟨cfg, hcfg, hlocal⟩ : ∃ cfg,
      run trioSetup.next trioSetup.initial (annReportsRun ++ carolAsksRun 1) = some cfg ∧
      cfg.threads.lookup (.signal 5) =
        some (.signal 1 carolData.vip (.hasSink 0 annVIP (some annInfo))) := by
    decide +kernel
  exact ⟨cfg, hcfg, hlocal, answers_attributed trioSetup _ cfg (by decide +kernel) hcfg⟩

end Hy2Link.Server
