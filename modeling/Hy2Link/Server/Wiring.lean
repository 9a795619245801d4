import Hy2Link.Server.Transitions

/-! # Handlers and the objects they share

A clientStream is shared by the handlers of up to five connections.  This
module says how handlers and objects are tied together in every run: a
connection in a pointer of an object has a handler that works on that object,
and the lists of connections that a handler is going to close were read from
one object for its own address.
-/

namespace Hy2Link.Server

open Interleaving PlanePC

def handlerAt (cfg : ServerConfig) (conn : ConnId) : Option (Registration × PlanePC) :=
  match cfg.threads.lookup (.plane conn) with
  | some (.plane reg pc) => some (reg, pc)
  | _ => none

theorem handlerAt_eq_some :
    handlerAt cfg conn = some (reg, pc) ↔
      cfg.threads.lookup (.plane conn) = some (.plane reg pc) := by
  unfold handlerAt
  split
  next reg' pc' hlocal => simp [hlocal]
  next hother =>
    refine ⟨fun h => (by cases h), fun h => ?_⟩
    exact absurd h (hother reg pc)

/-- The steps of `handleBulkDataConn` from its lookup to the registration. -/
def PlanePC.settingUp : PlanePC → Bool
  | .lookup => true
  | .staleConn _ => true
  | .unregisterStale _ _ => true
  | .snapshotStale _ => true
  | .closeStale _ _ => true
  | .oldConn _ => true
  | .closeOld _ _ => true
  | .setBulk _ => true
  | .register => true
  | _ => false

def PlanePC.own : PlanePC → Option StreamId
  | .online cs => some cs
  | .serving cs => some cs
  | .unregister cs => some cs
  | .releaseVIP cs => some cs
  | .releaseSession cs => some cs
  | .offline cs => some cs
  | .snapshot cs => some cs
  | .closing cs _ _ => some cs
  | .attached cs => some cs
  | .clearAux cs => some cs
  | .done cs => cs
  | _ => none

def Owns (cfg : ServerConfig) (conn : ConnId) (cs : StreamId) : Prop :=
  ∃ reg pc, cfg.threads.lookup (.plane conn) = some (.plane reg pc) ∧ pc.own = some cs

def Opened (cfg : ServerConfig) (cs : StreamId) (vip : IPv4) : Prop :=
  ∃ stream, cfg.shared.data.streams.lookup cs = some stream ∧ stream.vip = vip

/-- What a handler knows about its plane, the objects and the connections at
its program point. -/
def Wired (cfg : ServerConfig) (reg : Registration) : PlanePC → Prop
  | .markLease => reg.plane = some .data
  | .lookup => reg.plane = some .data
  | .staleConn cs => reg.plane = some .data ∧ Opened cfg cs reg.vip
  | .unregisterStale cs _ => reg.plane = some .data ∧ Opened cfg cs reg.vip
  | .snapshotStale cs => reg.plane = some .data ∧ Opened cfg cs reg.vip
  | .closeStale conn rest =>
    reg.plane = some .data ∧ ∃ cs, Opened cfg cs reg.vip ∧ ∀ c ∈ conn :: rest, Owns cfg c cs
  | .oldConn cs => reg.plane = some .data ∧ Opened cfg cs reg.vip
  | .closeOld cs old => (reg.plane = some .data ∧ Opened cfg cs reg.vip) ∧ Owns cfg old cs
  | .setBulk cs => reg.plane = some .data ∧ Opened cfg cs reg.vip
  | .register => reg.plane = some .data
  | .online cs => reg.plane = some .data ∧ Opened cfg cs reg.vip
  | .serving cs => reg.plane = some .data ∧ Opened cfg cs reg.vip
  | .unregister cs => reg.plane = some .data ∧ Opened cfg cs reg.vip
  | .releaseVIP cs => reg.plane = some .data ∧ Opened cfg cs reg.vip
  | .releaseSession cs => reg.plane = some .data ∧ Opened cfg cs reg.vip
  | .offline cs => reg.plane = some .data ∧ Opened cfg cs reg.vip
  | .snapshot cs => reg.plane = some .data ∧ Opened cfg cs reg.vip
  | .closing cs conn rest =>
    (reg.plane = some .data ∧ Opened cfg cs reg.vip) ∧ ∀ c ∈ conn :: rest, Owns cfg c cs
  | .await _ => reg.plane ≠ some .data
  | .acknowledge cs => reg.plane ≠ some .data ∧ Opened cfg cs reg.vip
  | .setAux cs => reg.plane ≠ some .data ∧ Opened cfg cs reg.vip
  | .attached cs => reg.plane ≠ some .data ∧ Opened cfg cs reg.vip
  | .clearAux cs => reg.plane ≠ some .data ∧ Opened cfg cs reg.vip
  | .done (some cs) => Opened cfg cs reg.vip
  | _ => True

structure Wiring (cfg : ServerConfig) : Prop where
  valid : cfg.shared.data.Valid
  attached : ∀ cs conn, conn ∈ cfg.shared.data.snapshot cs → Owns cfg conn cs
  handler : ∀ conn reg pc, cfg.threads.lookup (.plane conn) = some (.plane reg pc) →
    Wired cfg reg pc

structure Extends (cfg cfg' : ServerConfig) : Prop where
  opened : ∀ cs vip, Opened cfg cs vip → Opened cfg' cs vip
  owns : ∀ conn cs, Owns cfg conn cs → Owns cfg' conn cs

theorem Wired.extend (h : Extends cfg cfg') (hpc : Wired cfg reg pc) : Wired cfg' reg pc := by
  cases pc with
  | closeStale conn rest =>
    obtain ⟨hplane, cs, hopened, howns⟩ := hpc
    exact ⟨hplane, cs, h.opened cs reg.vip hopened, fun c hc => h.owns c cs (howns c hc)⟩
  | closeOld cs old => exact ⟨⟨hpc.1.1, h.opened cs reg.vip hpc.1.2⟩, h.owns old cs hpc.2⟩
  | closing cs conn rest =>
    exact ⟨⟨hpc.1.1, h.opened cs reg.vip hpc.1.2⟩, fun c hc => h.owns c cs (hpc.2 c hc)⟩
  | done cs =>
    cases cs with
    | none => trivial
    | some cs => exact h.opened cs reg.vip hpc
  | _ =>
    first
    | exact hpc
    | exact ⟨hpc.1, h.opened _ reg.vip hpc.2⟩

theorem own_closeAll (cs : StreamId) (conns : List ConnId) :
    (closeAll cs conns).own = some cs := by
  cases conns <;> rfl

theorem HandlerStep.own (hedge : HandlerStep conn reg choice s pc s' pc')
    (hown : pc.own = some cs) : pc'.own = some cs := by
  cases hedge with
  | snapshot | closing => exact (own_closeAll _ _).trans hown
  | _ =>
    first
    | exact hown
    | cases hown

theorem owns_step (hstep : ServerStep gate cfg action cfg') (h : Owns cfg conn cs) :
    Owns cfg' conn cs := by
  obtain ⟨reg, pc, hlocal, hown⟩ := h
  rcases handler_of_step hstep hlocal with hstay | ⟨choice, pc', -, hmove, hedge⟩
  · exact ⟨reg, pc, hstay, hown⟩
  · exact ⟨reg, pc', hmove, hedge.own hown⟩

theorem handler_step (hstep : ServerStep gate cfg action cfg')
    (h : ∃ pc, cfg.threads.lookup (.plane conn) = some (.plane reg pc)) :
    ∃ pc, cfg'.threads.lookup (.plane conn) = some (.plane reg pc) := by
  obtain ⟨pc, hlocal⟩ := h
  rcases handler_of_step hstep hlocal with hstay | ⟨-, pc', -, hmove, -⟩
  · exact ⟨pc, hstay⟩
  · exact ⟨pc', hmove⟩

theorem data_of_exec {op : Op Result} {result : Result} (hexec : exec t s op = some (s', result)) :
    s'.data = s.data ∨
      ∃ dataOp, op = .data dataOp ∧ s.data.exec dataOp = some (s'.data, result) := by
  cases op with
  | data op =>
    obtain ⟨d, hd, rfl⟩ := exec_data.1 hexec
    exact .inr ⟨op, rfl, hd⟩
  | _ => exact .inl ((frame_of_exec hexec).data nofun)

theorem data_of_environment (henv : environment s e = some s') :
    s'.data = s.data ∨ ∃ conn, e = .closeConn conn ∧ s'.data = s.data.closeConn conn := by
  cases e with
  | closeConn conn =>
    cases henv
    exact .inr ⟨conn, rfl, rfl⟩
  | tick | enableP2P | store =>
    cases henv
    exact .inl rfl
  | _ =>
    simp only [environment, Option.ite_none_right_eq_some] at henv
    cases henv.2
    exact .inl rfl

theorem data_of_step (hstep : ServerStep gate cfg action cfg') :
    cfg'.shared.data = cfg.shared.data ∨
      ∃ (Result : Type) (op : DataOp Result) (result : Result),
        cfg.shared.data.exec op = some (cfg'.shared.data, result) := by
  cases hstep with
  | spawn hfresh hspawn => exact .inl rfl
  | env henv =>
    rcases data_of_environment henv with hdata | ⟨conn, -, hdata⟩
    · exact .inl hdata
    · exact .inr ⟨Unit, .closeConn conn, (), by rw [hdata]; rfl⟩
  | plane hlocal hcontrol hexec | signal hlocal hcontrol hexec | datagrams hlocal hcontrol hexec
  | login hlocal hcontrol hexec | dhcp hlocal hcontrol hexec | push hlocal hcontrol hexec =>
    rcases data_of_exec hexec with hdata | ⟨op, -, hdata⟩
    · exact .inl hdata
    · exact .inr ⟨_, op, _, hdata⟩

theorem stream_kept (hvalid : cfg.shared.data.Valid) (hstep : ServerStep gate cfg action cfg')
    (hstream : cfg.shared.data.streams.lookup cs = some stream) :
    ∃ stream', cfg'.shared.data.streams.lookup cs = some stream' ∧ stream'.vip = stream.vip ∧
      stream'.key = stream.key := by
  rcases data_of_step hstep with hdata | ⟨Result, op, result, hdata⟩
  · exact ⟨stream, hdata ▸ hstream, rfl, rfl⟩
  · exact hvalid.exec_stream hdata hstream

theorem extends_step (hvalid : cfg.shared.data.Valid) (hstep : ServerStep gate cfg action cfg') :
    Extends cfg cfg' := by
  refine ⟨fun cs vip hopened => ?_, fun conn cs howns => owns_step hstep howns⟩
  obtain ⟨stream, hstream, hvip⟩ := hopened
  obtain ⟨stream', hstream', hvip', -⟩ := stream_kept hvalid hstep hstream
  exact ⟨stream', hstream', hvip'.trans hvip⟩

theorem valid_step (hvalid : cfg.shared.data.Valid) (hstep : ServerStep gate cfg action cfg') :
    cfg'.shared.data.Valid := by
  rcases data_of_step hstep with hdata | ⟨Result, op, result, hdata⟩
  · rw [hdata]
    exact hvalid
  · exact hvalid.exec hdata

theorem Wiring.opened_of_lookup (h : Wiring cfg)
    (hlookup : cfg.shared.data.lookup vip = some (cs, key)) : Opened cfg cs vip :=
  h.valid.registered vip cs (DataTables.lookup_eq_some.1 hlookup).1

theorem opened_vip (h : Opened cfg cs vip) (h' : Opened cfg cs vip') : vip = vip' := by
  obtain ⟨stream, hstream, rfl⟩ := h
  obtain ⟨stream', hstream', rfl⟩ := h'
  rw [hstream] at hstream'
  cases hstream'
  rfl

theorem Wiring.owns_snapshot (h : Wiring cfg) (hext : Extends cfg cfg') (cs : StreamId) :
    ∀ c ∈ cfg.shared.data.snapshot cs, Owns cfg' c cs :=
  fun c hc => hext.owns c cs (h.attached cs c hc)

theorem wired_closeAll (hopened : reg.plane = some .data ∧ Opened cfg cs reg.vip)
    (howns : ∀ c ∈ conns, Owns cfg c cs) : Wired cfg reg (closeAll cs conns) := by
  cases conns with
  | nil => exact hopened.2
  | cons c rest => exact ⟨hopened, howns⟩

theorem wired_closeStaleAll (hplane : reg.plane = some .data) (hopened : Opened cfg cs reg.vip)
    (howns : ∀ c ∈ conns, Owns cfg c cs) : Wired cfg reg (closeStaleAll conns) := by
  cases conns with
  | nil => exact hplane
  | cons c rest => exact ⟨hplane, cs, hopened, howns⟩

theorem Wiring.edge (h : Wiring cfg) (hpc : Wired cfg' reg pc)
    (hedge : HandlerStep conn reg choice cfg.shared pc cfg'.shared pc')
    (hext : Extends cfg cfg') (hvalid : cfg'.shared.data.Valid) : Wired cfg' reg pc' := by
  generalize hs : cfg'.shared = s' at hedge
  cases hedge with
  | unlock =>
    dsimp only [accepted]
    repeat' split
    all_goals trivial
  | accept =>
    dsimp only [streamsOpen]
    repeat' split
    all_goals assumption
  | sameIdentity hlookup | otherIdentity hlookup | bulkFound hlookup | gameBulkFound hlookup =>
    exact ⟨hpc, hext.opened _ _ (h.opened_of_lookup hlookup)⟩
  | snapshotStale => exact wired_closeStaleAll hpc.1 hpc.2 (h.owns_snapshot hext _)
  | closeStale =>
    obtain ⟨hplane, cs, hopened, howns⟩ := hpc
    exact wired_closeStaleAll hplane hopened fun x hx => howns x (List.mem_cons_of_mem _ hx)
  | oldConn hold =>
    obtain ⟨stream, hstream, hdata⟩ := DataTables.getDataConn_eq_some.1 hold
    refine ⟨hpc, h.owns_snapshot hext _ _ ?_⟩
    exact DataTables.mem_snapshot.2 ⟨stream, hstream, .data, hdata⟩
  | closeOld => exact hpc.1
  | register =>
    refine ⟨hpc, hvalid.registered reg.vip _ ?_⟩
    rw [hs]
    exact Finmap.lookup_insert _
  | snapshot => exact wired_closeAll hpc (h.owns_snapshot hext _)
  | closing => exact wired_closeAll hpc.1 fun x hx => hpc.2 x (List.mem_cons_of_mem _ hx)
  | clearAux => exact hpc.2
  | _ =>
    first
    | exact hpc
    | trivial

/-! ## Operations of handlers on the objects and registrations -/

section

variable (conn : ConnId) (reg : Registration)

inductive HandlerOp : PlanePC → PlanePC → {Result : Type} → DataOp Result → Result → Prop
  | unregisterStale : HandlerOp (.unregisterStale stale c) (.snapshotStale stale)
        (.unregisterData reg.vip c) mine
  | closeStale : HandlerOp (.closeStale c rest) (closeStaleAll rest) (.closeConn c) ()
  | closeOld : HandlerOp (.closeOld cs old) (.setBulk cs) (.closeConn old) ()
  | setBulk : HandlerOp (.setBulk cs) (.online cs) (.attach cs conn .data) ()
  | register : HandlerOp .register (.online cs) (.register reg.vip reg.key conn) cs
  | online : HandlerOp (.online cs) (.serving cs) (.onConnect reg.vip reg.username) ()
  | unregister : HandlerOp (.unregister cs) pc (.unregisterData reg.vip (some conn)) mine
  | offline : HandlerOp (.offline cs) (.snapshot cs) (.onDisconnect reg.vip) ()
  | closing : HandlerOp (.closing cs c rest) (closeAll cs rest) (.closeConn c) ()
  | setAux {cs : StreamId} {plane : Plane} (hplane : reg.plane = some plane) :
      HandlerOp (.setAux cs) (.attached cs) (.attach cs conn plane) ()
  | clearAux : HandlerOp (.clearAux cs) (.done (some cs)) (.detach cs plane) ()
  | reject : HandlerOp .reject (.done none) (.closeConn conn) ()

end

theorem HandlerStep.data (hedge : HandlerStep conn reg choice s pc s' pc') :
    s'.data = s.data ∨
      ∃ (Result : Type) (op : DataOp Result) (result : Result),
        HandlerOp conn reg pc pc' op result ∧ s.data.exec op = some (s'.data, result) := by
  cases hedge with
  | unregisterStale => exact .inr ⟨_, _, _, .unregisterStale, rfl⟩
  | closeStale => exact .inr ⟨_, _, _, .closeStale, rfl⟩
  | closeOld => exact .inr ⟨_, _, _, .closeOld, rfl⟩
  | setBulk => exact .inr ⟨_, _, _, .setBulk, rfl⟩
  | register => exact .inr ⟨_, _, _, .register, rfl⟩
  | online => exact .inr ⟨_, _, _, .online, rfl⟩
  | unregister | replaced => exact .inr ⟨_, _, _, .unregister, rfl⟩
  | offline => exact .inr ⟨_, _, _, .offline, rfl⟩
  | closing => exact .inr ⟨_, _, _, .closing, rfl⟩
  | setAux hplane => exact .inr ⟨_, _, _, .setAux hplane, rfl⟩
  | @clearAux cs plane => exact .inr ⟨_, .detach cs plane, _, .clearAux, rfl⟩
  | reject => exact .inr ⟨_, _, _, .reject, rfl⟩
  | _ => exact .inl rfl

/-- The steps of a handler that change the registration of its address. -/
def PlanePC.rebinds : PlanePC → Bool
  | .unregisterStale _ _ => true
  | .register => true
  | .unregister _ => true
  | _ => false

section Operation

variable {Result : Type} {op : DataOp Result} {result : Result}
  (h : HandlerOp conn reg pc pc' op result)

include h

theorem HandlerOp.attaches (hattaches : op.Attaches cs c result) :
    c = conn ∧ pc'.own = some cs := by
  cases h with
  | setBulk | register | setAux => exact ⟨hattaches.2.symm, congrArg some hattaches.1⟩
  | _ => exact hattaches.elim

theorem HandlerOp.registers (hregisters : op.Registers vip key) :
    pc = .register ∧ reg.vip = vip ∧ reg.key = key := by
  cases h with
  | register => exact ⟨rfl, hregisters⟩
  | _ => exact hregisters.elim

theorem HandlerOp.rebinds (hrebinds : op.rebinds vip = true) :
    reg.vip = vip ∧ pc.rebinds = true := by
  cases h with
  | unregisterStale | register | unregister => exact ⟨of_decide_eq_true hrebinds, rfl⟩
  | _ => cases hrebinds

end Operation
theorem signal_data {request : Request Op SignalPC} {result : request.Result}
    (hcontrol : signalControl conn cs vip choice pc = some request)
    (hexec : exec (.signal conn) s request.op = some (shared, result)) : shared.data = s.data := by
  rcases data_of_exec hexec with hdata | ⟨op, hop, hdata⟩
  · exact hdata
  · cases pc with
    | reading i =>
      cases choice <;>
      · cases hcontrol
        cases hop
        exact (congrArg Prod.fst (Option.some.inj hdata)).symm
    | done => cases hcontrol
    | _ =>
      cases hcontrol
      first
      | (cases hop; exact (congrArg Prod.fst (Option.some.inj hdata)).symm)
      | cases hop

theorem datagram_data {result : request.Result}
    (hcontrol : datagramControl conn cs pc = some request)
    (hexec : exec (.datagrams conn) s request.op = some (shared, result)) :
    s.data.Unmoved shared.data := by
  cases pc with
  | receiving =>
    cases hcontrol
    obtain ⟨d, hd, rfl⟩ := exec_data.1 hexec
    obtain ⟨-, rfl⟩ := DataTables.exec_awaitClosed.1 hd
    exact .refl _
  | clearReady =>
    cases hcontrol
    obtain ⟨d, hd, rfl⟩ := exec_data.1 hexec
    cases hd
    exact s.data.unmoved_clearReady cs
  | done => cases hcontrol

theorem data_of_other (hstep : ServerStep gate cfg (.step t choice) cfg')
    (hother : ∀ conn, t ≠ .plane conn) : cfg.shared.data.Unmoved cfg'.shared.data := by
  have hsame : cfg'.shared.data = cfg.shared.data → cfg.shared.data.Unmoved cfg'.shared.data :=
    fun heq => heq ▸ .refl _
  have hareas : Area.data ∉ t.areas → cfg.shared.data.Unmoved cfg'.shared.data :=
    fun hareas => hsame (data_of_areas hstep hareas)
  cases hstep with
  | plane hlocal hcontrol hexec => exact absurd rfl (hother _)
  | datagrams hlocal hcontrol hexec => exact datagram_data hcontrol hexec
  | signal hlocal hcontrol hexec => exact hsame (signal_data hcontrol hexec)
  | login | dhcp | push => exact hareas (by simp [Thread.areas])

inductive DataPast (cfg cfg' : ServerConfig) (action : ServerAction) : Prop
  | unmoved (hdata : cfg.shared.data.Unmoved cfg'.shared.data)
  | closed (haction : action = .env (.closeConn conn))
      (hthreads : cfg'.threads = cfg.threads)
      (hdata : cfg'.shared.data = cfg.shared.data.closeConn conn)
  | handler {conn : ConnId} {choice : Choice} {reg : Registration} {pc pc' : PlanePC}
      {Result : Type} {op : DataOp Result} {result : Result}
      (haction : action = .step (.plane conn) choice)
      (hlocal : cfg.threads.lookup (.plane conn) = some (.plane reg pc))
      (hmoved : cfg'.threads.lookup (.plane conn) = some (.plane reg pc'))
      (hop : HandlerOp conn reg pc pc' op result)
      (hdata : cfg.shared.data.exec op = some (cfg'.shared.data, result))

section

variable (hstep : ServerStep gate cfg action cfg')
include hstep

theorem dataPast_of_step : DataPast cfg cfg' action := by
  have hother : ∀ t choice, action = .step t choice → (∀ conn, t ≠ .plane conn) →
      cfg.shared.data.Unmoved cfg'.shared.data :=
    fun t choice haction hne => data_of_other (haction ▸ hstep) hne
  cases hstep with
  | spawn hfresh hspawn => exact .unmoved (.refl _)
  | env henv =>
    rcases data_of_environment henv with hdata | ⟨conn, rfl, hdata⟩
    · exact .unmoved (by rw [hdata]; exact .refl _)
    · exact .closed rfl rfl hdata
  | plane hlocal hcontrol hexec =>
    rcases (handlerStep_of_exec hcontrol hexec).data with hdata | ⟨_, _, _, hop, hdata⟩
    · exact .unmoved (by rw [hdata]; exact .refl _)
    · exact .handler rfl hlocal (Finmap.lookup_insert _) hop hdata
  | _ => exact .unmoved (hother _ _ rfl nofun)

/-- A connection that is in a pointer after a step was there before, or its own
handler has just put it there. -/
theorem Wiring.attached_step (h : Wiring cfg)
    (hc : c ∈ cfg'.shared.data.snapshot cs) : Owns cfg' c cs := by
  have hkeep : c ∈ cfg.shared.data.snapshot cs → Owns cfg' c cs :=
    fun hold => owns_step hstep (h.attached cs c hold)
  cases dataPast_of_step hstep with
  | unmoved hdata => exact hkeep (hdata.snapshot cs ▸ hc)
  | closed _ _ hdata =>
    rw [hdata] at hc
    exact hkeep hc
  | handler _ _ hmoved hop hdata =>
    rcases DataTables.exec_attached hdata hc with hold | hattaches
    · exact hkeep hold
    · obtain ⟨rfl, hown⟩ := hop.attaches hattaches
      exact ⟨_, _, hmoved, hown⟩

/-- A step keeps every attached connection with its owner. -/
theorem Wiring.step (h : Wiring cfg) : Wiring cfg' := by
  have hext := extends_step h.valid hstep
  have hvalid := valid_step h.valid hstep
  refine ⟨hvalid, fun cs c hc => h.attached_step hstep hc, fun conn reg pc hpc => ?_⟩
  cases handlerPast_of_step hstep hpc with
  | started => trivial
  | stayed hold => exact (h.handler conn reg pc hold).extend hext
  | moved _ hold hedge => exact h.edge ((h.handler conn reg _ hold).extend hext) hedge hext hvalid

theorem Wiring.registered_step (h : Wiring cfg)
    (hcs : cfg'.shared.data.conns.lookup vip = some cs)
    (hstream : cfg'.shared.data.streams.lookup cs = some stream) :
    (cfg.shared.data.conns.lookup vip = some cs ∧
        ∃ old, cfg.shared.data.streams.lookup cs = some old ∧ old.key = stream.key) ∨
      ∃ conn choice reg, action = .step (.plane conn) choice ∧
        cfg.threads.lookup (.plane conn) = some (.plane reg .register) ∧
        reg.vip = vip ∧ reg.key = stream.key := by
  by_cases hold : cfg.shared.data.conns.lookup vip = some cs
  · obtain ⟨old, holdStream, -⟩ := h.valid.registered vip cs hold
    obtain ⟨stream', hstream', -, hkey⟩ := stream_kept h.valid hstep holdStream
    rw [hstream] at hstream'
    cases hstream'
    exact .inl ⟨hold, old, holdStream, hkey.symm⟩
  right
  cases dataPast_of_step hstep with
  | unmoved hdata => exact absurd (hdata.conns ▸ hcs) hold
  | closed _ _ hdata =>
    rw [hdata] at hcs
    exact absurd hcs hold
  | handler haction hlocal _ hop hdata =>
    rcases DataTables.exec_registered hdata hcs with hthere | ⟨key, hregisters, c, hnew⟩
    · exact absurd hthere hold
    · obtain ⟨rfl, hvip, rfl⟩ := hop.registers hregisters
      rw [hstream] at hnew
      cases hnew
      exact ⟨_, _, _, haction, hlocal, hvip, rfl⟩

theorem conns_of_step (vip : IPv4) :
    cfg'.shared.data.conns.lookup vip = cfg.shared.data.conns.lookup vip ∨
      ∃ conn choice reg pc, action = .step (.plane conn) choice ∧
        cfg.threads.lookup (.plane conn) = some (.plane reg pc) ∧
        reg.vip = vip ∧ pc.rebinds = true := by
  cases dataPast_of_step hstep with
  | unmoved hdata => exact .inl (by rw [hdata.conns])
  | closed _ _ hdata => exact .inl (by rw [hdata]; rfl)
  | @handler _ _ _ _ _ _ op _ haction hlocal _ hop hdata =>
    rcases Bool.eq_false_or_eq_true (op.rebinds vip) with hrebinds | hrebinds
    · obtain ⟨hvip, hpc⟩ := hop.rebinds hrebinds
      exact .inr ⟨_, _, _, _, haction, hlocal, hvip, hpc⟩
    · exact .inl (DataTables.exec_conns hdata hrebinds)

end

theorem Setup.initial_wiring (setup : Setup) : Wiring setup.initial := by
  refine ⟨DataTables.empty_valid, fun cs c hc => ?_, fun conn reg pc hpc => ?_⟩
  · simp [Setup.initial, DataTables.empty, DataTables.snapshot] at hc
  · simp [Setup.initial] at hpc

theorem Wired.opened (hpc : Wired cfg reg pc) (hown : pc.own = some cs) :
    Opened cfg cs reg.vip := by
  cases pc with
  | done =>
    cases hown
    exact hpc
  | closing =>
    cases hown
    exact hpc.1.2
  | _ =>
    cases hown
    all_goals exact hpc.2

/-- In every run a connection is in the pointers of at most one object, which is
for the address that its handler has registered with, and the object registered
for an address is for this address. -/
theorem connections_separated (setup : Setup) (actions : List ServerAction) (cfg : ServerConfig)
    (hrun : run setup.next setup.initial actions = some cfg) :
    (∀ conn cs cs', conn ∈ cfg.shared.data.snapshot cs → conn ∈ cfg.shared.data.snapshot cs' →
      cs = cs') ∧
    (∀ conn cs, conn ∈ cfg.shared.data.snapshot cs → ∃ reg pc,
      cfg.threads.lookup (.plane conn) = some (.plane reg pc) ∧ Opened cfg cs reg.vip) ∧
    ∀ vip cs, cfg.shared.data.conns.lookup vip = some cs → Opened cfg cs vip := by
  have hwiring : Wiring cfg := run_stable (fun _ _ _ h hnext => h.step (serverStep_of_next hnext))
    setup.initial_wiring hrun
  refine ⟨fun conn cs cs' hcs hcs' => ?_, fun conn cs hcs => ?_, hwiring.valid.registered⟩
  · obtain ⟨reg, pc, hlocal, hown⟩ := hwiring.attached cs conn hcs
    obtain ⟨reg', pc', hlocal', hown'⟩ := hwiring.attached cs' conn hcs'
    cases hlocal.symm.trans hlocal'
    exact Option.some.inj (hown.symm.trans hown')
  · obtain ⟨reg, pc, hlocal, hown⟩ := hwiring.attached cs conn hcs
    exact ⟨reg, pc, hlocal, (hwiring.handler conn reg pc hlocal).opened hown⟩

theorem connections_separated_ann :
    ∃ cfg cs, run smallSetup.next smallSetup.initial annServedRun = some cfg ∧
      cfg.shared.data.conns.lookup annVIP = some cs ∧ Opened cfg cs annVIP := by
  obtain ⟨cfg, hrun, hcs⟩ : ∃ cfg,
      run smallSetup.next smallSetup.initial annServedRun = some cfg ∧
      cfg.shared.data.conns.lookup annVIP = some 0 := by
    decide +kernel
  exact ⟨cfg, 0, hrun, hcs, (connections_separated smallSetup _ cfg hrun).2.2 annVIP 0 hcs⟩

end Hy2Link.Server
