import Hy2Link.Server.Wiring

/-! # Takeover of a data plane

A client that reconnects opens a new bulk connection while the handler of the
old one is still there.  If the new handler finds the object of the old one it
closes the old connection and puts its own into the same object; the old
handler then runs its teardown against that object.

`Undisturbed` is what the new connection should be able to rely on once its
set-up has finished.  It holds where the set-up has found no registration; the
teardown of the old handler ends with `closeAll` on whatever the shared object
holds by then, so a connection that was put into it is closed.
-/

namespace Hy2Link.Server

open Interleaving

/-- The lookup is behind the handler, and the connection is still served or
about to be. -/
def PlanePC.settled : PlanePC → Bool
  | .lookup => false
  | .online _ => true
  | .serving _ => true
  | pc => pc.settingUp

/-- The new connection is left alone from outside: nobody closes it, and after
its lookup no other bulk connection of the address is set up. -/
def leftAlone (new : ConnId) (cfg : ServerConfig) : ServerAction → Bool
  | .env (.closeConn conn) => conn ≠ new
  | .step (.plane conn) _ =>
    match handlerAt cfg new, handlerAt cfg conn with
    | some (reg, pc), some (reg', pc') =>
      conn = new || !(pc.settled && reg'.vip = reg.vip && pc'.settingUp)
    | _, _ => true
  | _ => true

/-- The lookup of the new connection finds no object of the same client, so
that there is none to take over. -/
def opensNew (new : ConnId) (cfg : ServerConfig) : ServerAction → Bool
  | .step (.plane conn) _ =>
    match handlerAt cfg new with
    | some (reg, .lookup) =>
      conn ≠ new || (cfg.shared.data.lookup reg.vip).all fun found => found.2 ≠ reg.key
    | _ => true
  | _ => true

/-- Once the set-up of `new` has finished, the lookup of its address answers an
object with `new` as its bulk connection, and the next connection that the
teardown of an older connection of the same client closes is not attached to
that object. -/
def Undisturbed (new : ConnId) (cfg : ServerConfig) : Prop :=
  ∀ reg cs, cfg.threads.lookup (.plane new) = some (.plane reg (.serving cs)) →
    cfg.shared.data.conns.lookup reg.vip = some cs ∧
      cfg.shared.data.getDataConn cs = some new ∧
      ∀ old reg' cs' conn rest, old ≠ new →
        cfg.threads.lookup (.plane old) = some (.plane reg' (.closing cs' conn rest)) →
        reg'.vip = reg.vip → reg'.key = reg.key → conn ∉ cfg.shared.data.snapshot cs

/-! ## The invariant -/

def PlanePC.stream : PlanePC → Option StreamId
  | .oldConn cs => some cs
  | .closeOld cs _ => some cs
  | .setBulk cs => some cs
  | .acknowledge cs => some cs
  | .setAux cs => some cs
  | pc => pc.own

/-- The object `cs` is registered with `new` in it, and no other bulk handler
works on it. -/
structure Secure (new : ConnId) (cfg : ServerConfig) (vip : IPv4) (cs : StreamId) : Prop where
  registered : cfg.shared.data.conns.lookup vip = some cs
  dataConn : cfg.shared.data.getDataConn cs = some new
  alone : ∀ conn reg pc, conn ≠ new →
    cfg.threads.lookup (.plane conn) = some (.plane reg pc) → reg.plane = some .data →
    pc.stream ≠ some cs

def SettledAt (new : ConnId) (cfg : ServerConfig) (reg : Registration) (pc : PlanePC) : Prop :=
  ∀ cs, pc.stream = some cs → (pc = .online cs ∨ pc = .serving cs) ∧ Secure new cfg reg.vip cs

/-- For the bulk handler of `new`; the connection of a handler of another
plane may be closed at any time. -/
structure Settled (new : ConnId) (cfg : ServerConfig) : Prop where
  wiring : Wiring cfg
  point : ∀ reg pc, cfg.threads.lookup (.plane new) = some (.plane reg pc) →
    reg.plane = some .data → SettledAt new cfg reg pc
  alive : ∀ reg pc, cfg.threads.lookup (.plane new) = some (.plane reg pc) →
    reg.plane = some .data → pc ≠ .done none → new ∉ cfg.shared.data.closed
  unborn : cfg.threads.lookup (.plane new) = none → new ∉ cfg.shared.data.closed

variable {pc pc' : PlanePC}

theorem stream_of_own (hown : pc.own = some cs) : pc.stream = some cs := by
  cases pc <;> first | exact hown | cases hown

/-! ## What a handler does to the objects of others -/

theorem Wiring.opened_stream (h : Wiring cfg)
    (hlocal : cfg.threads.lookup (.plane conn) = some (.plane reg pc)) (hcs : pc.stream = some cs) :
    Opened cfg cs reg.vip := by
  have hpc := h.handler conn reg pc hlocal
  cases pc with
  | closeOld | closing =>
    cases hcs
    exact hpc.1.2
  | done x =>
    cases hcs
    exact hpc
  | _ =>
    cases hcs
    try exact hpc.2

theorem stream_closeAll (hx : (PlanePC.closeAll cs conns).stream = some x) : cs = x := by
  cases conns <;> exact Option.some.inj hx

theorem Wiring.stream_edge (h : Wiring cfg)
    (hlocal : cfg.threads.lookup (.plane conn) = some (.plane reg pc))
    (hbulk : reg.plane = some .data)
    (hedge : HandlerStep conn reg choice cfg.shared pc shared pc') (hcs : pc'.stream = some cs) :
    pc.stream = some cs ∨
      pc = .lookup ∧ cfg.shared.data.lookup reg.vip = some (cs, reg.key) ∨
      pc = .register ∧ cs = cfg.shared.data.nextStream := by
  have hpc := h.handler conn reg pc hlocal
  cases hedge with
  | sameIdentity hlookup =>
    cases hcs
    exact .inr (.inl ⟨rfl, hlookup⟩)
  | register => exact .inr (.inr ⟨rfl, (Option.some.inj hcs).symm⟩)
  | bulkFound | gameBulkFound => exact absurd hbulk hpc
  | snapshot | closing => exact .inl (congrArg some (stream_closeAll hcs))
  | snapshotStale =>
    generalize cfg.shared.data.snapshot _ = conns at hcs
    cases conns <;> cases hcs
  | @closeStale c rest => cases rest <;> cases hcs
  | unlock | accept =>
    dsimp only [PlanePC.accepted, PlanePC.streamsOpen] at hcs
    repeat' split at hcs
    all_goals cases hcs
  | _ =>
    first
    | exact .inl hcs
    | cases hcs

section Operation

variable {Result : Type}

/-- A handler closes its own connection when it gives up; every other
connection it closes belongs to an object for its address, which it works on
or is about to replace. -/
theorem Wiring.closes (h : Wiring cfg)
    (hlocal : cfg.threads.lookup (.plane conn) = some (.plane reg pc))
    (hop : HandlerOp conn reg pc pc' op result) (hcloses : op.Closes cfg.shared.data c) :
    pc = .reject ∧ c = conn ∨
      ∃ cs, Owns cfg c cs ∧ Opened cfg cs reg.vip ∧
        (pc.settingUp = true ∨ reg.plane = some .data ∧ ∃ rest, pc = .closing cs c rest) := by
  have hpc := h.handler conn reg pc hlocal
  cases hop with
  | reject => exact .inl ⟨rfl, hcloses.symm⟩
  | closeStale =>
    obtain ⟨-, cs, hopened, howns⟩ := hpc
    exact .inr ⟨cs, hcloses ▸ howns _ List.mem_cons_self, hopened, .inl rfl⟩
  | closeOld => exact .inr ⟨_, hcloses ▸ hpc.2, hpc.1.2, .inl rfl⟩
  | @closing cs x rest =>
    obtain rfl : x = c := hcloses
    exact .inr ⟨cs, hpc.2 x List.mem_cons_self, hpc.1.2, .inr ⟨hpc.1.1, rest, rfl⟩⟩
  | register =>
    obtain ⟨cs, hcs, hmem⟩ := hcloses
    exact .inr ⟨cs, h.attached cs c hmem, h.valid.registered reg.vip cs hcs, .inl rfl⟩
  | _ => exact hcloses.elim

/-- Outside its set-up a handler changes the registration of its address only
by withdrawing its own connection. -/
theorem HandlerOp.conns {d d' : DataTables} (hop : HandlerOp conn reg pc pc' op result)
    (hdata : d.exec op = some (d', result)) (hquiet : reg.vip = vip → pc.settingUp = false) :
    d'.conns.lookup vip = d.conns.lookup vip ∨ d' = (d.unregisterData vip (some conn)).1 := by
  by_cases hrebinds : op.rebinds vip = true
  · cases hop with
    | unregisterStale | register => cases hquiet (of_decide_eq_true hrebinds)
    | unregister =>
      obtain rfl : reg.vip = vip := of_decide_eq_true hrebinds
      exact .inr (DataTables.exec_unregisterData.1 hdata).1
    | _ => cases hrebinds
  · exact .inl (DataTables.exec_conns hdata (Bool.eq_false_iff.2 hrebinds))

theorem Wiring.setsData (h : Wiring cfg)
    (hlocal : cfg.threads.lookup (.plane conn) = some (.plane reg pc))
    (hop : HandlerOp conn reg pc pc' op result) (hsets : op.setsData cs = true) :
    pc.settingUp = true ∧ Opened cfg cs reg.vip := by
  have hpc := h.handler conn reg pc hlocal
  cases hop with
  | @setBulk x =>
    obtain rfl : x = cs := of_decide_eq_true hsets
    exact ⟨rfl, hpc.2⟩
  | @setAux x plane hplane =>
    cases plane with
    | data => exact absurd hplane hpc.1
    | _ => cases hsets
  | _ => cases hsets

end Operation

/-! ## The invariant is kept -/

theorem leftAlone_handler (halone : leftAlone new cfg (.step (.plane conn) choice) = true)
    (hne : conn ≠ new)
    (hnew : cfg.threads.lookup (.plane new) = some (.plane reg pc))
    (hlocal : cfg.threads.lookup (.plane conn) = some (.plane reg' pc'))
    (hsettled : pc.settled = true) (hvip : reg'.vip = reg.vip) : pc'.settingUp = false := by
  simp only [leftAlone, handlerAt_eq_some.2 hnew, handlerAt_eq_some.2 hlocal] at halone
  simpa [hne, hsettled, hvip] using halone

theorem SettledAt.settled (h : SettledAt new cfg reg pc) (hcs : pc.stream = some cs) :
    pc.settled = true := by
  rcases (h cs hcs).1 with rfl | rfl <;> rfl

section

variable (h : Settled new cfg)
include h

theorem Settled.not_closed (hne : conn ≠ new)
    (halone : leftAlone new cfg (.step (.plane conn) choice) = true)
    (hlocal : cfg.threads.lookup (.plane conn) = some (.plane reg' pc))
    (hedge : HandlerStep conn reg' choice cfg.shared pc shared pc')
    (hbulk : ∀ reg pc, cfg.threads.lookup (.plane new) = some (.plane reg pc) →
      reg.plane = some .data)
    (hopen : new ∉ cfg.shared.data.closed) : new ∉ shared.data.closed := by
  intro hclosed
  rcases hedge.data with hdata | ⟨_, op, _, hop, hdata⟩
  · exact hopen (hdata ▸ hclosed)
  rcases DataTables.exec_closed hdata hclosed with hold | hcloses
  · exact hopen hold
  rcases h.wiring.closes hlocal hop hcloses with
    ⟨-, heq⟩ | ⟨cs, ⟨reg, pc, hnew, hown⟩, hopened, hpc⟩
  · exact hne heq.symm
  have hcs := stream_of_own hown
  have hpoint := h.point reg pc hnew (hbulk reg pc hnew)
  rcases hpc with hsetting | ⟨hplane, rest, rfl⟩
  · have hvip := opened_vip hopened (h.wiring.opened_stream hnew hcs)
    simp [leftAlone_handler halone hne hnew hlocal (hpoint.settled hcs) hvip] at hsetting
  · exact (hpoint cs hcs).2.alone conn reg' _ hne hlocal hplane rfl

theorem Settled.secure_step (hne : conn ≠ new)
    (hlocal : cfg.threads.lookup (.plane conn) = some (.plane reg' pc))
    (hedge : HandlerStep conn reg' choice cfg.shared pc shared pc')
    (hquiet : reg'.vip = vip → pc.settingUp = false) (hsecure : Secure new cfg vip cs) :
    Secure new ⟨shared, cfg.threads.insert (.plane conn) (.plane reg' pc')⟩ vip cs := by
  have hopened := h.wiring.valid.registered vip cs hsecure.registered
  refine ⟨?_, ?_, fun c r p hc hl hplane hstream => ?_⟩
  · rcases hedge.data with hdata | ⟨_, op, _, hop, hdata⟩
    · exact (congrArg (·.conns.lookup vip) hdata).trans hsecure.registered
    rcases hop.conns hdata hquiet with hconns | hwithdrawn
    · exact hconns.trans hsecure.registered
    · -- the withdrawal of another connection finds the new one and gives up
      rw [DataTables.unregisterData_of_ne hsecure.registered hsecure.dataConn hne.symm]
        at hwithdrawn
      exact (congrArg (·.conns.lookup vip) hwithdrawn).trans hsecure.registered
  · rcases hedge.data with hdata | ⟨_, op, _, hop, hdata⟩
    · exact (congrArg (DataTables.getDataConn · cs) hdata).trans hsecure.dataConn
    · refine h.wiring.valid.exec_dataConn hdata (Bool.eq_false_iff.2 fun hsets => ?_)
        hsecure.dataConn
      obtain ⟨hsetting, hopened'⟩ := h.wiring.setsData hlocal hop hsets
      simp [hquiet (opened_vip hopened' hopened)] at hsetting
  · rcases lookup_insert_eq_some.1 hl with ⟨heq, hlocal'⟩ | ⟨-, hold⟩
    · cases hlocal'
      cases heq
      rcases h.wiring.stream_edge hlocal hplane hedge hstream with
        hold | ⟨rfl, hfound⟩ | ⟨-, hfresh⟩
      · exact hsecure.alone conn reg' pc hne hlocal hplane hold
      · cases hquiet (opened_vip (h.wiring.opened_of_lookup hfound) hopened)
      · obtain ⟨stream, hstream, -⟩ := hopened
        exact h.wiring.valid.fresh hstream hfresh
    · exact hsecure.alone c r p hc hold hplane hstream

theorem Settled.own_not_closed (hbulk : reg.plane = some .data)
    (hlocal : cfg.threads.lookup (.plane new) = some (.plane reg pc))
    (hedge : HandlerStep new reg choice cfg.shared pc shared pc') (hresume : pc' ≠ .done none) :
    new ∉ shared.data.closed := by
  have hopen : new ∉ cfg.shared.data.closed := by
    refine h.alive reg pc hlocal hbulk fun hdone => ?_
    subst hdone
    cases hedge
  intro hclosed
  rcases hedge.data with hdata | ⟨_, op, _, hop, hdata⟩
  · exact hopen (hdata ▸ hclosed)
  rcases DataTables.exec_closed hdata hclosed with hold | hcloses
  · exact hopen hold
  rcases h.wiring.closes hlocal hop hcloses with
    ⟨rfl, -⟩ | ⟨cs, ⟨reg', pc', hlocal', hown⟩, -, hpc⟩
  · cases hop
    exact hresume rfl
  rw [hlocal] at hlocal'
  cases hlocal'
  rcases (h.point reg pc hlocal hbulk cs (stream_of_own hown)).1 with rfl | rfl <;>
  · rcases hpc with hsetting | ⟨-, rest, hclosing⟩
    · cases hsetting
    · cases hclosing

theorem Settled.secure_register :
    Secure new
      ⟨{ cfg.shared with data := (cfg.shared.data.register reg.vip reg.key new).1 },
        cfg.threads.insert (.plane new) (.plane reg (.online cfg.shared.data.nextStream))⟩
      reg.vip cfg.shared.data.nextStream := by
  refine ⟨Finmap.lookup_insert _, ?_, fun conn reg' pc' hne hl _ hstream => ?_⟩
  · exact DataTables.getDataConn_eq_some.2 ⟨_, Finmap.lookup_insert _, rfl⟩
  · rcases lookup_insert_eq_some.1 hl with ⟨heq, -⟩ | ⟨-, hold⟩
    · exact hne (Thread.plane.inj heq)
    · obtain ⟨stream, hlookup, -⟩ := h.wiring.opened_stream hold hstream
      exact h.wiring.valid.fresh hlookup rfl

theorem Settled.own_point (hbulk : reg.plane = some .data)
    (hopens : opensNew new cfg (.step (.plane new) choice) = true)
    (hlocal : cfg.threads.lookup (.plane new) = some (.plane reg pc))
    (hedge : HandlerStep new reg choice cfg.shared pc shared pc') :
    SettledAt new ⟨shared, cfg.threads.insert (.plane new) (.plane reg pc')⟩ reg pc' := by
  intro cs hcs
  rcases h.wiring.stream_edge hlocal hbulk hedge hcs with hold | ⟨rfl, hfound⟩ | ⟨rfl, rfl⟩
  · obtain ⟨rfl | rfl, hsecure⟩ := h.point reg pc hlocal hbulk cs hold
    · cases hedge
      refine ⟨.inr rfl, hsecure.registered, hsecure.dataConn, fun conn reg' pc' hne hl => ?_⟩
      rcases lookup_insert_eq_some.1 hl with ⟨heq, -⟩ | ⟨-, hold'⟩
      · exact absurd (Thread.plane.inj heq) hne
      · exact hsecure.alone conn reg' pc' hne hold'
    · -- the handler waits as long as its connection is open
      cases hedge with
      | served hclosed => exact absurd hclosed (h.alive reg _ hlocal hbulk nofun)
  · simp [opensNew, handlerAt_eq_some.2 hlocal, hfound] at hopens
  · cases hedge
    exact ⟨.inl rfl, h.secure_register⟩

theorem Settled.frame (hwiring : Wiring cfg')
    (hthreads : ∀ conn, cfg'.threads.lookup (.plane conn) = cfg.threads.lookup (.plane conn))
    (hconns : cfg'.shared.data.conns = cfg.shared.data.conns)
    (hdataConn : ∀ cs, cfg'.shared.data.getDataConn cs = cfg.shared.data.getDataConn cs)
    (hclosed : new ∈ cfg'.shared.data.closed → new ∈ cfg.shared.data.closed) :
    Settled new cfg' := by
  refine ⟨hwiring, fun reg pc hnew hbulk cs hcs => ?_, fun reg pc hnew hbulk hpc hmem => ?_,
    fun hnone hmem => ?_⟩
  · rw [hthreads] at hnew
    obtain ⟨hpc, hsecure⟩ := h.point reg pc hnew hbulk cs hcs
    refine ⟨hpc, ?_, ?_, fun conn reg' pc' hne hl => ?_⟩
    · rw [hconns]
      exact hsecure.registered
    · rw [hdataConn]
      exact hsecure.dataConn
    · rw [hthreads] at hl
      exact hsecure.alone conn reg' pc' hne hl
  · rw [hthreads] at hnew
    exact h.alive reg pc hnew hbulk hpc (hclosed hmem)
  · rw [hthreads] at hnone
    exact h.unborn hnone (hclosed hmem)

theorem Settled.spawn
    (hwiring : Wiring { cfg with threads := cfg.threads.insert t l })
    (hfresh : cfg.threads.lookup t = none) (hspawn : spawnable cfg t l = true) :
    Settled new { cfg with threads := cfg.threads.insert t l } := by
  have hstart : ∀ conn reg pc, t = .plane conn → l = .plane reg pc → pc = .start := by
    rintro conn reg pc rfl rfl
    cases pc with
    | start => rfl
    | _ => cases hspawn
  refine ⟨hwiring, fun reg pc hnew hbulk cs hcs => ?_, fun reg pc hnew hbulk hpc => ?_,
    fun hnone => ?_⟩
  · rcases lookup_insert_eq_some.1 hnew with ⟨heq, hl⟩ | ⟨-, hold⟩
    · rw [hstart new reg pc heq.symm hl.symm] at hcs
      cases hcs
    · obtain ⟨hpc, hsecure⟩ := h.point reg pc hold hbulk cs hcs
      refine ⟨hpc, hsecure.registered, hsecure.dataConn, fun conn reg' pc' hne hl' => ?_⟩
      rcases lookup_insert_eq_some.1 hl' with ⟨heq, hl⟩ | ⟨-, hold'⟩
      · rw [hstart conn reg' pc' heq.symm hl.symm]
        nofun
      · exact hsecure.alone conn reg' pc' hne hold'
  · rcases lookup_insert_eq_some.1 hnew with ⟨heq, -⟩ | ⟨-, hold⟩
    · exact h.unborn (heq ▸ hfresh)
    · exact h.alive reg pc hold hbulk hpc
  · refine h.unborn (Option.eq_none_iff_forall_ne_some.2 fun old hold => ?_)
    have hne : Thread.plane new ≠ t := by
      rintro rfl
      simp [hfresh] at hold
    simp [Finmap.lookup_insert_of_ne _ hne, hold] at hnone

theorem Settled.plane_step
    (hwiring : Wiring ⟨shared, cfg.threads.insert (.plane conn) (.plane reg pc')⟩)
    (halone : leftAlone new cfg (.step (.plane conn) choice) = true)
    (hopens : opensNew new cfg (.step (.plane conn) choice) = true)
    (hlocal : cfg.threads.lookup (.plane conn) = some (.plane reg pc))
    (hedge : HandlerStep conn reg choice cfg.shared pc shared pc') :
    Settled new ⟨shared, cfg.threads.insert (.plane conn) (.plane reg pc')⟩ := by
  by_cases hne : conn = new
  · subst hne
    refine ⟨hwiring, fun reg' pc' hnew hbulk => ?_, fun reg' pc' hnew hbulk hpc => ?_,
      fun hnone => ?_⟩
    · rw [Finmap.lookup_insert] at hnew
      cases hnew
      exact h.own_point hbulk hopens hlocal hedge
    · rw [Finmap.lookup_insert] at hnew
      cases hnew
      exact h.own_not_closed hbulk hlocal hedge hpc
    · simp [Finmap.lookup_insert] at hnone
  · have hsame : (cfg.threads.insert (.plane conn) (.plane reg pc')).lookup (.plane new) =
        cfg.threads.lookup (.plane new) :=
      Finmap.lookup_insert_of_ne _ fun heq => hne (Thread.plane.inj heq).symm
    refine ⟨hwiring, fun reg' pc' hnew hbulk cs hcs => ?_, fun reg' pc' hnew hbulk hpc => ?_,
      fun hnone => ?_⟩
    · rw [hsame] at hnew
      have hpoint := h.point reg' pc' hnew hbulk
      obtain ⟨hpc, hsecure⟩ := hpoint cs hcs
      have hquiet := leftAlone_handler halone hne hnew hlocal (hpoint.settled hcs)
      exact ⟨hpc, h.secure_step hne hlocal hedge hquiet hsecure⟩
    · rw [hsame] at hnew
      refine h.not_closed hne halone hlocal hedge (fun r p hr => ?_)
        (h.alive reg' pc' hnew hbulk hpc)
      rw [hnew] at hr
      cases hr
      exact hbulk
    · rw [hsame] at hnone
      refine h.not_closed hne halone hlocal hedge (fun r p hr => ?_) (h.unborn hnone)
      simp [hnone] at hr

/-- A step that leaves the new connection alone keeps it settled. -/
theorem Settled.step (halone : leftAlone new cfg action = true)
    (hopens : opensNew new cfg action = true) (hstep : ServerStep gate cfg action cfg') :
    Settled new cfg' := by
  have hwiring := h.wiring.step hstep
  have hother : ∀ t choice, action = .step t choice → (∀ conn, t ≠ .plane conn) →
      cfg.shared.data.Unmoved cfg'.shared.data :=
    fun t choice haction hne => data_of_other (haction ▸ hstep) hne
  cases hstep with
  | spawn hfresh hspawn => exact h.spawn hwiring hfresh hspawn
  | plane hlocal hcontrol hexec =>
    exact h.plane_step hwiring halone hopens hlocal (handlerStep_of_exec hcontrol hexec)
  | env henv =>
    rcases data_of_environment henv with hdata | ⟨conn, rfl, hdata⟩
    · exact h.frame hwiring (fun _ => rfl) (by rw [hdata]) (fun _ => by rw [hdata])
        fun hmem => hdata ▸ hmem
    · refine h.frame hwiring (fun _ => rfl) (by rw [hdata]; rfl) (fun _ => by rw [hdata]; rfl) ?_
      intro hmem
      rw [hdata] at hmem
      rcases Finset.mem_insert.1 hmem with rfl | hold
      · simp [leftAlone] at halone
      · exact hold
  | _ =>
    have hdata := hother _ _ rfl nofun
    exact h.frame hwiring (fun conn => Finmap.lookup_insert_of_ne _ nofun) hdata.conns
      hdata.dataConn fun hmem => hdata.closed ▸ hmem

theorem Settled.undisturbed : Undisturbed new cfg := by
  intro reg cs hnew
  have hbulk : reg.plane = some .data := (h.wiring.handler new reg _ hnew).1
  obtain ⟨-, hsecure⟩ := h.point reg _ hnew hbulk cs rfl
  refine ⟨hsecure.registered, hsecure.dataConn, fun old reg' cs' conn rest hne hold _ _ hconn => ?_⟩
  -- a connection belongs to one object only
  obtain ⟨⟨hbulk', -⟩, howns⟩ := h.wiring.handler old reg' _ hold
  obtain ⟨r, pc, hlocal, hown⟩ := h.wiring.attached cs conn hconn
  obtain ⟨r', pc', hlocal', hown'⟩ := howns conn List.mem_cons_self
  rw [hlocal] at hlocal'
  cases hlocal'
  rw [hown] at hown'
  exact hsecure.alone old reg' _ hne hold hbulk' hown'.symm

end

theorem Setup.initial_settled (setup : Setup) (new : ConnId) : Settled new setup.initial := by
  refine ⟨setup.initial_wiring, fun reg pc hnew => ?_, fun reg pc hnew => ?_, fun _ hmem => ?_⟩
  · simp [Setup.initial] at hnew
  · simp [Setup.initial] at hnew
  · simp [Setup.initial, DataTables.empty] at hmem

/-- A connection whose lookup has found no object of its client is served
undisturbed for as long as it is left alone. -/
theorem takeover_undisturbed (setup : Setup) (new : ConnId) (actions : List ServerAction)
    (cfg : ServerConfig)
    (hsteps : Along setup.next
      (fun cfg action => leftAlone new cfg action = true ∧ opensNew new cfg action = true)
      setup.initial actions)
    (hrun : run setup.next setup.initial actions = some cfg) : Undisturbed new cfg := by
  have hsettled : Settled new cfg := by
    refine run_invariant ?_ (setup.initial_settled new) hsteps hrun
    intro s action next hs hok hnext
    exact hs.step hok.1 hok.2 (serverStep_of_next hnext)
  exact hsettled.undisturbed

/-! ## Two reconnections -/

/-- Connection 2 takes the object over; the teardown of connection 1 is about
to close the connection it finds there. -/
def takeoverRun : List ServerAction :=
  annServedRun ++ connectRun 2 annData 13 ++ steps (.plane 1) 3

/-- Connection 1 is torn down before the client logs in again and connection 2
comes. -/
def reconnectRun : List ServerAction :=
  annServedRun ++ [.env (.closeConn 1)] ++ steps (.plane 1) 7 ++
    loginRun 1 annData.peerIP "ann:pw" ++ requestRun 1 annData.key "dev" ++
    connectRun 2 annData 11

/-- The teardown of the old handler closes the connection that took over. -/
theorem takeover_closed_by_teardown :
    ¬ ∀ (setup : Setup) new actions cfg,
      Along setup.next (fun cfg action => leftAlone new cfg action = true) setup.initial actions →
      run setup.next setup.initial actions = some cfg → Undisturbed new cfg := by
  intro h
  obtain ⟨cfg, hcfg, hserving, hclosing, hmem⟩ : ∃ cfg,
      run smallSetup.next smallSetup.initial takeoverRun = some cfg ∧
      cfg.threads.lookup (.plane 2) = some (.plane annData (.serving 0)) ∧
      cfg.threads.lookup (.plane 1) = some (.plane annData (.closing 0 2 [])) ∧
      2 ∈ cfg.shared.data.snapshot 0 := by
    decide +kernel
  obtain ⟨-, -, hkept⟩ :=
    h smallSetup 2 takeoverRun cfg (by decide +kernel) hcfg annData 0 hserving
  exact hkept 1 annData 0 2 [] nofun hclosing rfl rfl hmem

theorem reconnect_undisturbed :
    ∃ cfg, run smallSetup.next smallSetup.initial reconnectRun = some cfg ∧
      Undisturbed 2 cfg ∧
      cfg.threads.lookup (.plane 2) = some (.plane annData (.serving 1)) := by
  obtain ⟨cfg, hcfg, hserving⟩ : ∃ cfg,
      run smallSetup.next smallSetup.initial reconnectRun = some cfg ∧
      cfg.threads.lookup (.plane 2) = some (.plane annData (.serving 1)) := by
    decide +kernel
  exact ⟨cfg, hcfg, takeover_undisturbed smallSetup 2 reconnectRun cfg (by decide +kernel) hcfg,
    hserving⟩

end Hy2Link.Server
