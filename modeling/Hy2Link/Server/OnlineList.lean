import Hy2Link.Server.Wiring

/-! # The online list and the registrations

The setup of a bulk connection registers a clientStream and then enters its
address into the online list; the teardown unregisters it and then removes the
entry.  The tables have locks of their own and the steps lie apart.  The
teardown of one connection can remove the entry that the setup of the next one
has made, and a late setup can enter an address that is no longer registered.

`online_list_agrees` holds for the runs in which the setups and teardowns of
one address do not overlap.
-/

namespace Hy2Link.Server

open Interleaving DataTables

/-- The handler is between the first and the last table step of its setup or of
its teardown. -/
def PlanePC.midway : PlanePC → Bool
  | .staleConn _ => true
  | .unregisterStale _ _ => true
  | .snapshotStale _ => true
  | .closeStale _ _ => true
  | .oldConn _ => true
  | .closeOld _ _ => true
  | .setBulk _ => true
  | .register => true
  | .online _ => true
  | .releaseVIP _ => true
  | .releaseSession _ => true
  | .offline _ => true
  | _ => false

def Local.midway : Local → Bool
  | .plane _ pc => pc.midway
  | _ => false

def Quiescent (cfg : ServerConfig) : Prop :=
  ∀ t l, cfg.threads.lookup t = some l → l.midway = false

instance (cfg : ServerConfig) : Decidable (Quiescent cfg) := decidableForallLookup

/-- The online list has the registered addresses, each with the username of the
clientStream that is registered for it. -/
structure OnlineAgrees (d : DataTables) : Prop where
  keys : ∀ vip, vip ∈ d.clients ↔ vip ∈ d.conns
  usernames : ∀ vip name cs stream, d.clients.lookup vip = some name →
    d.conns.lookup vip = some cs → d.streams.lookup cs = some stream → name = stream.username

def DataTables.Entered (d : DataTables) (vip : IPv4) : Prop :=
  d.clients.lookup vip = (d.lookup vip).map fun found => found.2.username

theorem DataTables.Valid.onlineAgrees (h : d.Valid) (hentered : ∀ vip, d.Entered vip) :
    OnlineAgrees d := by
  have hlookup : ∀ vip cs, d.conns.lookup vip = some cs →
      ∃ stream, d.streams.lookup cs = some stream ∧
        d.clients.lookup vip = some stream.username := by
    intro vip cs hcs
    obtain ⟨stream, hstream, -⟩ := h.registered vip cs hcs
    refine ⟨stream, hstream, ?_⟩
    rw [hentered vip, lookup_eq_some.2 ⟨hcs, stream, hstream, rfl⟩]
    rfl
  constructor
  · intro vip
    rw [Finmap.mem_iff, Finmap.mem_iff]
    constructor
    · rintro ⟨name, hname⟩
      rw [hentered vip, Option.map_eq_some_iff] at hname
      obtain ⟨⟨cs, key⟩, hfound, -⟩ := hname
      exact ⟨cs, (lookup_eq_some.1 hfound).1⟩
    · rintro ⟨cs, hcs⟩
      obtain ⟨stream, -, hname⟩ := hlookup vip cs hcs
      exact ⟨_, hname⟩
  · intro vip name cs stream hname hcs hstream
    obtain ⟨stream', hstream', hname'⟩ := hlookup vip cs hcs
    rw [hstream] at hstream'
    cases hstream'
    exact Option.some.inj (hname.symm.trans hname')

/-! ## Runs in which the phases of an address do not overlap -/

def Local.midwayFor (vip : IPv4) : Local → Bool
  | .plane reg pc => reg.vip = vip && pc.midway
  | _ => false

/-- The next step is the first table step of a setup, or of a teardown that is
not cut off there. -/
def PlanePC.starts (conn : ConnId) (reg : Registration) (d : DataTables) : PlanePC → Bool
  | .lookup => true
  | .unregister _ => (d.unregisterData reg.vip (some conn)).2
  | _ => false

/-- A handler takes its first table step only while no other handler for the
address is between its table steps. -/
def startsAlone (cfg : ServerConfig) : ServerAction → Bool
  | .step (.plane conn) _ =>
    match handlerAt cfg conn with
    | some (reg, pc) =>
      !pc.starts conn reg cfg.shared.data ||
        decide (∀ t l, cfg.threads.lookup t = some l → l.midwayFor reg.vip = false)
    | none => true
  | _ => true

/-- What holds of the tables at the points between the table steps; at the
other points the entry of the address is right. -/
def PlanePC.expects (reg : Registration) (d : DataTables) : PlanePC → Prop
  | .staleConn _ => True
  | .unregisterStale _ _ => True
  | .snapshotStale _ => True
  | .closeStale _ _ => True
  | .register => True
  | .oldConn cs => d.lookup reg.vip = some (cs, reg.key)
  | .closeOld cs _ => d.lookup reg.vip = some (cs, reg.key)
  | .setBulk cs => d.lookup reg.vip = some (cs, reg.key)
  | .online cs => d.lookup reg.vip = some (cs, reg.key)
  | .releaseVIP _ => d.lookup reg.vip = none
  | .releaseSession _ => d.lookup reg.vip = none
  | .offline _ => d.lookup reg.vip = none
  | _ => d.Entered reg.vip

/-- At most one handler for the address is between its table steps; the tables
are as it expects, or the entry is right if there is none. -/
structure Paced (cfg : ServerConfig) (vip : IPv4) : Prop where
  single : ∀ conn reg pc conn' reg' pc',
    cfg.threads.lookup (.plane conn) = some (.plane reg pc) → reg.vip = vip → pc.midway = true →
    cfg.threads.lookup (.plane conn') = some (.plane reg' pc') → reg'.vip = vip →
    pc'.midway = true → conn = conn'
  phase : ∀ conn reg pc, cfg.threads.lookup (.plane conn) = some (.plane reg pc) →
    reg.vip = vip → pc.midway = true → pc.expects reg cfg.shared.data
  idle : (∀ conn reg pc, cfg.threads.lookup (.plane conn) = some (.plane reg pc) →
    reg.vip = vip → pc.midway = false) → cfg.shared.data.Entered vip

section

variable (h : HandlerStep conn reg choice s pc s' pc')
include h

theorem HandlerStep.midway
    (hmidway : pc'.midway = true) :
    pc.midway = true ∨ pc.starts conn reg s.data = true := by
  cases h with
  | unregistered | sameIdentity | otherIdentity => exact .inr rfl
  | unregister hmine => exact .inr hmine
  | unlock hmu =>
    unfold PlanePC.accepted at hmidway
    repeat' split at hmidway
    all_goals cases hmidway
  | accept hgo hopen =>
    unfold PlanePC.streamsOpen at hmidway
    split at hmidway <;> cases hmidway
  | @snapshot cs =>
    cases hconns : s.data.snapshot cs <;> rw [hconns] at hmidway <;> cases hmidway
  | @closing cs c rest => cases rest <;> cases hmidway
  | _ => first | exact .inl rfl | cases hmidway

theorem HandlerStep.leaves (hvalid : s.data.Valid)
    (hidle : reg.vip = vip → pc.midway = false ∧ pc.starts conn reg s.data = false) :
    s'.data.lookup vip = s.data.lookup vip ∧
      s'.data.clients.lookup vip = s.data.clients.lookup vip := by
  have hne : pc.midway = true → vip ≠ reg.vip := by
    rintro hmidway rfl
    simp [(hidle rfl).1] at hmidway
  cases h with
  | unregisterStale =>
    exact ⟨lookup_unregisterData_of_ne (hne rfl) _, by simp⟩
  | setBulk | setAux =>
    exact ⟨lookup_modifyStream _ (fun stream => stream.attach_key conn _) vip, by simp⟩
  | clearAux hplane =>
    exact ⟨lookup_modifyStream _ (fun stream => stream.detach_key _) vip, by simp⟩
  | register => exact ⟨hvalid.lookup_register_of_ne (hne rfl) _ _, rfl⟩
  | online => exact ⟨rfl, Finmap.lookup_insert_of_ne _ (hne rfl)⟩
  | offline => exact ⟨rfl, Finmap.lookup_erase_ne (hne rfl)⟩
  | unregister hmine =>
    have hother : vip ≠ reg.vip := by
      rintro rfl
      exact absurd hmine (Bool.eq_false_iff.1 (hidle rfl).2)
    exact ⟨lookup_unregisterData_of_ne hother _, by simp⟩
  | replaced hmine =>
    rw [unregisterData_of_not hmine]
    exact ⟨rfl, rfl⟩
  | _ => exact ⟨rfl, rfl⟩

theorem HandlerStep.expects
    (hbusy : pc.midway = true ∨ pc.starts conn reg s.data = true)
    (hexpects : pc.midway = true → pc.expects reg s.data) : pc'.expects reg s'.data := by
  cases h with
  | unregistered | otherIdentity | staleConn | unregisterStale => trivial
  | sameIdentity hlookup => exact hlookup
  | @snapshotStale stale => cases s.data.snapshot stale <;> trivial
  | @closeStale c rest => cases rest <;> trivial
  | noOldConn | oldConn | closeOld | releaseVIP | releaseSession => exact hexpects rfl
  | setBulk =>
    refine (lookup_modifyStream _ (fun stream => ?_) _).trans (hexpects rfl)
    exact stream.attach_key conn _
  | register => exact lookup_register _ _ _
  | @online cs =>
    have hlookup : s.data.lookup reg.vip = some (cs, reg.key) := hexpects rfl
    change _ = (s.data.lookup reg.vip).map _
    rw [hlookup]
    exact Finmap.lookup_insert _
  | unregister hmine => exact lookup_unregisterData hmine
  | offline =>
    have hlookup : s.data.lookup reg.vip = none := hexpects rfl
    change _ = (s.data.lookup reg.vip).map _
    rw [hlookup]
    exact Finmap.lookup_erase _ _
  | replaced hmine =>
    rcases hbusy with hmidway | hstarts
    · cases hmidway
    · exact absurd hmine (by simpa [PlanePC.starts] using hstarts)
  | _ => rcases hbusy with hmidway | hstarts <;> contradiction

end

/-- The action is a step of a handler for the address between its table steps,
or the first of them. -/
def Moves (cfg : ServerConfig) (action : ServerAction) (vip : IPv4) (conn : ConnId) : Prop :=
  ∃ choice reg pc, action = .step (.plane conn) choice ∧
    cfg.threads.lookup (.plane conn) = some (.plane reg pc) ∧ reg.vip = vip ∧
    (pc.midway = true ∨ pc.starts conn reg cfg.shared.data = true)

theorem tables_of_step (hvalid : cfg.shared.data.Valid)
    (hstep : ServerStep gate cfg action cfg') (hquiet : ∀ conn, ¬ Moves cfg action vip conn) :
    cfg'.shared.data.lookup vip = cfg.shared.data.lookup vip ∧
      cfg'.shared.data.clients.lookup vip = cfg.shared.data.clients.lookup vip := by
  have hother : ∀ t choice, action = .step t choice → (∀ conn, t ≠ .plane conn) →
      cfg'.shared.data.lookup vip = cfg.shared.data.lookup vip ∧
        cfg'.shared.data.clients.lookup vip = cfg.shared.data.clients.lookup vip := by
    rintro t choice rfl hne
    have hunmoved := data_of_other hstep hne
    exact ⟨hunmoved.lookup vip, by rw [hunmoved.clients]⟩
  cases hstep with
  | spawn hfresh hspawn => exact ⟨rfl, rfl⟩
  | env henv =>
    rcases data_of_environment henv with hdata | ⟨conn, -, hdata⟩
    · rw [hdata]
      exact ⟨rfl, rfl⟩
    · rw [hdata]
      exact ⟨rfl, rfl⟩
  | plane hlocal hcontrol hexec =>
    refine (handlerStep_of_exec hcontrol hexec).leaves hvalid fun hvip => ?_
    have hnot := fun hbusy => hquiet _ ⟨_, _, _, rfl, hlocal, hvip, hbusy⟩
    exact ⟨Bool.eq_false_iff.2 fun hmidway => hnot (.inl hmidway),
      Bool.eq_false_iff.2 fun hstarts => hnot (.inr hstarts)⟩
  | _ => exact hother _ _ rfl nofun

theorem midway_of_step (hstep : ServerStep gate cfg action cfg')
    (hlocal : cfg'.threads.lookup (.plane conn) = some (.plane reg pc)) (hvip : reg.vip = vip)
    (hmidway : pc.midway = true) :
    cfg.threads.lookup (.plane conn) = some (.plane reg pc) ∨ Moves cfg action vip conn := by
  cases handlerPast_of_step hstep hlocal with
  | started => cases hmidway
  | stayed hold hother => exact .inl hold
  | moved haction hold hedge => exact .inr ⟨_, reg, _, haction, hold, hvip, hedge.midway hmidway⟩

section

variable (h : Paced cfg vip)
include h

/-- While one handler moves, no other one for the address is between its table
steps. -/
theorem Paced.alone (hok : startsAlone cfg action = true)
    (hmoves : Moves cfg action vip conn)
    (hlocal : cfg.threads.lookup (.plane other) = some (.plane reg pc)) (hvip : reg.vip = vip)
    (hmidway : pc.midway = true) : other = conn := by
  obtain ⟨choice, reg', pc', rfl, hmine, hvip', hbusy⟩ := hmoves
  rcases hbusy with hmidway' | hstarts
  · exact h.single other reg pc conn reg' pc' hlocal hvip hmidway hmine hvip' hmidway'
  · simp only [startsAlone, handlerAt_eq_some.2 hmine, hstarts, Bool.not_true, Bool.false_or,
      decide_eq_true_eq] at hok
    have hnot := hok _ _ hlocal
    simp [Local.midwayFor, hvip, hvip', hmidway] at hnot

theorem Paced.moved (hok : startsAlone cfg action = true)
    (hstep : ServerStep gate cfg action cfg') (hmoves : Moves cfg action vip mover) :
    Paced cfg' vip := by
  have hothers : ∀ conn reg pc, cfg'.threads.lookup (.plane conn) = some (.plane reg pc) →
      reg.vip = vip → pc.midway = true → conn = mover := by
    intro conn reg pc hlocal hvip hmidway
    rcases midway_of_step hstep hlocal hvip hmidway with hold | ⟨choice, _, _, haction, -⟩
    · exact h.alone hok hmoves hold hvip hmidway
    · obtain ⟨choice', _, _, haction', -⟩ := hmoves
      exact Thread.plane.inj (Action.step.inj (haction.symm.trans haction')).1
  obtain ⟨choice, reg, pc, rfl, hlocal, rfl, hbusy⟩ := hmoves
  obtain ⟨reg', pc₀, pc', hlocal', hthreads, hedge⟩ := plane_of_step hstep
  rw [hlocal] at hlocal'
  cases hlocal'
  have hnext : cfg'.threads.lookup (.plane mover) = some (.plane reg pc') := by
    rw [hthreads]
    exact Finmap.lookup_insert _
  have hexpects := hedge.expects hbusy (h.phase mover reg pc hlocal rfl)
  refine ⟨?_, ?_, ?_⟩
  · intro c reg₁ pc₁ c' reg₂ pc₂ h₁ hvip₁ hmid₁ h₂ hvip₂ hmid₂
    exact (hothers c reg₁ pc₁ h₁ hvip₁ hmid₁).trans (hothers c' reg₂ pc₂ h₂ hvip₂ hmid₂).symm
  · intro c reg₁ pc₁ h₁ hvip₁ hmid₁
    obtain rfl := hothers c reg₁ pc₁ h₁ hvip₁ hmid₁
    rw [hnext] at h₁
    cases h₁
    exact hexpects
  · intro hidle
    have hdone := hidle mover reg pc' hnext rfl
    cases pc' with
    | _ => first | exact hexpects | cases hdone

theorem Paced.quiet (hvalid : cfg.shared.data.Valid)
    (hstep : ServerStep gate cfg action cfg') (hquiet : ∀ conn, ¬ Moves cfg action vip conn) :
    Paced cfg' vip := by
  obtain ⟨hlookup, hclients⟩ := tables_of_step hvalid hstep hquiet
  have hentered : cfg.shared.data.Entered vip → cfg'.shared.data.Entered vip := by
    intro hentered
    rw [DataTables.Entered, hlookup, hclients]
    exact hentered
  have hpast : ∀ conn reg pc, cfg'.threads.lookup (.plane conn) = some (.plane reg pc) →
      reg.vip = vip → pc.midway = true →
      cfg.threads.lookup (.plane conn) = some (.plane reg pc) := fun conn reg pc hl hvip hmidway =>
    (midway_of_step hstep hl hvip hmidway).resolve_right (hquiet conn)
  refine ⟨?_, ?_, ?_⟩
  · intro c reg pc c' reg' pc' hl hvip hmid hl' hvip' hmid'
    exact h.single c reg pc c' reg' pc' (hpast c reg pc hl hvip hmid) hvip hmid
      (hpast c' reg' pc' hl' hvip' hmid') hvip' hmid'
  · intro c reg pc hl hvip hmid
    have hexpects := h.phase c reg pc (hpast c reg pc hl hvip hmid) hvip hmid
    subst hvip
    cases pc with
    | _ =>
      first
      | trivial
      | exact hlookup.trans hexpects
  · -- a handler between its table steps stays there
    intro hidle
    refine hentered (h.idle fun c reg pc hl hvip => ?_)
    rcases handler_of_step hstep hl with hstays | ⟨choice, pc', haction, -⟩
    · exact hidle c reg pc hstays hvip
    · exact Bool.eq_false_iff.2 fun hmid => hquiet c ⟨choice, reg, pc, haction, hl, hvip, .inl hmid⟩

/-- A step keeps the list in pace with the registrations. -/
theorem Paced.step (hvalid : cfg.shared.data.Valid)
    (hok : startsAlone cfg action = true) (hstep : ServerStep gate cfg action cfg') :
    Paced cfg' vip := by
  by_cases hmoves : ∃ conn, Moves cfg action vip conn
  · obtain ⟨mover, hmoves⟩ := hmoves
    exact h.moved hok hstep hmoves
  · exact h.quiet hvalid hstep fun conn hconn => hmoves ⟨conn, hconn⟩

end

theorem Setup.initial_paced (setup : Setup) (vip : IPv4) : Paced setup.initial vip := by
  refine ⟨?_, ?_, fun _ => rfl⟩
  · intro c reg pc c' reg' pc' hlocal
    cases hlocal
  · intro c reg pc hlocal
    cases hlocal

theorem paced_of_run {setup : Setup}
    (hsteps : Along setup.next (fun cfg action => startsAlone cfg action = true) setup.initial
      actions) (hrun : run setup.next setup.initial actions = some cfg) :
    cfg.shared.data.Valid ∧ ∀ vip, Paced cfg vip := by
  have hkept : ∀ s action next, (s.shared.data.Valid ∧ ∀ vip, Paced s vip) →
      startsAlone s action = true → setup.next s action = some next →
      next.shared.data.Valid ∧ ∀ vip, Paced next vip := by
    intro s action next hs hok hnext
    have hstep := serverStep_of_next hnext
    exact ⟨valid_step hs.1 hstep, fun vip => (hs.2 vip).step hs.1 hok hstep⟩
  exact run_invariant hkept ⟨setup.initial_wiring.valid, setup.initial_paced⟩ hsteps hrun

/-- In every run in which the setups and teardowns of one address do not
overlap, the online list agrees with the registrations in every quiescent
state. -/
theorem online_list_agrees (setup : Setup) (actions : List ServerAction) (cfg : ServerConfig)
    (hsteps : Along setup.next (fun cfg action => startsAlone cfg action = true) setup.initial
      actions)
    (hrun : run setup.next setup.initial actions = some cfg) (hquiescent : Quiescent cfg) :
    OnlineAgrees cfg.shared.data := by
  obtain ⟨hvalid, hpaced⟩ := paced_of_run hsteps hrun
  refine hvalid.onlineAgrees fun vip => (hpaced vip).idle ?_
  intro conn reg pc hlocal hvip
  exact hquiescent _ _ hlocal

/-! ## A teardown that meets the next setup -/

/-- Ann's connection 1 has ended and is unregistered.  Her connection 3 is
registered and online before the teardown removes the entry. -/
def overlappingRun : List ServerAction :=
  annServedRun ++ .env (.closeConn 1) :: steps (.plane 1) 2 ++ connectRun 3 annData 11 ++
    steps (.plane 1) 3

/-- Ann is registered, nobody is at work, and the online list does not have her. -/
theorem registered_client_offline :
    ¬ ∀ (setup : Setup) actions cfg, run setup.next setup.initial actions = some cfg →
      Quiescent cfg → OnlineAgrees cfg.shared.data := by
  intro h
  obtain ⟨cfg, hcfg, hquiescent, hregistered, hoffline⟩ : ∃ cfg,
      run smallSetup.next smallSetup.initial overlappingRun = some cfg ∧ Quiescent cfg ∧
      annVIP ∈ cfg.shared.data.conns ∧ annVIP ∉ cfg.shared.data.clients := by
    decide +kernel
  have hagrees := h smallSetup overlappingRun cfg hcfg hquiescent
  exact hoffline ((hagrees.keys annVIP).2 hregistered)

/-- Connection 3 takes over from connection 1, which ends after that. -/
def takenOverRun : List ServerAction :=
  annServedRun ++ connectRun 3 annData 13 ++ steps (.plane 1) 3

theorem online_list_agrees_ann :
    ∃ cfg, run smallSetup.next smallSetup.initial takenOverRun = some cfg ∧
      Quiescent cfg ∧ annVIP ∈ cfg.shared.data.conns ∧ OnlineAgrees cfg.shared.data := by
  obtain ⟨cfg, hcfg, hquiescent, hregistered⟩ : ∃ cfg,
      run smallSetup.next smallSetup.initial takenOverRun = some cfg ∧ Quiescent cfg ∧
      annVIP ∈ cfg.shared.data.conns := by
    decide +kernel
  exact ⟨cfg, hcfg, hquiescent, hregistered,
    online_list_agrees smallSetup takenOverRun cfg (by decide +kernel) hcfg hquiescent⟩

end Hy2Link.Server
