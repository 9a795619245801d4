import Hy2Link.Server.Wiring

/-! # Exclusive addresses

An address under which a data plane is registered should be out of reach of
everybody else: it is used and its lease is active, so that neither an
allocation nor the reaper touches it, and its owner is the client of the
registered object.

A registration first checks and marks the lease and claims the address, and
enters the table much later; a teardown leaves the table first, and gives up
the lease and the claim later.  Nothing ties the two together, so the property
is kept by those runs only in which an address is given up while nobody holds
it or is on the way to it.
-/

namespace Hy2Link.Server

open Interleaving

def Holds (s : Shared) (vip : IPv4) (key : SessionKey) : Prop :=
  s.alloc.lease vip = some .active ∧ s.auth.vipOwner.lookup vip = some key

/-- Every registered address is used, has an active lease and belongs to the
client of the registered object. -/
def Exclusive (cfg : ServerConfig) : Prop :=
  ∀ vip cs, cfg.shared.data.conns.lookup vip = some cs →
    vip ∈ cfg.shared.alloc.usedIPs ∧ cfg.shared.alloc.lease vip = some .active ∧
      ∃ stream, cfg.shared.data.streams.lookup cs = some stream ∧
        cfg.shared.auth.vipOwner.lookup vip = some stream.key

/-- A registration is on its way, from the passed `IsLeased` check to its entry
into the table. -/
def PlanePC.inFlight : PlanePC → Bool
  | .claimOwner _ => true
  | .markActive => true
  | .unlock ok => ok
  | .accept => true
  | .markLease => true
  | pc => pc.settingUp

def Local.claims (vip : IPv4) : Local → Bool
  | .plane reg pc => reg.plane = some .data && reg.vip = vip && pc.inFlight
  | _ => false

def idle (cfg : ServerConfig) (vip : IPv4) : Bool :=
  (cfg.shared.data.conns.lookup vip).isNone &&
    decide (∀ t l, cfg.threads.lookup t = some l → l.claims vip = false)

/-- An address is given up, by a teardown or by the reaper, only while it is
idle. -/
def releasesIdle (cfg : ServerConfig) : ServerAction → Bool
  | .step (.plane conn) _ =>
    match handlerAt cfg conn with
    | some (reg, .releaseVIP _) => idle cfg reg.vip
    | some (reg, .releaseSession _) => idle cfg reg.vip
    | _ => true
  | .env (.reap at_ order) =>
    order.all fun vip => !cfg.shared.alloc.expired at_ vip || idle cfg vip
  | _ => true

/-! ## What a step keeps -/

structure Keeps (s s' : Shared) (vip : IPv4) : Prop where
  leased : (s.alloc.lease vip).isSome → (s'.alloc.lease vip).isSome
  active : s.alloc.lease vip = some .active → s'.alloc.lease vip = some .active
  owner : ∀ key, (s.alloc.lease vip).isSome → s.auth.vipOwner.lookup vip = some key →
    s'.auth.vipOwner.lookup vip = some key

theorem Keeps.of_eq (halloc : s'.alloc = s.alloc) (hauth : s'.auth = s.auth) : Keeps s s' vip := by
  refine ⟨?_, ?_, fun key _ => ?_⟩
  · rw [halloc]
    exact id
  · rw [halloc]
    exact id
  · rw [hauth]
    exact id

theorem Keeps.holds (h : Keeps s s' vip) (hkey : Holds s vip key) : Holds s' vip key :=
  ⟨h.active hkey.1, h.owner key (by rw [hkey.1]; rfl) hkey.2⟩

def Op.releases {Result : Type} (vip : IPv4) : Op Result → Bool
  | .alloc op => op.releases vip
  | .auth op => op.releases vip
  | _ => false

theorem keeps_of_exec {op : Op Result} {result : Result} (hexec : exec t s op = some (s', result))
    (hop : op.releases vip = false) : Keeps s s' vip := by
  cases op with
  | alloc op =>
    obtain ⟨rfl, -⟩ := exec_alloc.1 hexec
    exact ⟨IPAllocator.exec_leased hop, IPAllocator.exec_active hop, fun key _ => id⟩
  | auth op =>
    obtain ⟨a, ha, rfl⟩ := exec_auth.1 hexec
    exact ⟨id, id, fun key _ howner => AuthTables.exec_owner ha hop howner⟩
  | _ => exact .of_eq ((frame_of_exec hexec).alloc nofun) ((frame_of_exec hexec).auth nofun)

/-- The environment takes a lease only by reaping it, and an owner only from
an address without a lease. -/
theorem keeps_of_environment (henv : environment s e = some s')
    (hreap : ∀ at_ order, e = .reap at_ order → vip ∈ order → s.alloc.expired at_ vip = false) :
    Keeps s s' vip := by
  cases e with
  | reap at_ order =>
    simp only [environment, Option.ite_none_right_eq_some] at henv
    cases henv.2
    have hlease : (s.alloc.reapExpiredLeases at_ order).lease vip = s.alloc.lease vip :=
      s.alloc.lease_reapExpiredLeases order (hreap at_ order rfl)
    refine ⟨?_, ?_, fun key _ => id⟩
    · rw [hlease]
      exact id
    · rw [hlease]
      exact id
  | sweepOwner v =>
    simp only [environment, Option.ite_none_right_eq_some] at henv
    cases henv.2
    refine ⟨id, id, fun key hleased howner => ?_⟩
    change (s.auth.sweepOwner v (s.alloc.isLeased v)).vipOwner.lookup vip = some key
    unfold AuthTables.sweepOwner
    split
    · exact howner
    next hfree =>
      have hne : vip ≠ v := by
        rintro rfl
        exact hfree ((s.alloc.isLeased_iff vip).2 hleased)
      exact (Finmap.lookup_erase_ne hne).trans howner
  | sweepKey key =>
    simp only [environment, Option.ite_none_right_eq_some] at henv
    cases henv.2
    refine ⟨id, id, fun owner _ howner => ?_⟩
    change (s.auth.sweepKey key s.now).vipOwner.lookup vip = some owner
    unfold AuthTables.sweepKey
    split <;> exact howner
  | sweepBan ip =>
    simp only [environment, Option.ite_none_right_eq_some] at henv
    cases henv.2
    refine ⟨id, id, fun owner _ howner => ?_⟩
    change (s.auth.isBanned ip s.now).1.vipOwner.lookup vip = some owner
    unfold AuthTables.isBanned
    split
    · exact howner
    · split <;> exact howner
  | sweepPeer v at_ =>
    simp only [environment, Option.ite_none_right_eq_some] at henv
    cases henv.2
    exact .of_eq rfl rfl
  | _ =>
    cases henv
    exact .of_eq rfl rfl

theorem releases_of_handler (hcontrol : planeControl conn reg choice pc = some request)
    (hreleases : request.op.releases vip = true) :
    reg.vip = vip ∧ ∃ cs, pc = .releaseVIP cs ∨ pc = .releaseSession cs := by
  cases pc with
  | releaseVIP cs =>
    cases hcontrol
    exact ⟨of_decide_eq_true hreleases, cs, .inl rfl⟩
  | releaseSession cs =>
    cases hcontrol
    exact ⟨of_decide_eq_true hreleases, cs, .inr rfl⟩
  | setAux | clearAux =>
    obtain ⟨plane, -, rfl⟩ := Option.map_eq_some_iff.1 hcontrol
    cases hreleases
  | done cs => cases hcontrol
  | _ =>
    cases hcontrol
    cases hreleases

theorem keeps_of_other {t : Thread} {choice : Choice}
    (hstep : ServerStep gate cfg (.step t choice) cfg') (hother : ∀ conn, t ≠ .plane conn) :
    Keeps cfg.shared cfg'.shared vip := by
  have hareas : .alloc ∉ t.areas → .auth ∉ t.areas → Keeps cfg.shared cfg'.shared vip := by
    intro halloc hauth
    obtain ⟨area, harea, hframe⟩ := frame_of_step hstep
    exact .of_eq (hframe.alloc fun heq => halloc (heq ▸ harea))
      (hframe.auth fun heq => hauth (heq ▸ harea))
  cases hstep with
  | plane => exact absurd rfl (hother _)
  | signal | datagrams | push => exact hareas (by simp [Thread.areas]) (by simp [Thread.areas])
  | @login n choice pc request shared result hlocal hcontrol hexec =>
    exact keeps_of_exec hexec (by cases pc <;> cases hcontrol <;> rfl)
  | @dhcp m n choice key pc request shared result hlocal hcontrol hexec =>
    exact keeps_of_exec hexec (by cases pc <;> cases hcontrol; rfl)

theorem keeps_of_step (hstep : ServerStep gate cfg action cfg')
    (hidle : releasesIdle cfg action = true) (hbusy : idle cfg vip = false) :
    Keeps cfg.shared cfg'.shared vip := by
  have hother : ∀ t choice, action = .step t choice → (∀ conn, t ≠ .plane conn) →
      Keeps cfg.shared cfg'.shared vip :=
    fun t choice haction hne => keeps_of_other (haction ▸ hstep) hne
  cases hstep with
  | spawn hfresh hspawn => exact .of_eq rfl rfl
  | @plane conn choice reg pc request shared result hlocal hcontrol hexec =>
    refine keeps_of_exec hexec (Bool.eq_false_iff.2 fun hreleases => ?_)
    obtain ⟨rfl, cs, rfl | rfl⟩ := releases_of_handler hcontrol hreleases <;>
    · simp only [releasesIdle, handlerAt_eq_some.2 hlocal] at hidle
      simp [hbusy] at hidle
  | env henv =>
    refine keeps_of_environment henv fun at_ order he hmem => ?_
    subst he
    simp only [releasesIdle, List.all_eq_true] at hidle
    have hvip := hidle vip hmem
    rw [hbusy, Bool.or_false, Bool.not_eq_true'] at hvip
    exact hvip
  | _ => exact hother _ _ rfl nofun

/-! ## The invariant -/

def Claimed (s : Shared) (reg : Registration) : PlanePC → Prop
  | .claimOwner _ => (s.alloc.lease reg.vip).isSome
  | .markActive =>
    (s.alloc.lease reg.vip).isSome ∧ s.auth.vipOwner.lookup reg.vip = some reg.key
  | pc => pc.inFlight = true → Holds s reg.vip reg.key

structure Held (cfg : ServerConfig) : Prop where
  wiring : Wiring cfg
  registered : ∀ vip cs stream, cfg.shared.data.conns.lookup vip = some cs →
    cfg.shared.data.streams.lookup cs = some stream → Holds cfg.shared vip stream.key
  claimed : ∀ conn reg pc, cfg.threads.lookup (.plane conn) = some (.plane reg pc) →
    reg.plane = some .data → Claimed cfg.shared reg pc

theorem Claimed.keep (hkeeps : Keeps s s' reg.vip) (h : Claimed s reg pc) : Claimed s' reg pc := by
  cases pc with
  | claimOwner now => exact hkeeps.leased h
  | markActive => exact ⟨hkeeps.leased h.1, hkeeps.owner reg.key h.1 h.2⟩
  | _ => exact fun hflight => hkeeps.holds (h hflight)

theorem claimed_of_not_inFlight (h : pc.inFlight = false) : Claimed s reg pc := by
  cases pc with
  | claimOwner | markActive => cases h
  | _ =>
    intro hflight
    simp [h] at hflight

theorem idle_of_registered (h : cfg.shared.data.conns.lookup vip = some cs) :
    idle cfg vip = false := by
  rw [idle, h]
  rfl

theorem idle_of_inFlight (hlocal : cfg.threads.lookup (.plane conn) = some (.plane reg pc))
    (hbulk : reg.plane = some .data) (hflight : pc.inFlight = true) : idle cfg reg.vip = false := by
  rw [idle, Bool.and_eq_false_iff]
  refine .inr (decide_eq_false fun hall => ?_)
  have hclaims := hall _ _ hlocal
  simp [Local.claims, hbulk, hflight] at hclaims

theorem claimed_of_holds (h : Holds s reg.vip reg.key) (pc : PlanePC) : Claimed s reg pc := by
  have hleased : (s.alloc.lease reg.vip).isSome := by
    rw [h.1]
    rfl
  cases pc with
  | claimOwner now => exact hleased
  | markActive => exact ⟨hleased, h.2⟩
  | _ => exact fun _ => h

section Handler

variable (hedge : HandlerStep conn reg choice s pc s' pc')

include hedge

theorem HandlerStep.inFlight (hflight : pc'.inFlight = true) :
    pc.inFlight = true ∨ ∃ now, pc = .isLeased now := by
  cases hedge with
  | leased => exact .inr ⟨_, rfl⟩
  | @unlock ok =>
    cases ok with
    | true => exact .inl rfl
    | false => cases hflight
  | snapshot =>
    generalize s.data.snapshot _ = conns at hflight
    cases conns <;> cases hflight
  | @closing _ _ rest => cases rest <;> cases hflight
  | _ =>
    first
    | exact .inl rfl
    | cases hflight

/-- `AuthorizeDataPlane` step by step: the check, the claim and the mark. -/
theorem HandlerStep.claim (h : Claimed s reg pc)
    (hkeeps : pc.inFlight = true → Keeps s s' reg.vip) : Claimed s' reg pc' := by
  rcases Bool.eq_false_or_eq_true pc'.inFlight with hflight | hout
  swap
  · exact claimed_of_not_inFlight hout
  rcases hedge.inFlight hflight with hpc | ⟨now, rfl⟩
  · cases hedge with
    | claimed hmu hclaim =>
      refine ⟨h, ?_⟩
      rw [AuthTables.claimOwner, if_pos hclaim]
      exact Finmap.lookup_insert _
    | unclaimed => cases hflight
    | markActive =>
      refine fun _ => ⟨?_, h.2⟩
      obtain ⟨lease, hlease⟩ := Option.isSome_iff_exists.1 h.1
      change (s.alloc.markLeaseActive reg.vip).lease reg.vip = some .active
      rw [IPAllocator.lease_markLeaseActive, if_pos rfl, hlease, Option.map_some]
    | _ => exact claimed_of_holds ((hkeeps hpc).holds (h hpc)) _
  · cases hedge with
    | leased hleased => exact (s.alloc.isLeased_iff reg.vip).1 hleased
    | unleased => cases hflight

end Handler

/-! ## The invariant is kept -/

theorem Held.registered_step (h : Held cfg) (hstep : ServerStep gate cfg action cfg')
    (hidle : releasesIdle cfg action = true) (hcs : cfg'.shared.data.conns.lookup vip = some cs)
    (hstream : cfg'.shared.data.streams.lookup cs = some stream) :
    Holds cfg'.shared vip stream.key := by
  rcases h.wiring.registered_step hstep hcs hstream with
    ⟨hold, old, holdStream, hkey⟩ | ⟨conn, choice, reg, -, hlocal, rfl, hkey⟩
  · rw [← hkey]
    exact (keeps_of_step hstep hidle (idle_of_registered hold)).holds
      (h.registered vip cs old hold holdStream)
  · rw [← hkey]
    have hbulk : reg.plane = some .data := h.wiring.handler conn reg _ hlocal
    exact (keeps_of_step hstep hidle (idle_of_inFlight hlocal hbulk rfl)).holds
      (h.claimed conn reg _ hlocal hbulk rfl)

/-- A step keeps every registered address with its holder. -/
theorem Held.step (h : Held cfg) (hidle : releasesIdle cfg action = true)
    (hstep : ServerStep gate cfg action cfg') : Held cfg' := by
  refine ⟨h.wiring.step hstep, fun vip cs stream => h.registered_step hstep hidle,
    fun conn reg pc hpc hbulk => ?_⟩
  have hown : ∀ pc, cfg.threads.lookup (.plane conn) = some (.plane reg pc) →
      pc.inFlight = true → Keeps cfg.shared cfg'.shared reg.vip := fun pc hold hflight =>
    keeps_of_step hstep hidle (idle_of_inFlight hold hbulk hflight)
  cases handlerPast_of_step hstep hpc with
  | started => exact claimed_of_not_inFlight rfl
  | stayed hold =>
    rcases Bool.eq_false_or_eq_true pc.inFlight with hflight | hout
    · exact (h.claimed conn reg pc hold hbulk).keep (hown pc hold hflight)
    · exact claimed_of_not_inFlight hout
  | moved _ hold hedge => exact hedge.claim (h.claimed conn reg _ hold hbulk) (hown _ hold)

theorem Held.exclusive (h : Held cfg) : Exclusive cfg := by
  intro vip cs hcs
  obtain ⟨stream, hstream, -⟩ := h.wiring.valid.registered vip cs hcs
  obtain ⟨hactive, howner⟩ := h.registered vip cs stream hcs hstream
  have hused : cfg.shared.alloc.isLeased vip = true := by
    rw [IPAllocator.isLeased_iff, hactive]
    rfl
  exact ⟨of_decide_eq_true hused, hactive, stream, hstream, howner⟩

theorem Setup.initial_held (setup : Setup) : Held setup.initial := by
  refine ⟨setup.initial_wiring, fun vip cs stream hcs => ?_, fun conn reg pc hpc => ?_⟩
  · simp [Setup.initial, DataTables.empty] at hcs
  · simp [Setup.initial] at hpc

/-- In every run in which addresses are given up only while they are idle,
every registered address is exclusive. -/
theorem registered_exclusive (setup : Setup) (actions : List ServerAction) (cfg : ServerConfig)
    (hsteps : Along setup.next (fun cfg action => releasesIdle cfg action = true) setup.initial
      actions)
    (hrun : run setup.next setup.initial actions = some cfg) : Exclusive cfg := by
  have hheld : Held cfg := by
    refine run_invariant ?_ setup.initial_held hsteps hrun
    intro s action next hs hok hnext
    exact hs.step hok (serverStep_of_next hnext)
  exact hheld.exclusive

/-! ## A release that comes late -/

/-- Connection 1 has left the table and is about to give the address up when
connection 2 registers under it. -/
def lateReleaseRun : List ServerAction :=
  annServedRun ++ [.env (.closeConn 1)] ++ steps (.plane 1) 2 ++ connectRun 2 annData 11 ++
    steps (.plane 1) 1

/-- Connection 1 has given the address up before connection 2 registers. -/
def inTimeReleaseRun : List ServerAction :=
  annServedRun ++ [.env (.closeConn 1)] ++ steps (.plane 1) 4 ++
    loginRun 1 annData.peerIP "ann:pw" ++ requestRun 1 annData.key "dev" ++
    connectRun 2 annData 11

/-- The teardown of an old connection releases the address that a new one has
just registered. -/
theorem registered_not_leased :
    ¬ ∀ (setup : Setup) actions cfg,
      run setup.next setup.initial actions = some cfg → Exclusive cfg := by
  intro h
  obtain ⟨cfg, hcfg, hregistered, hfree⟩ : ∃ cfg,
      run smallSetup.next smallSetup.initial lateReleaseRun = some cfg ∧
      cfg.shared.data.conns.lookup annVIP = some 1 ∧ annVIP ∉ cfg.shared.alloc.usedIPs := by
    decide +kernel
  exact hfree (h smallSetup lateReleaseRun cfg hcfg annVIP 1 hregistered).1

theorem registered_exclusive_in_time :
    ∃ cfg, run smallSetup.next smallSetup.initial inTimeReleaseRun = some cfg ∧
      Exclusive cfg ∧ cfg.shared.data.conns.lookup annVIP = some 1 := by
  obtain ⟨cfg, hcfg, hregistered⟩ : ∃ cfg,
      run smallSetup.next smallSetup.initial inTimeReleaseRun = some cfg ∧
      cfg.shared.data.conns.lookup annVIP = some 1 := by
    decide +kernel
  exact ⟨cfg, hcfg, registered_exclusive smallSetup inTimeReleaseRun cfg (by decide +kernel) hcfg,
    hregistered⟩

end Hy2Link.Server
