import Hy2Link.Server.Exclusivity

/-! # Whose address it is

An address request names a device, not a client, so a leased address is bound
to nobody.  The first data plane that is admitted under it makes its client
the owner, and the owner keeps the address for as long as it stays leased and
is not given up by a teardown of the owner itself.
-/

namespace Hy2Link.Server

open Interleaving

/-! ## The mutex of the authenticator -/

def PlanePC.locked : PlanePC → Bool
  | .isLeased _ => true
  | .claimOwner _ => true
  | .markActive => true
  | .unlock _ => true
  | _ => false

def PlanePC.claiming : PlanePC → Bool
  | .markActive => true
  | .unlock ok => ok
  | _ => false

theorem PlanePC.locked_of_claiming {pc : PlanePC} (h : pc.claiming = true) : pc.locked = true := by
  cases pc with
  | markActive | unlock => rfl
  | _ => cases h

structure Locked (cfg : ServerConfig) : Prop where
  holder : ∀ conn reg pc, cfg.threads.lookup (.plane conn) = some (.plane reg pc) →
    pc.locked = true → cfg.shared.auth.mu = some (.plane conn)
  owner : ∀ conn reg pc, cfg.threads.lookup (.plane conn) = some (.plane reg pc) →
    pc.claiming = true → cfg.shared.auth.vipOwner.lookup reg.vip = some reg.key

theorem AuthTables.exec_blocked {a : AuthTables} (op : AuthOp Result) (hmu : a.mu = some t)
    (hne : t ≠ t') : a.exec t' now op = none := by
  cases op <;> simp [AuthTables.exec, hmu, hne]

theorem auth_of_locked (hmu : cfg.shared.auth.mu = some t) (hstep : ServerStep gate cfg action cfg')
    (hother : ∀ choice, action ≠ .step t choice) : cfg'.shared.auth = cfg.shared.auth := by
  have hexec : ∀ {t' : Thread} {Result : Type} {op : Op Result} {shared : Shared} {result : Result},
      t ≠ t' → exec t' cfg.shared op = some (shared, result) → shared.auth = cfg.shared.auth := by
    intro t' Result op shared result hne hexec
    cases op with
    | auth op =>
      obtain ⟨a, ha, -⟩ := exec_auth.1 hexec
      simp [AuthTables.exec_blocked op hmu hne] at ha
    | _ => exact (frame_of_exec hexec).auth nofun
  have hne : ∀ t' choice, action = .step t' choice → t ≠ t' := by
    rintro t' choice rfl rfl
    exact hother choice rfl
  cases hstep with
  | spawn hfresh hspawn => rfl
  | @env e shared henv =>
    cases e with
    | sweepKey key | sweepBan ip | sweepOwner vip =>
      -- the cleanup loop takes the mutex too
      simp [environment, hmu] at henv
    | reap at_ order | sweepPeer vip at_ =>
      simp only [environment, Option.ite_none_right_eq_some] at henv
      cases henv.2
      rfl
    | _ =>
      cases henv
      rfl
  | plane hlocal hcontrol hrun | signal hlocal hcontrol hrun | datagrams hlocal hcontrol hrun
  | login hlocal hcontrol hrun | dhcp hlocal hcontrol hrun | push hlocal hcontrol hrun =>
    exact hexec (hne _ _ rfl) hrun

theorem HandlerStep.locked (h : HandlerStep conn reg choice s pc s' pc')
    (hholder : pc.locked = true → s.auth.mu = some (.plane conn))
    (howner : pc.claiming = true → s.auth.vipOwner.lookup reg.vip = some reg.key) :
    (pc'.locked = true → s'.auth.mu = some (.plane conn)) ∧
      (pc'.claiming = true → s'.auth.vipOwner.lookup reg.vip = some reg.key) := by
  have hout : pc'.locked = false → (pc'.locked = true → s'.auth.mu = some (.plane conn)) ∧
      (pc'.claiming = true → s'.auth.vipOwner.lookup reg.vip = some reg.key) := by
    intro hout
    refine ⟨fun hin => ?_, fun hin => ?_⟩
    · simp [hout] at hin
    · simp [PlanePC.locked_of_claiming hin] at hout
  cases h with
  | authorized hmu hrecord => exact ⟨fun _ => rfl, nofun⟩
  | leased hleased | unleased hleased | unclaimed hmu hclaim => exact ⟨fun _ => hholder rfl, nofun⟩
  | claimed hmu hclaim =>
    rw [AuthTables.claimOwner, if_pos hclaim]
    exact ⟨fun _ => hmu, fun _ => Finmap.lookup_insert _⟩
  | markActive => exact ⟨fun _ => hholder rfl, fun _ => howner rfl⟩
  | unlock hmu =>
    apply hout
    unfold PlanePC.accepted
    repeat' split
    all_goals rfl
  | accept hgo hopen =>
    apply hout
    unfold PlanePC.streamsOpen
    split <;> rfl
  | @snapshotStale stale => exact hout (by cases s.data.snapshot stale <;> rfl)
  | @closeStale _ rest | @closing _ _ rest => exact hout (by cases rest <;> rfl)
  | @snapshot cs => exact hout (by cases s.data.snapshot cs <;> rfl)
  | _ => exact hout rfl

theorem Locked.step (h : Locked cfg) (hstep : ServerStep gate cfg action cfg') : Locked cfg' := by
  have hboth : ∀ conn reg pc, cfg'.threads.lookup (.plane conn) = some (.plane reg pc) →
      (pc.locked = true → cfg'.shared.auth.mu = some (.plane conn)) ∧
        (pc.claiming = true → cfg'.shared.auth.vipOwner.lookup reg.vip = some reg.key) := by
    intro conn reg pc hlocal
    cases handlerPast_of_step hstep hlocal with
    | started => exact ⟨nofun, nofun⟩
    | moved haction hold hedge =>
      exact hedge.locked (h.holder conn reg _ hold) (h.owner conn reg _ hold)
    | stayed hold hother =>
      refine ⟨fun hin => ?_, fun hin => ?_⟩
      · have hmu := h.holder conn reg pc hold hin
        rw [auth_of_locked hmu hstep hother]
        exact hmu
      · have hmu := h.holder conn reg pc hold (PlanePC.locked_of_claiming hin)
        rw [auth_of_locked hmu hstep hother]
        exact h.owner conn reg pc hold hin
  exact ⟨fun conn reg pc hlocal => (hboth conn reg pc hlocal).1,
    fun conn reg pc hlocal => (hboth conn reg pc hlocal).2⟩

theorem Setup.initial_locked (setup : Setup) : Locked setup.initial := by
  refine ⟨fun conn reg pc hlocal => ?_, fun conn reg pc hlocal => ?_⟩ <;>
  · simp [Setup.initial] at hlocal

/-! ## A claim lasts as long as its lease -/

def keepsLease (vip : IPv4) (cfg : ServerConfig) : ServerAction → Bool
  | .step (.plane conn) _ =>
    match handlerAt cfg conn with
    | some (reg, .releaseVIP _) => reg.vip ≠ vip
    | _ => true
  | .env (.reap at_ order) => !(order.contains vip && cfg.shared.alloc.expired at_ vip)
  | _ => true

def withdraws (key : SessionKey) (vip : IPv4) (cfg : ServerConfig) : ServerAction → Bool
  | .step (.plane conn) _ =>
    match handlerAt cfg conn with
    | some (reg, .releaseSession _) => reg.vip = vip && reg.key = key
    | _ => false
  | _ => false

def keepsClaim (key : SessionKey) (vip : IPv4) (cfg : ServerConfig) (action : ServerAction) :
    Bool :=
  keepsLease vip cfg action && !withdraws key vip cfg action

def Claims (cfg : ServerConfig) (key : SessionKey) (vip : IPv4) : Prop :=
  (cfg.shared.alloc.lease vip).isSome ∧ cfg.shared.auth.vipOwner.lookup vip = some key

theorem AuthTables.releaseSession_owner {a : AuthTables} (howner : a.vipOwner.lookup vip = some key)
    (hne : v ≠ vip ∨ k ≠ key) : (a.releaseSession k v).vipOwner.lookup vip = some key := by
  unfold AuthTables.releaseSession
  split
  next hk =>
    have hv : vip ≠ v := by
      rintro rfl
      rw [howner] at hk
      rcases hne with hv | hk'
      · exact hv rfl
      · exact hk' (Option.some.inj hk).symm
    exact (Finmap.lookup_erase_ne hv).trans howner
  · exact howner

/-- A step that keeps to the condition keeps the claim on the address. -/
theorem Claims.step (h : Claims cfg key vip) (hok : keepsClaim key vip cfg action = true)
    (hstep : ServerStep gate cfg action cfg') : Claims cfg' key vip := by
  have hkeeps : Keeps cfg.shared cfg'.shared vip → Claims cfg' key vip :=
    fun hkeeps => ⟨hkeeps.leased h.1, hkeeps.owner key h.1 h.2⟩
  have hother : ∀ t choice, action = .step t choice → (∀ conn, t ≠ .plane conn) →
      Claims cfg' key vip :=
    fun t choice haction hne => hkeeps (keeps_of_other (haction ▸ hstep) hne)
  rw [keepsClaim, Bool.and_eq_true, Bool.not_eq_true'] at hok
  cases hstep with
  | spawn hfresh hspawn => exact h
  | env henv =>
    refine hkeeps (keeps_of_environment henv fun at_ order he hmem => ?_)
    subst he
    simpa [keepsLease, hmem] using hok.1
  | @plane conn choice reg pc request shared result hlocal hcontrol hexec =>
    by_cases hreleases : request.op.releases vip = true
    · obtain ⟨rfl, cs, rfl | rfl⟩ := releases_of_handler hcontrol hreleases
      · simp [keepsLease, handlerAt_eq_some.2 hlocal] at hok
      · -- the teardown of another client of the same address
        have hne : reg.key ≠ key := by
          simpa [withdraws, handlerAt_eq_some.2 hlocal] using hok.2
        cases hcontrol
        obtain ⟨a, ha, rfl⟩ := exec_auth.1 hexec
        simp only [AuthTables.exec, Option.ite_none_right_eq_some, Option.some.injEq] at ha
        cases ha.2
        exact ⟨h.1, AuthTables.releaseSession_owner h.2 (.inr hne)⟩
    · exact hkeeps (keeps_of_exec hexec (Bool.eq_false_iff.2 hreleases))
  | _ => exact hother _ _ rfl (by simp)

/-- Once a call of `AuthorizeDataPlane` for a leased address is about to return
ok, every later call for the address that returns ok is one of the same client,
until the address is released or reaped or the client withdraws its claim. -/
theorem claimed_address_exclusive (setup : Setup) (front rest : List ServerAction)
    (granted cfg : ServerConfig) (conn other : ConnId) (reg reg' : Registration)
    (hfront : run setup.next setup.initial front = some granted)
    (hgranted : granted.threads.lookup (.plane conn) = some (.plane reg (.unlock true)))
    (hleased : granted.shared.alloc.isLeased reg.vip = true)
    (hsteps : Along setup.next (fun cfg action => keepsClaim reg.key reg.vip cfg action = true)
      granted rest)
    (hrest : run setup.next granted rest = some cfg)
    (hother : cfg.threads.lookup (.plane other) = some (.plane reg' (.unlock true)))
    (hvip : reg'.vip = reg.vip) : reg'.key = reg.key := by
  have hlock : ∀ s action next, Locked s → setup.next s action = some next → Locked next :=
    fun s action next h hnext => h.step (serverStep_of_next hnext)
  have hclaim : ∀ s action next, Claims s reg.key reg.vip →
      keepsClaim reg.key reg.vip s action = true → setup.next s action = some next →
      Claims next reg.key reg.vip :=
    fun s action next h hok hnext => h.step hok (serverStep_of_next hnext)
  have hlocked := run_stable hlock setup.initial_locked hfront
  have hlocked' := run_stable hlock hlocked hrest
  have hclaims : Claims granted reg.key reg.vip :=
    ⟨(IPAllocator.isLeased_iff _ _).1 hleased, hlocked.owner conn reg _ hgranted rfl⟩
  have hclaims' := run_invariant hclaim hclaims hsteps hrest
  have howner := hlocked'.owner other reg' _ hother rfl
  rw [hvip, hclaims'.2] at howner
  exact (Option.some.inj howner).symm

theorem claimed_address_exclusive_ann :
    ∃ granted cfg, run smallSetup.next smallSetup.initial
        (loginRun 0 annData.peerIP "ann:pw" ++ requestRun 0 annData.key "dev" ++
          connectRun 1 annData 5) = some granted ∧
      run smallSetup.next granted (steps (.plane 1) 6 ++
        connectRun 2 { annData with plane := some .ctrl } 5) = some cfg ∧
      cfg.threads.lookup (.plane 2) =
        some (.plane { annData with plane := some .ctrl } (.unlock true)) ∧
      Registration.key { annData with plane := some .ctrl } = annData.key := by
  obtain ⟨granted, hfront, hgranted, hleased, hsteps, cfg, hrest, hother⟩ : ∃ granted,
      run smallSetup.next smallSetup.initial (loginRun 0 annData.peerIP "ann:pw" ++
        requestRun 0 annData.key "dev" ++ connectRun 1 annData 5) = some granted ∧
      granted.threads.lookup (.plane 1) = some (.plane annData (.unlock true)) ∧
      granted.shared.alloc.isLeased annData.vip = true ∧
      Along smallSetup.next (fun cfg action =>
          keepsClaim annData.key annData.vip cfg action = true) granted
        (steps (.plane 1) 6 ++ connectRun 2 { annData with plane := some .ctrl } 5) ∧
      ∃ cfg, run smallSetup.next granted (steps (.plane 1) 6 ++
          connectRun 2 { annData with plane := some .ctrl } 5) = some cfg ∧
        cfg.threads.lookup (.plane 2) =
          some (.plane { annData with plane := some .ctrl } (.unlock true)) := by
    decide +kernel
  exact ⟨granted, cfg, hfront, hrest, hother,
    claimed_address_exclusive smallSetup _ _ granted cfg 1 2 annData _ hfront hgranted hleased
      hsteps hrest hother rfl⟩

/-! ## An address that nobody has claimed yet -/

def keepsAllocation (vip : IPv4) (cfg : ServerConfig) (action : ServerAction) : Bool :=
  keepsLease vip cfg action &&
    match action with
    | .step (.dhcp m n) _ =>
      match cfg.threads.lookup (.dhcp m n) with
      | some (.dhcp _ (.request device)) =>
        (cfg.shared.alloc.allocateByDeviceID cfg.shared.now device).1 ≠ some vip
      | _ => true
    | _ => true

/-- Bob's data plane is admitted under the address that Ann's request has just
been answered with. -/
theorem allocated_address_claimed_by_other :
    ¬ ∀ (setup : Setup) front rest m n key vip answered cfg conn reg,
      run setup.next setup.initial front = some answered →
      answered.threads.lookup (.login m) = some (.login (.accepted key)) →
      answered.threads.lookup (.dhcp m n) = some (.dhcp key (.answered vip)) →
      Along setup.next (fun cfg action => keepsAllocation vip cfg action = true) answered rest →
      run setup.next answered rest = some cfg →
      cfg.threads.lookup (.plane conn) = some (.plane reg (.unlock true)) →
      reg.vip = vip → reg.key = key := by
  intro h
  obtain ⟨answered, hfront, hlogin, hanswered, hsteps, cfg, hrest, hbob⟩ : ∃ answered,
      run smallSetup.next smallSetup.initial (loginRun 0 annData.peerIP "ann:pw" ++
        requestRun 0 annData.key "dev") = some answered ∧
      answered.threads.lookup (.login 0) = some (.login (.accepted annData.key)) ∧
      answered.threads.lookup (.dhcp 0 0) = some (.dhcp annData.key (.answered annVIP)) ∧
      Along smallSetup.next (fun cfg action => keepsAllocation annVIP cfg action = true) answered
        (loginRun 1 bobData.peerIP "bob:pw" ++ connectRun 2 bobData 5) ∧
      ∃ cfg, run smallSetup.next answered
          (loginRun 1 bobData.peerIP "bob:pw" ++ connectRun 2 bobData 5) = some cfg ∧
        cfg.threads.lookup (.plane 2) = some (.plane bobData (.unlock true)) := by
    decide +kernel
  have hsame : bobData.key = annData.key :=
    h smallSetup _ _ 0 0 annData.key annVIP answered cfg 2 bobData hfront hlogin hanswered hsteps
      hrest hbob rfl
  exact absurd hsame (by decide)

end Hy2Link.Server
