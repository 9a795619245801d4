import Hy2Link.Server.Wiring

/-! # Leases that nobody gives back

The reaper never takes an active lease; it goes only when the teardown of a
bulk connection releases it.  `AuthorizeDataPlane` makes a lease active before
the connection has shown what it is, and a registration can still fail on many
exits after that: an unknown type, a stream that does not come, a bulk
connection that is not found.  None of them gives the lease back.

`active_leases_held` holds for the runs in which an admitted connection gives
up only where a clientStream is registered for its address.
-/

namespace Hy2Link.Server

open Interleaving

def PlanePC.running : PlanePC → Bool
  | .done _ => false
  | _ => true

def Local.handles (vip : IPv4) : Local → Bool
  | .plane reg pc => reg.vip = vip && pc.running
  | _ => false

/-- Every address with an active lease has a registered clientStream or a
running handler. -/
def LeasesHeld (cfg : ServerConfig) : Prop :=
  ∀ vip, cfg.shared.alloc.lease vip = some .active →
    (cfg.shared.data.conns.lookup vip).isSome ∨
      ∃ conn l, cfg.threads.lookup (.plane conn) = some l ∧ l.handles vip = true

/-- The handler of an admitted connection does not give up with its next step:
its type is known, its streams come, its attempts to find the bulk connection
are not used up. -/
def PlanePC.persists (conn : ConnId) (reg : Registration) (choice : Choice) (d : DataTables) :
    PlanePC → Bool
  | .unlock true => reg.plane.isSome
  | .accept => choice ≠ .fail && conn ∉ d.closed
  | .await tries => 1 < tries
  | _ => true

/-- An admitted connection gives up only where a clientStream is registered for
its address. -/
def givesUpCovered (cfg : ServerConfig) : ServerAction → Bool
  | .step (.plane conn) choice =>
    match handlerAt cfg conn with
    | some (reg, pc) =>
      pc.persists conn reg choice cfg.shared.data ||
        (cfg.shared.data.conns.lookup reg.vip).isSome
    | none => true
  | _ => true

/-! ## The handlers that answer for a lease -/

/-- The handler is going to register its address, to find it registered, or to
release it. -/
def PlanePC.answers : PlanePC → Bool
  | .unlock ok => ok
  | .accept => true
  | .markLease => true
  | .lookup => true
  | .staleConn _ => true
  | .unregisterStale _ _ => true
  | .snapshotStale _ => true
  | .closeStale _ _ => true
  | .register => true
  | .releaseVIP _ => true
  | .await _ => true
  | _ => false

def Covered (cfg : ServerConfig) (vip : IPv4) : Prop :=
  (cfg.shared.data.conns.lookup vip).isSome ∨
    ∃ conn reg pc, cfg.threads.lookup (.plane conn) = some (.plane reg pc) ∧ reg.vip = vip ∧
      pc.answers = true

theorem answers_closeStaleAll (conns : List ConnId) :
    (PlanePC.closeStaleAll conns).answers = true := by
  cases conns <;> rfl

section

variable (h : HandlerStep conn reg choice s pc s' pc')
include h

theorem HandlerStep.active
    (hactive : s'.alloc.lease vip = some .active) :
    s.alloc.lease vip = some .active ∨ reg.vip = vip ∧ pc'.answers = true := by
  have hmark : (s.alloc.markLeaseActive reg.vip).lease vip = some .active →
      s.alloc.lease vip = some .active ∨ reg.vip = vip := by
    intro hmarked
    rw [IPAllocator.lease_markLeaseActive] at hmarked
    split at hmarked
    next heq => exact .inr heq.symm
    · exact .inl hmarked
  cases h with
  | markActive | markLease => exact (hmark hactive).imp_right fun hvip => ⟨hvip, rfl⟩
  | releaseVIP =>
    rw [IPAllocator.lease_releaseByVirtualIP] at hactive
    split at hactive
    · cases hactive
    · exact .inl hactive
  | _ => exact .inl hactive

theorem HandlerStep.unregisters
    (hvip : (s.data.conns.lookup vip).isSome) :
    (s'.data.conns.lookup vip).isSome ∨ reg.vip = vip ∧ pc'.answers = true := by
  have hwithdraw : ∀ c, ((s.data.unregisterData reg.vip c).1.conns.lookup vip).isSome ∨
      reg.vip = vip ∧ (s.data.unregisterData reg.vip c).2 = true := by
    intro c
    unfold DataTables.unregisterData
    split
    · exact .inl hvip
    · split
      · by_cases heq : vip = reg.vip
        · exact .inr ⟨heq.symm, rfl⟩
        · rw [Finmap.lookup_erase_ne heq]
          exact .inl hvip
      · exact .inl hvip
  cases h with
  | @unregisterStale stale c => exact (hwithdraw c).imp_right fun h => ⟨h.1, rfl⟩
  | unregister hmine => exact (hwithdraw (some conn)).imp_right fun h => ⟨h.1, rfl⟩
  | replaced hmine =>
    refine (hwithdraw (some conn)).imp_right fun h => ?_
    simp [h.2] at hmine
  | register =>
    by_cases heq : vip = reg.vip
    · subst heq
      exact .inl (by simp [DataTables.register, Finmap.lookup_insert])
    · refine .inl ?_
      change ((s.data.conns.insert reg.vip s.data.nextStream).lookup vip).isSome
      rw [Finmap.lookup_insert_of_ne _ heq]
      exact hvip
  | setBulk | setAux hplane | clearAux hplane =>
    left
    rw [DataTables.modifyStream_conns]
    exact hvip
  | _ => exact .inl hvip

/-- A handler that answers for its address goes on doing so until the address
is registered or released. -/
theorem HandlerStep.answers
    (hpc : pc.answers = true)
    (hok : pc.persists conn reg choice s.data = true ∨ (s.data.conns.lookup reg.vip).isSome) :
    pc'.answers = true ∨ (s'.data.conns.lookup reg.vip).isSome ∨
      s'.alloc.lease reg.vip = none := by
  have hfound : ∀ cs key, s.data.lookup reg.vip = some (cs, key) →
      (s.data.conns.lookup reg.vip).isSome := by
    intro cs key hlookup
    rw [(DataTables.lookup_eq_some.1 hlookup).1]
    rfl
  cases h with
  | unlock hmu =>
    obtain rfl : _ = true := hpc
    cases hplane : reg.plane with
    | none =>
      simp only [PlanePC.persists, hplane, Option.isSome_none, Bool.false_eq_true, false_or] at hok
      exact .inr (.inl hok)
    | some plane =>
      simp only [if_true, PlanePC.accepted, hplane]
      exact .inl rfl
  | accept hgo hopen =>
    left
    unfold PlanePC.streamsOpen
    split <;> rfl
  | noStreams hfail =>
    refine .inr (.inl (hok.resolve_left fun hpersists => ?_))
    simp only [PlanePC.persists, Bool.and_eq_true, decide_eq_true_eq] at hpersists
    rcases hfail with hfail | hclosed
    · exact hpersists.1 hfail
    · exact hpersists.2 hclosed
  | sameIdentity hlookup | bulkFound hlookup | gameBulkFound hlookup =>
    exact .inr (.inl (hfound _ _ hlookup))
  | bulkNotFound hlookup htries =>
    refine .inr (.inl (hok.resolve_left fun hpersists => ?_))
    exact absurd (of_decide_eq_true hpersists) (Nat.not_lt_of_le htries)
  | snapshotStale | closeStale => exact .inl (answers_closeStaleAll _)
  | register => exact .inr (.inl (by simp [DataTables.register, Finmap.lookup_insert]))
  | releaseVIP => exact .inr (.inr (by rw [IPAllocator.lease_releaseByVirtualIP, if_pos rfl]))
  | _ =>
    first
    | exact .inl rfl
    | cases hpc

end

theorem active_of_step (hstep : ServerStep gate cfg action cfg')
    (hactive : cfg'.shared.alloc.lease vip = some .active) :
    cfg.shared.alloc.lease vip = some .active ∨ Covered cfg' vip := by
  have hother : ∀ t choice, action = .step t choice → .alloc ∉ t.areas →
      cfg.shared.alloc.lease vip = some .active := by
    rintro t choice rfl halloc
    obtain ⟨area, harea, hframe⟩ := frame_of_step hstep
    rw [hframe.alloc fun heq => halloc (heq ▸ harea)] at hactive
    exact hactive
  cases hstep with
  | spawn hfresh hspawn => exact .inl hactive
  | @env e shared henv =>
    left
    cases e with
    | reap at_ order =>
      simp only [environment, Option.ite_none_right_eq_some] at henv
      cases henv.2
      exact cfg.shared.alloc.lease_of_reap order hactive
    | sweepKey key | sweepBan ip | sweepOwner v | sweepPeer v at_ =>
      simp only [environment, Option.ite_none_right_eq_some] at henv
      cases henv.2
      exact hactive
    | _ =>
      cases henv
      exact hactive
  | @plane conn choice reg pc request shared result hlocal hcontrol hexec =>
    rcases (handlerStep_of_exec hcontrol hexec).active hactive with hold | ⟨hvip, hanswers⟩
    · exact .inl hold
    · exact .inr (.inr ⟨conn, reg, _, Finmap.lookup_insert _, hvip, hanswers⟩)
  | @dhcp m n choice key pc request shared result hlocal hcontrol hexec =>
    left
    cases pc with
    | request device =>
      cases hcontrol
      obtain ⟨rfl, -⟩ := exec_alloc.1 hexec
      rcases cfg.shared.alloc.lease_allocateByDeviceID cfg.shared.now device vip with
        hsame | ⟨-, -, deadline, huntil⟩
      · exact hsame.symm.trans hactive
      · cases huntil.symm.trans hactive
    | answered | refused => cases hcontrol
  | _ => exact .inl (hother _ _ rfl (by simp [Thread.areas]))

/-- A covered address stays covered for as long as its lease is active. -/
theorem Covered.step (h : Covered cfg vip) (hok : givesUpCovered cfg action = true)
    (hstep : ServerStep gate cfg action cfg')
    (hactive : cfg'.shared.alloc.lease vip = some .active) : Covered cfg' vip := by
  rcases h with hregistered | ⟨conn, reg, pc, hlocal, rfl, hpc⟩
  · rcases conns_of_step hstep vip with hsame | ⟨conn, choice, -, -, rfl, -⟩
    · exact .inl (by rw [hsame]; exact hregistered)
    · obtain ⟨reg, pc, pc', -, hthreads, hedge⟩ := plane_of_step hstep
      rcases hedge.unregisters hregistered with hkept | ⟨hvip, hanswers⟩
      · exact .inl hkept
      · exact .inr ⟨conn, reg, pc', by rw [hthreads, Finmap.lookup_insert], hvip, hanswers⟩
  · rcases handler_of_step hstep hlocal with hstay | ⟨choice, pc', rfl, hmoved, hedge⟩
    · exact .inr ⟨conn, reg, pc, hstay, rfl, hpc⟩
    · have hpersists : pc.persists conn reg choice cfg.shared.data = true ∨
          (cfg.shared.data.conns.lookup reg.vip).isSome := by
        simpa [givesUpCovered, handlerAt_eq_some.2 hlocal] using hok
      rcases hedge.answers hpc hpersists with hanswers | hregistered | hnone
      · exact .inr ⟨conn, reg, pc', hmoved, rfl, hanswers⟩
      · exact .inl hregistered
      · simp [hnone] at hactive

/-- In every run in which an admitted connection gives up only where its
address is registered, every active lease has a registered clientStream or a
running handler. -/
theorem active_leases_held (setup : Setup) (actions : List ServerAction) (cfg : ServerConfig)
    (hsteps : Along setup.next (fun cfg action => givesUpCovered cfg action = true) setup.initial
      actions)
    (hrun : run setup.next setup.initial actions = some cfg) : LeasesHeld cfg := by
  have hkept : ∀ s action next,
      (∀ vip, s.shared.alloc.lease vip = some .active → Covered s vip) →
      givesUpCovered s action = true → setup.next s action = some next →
      ∀ vip, next.shared.alloc.lease vip = some .active → Covered next vip := by
    intro s action next hs hok hnext vip hactive
    have hstep := serverStep_of_next hnext
    rcases active_of_step hstep hactive with hold | hcovered
    · exact (hs vip hold).step hok hstep hactive
    · exact hcovered
  have hinitial : ∀ vip, setup.initial.shared.alloc.lease vip = some .active →
      Covered setup.initial vip := by
    intro vip hactive
    simp [Setup.initial, IPAllocator.lease_setIPPool] at hactive
  intro vip hactive
  rcases run_invariant hkept hinitial hsteps hrun vip hactive with
    hregistered | ⟨conn, reg, pc, hlocal, hvip, hpc⟩
  · exact .inl hregistered
  · have hrunning : pc.running = true := by
      cases pc with
      | done cs => cases hpc
      | _ => rfl
    exact .inr ⟨conn, _, hlocal, by simp [Local.handles, hvip, hrunning]⟩

/-! ## A connection that gives up -/

def streamlessRun : List ServerAction :=
  loginRun 0 annData.peerIP "ann:pw" ++ requestRun 0 annData.key "dev" ++
    connectRun 1 { annData with plane := some .ctrl } 6 ++
    [.step (.plane 1) .fail, .step (.plane 1) .go]

/-- The handler has returned, nothing is registered, and the lease is active. -/
theorem lease_pinned_by_streamless :
    ¬ ∀ (setup : Setup) actions cfg,
      run setup.next setup.initial actions = some cfg → LeasesHeld cfg := by
  intro h
  obtain ⟨cfg, hcfg, hactive, hnone, hidle⟩ : ∃ cfg,
      run smallSetup.next smallSetup.initial streamlessRun = some cfg ∧
      cfg.shared.alloc.lease annVIP = some .active ∧
      cfg.shared.data.conns.lookup annVIP = none ∧
      ∀ t l, cfg.threads.lookup t = some l → l.handles annVIP = false := by
    decide +kernel
  rcases h smallSetup streamlessRun cfg hcfg annVIP hactive with hsome | ⟨conn, l, hlocal, hhandles⟩
  · simp [hnone] at hsome
  · simp [hidle _ l hlocal] at hhandles

/-- The same control connection beside Ann's data plane. -/
def coveredRun : List ServerAction :=
  annServedRun ++ connectRun 2 { annData with plane := some .ctrl } 6 ++
    [.step (.plane 2) .fail, .step (.plane 2) .go]

theorem lease_held_by_registration :
    ∃ cfg, run smallSetup.next smallSetup.initial coveredRun = some cfg ∧
      cfg.shared.alloc.lease annVIP = some .active ∧ LeasesHeld cfg := by
  obtain ⟨cfg, hcfg, hactive⟩ : ∃ cfg,
      run smallSetup.next smallSetup.initial coveredRun = some cfg ∧
      cfg.shared.alloc.lease annVIP = some .active := by
    decide +kernel
  exact ⟨cfg, hcfg, hactive, active_leases_held smallSetup coveredRun cfg (by decide +kernel) hcfg⟩

end Hy2Link.Server
