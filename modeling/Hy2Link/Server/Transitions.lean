import Hy2Link.Server.System

/-! # The transitions of the threads

`planeControl` says which operation a handler performs at a program point and
how it goes on with the result.  `HandlerStep` is the same program as a
transition relation: one rule for each edge, with the test that leads along it
and the tables after it.  `LoginStep` is the same for `Authenticate`.  Of the
other threads it is mostly enough to know which part of the state they touch.
-/

namespace Hy2Link.Server

open Interleaving Thread PlanePC

/-! ## Which part of the state an operation touches -/

inductive Area
  | read | alloc | auth | data | signal
deriving DecidableEq

def Op.area {Result : Type} : Op Result → Area
  | .read _ => .read
  | .alloc _ => .alloc
  | .auth _ => .auth
  | .data _ => .data
  | .signal _ => .signal

def Thread.areas : Thread → List Area
  | .plane _ => [.read, .alloc, .auth, .data]
  | .signal _ => [.data, .signal]
  | .datagrams _ => [.data]
  | .login _ => [.read, .auth]
  | .dhcp _ _ => [.alloc]
  | .push _ => [.signal]

structure Frame (area : Area) (s s' : Shared) : Prop where
  now : s'.now = s.now
  users : s'.users = s.users
  alloc : area ≠ .alloc → s'.alloc = s.alloc
  auth : area ≠ .auth → s'.auth = s.auth
  data : area ≠ .data → s'.data = s.data
  signal : area ≠ .signal → s'.signal = s.signal

theorem frame_of_exec {op : Op Result} {result : Result} (hexec : exec t s op = some (s', result)) :
    Frame op.area s s' := by
  cases op with
  | read op =>
    obtain ⟨rfl, -⟩ := exec_read.1 hexec
    exact ⟨rfl, rfl, fun _ => rfl, fun _ => rfl, fun _ => rfl, fun _ => rfl⟩
  | alloc op =>
    obtain ⟨rfl, -⟩ := exec_alloc.1 hexec
    exact ⟨rfl, rfl, fun h => absurd rfl h, fun _ => rfl, fun _ => rfl, fun _ => rfl⟩
  | auth op =>
    obtain ⟨a, -, rfl⟩ := exec_auth.1 hexec
    exact ⟨rfl, rfl, fun _ => rfl, fun h => absurd rfl h, fun _ => rfl, fun _ => rfl⟩
  | data op =>
    obtain ⟨d, -, rfl⟩ := exec_data.1 hexec
    exact ⟨rfl, rfl, fun _ => rfl, fun _ => rfl, fun h => absurd rfl h, fun _ => rfl⟩
  | signal op =>
    obtain ⟨rfl, -⟩ := exec_signal.1 hexec
    exact ⟨rfl, rfl, fun _ => rfl, fun _ => rfl, fun _ => rfl, fun h => absurd rfl h⟩

theorem plane_area (hcontrol : planeControl conn reg choice pc = some request) :
    request.op.area ∈ (plane conn).areas := by
  cases pc with
  | setAux cs | clearAux cs =>
    obtain ⟨plane, -, rfl⟩ := Option.map_eq_some_iff.1 hcontrol
    simp [Op.area, areas]
  | done cs => cases hcontrol
  | _ =>
    cases hcontrol
    simp [Op.area, areas]

theorem signal_area (hcontrol : signalControl conn cs own choice pc = some request) :
    request.op.area ∈ (signal conn).areas := by
  cases pc with
  | reading i => cases choice <;> cases hcontrol <;> simp [Op.area, areas]
  | done => cases hcontrol
  | _ =>
    cases hcontrol
    simp [Op.area, areas]

theorem datagram_area (hcontrol : datagramControl conn cs pc = some request) :
    request.op.area ∈ (datagrams conn).areas := by
  cases pc <;> cases hcontrol <;> simp [Op.area, areas]

theorem login_area (hcontrol : loginControl gate pc = some request) (n : Nat) :
    request.op.area ∈ (login n).areas := by
  cases pc <;> cases hcontrol <;> simp [Op.area, areas]

theorem dhcp_area (hcontrol : dhcpControl pc = some request) (m n : Nat) :
    request.op.area ∈ (dhcp m n).areas := by
  cases pc <;> cases hcontrol
  simp [Op.area, areas]

theorem push_area (hcontrol : pushControl pc = some request) (n : Nat) :
    request.op.area ∈ (push n).areas := by
  cases pc <;> cases hcontrol <;> simp [Op.area, areas]

section

variable {cfg cfg' : ServerConfig} (hstep : ServerStep gate cfg (.step t choice) cfg')
include hstep

/-- A step of a thread changes one of its areas only. -/
theorem frame_of_step : ∃ area ∈ t.areas, Frame area cfg.shared cfg'.shared := by
  cases hstep with
  | plane hlocal hcontrol hexec => exact ⟨_, plane_area hcontrol, frame_of_exec hexec⟩
  | signal hlocal hcontrol hexec => exact ⟨_, signal_area hcontrol, frame_of_exec hexec⟩
  | datagrams hlocal hcontrol hexec => exact ⟨_, datagram_area hcontrol, frame_of_exec hexec⟩
  | login hlocal hcontrol hexec => exact ⟨_, login_area hcontrol _, frame_of_exec hexec⟩
  | dhcp hlocal hcontrol hexec => exact ⟨_, dhcp_area hcontrol _ _, frame_of_exec hexec⟩
  | push hlocal hcontrol hexec => exact ⟨_, push_area hcontrol _, frame_of_exec hexec⟩

theorem data_of_areas (hareas : Area.data ∉ t.areas) : cfg'.shared.data = cfg.shared.data := by
  obtain ⟨area, harea, hframe⟩ := frame_of_step hstep
  exact hframe.data fun heq => hareas (heq ▸ harea)

theorem signal_of_areas
    (hareas : Area.signal ∉ t.areas) : cfg'.shared.signal = cfg.shared.signal := by
  obtain ⟨area, harea, hframe⟩ := frame_of_step hstep
  exact hframe.signal fun heq => hareas (heq ▸ harea)

end

/-! ## Handlers -/

section

variable (conn : ConnId) (reg : Registration) (choice : Choice) (s : Shared)

inductive HandlerStep : PlanePC → Shared → PlanePC → Prop
  | anonymous (hname : reg.username = "") : HandlerStep .start s .reject
  | clock (hname : reg.username ≠ "") : HandlerStep .start s (.authorize s.now)
  | authorized (hmu : s.auth.mu = none)
      (hrecord : s.auth.authorized reg.key now = true) :
      HandlerStep (.authorize now)
        { s with auth := { s.auth with mu := some (.plane conn) } } (.isLeased now)
  | unauthorized (hmu : s.auth.mu = none)
      (hrecord : s.auth.authorized reg.key now = false) :
      HandlerStep (.authorize now)
        { s with
          auth := { s.auth with authorizedKeys := s.auth.authorizedKeys.erase reg.key } } .reject
  | leased (hleased : s.alloc.isLeased reg.vip = true) :
      HandlerStep (.isLeased now) s (.claimOwner now)
  | unleased (hleased : s.alloc.isLeased reg.vip = false) :
      HandlerStep (.isLeased now) s (.unlock false)
  | claimed (hmu : s.auth.mu = some (.plane conn))
      (hclaim : s.auth.claimable reg.key reg.vip = true) :
      HandlerStep (.claimOwner now)
        { s with auth := (s.auth.claimOwner reg.key reg.vip now).1 } .markActive
  | unclaimed (hmu : s.auth.mu = some (.plane conn))
      (hclaim : s.auth.claimable reg.key reg.vip = false) :
      HandlerStep (.claimOwner now) s (.unlock false)
  | markActive : HandlerStep .markActive
      { s with alloc := s.alloc.markLeaseActive reg.vip } (.unlock true)
  | unlock (hmu : s.auth.mu = some (.plane conn)) :
      HandlerStep (.unlock ok) { s with auth := { s.auth with mu := none } }
        (if ok then accepted reg else .reject)
  | accept (hgo : choice ≠ .fail) (hopen : conn ∉ s.data.closed) :
      HandlerStep .accept s (streamsOpen reg)
  | noStreams (hfail : choice = .fail ∨ conn ∈ s.data.closed) : HandlerStep .accept s .reject
  | markLease : HandlerStep .markLease
      { s with alloc := s.alloc.markLeaseActive reg.vip } .lookup
  | unregistered (hlookup : s.data.lookup reg.vip = none) : HandlerStep .lookup s .register
  | sameIdentity (hlookup : s.data.lookup reg.vip = some (cs, reg.key)) :
      HandlerStep .lookup s (.oldConn cs)
  | otherIdentity
      (hlookup : s.data.lookup reg.vip = some (cs, key)) (hne : key ≠ reg.key) :
      HandlerStep .lookup s (.staleConn cs)
  | staleConn : HandlerStep (.staleConn stale) s
      (.unregisterStale stale (s.data.getDataConn stale))
  | unregisterStale : HandlerStep (.unregisterStale stale c)
        { s with data := (s.data.unregisterData reg.vip c).1 } (.snapshotStale stale)
  | snapshotStale : HandlerStep (.snapshotStale stale) s
      (closeStaleAll (s.data.snapshot stale))
  | closeStale : HandlerStep (.closeStale c rest)
      { s with data := s.data.closeConn c } (closeStaleAll rest)
  | noOldConn
      (hold : s.data.getDataConn cs = none ∨ s.data.getDataConn cs = some conn) :
      HandlerStep (.oldConn cs) s (.setBulk cs)
  | oldConn (hold : s.data.getDataConn cs = some old)
      (hne : old ≠ conn) : HandlerStep (.oldConn cs) s (.closeOld cs old)
  | closeOld : HandlerStep (.closeOld cs old)
      { s with data := s.data.closeConn old } (.setBulk cs)
  | setBulk : HandlerStep (.setBulk cs)
      { s with data := s.data.modifyStream cs fun stream => stream.attach conn .data } (.online cs)
  | register : HandlerStep .register
      { s with data := (s.data.register reg.vip reg.key conn).1 } (.online s.data.nextStream)
  | online : HandlerStep (.online cs)
      { s with data := { s.data with clients := s.data.clients.insert reg.vip reg.username } }
      (.serving cs)
  | served (hclosed : conn ∈ s.data.closed) : HandlerStep (.serving cs) s (.unregister cs)
  | unregister (hmine : (s.data.unregisterData reg.vip (some conn)).2 = true) :
      HandlerStep (.unregister cs)
        { s with data := (s.data.unregisterData reg.vip (some conn)).1 } (.releaseVIP cs)
  | replaced (hmine : (s.data.unregisterData reg.vip (some conn)).2 = false) :
      HandlerStep (.unregister cs)
        { s with data := (s.data.unregisterData reg.vip (some conn)).1 } (.snapshot cs)
  | releaseVIP : HandlerStep (.releaseVIP cs)
      { s with alloc := s.alloc.releaseByVirtualIP reg.vip } (.releaseSession cs)
  | releaseSession (hmu : s.auth.mu = none) : HandlerStep (.releaseSession cs)
        { s with auth := s.auth.releaseSession reg.key reg.vip } (.offline cs)
  | offline : HandlerStep (.offline cs)
      { s with data := { s.data with clients := s.data.clients.erase reg.vip } } (.snapshot cs)
  | snapshot : HandlerStep (.snapshot cs) s
      (closeAll cs (s.data.snapshot cs))
  | closing : HandlerStep (.closing cs c rest)
        { s with data := s.data.closeConn c } (closeAll cs rest)
  | bulkMissing (hlookup : s.data.lookup reg.vip = none) (htries : 1 < tries) :
      HandlerStep (.await tries) s (.await (tries - 1))
  | bulkNotFound (hlookup : s.data.lookup reg.vip = none) (htries : tries ≤ 1) :
      HandlerStep (.await tries) s .reject
  | bulkFound
      (hlookup : s.data.lookup reg.vip = some (cs, key)) (hplane : reg.plane ≠ some .dataGame) :
      HandlerStep (.await tries) s (.setAux cs)
  | gameBulkFound
      (hlookup : s.data.lookup reg.vip = some (cs, key)) (hplane : reg.plane = some .dataGame) :
      HandlerStep (.await tries) s (.acknowledge cs)
  | acknowledge (hgo : choice ≠ .fail) (hopen : conn ∉ s.data.closed) :
      HandlerStep (.acknowledge cs) s (.setAux cs)
  | noAcknowledge (hfail : choice = .fail ∨ conn ∈ s.data.closed) :
      HandlerStep (.acknowledge cs) s .reject
  | setAux {cs : StreamId} {plane : Plane} (hplane : reg.plane = some plane) :
      HandlerStep (.setAux cs)
        { s with data := s.data.modifyStream cs fun stream => stream.attach conn plane }
        (.attached cs)
  | detached (hclosed : conn ∈ s.data.closed) : HandlerStep (.attached cs) s (.clearAux cs)
  | clearAux {cs : StreamId} {plane : Plane} (hplane : reg.plane = some plane) :
      HandlerStep (.clearAux cs)
        { s with data := s.data.modifyStream cs fun stream => stream.detach plane }
        (.done (some cs))
  | reject : HandlerStep .reject
      { s with data := s.data.closeConn conn } (.done none)

end

theorem handlerStep_authorize
    (hexec : exec (.plane conn) s (.auth (.authorize reg.key now)) = some (s', result)) :
    HandlerStep conn reg choice s (.authorize now) s'
      (if result then .isLeased now else .reject) := by
  obtain ⟨a, ha, rfl⟩ := exec_auth.1 hexec
  simp only [AuthTables.exec, Option.ite_none_right_eq_some, Option.some.injEq] at ha
  obtain ⟨hmu, hrecord⟩ := ha
  unfold AuthTables.authorize at hrecord
  split at hrecord <;> cases hrecord
  next hok =>
    exact .authorized hmu hok
  next hno =>
    exact .unauthorized hmu (Bool.eq_false_iff.2 hno)

theorem handlerStep_claimOwner
    (hexec : exec (.plane conn) s (.auth (.claimOwner reg.key reg.vip now)) = some (s', result)) :
    HandlerStep conn reg choice s (.claimOwner now) s'
      (if result then .markActive else .unlock false) := by
  obtain ⟨a, ha, rfl⟩ := exec_auth.1 hexec
  simp only [AuthTables.exec, Option.ite_none_right_eq_some, Option.some.injEq] at ha
  obtain ⟨hmu, hclaim⟩ := ha
  rw [show a = (s.auth.claimOwner reg.key reg.vip now).1 from (congrArg Prod.fst hclaim).symm]
  rcases Bool.eq_false_or_eq_true (s.auth.claimable reg.key reg.vip) with hok | hno
  · have hresult : result = true := by
      rw [AuthTables.claimOwner, if_pos hok] at hclaim
      exact (congrArg Prod.snd hclaim).symm
    subst hresult
    exact .claimed hmu hok
  · have hsame : s.auth.claimOwner reg.key reg.vip now = (s.auth, false) := by
      rw [AuthTables.claimOwner, if_neg (Bool.eq_false_iff.1 hno)]
    obtain rfl : false = result := (congrArg Prod.snd (hsame.symm.trans hclaim))
    rw [hsame]
    exact .unclaimed hmu hno

theorem handlerStep_lookup :
    HandlerStep conn reg choice s .lookup s (found reg (s.data.lookup reg.vip)) := by
  cases hlookup : s.data.lookup reg.vip with
  | none => exact .unregistered hlookup
  | some found =>
    obtain ⟨cs, key⟩ := found
    by_cases hkey : key = reg.key
    · subst hkey
      rw [found, if_pos rfl]
      exact .sameIdentity hlookup
    · rw [found, if_neg hkey]
      exact .otherIdentity hlookup hkey

theorem handlerStep_await :
    HandlerStep conn reg choice s (.await tries) s
      (bulkFound reg tries (s.data.lookup reg.vip)) := by
  cases hlookup : s.data.lookup reg.vip with
  | none =>
    by_cases htries : tries ≤ 1
    · rw [bulkFound, if_pos htries]
      exact .bulkNotFound hlookup htries
    · rw [bulkFound, if_neg htries]
      exact .bulkMissing hlookup (Nat.lt_of_not_le htries)
  | some found =>
    obtain ⟨cs, key⟩ := found
    by_cases hplane : reg.plane = some .dataGame
    · rw [bulkFound, if_pos hplane]
      exact .gameBulkFound hlookup hplane
    · rw [bulkFound, if_neg hplane]
      exact .bulkFound hlookup hplane

theorem handlerStep_oldConn :
    HandlerStep conn reg choice s (.oldConn cs) s
      (match s.data.getDataConn cs with
        | some old => if old = conn then .setBulk cs else .closeOld cs old
        | none => .setBulk cs) := by
  cases hold : s.data.getDataConn cs with
  | none => exact .noOldConn (.inl hold)
  | some old =>
    by_cases heq : old = conn
    · subst heq
      simp only [if_pos]
      exact .noOldConn (.inr hold)
    · simp only [if_neg heq]
      exact .oldConn hold heq

theorem handlerStep_unregister
    (hdata : s.data.exec (.unregisterData reg.vip (some conn)) = some (s'.data, mine))
    (hs : s' = { s with data := s'.data }) :
    HandlerStep conn reg choice s (.unregister cs) s'
      (if mine then .releaseVIP cs else .snapshot cs) := by
  obtain ⟨hd, rfl⟩ := DataTables.exec_unregisterData.1 hdata
  rw [hs, hd]
  rcases Bool.eq_false_or_eq_true (s.data.unregisterData reg.vip (some conn)).2 with hmine | hmine
  · rw [hmine]
    exact .unregister hmine
  · rw [hmine]
    exact .replaced hmine

theorem handlerStep_answered
    (hyes : choice ≠ .fail → conn ∉ s.data.closed → HandlerStep conn reg choice s pc s yes)
    (hno : choice = .fail ∨ conn ∈ s.data.closed → HandlerStep conn reg choice s pc s no) :
    HandlerStep conn reg choice s pc s
      (if choice ≠ .fail && conn ∉ s.data.closed then yes else no) := by
  by_cases hgo : choice ≠ .fail ∧ conn ∉ s.data.closed
  · rw [if_pos (by simpa using hgo)]
    exact hyes hgo.1 hgo.2
  · rw [if_neg (by simpa using hgo)]
    exact hno (by tauto)

/-- Everything that a step of a connection's handler can do. -/
theorem handlerStep_of_exec (hcontrol : planeControl conn reg choice pc = some request)
    (hexec : exec (.plane conn) s request.op = some (s', result)) :
    HandlerStep conn reg choice s pc s' (request.resume result) := by
  cases pc with
  | start =>
    cases hcontrol
    obtain ⟨rfl, rfl⟩ := exec_read.1 hexec
    by_cases hname : reg.username = ""
    · simp only [if_pos hname]
      exact .anonymous hname
    · simp only [if_neg hname]
      exact .clock hname
  | authorize now =>
    cases hcontrol
    exact handlerStep_authorize hexec
  | claimOwner now =>
    cases hcontrol
    exact handlerStep_claimOwner hexec
  | unlock | releaseSession =>
    cases hcontrol
    obtain ⟨a, ha, rfl⟩ := exec_auth.1 hexec
    simp only [AuthTables.exec, Option.ite_none_right_eq_some, Option.some.injEq] at ha
    cases ha.2
    constructor
    exact ha.1
  | isLeased now =>
    cases hcontrol
    obtain ⟨rfl, rfl⟩ := exec_alloc.1 hexec
    rcases Bool.eq_false_or_eq_true (s.alloc.isLeased reg.vip) with hleased | hleased
    · simp only [IPAllocator.exec, hleased, if_true]
      exact .leased hleased
    · simp only [IPAllocator.exec, hleased]
      exact .unleased hleased
  | markActive | markLease | releaseVIP =>
    cases hcontrol
    obtain ⟨rfl, -⟩ := exec_alloc.1 hexec
    constructor
  -- what is left are operations on the objects and registrations
  | accept =>
    cases hcontrol
    obtain ⟨d, hd, rfl⟩ := exec_data.1 hexec
    cases hd
    exact handlerStep_answered .accept .noStreams
  | acknowledge cs =>
    cases hcontrol
    obtain ⟨d, hd, rfl⟩ := exec_data.1 hexec
    cases hd
    exact handlerStep_answered .acknowledge .noAcknowledge
  | lookup =>
    cases hcontrol
    obtain ⟨d, hd, rfl⟩ := exec_data.1 hexec
    cases hd
    exact handlerStep_lookup
  | await tries =>
    cases hcontrol
    obtain ⟨d, hd, rfl⟩ := exec_data.1 hexec
    cases hd
    exact handlerStep_await
  | oldConn cs =>
    cases hcontrol
    obtain ⟨d, hd, rfl⟩ := exec_data.1 hexec
    cases hd
    exact handlerStep_oldConn
  | unregister cs =>
    cases hcontrol
    obtain ⟨d, hd, rfl⟩ := exec_data.1 hexec
    exact handlerStep_unregister hd rfl
  | unregisterStale stale c =>
    cases hcontrol
    obtain ⟨d, hd, rfl⟩ := exec_data.1 hexec
    obtain ⟨rfl, -⟩ := DataTables.exec_unregisterData.1 hd
    exact .unregisterStale
  | serving | attached =>
    cases hcontrol
    obtain ⟨d, hd, rfl⟩ := exec_data.1 hexec
    obtain ⟨hclosed, rfl⟩ := DataTables.exec_awaitClosed.1 hd
    constructor
    exact hclosed
  | setAux | clearAux =>
    obtain ⟨plane, hplane, rfl⟩ := Option.map_eq_some_iff.1 hcontrol
    obtain ⟨d, hd, rfl⟩ := exec_data.1 hexec
    cases hd
    constructor
    exact hplane
  | done cs => cases hcontrol
  | _ =>
    cases hcontrol
    obtain ⟨d, hd, rfl⟩ := exec_data.1 hexec
    cases hd
    constructor

section

variable (cfg cfg' : ServerConfig) (action : ServerAction) (conn : ConnId) (reg : Registration)

inductive HandlerPast : PlanePC → Prop
  | started : HandlerPast .start
  | stayed (hlocal : cfg.threads.lookup (.plane conn) = some (.plane reg pc))
      (hother : ∀ choice, action ≠ .step (.plane conn) choice) :
      HandlerPast pc
  | moved (haction : action = .step (.plane conn) choice)
      (hlocal : cfg.threads.lookup (.plane conn) = some (.plane reg pc))
      (hedge : HandlerStep conn reg choice cfg.shared pc cfg'.shared pc') :
      HandlerPast pc'

end

theorem handlerPast_of_step (hstep : ServerStep gate cfg action cfg')
    (hlocal : cfg'.threads.lookup (.plane conn) = some (.plane reg pc')) :
    HandlerPast cfg cfg' action conn reg pc' := by
  cases hstep with
  | spawn hfresh hspawn =>
    rcases lookup_insert_eq_some.1 hlocal with ⟨rfl, rfl⟩ | ⟨-, hold⟩
    · cases pc' with
      | start => exact .started
      | _ => cases hspawn
    · exact .stayed hold nofun
  | plane hmine hcontrol hexec =>
    rcases lookup_insert_eq_some.1 hlocal with ⟨heq, hl⟩ | ⟨hne, hold⟩
    · cases heq
      cases hl
      exact .moved rfl hmine (handlerStep_of_exec hcontrol hexec)
    · exact .stayed hold fun choice heq => hne (Action.step.inj heq).1.symm
  | env henv => exact .stayed hlocal nofun
  | _ =>
    rcases lookup_insert_eq_some.1 hlocal with ⟨heq, -⟩ | ⟨-, hold⟩
    · cases heq
    · exact .stayed hold nofun

theorem handler_of_step (hstep : ServerStep gate cfg action cfg')
    (hlocal : cfg.threads.lookup (.plane conn) = some (.plane reg pc)) :
    cfg'.threads.lookup (.plane conn) = some (.plane reg pc) ∨
      ∃ choice pc', action = .step (.plane conn) choice ∧
        cfg'.threads.lookup (.plane conn) = some (.plane reg pc') ∧
        HandlerStep conn reg choice cfg.shared pc cfg'.shared pc' := by
  have hkeep : ∀ t l, t ≠ .plane conn →
      (cfg.threads.insert t l).lookup (.plane conn) = some (.plane reg pc) :=
    fun t l hne => (Finmap.lookup_insert_of_ne _ hne.symm).trans hlocal
  cases hstep with
  | spawn hfresh hspawn =>
    refine .inl (hkeep _ _ fun heq => ?_)
    rw [heq, hlocal] at hfresh
    cases hfresh
  | @plane c choice reg' pc' request shared result hmine hcontrol hexec =>
    by_cases heq : conn = c
    · subst heq
      rw [hlocal] at hmine
      cases hmine
      exact .inr ⟨choice, _, rfl, Finmap.lookup_insert _, handlerStep_of_exec hcontrol hexec⟩
    · exact .inl (hkeep _ _ fun hc => heq (plane.inj hc).symm)
  | env henv => exact .inl hlocal
  | _ => exact .inl (hkeep _ _ nofun)

theorem plane_of_step (hstep : ServerStep gate cfg (.step (.plane conn) choice) cfg') :
    ∃ reg pc pc', cfg.threads.lookup (.plane conn) = some (.plane reg pc) ∧
      cfg'.threads = cfg.threads.insert (.plane conn) (.plane reg pc') ∧
      HandlerStep conn reg choice cfg.shared pc cfg'.shared pc' := by
  cases hstep with
  | plane hlocal hcontrol hexec =>
    exact ⟨_, _, _, hlocal, rfl, handlerStep_of_exec hcontrol hexec⟩

/-! ## Logins -/

section

variable (gate : VersionGate) (s : Shared)

inductive LoginStep : LoginPC → Shared → LoginPC → Prop
  | banned (hmu : s.auth.mu = none) :
      LoginStep (.start ip auth) { s with auth := (s.auth.isBanned ip s.now).1 } .refused
  | malformed (hmu : s.auth.mu = none) (hread : gate.readAuth auth = none) :
      LoginStep (.start ip auth) { s with auth := (s.auth.isBanned ip s.now).1 } (.fail ip)
  | credential (hmu : s.auth.mu = none)
      (hread : gate.readAuth auth = some (username, password)) :
      LoginStep (.start ip auth) { s with auth := (s.auth.isBanned ip s.now).1 }
        (.getUser ip username password)
  | userFound {ip username password : String} {user : User}
      (huser : s.users.lookup username = some user) (henabled : user.enabled = true)
      (hpassword : user.password = password) :
      LoginStep (.getUser ip username password) s (.checkUser ip username user)
  | userRefused : LoginStep (.getUser ip username password) s (.fail ip)
  | usable (hexpired : user.expired s.now = false)
      (hquota : user.overQuota = false) :
      LoginStep (.checkUser ip username user) s (.succeed ip username)
  | unusable : LoginStep (.checkUser ip username user) s (.fail ip)
  | succeed (hmu : s.auth.mu = none) :
      LoginStep (.succeed ip username) { s with auth := s.auth.recordSuccess ip }
        (.register ip username)
  | register (hmu : s.auth.mu = none) : LoginStep (.register ip username)
        { s with auth := s.auth.registerSession ⟨ip, username⟩ s.now } (.accepted ⟨ip, username⟩)
  | fail (hmu : s.auth.mu = none) :
      LoginStep (.fail ip) { s with auth := s.auth.recordFailure ip s.now } .refused

end

/-- Everything that a step of a login can do. -/
theorem loginStep_of_exec (hcontrol : loginControl gate pc = some request)
    (hexec : exec t s request.op = some (s', result)) :
    LoginStep gate s pc s' (request.resume result) := by
  cases pc with
  | start ip auth =>
    cases hcontrol
    obtain ⟨a, ha, rfl⟩ := exec_auth.1 hexec
    simp only [AuthTables.exec, Option.ite_none_right_eq_some, Option.some.injEq] at ha
    obtain ⟨hmu, hbanned⟩ := ha
    rw [show a = (s.auth.isBanned ip s.now).1 from (congrArg Prod.fst hbanned).symm]
    dsimp only
    split
    · exact .banned hmu
    · split
      next hread => exact .malformed hmu hread
      next username password hread => exact .credential hmu hread
  | getUser ip username password =>
    cases hcontrol
    obtain ⟨rfl, rfl⟩ := exec_read.1 hexec
    change LoginStep gate s' _ s' (LoginPC.userFound ip username password _)
    cases huser : s'.users.lookup username with
    | none =>
      rw [Shared.read, huser]
      exact .userRefused
    | some user =>
      rw [Shared.read, huser, LoginPC.userFound]
      split
      next hok =>
        rw [Bool.and_eq_true, decide_eq_true_eq] at hok
        exact .userFound huser hok.1 hok.2
      · exact .userRefused
  | checkUser ip username user =>
    cases hcontrol
    obtain ⟨rfl, rfl⟩ := exec_read.1 hexec
    dsimp only
    split
    · exact .unusable
    next hok =>
      rw [Bool.not_eq_true, Bool.or_eq_false_iff] at hok
      exact .usable hok.1 hok.2
  | succeed | register | fail =>
    cases hcontrol
    obtain ⟨a, ha, rfl⟩ := exec_auth.1 hexec
    simp only [AuthTables.exec, Option.ite_none_right_eq_some, Option.some.injEq] at ha
    cases ha.2
    constructor
    exact ha.1
  | accepted | refused => cases hcontrol

end Hy2Link.Server
