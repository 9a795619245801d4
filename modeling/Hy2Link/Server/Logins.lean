import Hy2Link.Server.Transitions

/-! # Calls of `Authenticate`

A login thread carries what it has read from its credential, so the text that
a call started with can be told from every later program point.  A call that
nothing interrupts succeeds with the credential of an account that may be
used, and so does the registration of a plane after it.
-/

namespace Hy2Link.Server

open Interleaving AuthTables Finmap

inductive LoginPC.Reads (gate : VersionGate) (ip auth : String) : LoginPC → Prop
  | start : Reads gate ip auth (.start ip auth)
  | getUser
      (hread : gate.readAuth auth = some (username, password)) :
      Reads gate ip auth (.getUser ip username password)
  | checkUser
      (hread : gate.readAuth auth = some (username, password)) :
      Reads gate ip auth (.checkUser ip username user)
  | succeed
      (hread : gate.readAuth auth = some (username, password)) :
      Reads gate ip auth (.succeed ip username)
  | register
      (hread : gate.readAuth auth = some (username, password)) :
      Reads gate ip auth (.register ip username)
  | accepted
      (hread : gate.readAuth auth = some (username, password)) :
      Reads gate ip auth (.accepted ⟨ip, username⟩)
  | fail : Reads gate ip auth (.fail ip)
  | refused : Reads gate ip auth .refused

variable {setup : Setup} {cfg cfg' : ServerConfig}

variable {threads : Table Thread Local} {reg : Registration}

theorem LoginStep.reads (h : LoginStep gate s pc s' pc') (hpc : pc.Reads gate ip auth) :
    pc'.Reads gate ip auth := by
  cases h with
  | banned | fail => exact .refused
  | malformed | userRefused | unusable =>
    cases hpc
    exact .fail
  | credential hmu hread =>
    cases hpc
    exact .getUser hread
  | userFound huser henabled hpassword =>
    cases hpc with
    | getUser hread => exact .checkUser hread
  | usable hexpired hquota =>
    cases hpc with
    | checkUser hread => exact .succeed hread
  | succeed hmu =>
    cases hpc with
    | succeed hread => exact .register hread
  | register hmu =>
    cases hpc with
    | register hread => exact .accepted hread

def LoginReads (gate : VersionGate) (ip auth : String) (n : Nat) (cfg : ServerConfig) : Prop :=
  ∃ pc, cfg.threads.lookup (.login n) = some (.login pc) ∧ pc.Reads gate ip auth

theorem LoginReads.next (h : LoginReads setup.gate ip auth n cfg)
    (hnext : setup.next cfg action = some cfg') : LoginReads setup.gate ip auth n cfg' := by
  obtain ⟨pc, hlocal, hpc⟩ := h
  by_cases hmine : ∃ choice, action = .step (.login n) choice
  · obtain ⟨choice, rfl⟩ := hmine
    obtain ⟨request, shared, result, hcontrol, hexec, rfl⟩ := (next_own hlocal).1 hnext
    obtain ⟨inner, hinner, rfl⟩ := Option.map_eq_some_iff.1 hcontrol
    exact ⟨_, lookup_insert _, (loginStep_of_exec hinner hexec).reads hpc⟩
  · exact ⟨pc, next_other hlocal (not_exists.1 hmine) hnext, hpc⟩

theorem readAuth_of_accepted
    (hrun : run setup.next cfg (.spawn (.login n) (.login (.start ip auth)) :: actions) = some cfg')
    (haccepted : cfg'.threads.lookup (.login n) = some (.login (.accepted key))) :
    ∃ password, setup.gate.readAuth auth = some (key.username, password) := by
  obtain ⟨middle, hspawn, hrest⟩ := run_cons_eq_some.1 hrun
  obtain ⟨-, -, rfl⟩ := next_spawn.1 hspawn
  have hstart : LoginReads setup.gate ip auth n
      { cfg with threads := cfg.threads.insert (.login n) (.login (.start ip auth)) } :=
    ⟨_, lookup_insert _, .start⟩
  obtain ⟨pc, hlocal, hpc⟩ := run_stable (fun _ _ _ h hnext => h.next hnext) hstart hrest
  rw [haccepted, Option.some.injEq, Local.login.injEq] at hlocal
  subst hlocal
  cases hpc with
  | accepted hread => exact ⟨_, hread⟩

/-! ## A call that is not interrupted -/

theorem run_login (hcontrol : loginControl setup.gate pc = some request)
    (hexec : exec (.login n) s request.op = some (s', result)) :
    run setup.next ⟨s, threads.insert (.login n) (.login pc)⟩ (.step (.login n) .go :: actions) =
      run setup.next ⟨s', threads.insert (.login n) (.login (request.resume result))⟩ actions := by
  have hnext : setup.next ⟨s, threads.insert (.login n) (.login pc)⟩ (.step (.login n) .go) =
      some ⟨s', threads.insert (.login n) (.login (request.resume result))⟩ := by
    refine next_step.2 ⟨_, request.map .login, s', result, lookup_insert _,
      congrArg (Option.map fun r => Request.map Local.login r) hcontrol, hexec, ?_⟩
    rw [insert_insert]
    rfl
  rw [run_cons, hnext, Option.bind_some]

/-- What an account must satisfy for a login with this password. -/
structure User.Admits (user : User) (password : String) (now : Time) : Prop where
  enabled : user.enabled = true
  password : user.password = password
  notExpired : user.expired now = false
  underQuota : user.overQuota = false

def AuthTables.afterLogin (a : AuthTables) (ip username : String) (now : Time) : AuthTables :=
  ((a.isBanned ip now).1.recordSuccess ip).registerSession ⟨ip, username⟩ now

@[simp] theorem AuthTables.isBanned_mu (a : AuthTables) (ip : String) (now : Time) :
    (a.isBanned ip now).1.mu = a.mu := by
  unfold isBanned
  split
  · rfl
  · split <;> rfl

/-- The record that a login leaves is the one a plane is authorized with. -/
theorem AuthTables.authorized_afterLogin (a : AuthTables) (ip username : String) (now : Time) :
    (a.afterLogin ip username now).authorized ⟨ip, username⟩ now = true :=
  authorized_iff.2 ⟨_, lookup_insert _, Nat.le_add_right _ _⟩

@[simp] theorem AuthTables.afterLogin_mu (a : AuthTables) (ip username : String) (now : Time) :
    (a.afterLogin ip username now).mu = a.mu :=
  isBanned_mu a ip now

theorem AuthTables.afterLogin_claimable (a : AuthTables) (ip username : String) (now : Time)
    (key : SessionKey) (vip : IPv4) :
    (a.afterLogin ip username now).claimable key vip = a.claimable key vip := by
  have howner : (a.afterLogin ip username now).vipOwner = a.vipOwner := by
    change (a.isBanned ip now).1.vipOwner = a.vipOwner
    unfold isBanned
    split
    · rfl
    · split <;> rfl
  unfold claimable
  rw [howner]

theorem login_accepted (hfresh : cfg.threads.lookup (.login n) = none)
    (hmu : cfg.shared.auth.mu = none)
    (hban : (cfg.shared.auth.isBanned ip cfg.shared.now).2 = false)
    (hread : setup.gate.readAuth auth = some (username, password))
    (huser : cfg.shared.users.lookup username = some user)
    (hadmits : user.Admits password cfg.shared.now) :
    run setup.next cfg (loginRun n ip auth) =
      some { shared := { cfg.shared with
               auth := cfg.shared.auth.afterLogin ip username cfg.shared.now }
             threads := cfg.threads.insert (.login n) (.login (.accepted ⟨ip, username⟩)) } := by
  have hspawn : setup.next cfg (.spawn (.login n) (.login (.start ip auth))) =
      some ⟨cfg.shared, cfg.threads.insert (.login n) (.login (.start ip auth))⟩ :=
    next_spawn.2 ⟨hfresh, rfl, rfl⟩
  have hbanned : cfg.shared.auth.exec (.login n) cfg.shared.now (.isBanned ip) =
      some ((cfg.shared.auth.isBanned ip cfg.shared.now).1, false) :=
    (if_pos hmu).trans (congrArg some (Prod.ext rfl hban))
  rw [loginRun, run_cons, hspawn, Option.bind_some]
  simp only [steps, List.replicate_succ, List.replicate_zero]
  rw [run_login rfl (exec_auth.2 ⟨_, hbanned, rfl⟩)]
  simp only [hread, Bool.false_eq_true, if_false]
  rw [run_login rfl (exec_read.2 ⟨rfl, rfl⟩)]
  simp only [Shared.read, huser, LoginPC.userFound, hadmits.enabled, hadmits.password,
    decide_true, Bool.and_self, if_true]
  rw [run_login rfl (exec_read.2 ⟨rfl, rfl⟩)]
  simp only [Shared.read, hadmits.notExpired, hadmits.underQuota, Bool.or_self,
    Bool.false_eq_true, if_false]
  -- the other two sections change the tables
  have hmu' : (cfg.shared.auth.isBanned ip cfg.shared.now).1.mu = none :=
    (isBanned_mu _ _ _).trans hmu
  unfold afterLogin
  generalize (cfg.shared.auth.isBanned ip cfg.shared.now).1 = a at *
  have hsucceed : a.exec (.login n) cfg.shared.now (.recordSuccess ip) =
      some (a.recordSuccess ip, ()) := if_pos hmu'
  have hregister : (a.recordSuccess ip).exec (.login n) cfg.shared.now
      (.registerSession ⟨ip, username⟩) =
        some ((a.recordSuccess ip).registerSession ⟨ip, username⟩ cfg.shared.now, ()) :=
    if_pos hmu'
  rw [run_login rfl (exec_auth.2 ⟨_, hsucceed, rfl⟩),
    run_login rfl (exec_auth.2 ⟨_, hregister, rfl⟩)]
  rfl

theorem notBanned_of_loginRun (hrun : run setup.next cfg (loginRun n ip auth) = some cfg') :
    (cfg.shared.auth.isBanned ip cfg.shared.now).2 = false := by
  by_contra hban
  rw [Bool.not_eq_false] at hban
  obtain ⟨spawned, hspawn, hrest⟩ := run_cons_eq_some.1 hrun
  obtain ⟨-, -, rfl⟩ := next_spawn.1 hspawn
  obtain ⟨refused, hstart, hrest⟩ := run_cons_eq_some.1 hrest
  obtain ⟨request, shared, result, hcontrol, hexec, rfl⟩ :=
    (next_own (lookup_insert _)).1 hstart
  cases hcontrol
  obtain ⟨a, ha, rfl⟩ := exec_auth.1 hexec
  obtain ⟨hmu, hresult⟩ := Option.ite_none_right_eq_some.1 ha
  obtain rfl : result = true := by
    rw [← hban, Option.some.inj hresult]
  -- a refused call has no second section
  obtain ⟨last, hnext, -⟩ := run_cons_eq_some.1 hrest
  obtain ⟨request, -, -, hcontrol, -, -⟩ := (next_own (lookup_insert _)).1 hnext
  cases hcontrol

/-! ## A registration that is not interrupted -/

theorem run_plane (hcontrol : planeControl conn reg .go pc = some request)
    (hexec : exec (.plane conn) s request.op = some (s', result)) :
    run setup.next ⟨s, threads.insert (.plane conn) (.plane reg pc)⟩
        (.step (.plane conn) .go :: actions) =
      run setup.next ⟨s', threads.insert (.plane conn) (.plane reg (request.resume result))⟩
        actions := by
  have hnext : setup.next ⟨s, threads.insert (.plane conn) (.plane reg pc)⟩
      (.step (.plane conn) .go) =
        some ⟨s', threads.insert (.plane conn) (.plane reg (request.resume result))⟩ := by
    refine next_step.2 ⟨_, request.map (.plane reg), s', result, lookup_insert _,
      congrArg (Option.map fun r => Request.map (Local.plane reg) r) hcontrol, hexec, ?_⟩
    rw [insert_insert]
    rfl
  rw [run_cons, hnext, Option.bind_some]

def Shared.lockedBy (s : Shared) (conn : ConnId) : Shared :=
  { s with auth := { s.auth with mu := some (.plane conn) } }

section Connect

variable (hfresh : cfg.threads.lookup (.plane conn) = none) (hmu : cfg.shared.auth.mu = none)
  (hname : reg.username ≠ "")
  (hrecord : cfg.shared.auth.authorized reg.key cfg.shared.now = true)
  (hleased : cfg.shared.alloc.isLeased reg.vip = true)

include hfresh hmu hname hrecord hleased

theorem run_connect :
    run setup.next cfg (.spawn (.plane conn) (.plane reg .start) ::
        .step (.plane conn) .go :: .step (.plane conn) .go :: .step (.plane conn) .go :: actions) =
      run setup.next ⟨cfg.shared.lockedBy conn,
        cfg.threads.insert (.plane conn) (.plane reg (.claimOwner cfg.shared.now))⟩ actions := by
  have hspawn : setup.next cfg (.spawn (.plane conn) (.plane reg .start)) =
      some ⟨cfg.shared, cfg.threads.insert (.plane conn) (.plane reg .start)⟩ :=
    next_spawn.2 ⟨hfresh, rfl, rfl⟩
  have hauthorize : cfg.shared.auth.exec (.plane conn) cfg.shared.now
      (.authorize reg.key cfg.shared.now) =
        some ({ cfg.shared.auth with mu := some (.plane conn) }, true) := by
    rw [AuthTables.exec, if_pos hmu, AuthTables.authorize, if_pos hrecord]
  rw [run_cons, hspawn, Option.bind_some, run_plane rfl (exec_read.2 ⟨rfl, rfl⟩)]
  simp only [if_neg hname, Shared.read]
  rw [run_plane rfl (exec_auth.2 ⟨_, hauthorize, rfl⟩)]
  simp only [if_true]
  rw [run_plane rfl (exec_alloc.2 ⟨rfl, rfl⟩)]
  simp only [IPAllocator.exec, hleased, if_true]
  rfl

theorem plane_authorized (hplane : reg.plane = some plane)
    (hclaim : cfg.shared.auth.claimable reg.key reg.vip = true) :
    ∃ cfg', run setup.next cfg (connectRun conn reg 6) = some cfg' ∧
      cfg'.threads.lookup (.plane conn) = some (.plane reg .accept) := by
  simp only [connectRun, steps, List.replicate_succ, List.replicate_zero]
  rw [run_connect hfresh hmu hname hrecord hleased]
  have hheld : (cfg.shared.lockedBy conn).auth.mu = some (.plane conn) := rfl
  have hfree : (cfg.shared.lockedBy conn).auth.claimable reg.key reg.vip = true := hclaim
  generalize cfg.shared.lockedBy conn = locked at *
  generalize howned : locked.auth.claimOwner reg.key reg.vip cfg.shared.now = owned
  have hclaimed : owned.2 = true ∧ owned.1.mu = some (.plane conn) := by
    rw [← howned, claimOwner, if_pos hfree]
    exact ⟨rfl, hheld⟩
  have hclaimOwner : locked.auth.exec (.plane conn) locked.now
      (.claimOwner reg.key reg.vip cfg.shared.now) = some (owned.1, true) := by
    rw [AuthTables.exec, if_pos hheld, howned]
    exact congrArg some (Prod.ext rfl hclaimed.1)
  have hunlock : owned.1.exec (.plane conn) locked.now .unlock =
      some ({ owned.1 with mu := none }, ()) := if_pos hclaimed.2
  rw [run_plane rfl (exec_auth.2 ⟨_, hclaimOwner, rfl⟩)]
  simp only [if_true]
  rw [run_plane rfl (exec_alloc.2 ⟨rfl, rfl⟩), run_plane rfl (exec_auth.2 ⟨_, hunlock, rfl⟩)]
  simp only [if_true, PlanePC.accepted, hplane]
  exact ⟨_, rfl, lookup_insert _⟩

theorem claimable_of_authorized (hrun : run setup.next cfg (connectRun conn reg 6) = some cfg')
    (haccept : cfg'.threads.lookup (.plane conn) = some (.plane reg .accept)) :
    cfg.shared.auth.claimable reg.key reg.vip = true := by
  by_contra hclaim
  simp only [connectRun, steps, List.replicate_succ, List.replicate_zero] at hrun
  rw [run_connect hfresh hmu hname hrecord hleased] at hrun
  have hheld : (cfg.shared.lockedBy conn).auth.mu = some (.plane conn) := rfl
  have hrefused : ¬ (cfg.shared.lockedBy conn).auth.claimable reg.key reg.vip = true := hclaim
  generalize cfg.shared.lockedBy conn = locked at *
  have hclaimOwner : locked.auth.exec (.plane conn) locked.now
      (.claimOwner reg.key reg.vip cfg.shared.now) = some (locked.auth, false) := by
    rw [AuthTables.exec, if_pos hheld, AuthTables.claimOwner, if_neg hrefused]
  have hunlock : locked.auth.exec (.plane conn) locked.now .unlock =
      some ({ locked.auth with mu := none }, ()) := if_pos hheld
  rw [run_plane rfl (exec_auth.2 ⟨_, hclaimOwner, rfl⟩)] at hrun
  simp only [Bool.false_eq_true, if_false] at hrun
  rw [run_plane rfl (exec_auth.2 ⟨_, hunlock, rfl⟩)] at hrun
  simp only [Bool.false_eq_true, if_false] at hrun
  -- the last step closes the connection
  obtain ⟨cfg', hnext, hlast⟩ := run_cons_eq_some.1 hrun
  cases hlast
  obtain ⟨request, shared, result, hcontrol, -, rfl⟩ :=
    (next_own (lookup_insert _)).1 hnext
  cases hcontrol
  rw [lookup_insert] at haccept
  cases haccept

end Connect

end Hy2Link.Server
