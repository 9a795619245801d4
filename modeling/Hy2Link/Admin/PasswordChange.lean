import Hy2Link.Admin.Panel

/-! # What a password change revokes

`handleChangePassword` writes the new password, then deletes all sessions and
answers.  `handleLogin` verifies the password first and makes its session two
calls later; a login that has verified the old password can make its session
after the deletion.  Every session that is made before the deletion goes.
-/

namespace Hy2Link.Admin

open Interleaving Accounts SessionManager

variable {setup : PanelSetup}

/-- This step writes the password of the administrator. -/
def writesPassword (cfg : PanelConfig) : PanelAction → Bool
  | .step n _ =>
    match cfg.threads.lookup n with
    | some (.change (.change _ oldPwd _)) =>
      cfg.shared.users.cfg.adminPassword = hashPassword oldPwd
    | _ => false
  | .env (.store (.changeAdminPassword oldPwd _) _) =>
    cfg.shared.users.cfg.adminPassword = hashPassword oldPwd
  | .env (.store (.setAdminIfUninitialized _ _) _) => !cfg.shared.users.hasAdmin
  | _ => false

/-- After a change has been answered with success, and until the password is
written again, no token of a login with another password is accepted. -/
def ChangeRevokes (setup : PanelSetup) (actions : List PanelAction) : Prop :=
  ∀ front n disk middle before after cfg ip oldPwd newPwd,
    actions = front ++ .step n disk :: middle →
    run setup.next setup.initial front = some before →
    before.threads.lookup n = some (.change (.change ip oldPwd newPwd)) →
    setup.next before (.step n disk) = some after →
    Along setup.next (fun cfg action => writesPassword cfg action = false) after middle →
    run setup.next after middle = some cfg →
    cfg.threads.lookup n = some (.change (.changed newPwd)) →
    ∀ m username password token,
      cfg.threads.lookup m = some (.login (.loggedIn username password token)) →
      password ≠ newPwd →
      (cfg.shared.sessions.validate (some token) cfg.shared.now).2 = false

/-- The thread is a change to another password, answered and in force. -/
def PanelLocal.supersedes (users : Store) (password : String) : PanelLocal → Bool
  | .change (.changed newPwd) =>
    newPwd ≠ password && users.cfg.adminPassword = hashPassword newPwd
  | _ => false

/-- No login makes its session after a change to another password than the one
it has verified has been answered. -/
def issuesCurrent (cfg : PanelConfig) : PanelAction → Bool
  | .step n _ =>
    match cfg.threads.lookup n with
    | some (.login (.create _ password)) =>
      !cfg.threads.hasEntry fun _ l => l.supersedes cfg.shared.users password
    | _ => true
  | _ => true

/-! ## The stored password -/

theorem exec_adminPassword {s : Store}
    (hchange : ∀ oldPwd newPwd, op = .changeAdminPassword oldPwd newPwd →
      s.cfg.adminPassword ≠ hashPassword oldPwd)
    (hset : ∀ username password, op = .setAdminIfUninitialized username password →
      s.hasAdmin = true) : (s.exec upper disk op).1.cfg.adminPassword = s.cfg.adminPassword := by
  cases op with
  | setAdminIfUninitialized username password =>
    have hadmin : (s.cfg.adminUsername ≠ "" && s.cfg.adminPassword ≠ "") = true := hset _ _ rfl
    simp only [Store.exec, Store.setAdminIfUninitialized, hadmin, if_true]
  | changeAdminPassword oldPwd newPwd =>
    simp only [Store.exec, Store.changeAdminPassword, if_pos (hchange _ _ rfl)]
  | setGeoConfig mode countries blockPrivate =>
    simp only [Store.exec, Store.setGeoConfig]
    split
    · rfl
    · split
      · rfl
      · rw [Store.saveLocked_cfg]
  | setPerformanceConfig lowPerf logEnabled highPriority latencyMode =>
    simp only [Store.exec, Store.setPerformanceConfig, Store.saveLocked_cfg]
  | create u now => simp only [Store.exec, Store.create_cfg]
  | update username fn => simp only [Store.exec, Store.update_cfg]
  | delete username => simp only [Store.exec, Store.delete_cfg]
  | resetTraffic username => simp only [Store.exec, Store.resetTraffic_cfg]

theorem adminPassword_of_step (hstep : PanelStep setup.upper cfg action cfg')
    (hwrites : writesPassword cfg action = false) :
    cfg'.shared.users.cfg.adminPassword = cfg.shared.users.cfg.adminPassword := by
  cases hstep with
  | spawn hfresh hspawn => rfl
  | login hlocal hstep => cases hstep <;> rfl
  | change hlocal hstep =>
    cases hstep with
    | change =>
      simp only [writesPassword, hlocal, decide_eq_false_iff_not] at hwrites
      simp only [Store.changeAdminPassword, if_pos hwrites]
    | _ => rfl
  | @env e =>
    cases e with
    | store op disk =>
      refine exec_adminPassword ?_ ?_
      · rintro oldPwd newPwd rfl
        simpa [writesPassword] using hwrites
      · rintro username password rfl
        simpa [writesPassword] using hwrites
    | addTraffic username delta => exact congrArg Config.adminPassword Store.addTraffic_cfg
    | _ => rfl

/-! ## The sessions -/

/-- A step makes a session for a login, or leaves at most the sessions and the
tokens of logins that there were. -/
inductive SessionStep (cfg cfg' : PanelConfig) (action : PanelAction) : Prop
  | create (haction : action = .step n disk)
      (hlocal : cfg.threads.lookup n = some (.login (.create username password)))
      (hsessions : cfg'.shared.sessions = (cfg.shared.sessions.create cfg.shared.now).1)
      (hthreads : cfg'.threads = cfg.threads.insert n
        (.login (.loggedIn username password cfg.shared.sessions.nextToken)))
  | keep (hnext : cfg'.shared.sessions.nextToken = cfg.shared.sessions.nextToken)
      (hsessions : ∀ t, t ∈ cfg'.shared.sessions.sessions → t ∈ cfg.shared.sessions.sessions)
      (hthreads : ∀ m username password t,
        cfg'.threads.lookup m = some (.login (.loggedIn username password t)) →
          cfg.threads.lookup m = some (.login (.loggedIn username password t)))

theorem loggedIn_of_insert {threads : Table Nat PanelLocal}
    (hl : ∀ username password t, l ≠ .login (.loggedIn username password t)) (m : Nat)
    (username password : String) (t : Token)
    (h : (threads.insert n l).lookup m = some (.login (.loggedIn username password t))) :
    threads.lookup m = some (.login (.loggedIn username password t)) := by
  rcases lookup_insert_eq_some.1 h with ⟨-, heq⟩ | ⟨-, h⟩
  · exact absurd heq.symm (hl _ _ _)
  · exact h

theorem sessionStep_of_step (hstep : PanelStep setup.upper cfg action cfg') :
    SessionStep cfg cfg' action := by
  cases hstep with
  | spawn hfresh hspawn =>
    refine .keep rfl (fun _ h => h) (loggedIn_of_insert ?_)
    rintro username password t rfl
    cases hspawn
  | login hlocal hstep =>
    cases hstep with
    | create => exact .create rfl hlocal rfl rfl
    | _ => exact .keep rfl (fun _ h => h) (loggedIn_of_insert (by simp))
  | change hlocal hstep =>
    cases hstep with
    | unauthorized | authorized =>
      exact .keep validate_nextToken
        (fun _ h => mem_of_mem_validate h) (loggedIn_of_insert (by simp))
    | deleteAll =>
      exact .keep rfl (fun t h => absurd h Finmap.notMem_empty) (loggedIn_of_insert (by simp))
    | _ => exact .keep rfl (fun _ h => h) (loggedIn_of_insert (by simp))
  | @env e =>
    cases e with
    | validate token =>
      exact .keep validate_nextToken
        (fun _ h => mem_of_mem_validate h) (fun _ _ _ _ h => h)
    | logout token =>
      refine .keep ?_ (fun _ h => mem_of_mem_delete h) (fun _ _ _ _ h => h)
      cases token <;> rfl
    | cleanSessions =>
      exact .keep rfl (fun _ h => mem_of_mem_cleanup h) (fun _ _ _ _ h => h)
    | _ => exact .keep rfl (fun _ h => h) (fun _ _ _ _ h => h)

structure Numbered (cfg : PanelConfig) : Prop where
  sessions : ∀ t ∈ cfg.shared.sessions.sessions, t < cfg.shared.sessions.nextToken
  logins : ∀ m username password t,
    cfg.threads.lookup m = some (.login (.loggedIn username password t)) →
      t < cfg.shared.sessions.nextToken

theorem Numbered.next (h : Numbered cfg) (hnext : setup.next cfg action = some cfg') :
    Numbered cfg' := by
  cases sessionStep_of_step (panelStep_of_next hnext) with
  | create haction hlocal hsessions hthreads =>
    have hnew : cfg'.shared.sessions.nextToken = cfg.shared.sessions.nextToken + 1 := by
      rw [hsessions]
      rfl
    refine ⟨fun t ht => ?_, fun m username password t ht => ?_⟩
    · rw [hnew]
      rw [hsessions] at ht
      rcases Finmap.mem_insert.1 ht with rfl | ht
      · exact Nat.lt_succ_self _
      · exact Nat.lt_succ_of_lt (h.sessions t ht)
    · rw [hnew]
      rw [hthreads] at ht
      rcases lookup_insert_eq_some.1 ht with ⟨-, heq⟩ | ⟨-, ht⟩
      · cases heq
        exact Nat.lt_succ_self _
      · exact Nat.lt_succ_of_lt (h.logins m username password t ht)
  | keep hnew hsessions hthreads =>
    refine ⟨fun t ht => ?_, fun m username password t ht => ?_⟩
    · rw [hnew]
      exact h.sessions t (hsessions t ht)
    · rw [hnew]
      exact h.logins m username password t (hthreads m username password t ht)

theorem initial_numbered : Numbered setup.initial := by
  refine ⟨fun t ht => absurd ht Finmap.notMem_empty, fun m username password t ht => ?_⟩
  simp [PanelSetup.initial] at ht

/-! ## The change -/

/-- Every session of a login is one of a login with this password. -/
def IssuedFor (newPwd : String) (cfg : PanelConfig) : Prop :=
  ∀ m username password t,
    cfg.threads.lookup m = some (.login (.loggedIn username password t)) →
      t ∈ cfg.shared.sessions.sessions → password = newPwd

/-- Where the change can be after its write, and what holds there. -/
inductive ChangePC.AfterWrite (newPwd : String) (cfg : PanelConfig) : ChangePC → Prop
  | reset (hstored : cfg.shared.users.cfg.adminPassword = hashPassword newPwd) :
      AfterWrite newPwd cfg (.reset ip newPwd)
  | deleteAll (hstored : cfg.shared.users.cfg.adminPassword = hashPassword newPwd) :
      AfterWrite newPwd cfg (.deleteAll newPwd)
  | changed (hstored : cfg.shared.users.cfg.adminPassword = hashPassword newPwd)
      (hissued : IssuedFor newPwd cfg) : AfterWrite newPwd cfg (.changed newPwd)
  | recordFail : AfterWrite newPwd cfg (.recordFail ip err)
  | refused : AfterWrite newPwd cfg (.refused refusal)

/-- A session that is made now is one of a login with the password of the
change. -/
theorem IssuedFor.next (h : IssuedFor newPwd cfg) (hnumbered : Numbered cfg)
    (hstored : cfg.shared.users.cfg.adminPassword = hashPassword newPwd)
    (hlocal : cfg.threads.lookup n = some (.change (.changed newPwd)))
    (hok : issuesCurrent cfg action = true) (hnext : setup.next cfg action = some cfg') :
    IssuedFor newPwd cfg' := by
  intro m username password t ht hmem
  cases sessionStep_of_step (panelStep_of_next hnext) with
  | create haction hcreate hsessions hthreads =>
    rw [hthreads] at ht
    rw [hsessions] at hmem
    rcases lookup_insert_eq_some.1 ht with ⟨rfl, heq⟩ | ⟨-, ht⟩
    · -- the login that makes the session has not been overtaken by the change
      cases heq
      subst haction
      simp only [issuesCurrent, hcreate, Bool.not_eq_true', Bool.eq_false_iff, ne_eq,
        hasEntry_iff, not_exists, not_and] at hok
      by_contra hne
      refine hok n _ hlocal ?_
      simp [PanelLocal.supersedes, hstored, Ne.symm hne]
    · rcases Finmap.mem_insert.1 hmem with rfl | hmem
      · exact absurd (hnumbered.logins m username password _ ht) (lt_irrefl _)
      · exact h m username password t ht hmem
  | keep hnew hsessions hthreads =>
    exact h m username password t (hthreads m username password t ht) (hsessions t hmem)

structure Changing (newPwd : String) (n : Nat) (cfg : PanelConfig) : Prop where
  numbered : Numbered cfg
  thread : ∃ pc, cfg.threads.lookup n = some (.change pc) ∧ pc.AfterWrite newPwd cfg

theorem changeStep_of_next (hlocal : cfg.threads.lookup n = some (.change pc))
    (hnext : setup.next cfg (.step n disk) = some cfg') :
    ∃ s pc', ChangeStep disk cfg.shared pc s pc' ∧
      cfg' = ⟨s, cfg.threads.insert n (.change pc')⟩ := by
  cases panelStep_of_next hnext with
  | login hmine hstep => simp [hlocal] at hmine
  | change hmine hstep =>
    rw [hlocal, Option.some.injEq, PanelLocal.change.injEq] at hmine
    exact ⟨_, _, hmine ▸ hstep, rfl⟩

theorem changing_of_write (hnumbered : Numbered cfg)
    (hlocal : cfg.threads.lookup n = some (.change (.change ip oldPwd newPwd)))
    (hnext : setup.next cfg (.step n disk) = some cfg') : Changing newPwd n cfg' := by
  refine ⟨hnumbered.next hnext, ?_⟩
  obtain ⟨s, pc, hstep, rfl⟩ := changeStep_of_next hlocal hnext
  cases hstep with
  | change =>
    refine ⟨_, Finmap.lookup_insert _, ?_⟩
    unfold Store.changeAdminPassword
    split
    · exact .recordFail
    · cases disk with
      | saved => exact .reset rfl
      | _ => exact .recordFail

theorem ChangePC.AfterWrite.step (h : pc.AfterWrite newPwd cfg)
    (hlocal : cfg.threads.lookup n = some (.change pc))
    (hnext : setup.next cfg (.step n disk) = some cfg') :
    ∃ pc', cfg'.threads.lookup n = some (.change pc') ∧ pc'.AfterWrite newPwd cfg' := by
  obtain ⟨s, pc', hstep, rfl⟩ := changeStep_of_next hlocal hnext
  refine ⟨pc', Finmap.lookup_insert _, ?_⟩
  cases h with
  | reset hstored =>
    cases hstep
    exact .deleteAll hstored
  | deleteAll hstored =>
    cases hstep
    exact .changed hstored fun _ _ _ _ _ hmem => absurd hmem Finmap.notMem_empty
  | recordFail =>
    cases hstep
    exact .refused
  | changed | refused => cases hstep

/-- Until it is answered, a change of the password keeps what it has achieved. -/
theorem Changing.next (h : Changing newPwd n cfg) (hok : issuesCurrent cfg action = true)
    (hwrites : writesPassword cfg action = false) (hnext : setup.next cfg action = some cfg') :
    Changing newPwd n cfg' := by
  obtain ⟨pc, hlocal, hpc⟩ := h.thread
  refine ⟨h.numbered.next hnext, ?_⟩
  by_cases hmine : ∃ disk, action = .step n disk
  · obtain ⟨disk, rfl⟩ := hmine
    exact hpc.step hlocal hnext
  · refine ⟨pc, next_other hlocal (not_exists.1 hmine) hnext, ?_⟩
    have hstored := adminPassword_of_step (panelStep_of_next hnext) hwrites
    cases hpc with
    | reset h => exact .reset (hstored.trans h)
    | deleteAll h => exact .deleteAll (hstored.trans h)
    | changed hold hissued =>
      exact .changed (hstored.trans hold) (hissued.next h.numbered hold hlocal hok hnext)
    | recordFail => exact .recordFail
    | refused => exact .refused

/-- When a change of the password is answered, no session that was created with
another password is valid, provided that no login creates its session after a change
has replaced the password it was checked against. -/
theorem change_revokes {actions : List PanelAction}
    (hok : Along setup.next (fun cfg action => issuesCurrent cfg action = true) setup.initial
      actions) :
    ChangeRevokes setup actions := by
  intro front n disk middle before after cfg ip oldPwd newPwd hactions hfront hwrite hnext
    hquiet hmiddle hchanged m username password token hlogin hne
  subst hactions
  have hbefore : Numbered before :=
    run_stable (fun _ _ _ h hstep => h.next hstep) initial_numbered hfront
  have hafter : Changing newPwd n after := changing_of_write hbefore hwrite hnext
  -- from the write on, neither the password nor the condition is lost
  have hmid := ((along_append.1 hok).2 before hfront).2 after hnext
  have hcfg : Changing newPwd n cfg :=
    run_invariant (fun _ _ _ h hok hstep => h.next hok.1 hok.2 hstep) hafter (hmid.and hquiet)
      hmiddle
  obtain ⟨pc, hlocal, hpc⟩ := hcfg.thread
  rw [hchanged, Option.some.injEq, PanelLocal.change.injEq] at hlocal
  subst hlocal
  cases hpc with
  | changed hstored hissued =>
    exact validate_of_not_mem fun hmem =>
      hne (hissued m username password token hlogin hmem)

/-! ## The race -/

/-- Login 1 has a session, and change 2 uses it up to its write. -/
def changeRun : List PanelAction :=
  panelLogin 1 5 "root" "old-password" ++
    .spawn 2 (.change (.auth (some 0)
      ⟨"POST", "192.0.2.7", some ("old-password", "new-password")⟩)) :: panelSteps 2 2

/-- Without other logins the change revokes the session it was made with. -/
theorem change_revokes_session :
    ((run rootPanel.next rootPanel.initial (changeRun ++ panelSteps 2 3)).any fun cfg =>
      cfg.threads.lookup 2 = some (.change (.changed "new-password"))) = true ∧
    ChangeRevokes rootPanel (changeRun ++ panelSteps 2 3) :=
  ⟨by decide +kernel, change_revokes (by decide +kernel)⟩

/-- Login 0 verifies the old password before the change and makes its session
after it. -/
theorem login_survives_change :
    ¬ ChangeRevokes rootPanel
      ((panelLogin 0 3 "root" "old-password" ++ changeRun) ++
        .step 2 .saved :: (panelSteps 2 2 ++ panelSteps 0 2)) := by
  intro h
  have hrun : ((run rootPanel.next rootPanel.initial
      (panelLogin 0 3 "root" "old-password" ++ changeRun)).any fun before =>
        (before.threads.lookup 2 =
          some (.change (.change "192.0.2.7" "old-password" "new-password"))) &&
        (rootPanel.next before (.step 2 .saved)).any fun after =>
          decide (Along rootPanel.next (fun cfg action => writesPassword cfg action = false) after
            (panelSteps 2 2 ++ panelSteps 0 2)) &&
          (run rootPanel.next after (panelSteps 2 2 ++ panelSteps 0 2)).any fun cfg =>
            (cfg.threads.lookup 2 = some (.change (.changed "new-password"))) &&
            (cfg.threads.lookup 0 = some (.login (.loggedIn "root" "old-password" 1))) &&
            (cfg.shared.sessions.validate (some 1) cfg.shared.now).2) = true := by
    decide +kernel
  simp only [Option.any_eq_true, Bool.and_eq_true, decide_eq_true_eq] at hrun
  obtain ⟨before, hbefore, hwrite, after, hafter, hquiet, cfg, hcfg, ⟨hchanged, hlogin⟩, hvalid⟩ :=
    hrun
  have hrefused := h _ _ _ _ _ _ _ _ _ _ rfl hbefore hwrite hafter hquiet hcfg hchanged _ _ _ _
    hlogin (by decide)
  simp [hvalid] at hrefused

end Hy2Link.Admin
