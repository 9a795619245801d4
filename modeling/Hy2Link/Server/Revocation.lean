import Hy2Link.Server.Transitions

/-! # Barred accounts and data planes

A login reads the account and leaves a record.  `AuthorizeDataPlane` reads the
record and never the account; the record lives for ten minutes and every
registration renews it.  An account that is disabled, deleted, expired or out
of traffic is therefore still admitted on the data plane while a record of it
is left.

`authorized_while_usable` holds for the runs in which an account is barred
only when no record, login or authorization of it is under way.
-/

namespace Hy2Link.Server

open Interleaving AuthTables Local

/-- A call of `AuthorizeDataPlane` by the handler of `conn`: it is made in the
state `made`, the rest of the run is `rest`, and in the state `returned` it is
about to return with ok. -/
structure Granted (setup : Setup) (front rest : List ServerAction) (conn : ConnId)
    (choice : Choice) (reg : Registration) (made returned : ServerConfig) : Prop where
  before : run setup.next setup.initial front = some made
  call : made.threads.lookup (.plane conn) = some (.plane reg .start)
  after : run setup.next made (.step (.plane conn) choice :: rest) = some returned
  ok : returned.threads.lookup (.plane conn) = some (.plane reg (.unlock true))

def barredIn (cfg : ServerConfig) (username : String) : Bool :=
  cfg.shared.users.barred username cfg.shared.now

/-! ## Runs that bar idle accounts only -/

/-- The login key whose account a thread has found usable and goes on with. -/
def Local.relies (s : Shared) : Local → Option SessionKey
  | .plane reg (.authorize at_) => if s.auth.authorized reg.key at_ then some reg.key else none
  | .plane reg (.isLeased _) => some reg.key
  | .plane reg (.claimOwner _) => some reg.key
  | .plane reg .markActive => some reg.key
  | .plane reg (.unlock true) => some reg.key
  | .login (.checkUser ip username user) =>
    if user.expired s.now || user.overQuota then none else some ⟨ip, username⟩
  | .login (.succeed ip username) => some ⟨ip, username⟩
  | .login (.register ip username) => some ⟨ip, username⟩
  | _ => none

def Local.seeks : Local → Option SessionKey
  | .plane reg (.authorize _) => some reg.key
  | _ => none

/-- The accounts that are in use stay usable with these users at this time. -/
structure Spares (cfg : ServerConfig) (users : Store) (now : Time) : Prop where
  record : ∀ key expireAt, cfg.shared.auth.authorizedKeys.lookup key = some expireAt →
    cfg.shared.now ≤ expireAt → users.barred key.username now = false
  thread : ∀ t l, cfg.threads.lookup t = some l →
    ∀ key ∈ l.relies cfg.shared, users.barred key.username now = false

instance (cfg : ServerConfig) (users : Store) (now : Time) : Decidable (Spares cfg users now) :=
  decidable_of_iff
    ((∀ key expireAt, cfg.shared.auth.authorizedKeys.lookup key = some expireAt →
        cfg.shared.now ≤ expireAt → users.barred key.username now = false) ∧
      ∀ t l, cfg.threads.lookup t = some l →
        ∀ key ∈ l.relies cfg.shared, users.barred key.username now = false)
    ⟨fun h => ⟨h.1, h.2⟩, fun h => ⟨h.record, h.thread⟩⟩

/-- The key whose record a step enters or renews. -/
def renews (cfg : ServerConfig) : ServerAction → Option SessionKey
  | .step t _ =>
    match cfg.threads.lookup t with
    | some (.plane reg (.claimOwner _)) => some reg.key
    | some (.login (.register ip username)) => some ⟨ip, username⟩
    | _ => none
  | _ => none

/-- Neither the passage of time nor a change of the store bars an account that
is in use, and a login does not leave its record behind while a call for the
same key is about to look for it. -/
def revokesIdle (cfg : ServerConfig) : ServerAction → Bool
  | .env (.tick elapsed) => Spares cfg cfg.shared.users (cfg.shared.now + elapsed)
  | .env (.store event) => Spares cfg (cfg.shared.users.apply event) cfg.shared.now
  | .step (.login n) choice =>
    ∀ t l, cfg.threads.lookup t = some l →
      ∀ key ∈ renews cfg (.step (.login n) choice), l.seeks ≠ some key
  | _ => true

/-! ## What a step does to records and to the threads that rely on them -/

theorem HandlerStep.record (h : HandlerStep conn reg choice s pc s' pc')
    (hrecord : s'.auth.authorizedKeys.lookup key = some expireAt) :
    s.auth.authorizedKeys.lookup key = some expireAt ∨
      (∃ now, pc = .claimOwner now) ∧ reg.key = key := by
  cases h with
  | unauthorized hmu hno => exact .inl (lookup_erase_eq_some.1 hrecord).2
  | @claimed now hmu hclaim =>
    rw [claimOwner, if_pos hclaim] at hrecord
    rcases lookup_insert_eq_some.1 hrecord with ⟨rfl, -⟩ | ⟨-, hold⟩
    · exact .inr ⟨⟨now, rfl⟩, rfl⟩
    · exact .inl hold
  | releaseSession hmu =>
    rw [releaseSession_authorizedKeys] at hrecord
    exact .inl hrecord
  | _ => exact .inl hrecord

theorem LoginStep.record (h : LoginStep gate s pc s' pc')
    (hrecord : s'.auth.authorizedKeys.lookup key = some expireAt) :
    s.auth.authorizedKeys.lookup key = some expireAt ∨
      pc = .register key.peerIP key.username := by
  cases h with
  | register hmu =>
    rcases lookup_insert_eq_some.1 hrecord with ⟨rfl, -⟩ | ⟨-, hold⟩
    · exact .inr rfl
    · exact .inl hold
  | banned hmu | malformed hmu hread | credential hmu hread =>
    rw [isBanned_authorizedKeys] at hrecord
    exact .inl hrecord
  | fail hmu =>
    rw [recordFailure_authorizedKeys] at hrecord
    exact .inl hrecord
  | _ => exact .inl hrecord

/-- A thread that a handler's step makes rely on a record relied on it before,
or has just found that it has not expired. -/
theorem HandlerStep.relies (h : HandlerStep conn reg choice s pc s' pc')
    (hrelies : (plane reg pc').relies s' = some key) :
    (plane reg pc).relies s = some key ∨
      key = reg.key ∧ s.auth.authorized key s.now = true := by
  cases h with
  | clock hname =>
    simp only [Local.relies, Option.ite_none_right_eq_some, Option.some.injEq] at hrelies
    obtain ⟨hok, rfl⟩ := hrelies
    exact .inr ⟨rfl, hok⟩
  | authorized hmu hok =>
    refine .inl ?_
    rw [Local.relies, if_pos hok]
    exact hrelies
  | unlock hmu =>
    split at hrelies
    · unfold PlanePC.accepted at hrelies
      split at hrelies <;> cases hrelies
    · cases hrelies
  | accept hgo hopen =>
    unfold PlanePC.streamsOpen at hrelies
    split at hrelies <;> cases hrelies
  | @snapshotStale stale =>
    cases hconns : s.data.snapshot stale <;> rw [hconns] at hrelies <;> cases hrelies
  | @closeStale _ rest | @closing _ _ rest => cases rest <;> cases hrelies
  | @snapshot cs =>
    cases hconns : s.data.snapshot cs <;> rw [hconns] at hrelies <;> cases hrelies
  | _ =>
    first
    | exact .inl hrelies
    | cases hrelies

theorem LoginStep.relies (h : LoginStep gate s pc s' pc')
    (hrelies : (login pc').relies s' = some key) :
    (login pc).relies s = some key ∨ s'.users.barred key.username s'.now = false := by
  cases h with
  | @userFound ip username password user huser henabled hpassword =>
    simp only [Local.relies, Option.ite_none_left_eq_some, Option.some.injEq] at hrelies
    obtain ⟨hok, rfl⟩ := hrelies
    refine .inr ?_
    rw [Bool.not_eq_true, Bool.or_eq_false_iff] at hok
    simp only [Store.barred, huser, User.barred, henabled, hok.1, hok.2, Bool.not_true,
      Bool.or_self]
  | usable hexpired hquota =>
    refine .inl ?_
    rw [Local.relies, hexpired, hquota]
    exact hrelies
  | _ =>
    first
    | exact .inl hrelies
    | cases hrelies

theorem Local.relies_earlier (hnow : s.now ≤ s'.now) {l : Local}
    (hrelies : l.relies s' = some key) :
    l.relies s = some key ∨ ∃ expireAt, s'.auth.authorizedKeys.lookup key = some expireAt ∧
      s.auth.authorizedKeys.lookup key ≠ some expireAt := by
  unfold relies at hrelies ⊢
  split at hrelies
  next reg at_ =>
    simp only [Option.ite_none_right_eq_some, Option.some.injEq] at hrelies ⊢
    obtain ⟨hok, rfl⟩ := hrelies
    obtain ⟨expireAt, hrecord, hle⟩ := authorized_iff.1 hok
    by_cases hold : s.auth.authorizedKeys.lookup reg.key = some expireAt
    · exact .inl ⟨authorized_iff.2 ⟨expireAt, hold, hle⟩, rfl⟩
    · exact .inr ⟨expireAt, hrecord, hold⟩
  case h_6 ip username user =>
    simp only [Option.ite_none_left_eq_some, Option.some.injEq, Bool.not_eq_true,
      Bool.or_eq_false_iff] at hrelies ⊢
    exact .inl ⟨⟨User.expired_mono hnow hrelies.1.1, hrelies.1.2⟩, hrelies.2⟩
  all_goals exact .inl hrelies

theorem record_of_environment (henv : environment s e = some s')
    (hrecord : s'.auth.authorizedKeys.lookup key = some expireAt) :
    s.auth.authorizedKeys.lookup key = some expireAt := by
  cases e with
  | sweepKey k =>
    simp only [environment, Option.ite_none_right_eq_some] at henv
    cases henv.2
    exact sweepKey_record hrecord
  | sweepBan ip =>
    simp only [environment, Option.ite_none_right_eq_some] at henv
    cases henv.2
    simpa [sweepBan] using hrecord
  | sweepOwner vip =>
    simp only [environment, Option.ite_none_right_eq_some] at henv
    cases henv.2
    simpa using hrecord
  | reap at_ order | sweepPeer vip at_ =>
    simp only [environment, Option.ite_none_right_eq_some] at henv
    cases henv.2
    exact hrecord
  | _ =>
    cases henv
    exact hrecord

theorem now_of_environment (henv : environment s e = some s') : s.now ≤ s'.now := by
  cases e with
  | tick elapsed =>
    cases henv
    exact Nat.le_add_right _ _
  | closeConn conn | enableP2P enabled | store event =>
    cases henv
    exact le_rfl
  | _ =>
    simp only [environment, Option.ite_none_right_eq_some] at henv
    cases henv.2
    exact le_rfl

theorem now_le_of_step (hstep : ServerStep gate cfg action cfg') :
    cfg.shared.now ≤ cfg'.shared.now := by
  cases action with
  | spawn t l =>
    cases hstep
    exact le_rfl
  | env e =>
    cases hstep with
    | env henv => exact now_of_environment henv
  | step t choice =>
    obtain ⟨area, -, hframe⟩ := frame_of_step hstep
    exact hframe.now.ge

theorem record_of_step (hstep : ServerStep gate cfg action cfg')
    (hrecord : cfg'.shared.auth.authorizedKeys.lookup key = some expireAt) :
    cfg.shared.auth.authorizedKeys.lookup key = some expireAt ∨ renews cfg action = some key := by
  have hother : ∀ t choice, action = .step t choice → .auth ∉ t.areas →
      cfg.shared.auth.authorizedKeys.lookup key = some expireAt := by
    rintro t choice rfl hauth
    obtain ⟨area, harea, hframe⟩ := frame_of_step hstep
    rw [hframe.auth (fun heq => hauth (heq ▸ harea))] at hrecord
    exact hrecord
  cases hstep with
  | spawn hfresh hspawn => exact .inl hrecord
  | env henv => exact .inl (record_of_environment henv hrecord)
  | plane hlocal hcontrol hexec =>
    rcases (handlerStep_of_exec hcontrol hexec).record hrecord with hold | ⟨⟨now, rfl⟩, rfl⟩
    · exact .inl hold
    · exact .inr (by rw [renews, hlocal])
  | login hlocal hcontrol hexec =>
    rcases (loginStep_of_exec hcontrol hexec).record hrecord with hold | rfl
    · exact .inl hold
    · exact .inr (by rw [renews, hlocal])
  | _ => exact .inl (hother _ _ rfl (by simp [Thread.areas]))

inductive Reliance (cfg cfg' : ServerConfig) (action : ServerAction) (t : Thread)
    (key : SessionKey) : Prop
  | before (hlocal : cfg.threads.lookup t = some l)
      (hrelies : l.relies cfg.shared = some key)
  | renewed (hrenews : renews cfg action = some key)
  | recorded (hok : cfg.shared.auth.authorized key cfg.shared.now = true)
  | found (hlogin : ∃ n, t = .login n)
      (husable : cfg'.shared.users.barred key.username cfg'.shared.now = false)

theorem reliance_of_step (hstep : ServerStep gate cfg action cfg') {l : Local}
    (hlocal : cfg'.threads.lookup t = some l) (hrelies : l.relies cfg'.shared = some key) :
    Reliance cfg cfg' action t key := by
  have hkeep : cfg.threads.lookup t = some l → Reliance cfg cfg' action t key := by
    intro hold
    rcases relies_earlier (now_le_of_step hstep) hrelies with hrelied | ⟨expireAt, hnew, hne⟩
    · exact .before hold hrelied
    · exact .renewed ((record_of_step hstep hnew).resolve_left hne)
  cases hstep with
  | env henv => exact hkeep hlocal
  | spawn hfresh hspawn =>
    rcases lookup_insert_eq_some.1 hlocal with ⟨rfl, rfl⟩ | ⟨-, hold⟩
    · -- a thread starts at a point that relies on nothing
      unfold relies at hrelies
      split at hrelies <;> first | (cases t <;> cases hspawn) | cases hrelies
    · exact hkeep hold
  | plane hmine hcontrol hexec =>
    rcases lookup_insert_eq_some.1 hlocal with ⟨rfl, rfl⟩ | ⟨-, hold⟩
    · rcases (handlerStep_of_exec hcontrol hexec).relies hrelies with hrelied | ⟨-, hok⟩
      · exact .before hmine hrelied
      · exact .recorded hok
    · exact hkeep hold
  | login hmine hcontrol hexec =>
    rcases lookup_insert_eq_some.1 hlocal with ⟨rfl, rfl⟩ | ⟨-, hold⟩
    · rcases (loginStep_of_exec hcontrol hexec).relies hrelies with hrelied | hfound
      · exact .before hmine hrelied
      · exact .found ⟨_, rfl⟩ hfound
    · exact hkeep hold
  | _ =>
    rcases lookup_insert_eq_some.1 hlocal with ⟨rfl, rfl⟩ | ⟨-, hold⟩
    · cases hrelies
    · exact hkeep hold

theorem relies_of_renews (hstep : ServerStep gate cfg action cfg')
    (h : renews cfg action = some key) :
    ∃ t choice l, action = .step t choice ∧ ((∃ conn, t = .plane conn) ∨ ∃ n, t = .login n) ∧
      cfg.threads.lookup t = some l ∧ l.relies cfg.shared = some key := by
  cases hstep with
  | spawn | env => cases h
  | @plane conn choice reg pc request shared result hlocal hcontrol hexec =>
    refine ⟨_, choice, _, rfl, .inl ⟨conn, rfl⟩, hlocal, ?_⟩
    simp only [renews, hlocal] at h
    cases pc with
    | claimOwner now => exact h
    | _ => cases h
  | @login n choice pc request shared result hlocal hcontrol hexec =>
    refine ⟨_, choice, _, rfl, .inr ⟨n, rfl⟩, hlocal, ?_⟩
    simp only [renews, hlocal] at h
    cases pc with
    | register ip username => exact h
    | _ => cases h
  | signal hlocal hcontrol hexec | datagrams hlocal hcontrol hexec | dhcp hlocal hcontrol hexec
  | push hlocal hcontrol hexec =>
    simp [renews, hlocal] at h

/-! ## Accounts in use stay usable -/

/-- The accounts in use are usable after the step, by the condition on it. -/
theorem Spares.after (h : Spares cfg cfg.shared.users cfg.shared.now)
    (hok : revokesIdle cfg action = true) (hstep : ServerStep gate cfg action cfg') :
    Spares cfg cfg'.shared.users cfg'.shared.now := by
  cases action with
  | spawn t l =>
    cases hstep
    exact h
  | step t choice =>
    obtain ⟨area, -, hframe⟩ := frame_of_step hstep
    rw [hframe.now, hframe.users]
    exact h
  | env e =>
    cases hstep with
    | env henv =>
      cases e with
      | tick elapsed | store event =>
        cases henv
        exact of_decide_eq_true hok
      | closeConn conn | enableP2P enabled =>
        cases henv
        exact h
      | _ =>
        simp only [environment, Option.ite_none_right_eq_some] at henv
        cases henv.2
        exact h

theorem Spares.step (h : Spares cfg cfg.shared.users cfg.shared.now)
    (hok : revokesIdle cfg action = true) (hstep : ServerStep gate cfg action cfg') :
    Spares cfg' cfg'.shared.users cfg'.shared.now := by
  have hafter := h.after hok hstep
  have hrenewed : ∀ key, renews cfg action = some key →
      cfg'.shared.users.barred key.username cfg'.shared.now = false := by
    intro key hrenews
    obtain ⟨t, choice, l, -, -, hlocal, hrelies⟩ := relies_of_renews hstep hrenews
    exact hafter.thread t l hlocal key hrelies
  refine ⟨fun key expireAt hrecord hle => ?_, fun t l hlocal key hrelies => ?_⟩
  · rcases record_of_step hstep hrecord with hold | hrenews
    · exact hafter.record key expireAt hold ((now_le_of_step hstep).trans hle)
    · exact hrenewed key hrenews
  · cases reliance_of_step hstep hlocal hrelies with
    | before hold hrelied => exact hafter.thread t _ hold key hrelied
    | renewed hrenews => exact hrenewed key hrenews
    | recorded hfound =>
      obtain ⟨expireAt, hrecord, hle⟩ := authorized_iff.1 hfound
      exact hafter.record key expireAt hrecord hle
    | found hlogin husable => exact husable

theorem Setup.initial_spares (setup : Setup) :
    Spares setup.initial setup.users setup.now := by
  refine ⟨fun key expireAt hrecord => ?_, fun t l hlocal => ?_⟩
  · simp [Setup.initial, empty] at hrecord
  · simp [Setup.initial] at hlocal

/-! ## A call made for a barred account is refused -/

/-- No record of the key is left and no call can renew one. -/
structure Unrecorded (cfg : ServerConfig) (key : SessionKey) : Prop where
  record : ∀ expireAt, cfg.shared.auth.authorizedKeys.lookup key = some expireAt →
    expireAt < cfg.shared.now
  thread : ∀ conn l, cfg.threads.lookup (.plane conn) = some l → l.relies cfg.shared ≠ some key

theorem Unrecorded.step (h : Unrecorded cfg key)
    (hlogin : ∀ n choice, action = .step (.login n) choice → renews cfg action ≠ some key)
    (hstep : ServerStep gate cfg action cfg') : Unrecorded cfg' key := by
  have hrenews : renews cfg action ≠ some key := by
    intro hrenews
    obtain ⟨t, choice, l, rfl, ⟨conn, rfl⟩ | ⟨n, rfl⟩, hlocal, hrelies⟩ :=
      relies_of_renews hstep hrenews
    · exact h.thread conn l hlocal hrelies
    · exact hlogin n choice rfl hrenews
  refine ⟨fun expireAt hrecord => ?_, fun conn l hlocal hrelies => ?_⟩
  · have hold := (record_of_step hstep hrecord).resolve_right hrenews
    exact (h.record expireAt hold).trans_le (now_le_of_step hstep)
  · cases reliance_of_step hstep hlocal hrelies with
    | before hold hrelied => exact h.thread conn _ hold hrelied
    | renewed hnew => exact hrenews hnew
    | recorded hfound =>
      obtain ⟨expireAt, hrecord, hle⟩ := authorized_iff.1 hfound
      exact absurd hle (Nat.not_le_of_lt (h.record expireAt hrecord))
    | found hlogin husable =>
      obtain ⟨n, heq⟩ := hlogin
      cases heq

def Refused (cfg : ServerConfig) (conn : ConnId) (reg : Registration) : Prop :=
  ∃ pc, cfg.threads.lookup (.plane conn) = some (.plane reg pc) ∧
    ((∃ now, pc = .authorize now) ∧ Unrecorded cfg reg.key ∨ pc = .reject ∨ ∃ cs, pc = .done cs)

/-- A handler that will find no record stays refused. -/
theorem Refused.step (h : Refused cfg conn reg) (hok : revokesIdle cfg action = true)
    (hstep : ServerStep gate cfg action cfg') : Refused cfg' conn reg := by
  obtain ⟨pc, hlocal, hpc⟩ := h
  have hlogin : ∀ now, pc = .authorize now → ∀ n choice, action = .step (.login n) choice →
      renews cfg action ≠ some reg.key := by
    rintro now rfl n choice rfl hrenews
    exact of_decide_eq_true hok _ _ hlocal reg.key hrenews rfl
  rcases handler_of_step hstep hlocal with hstay | ⟨choice, pc', rfl, hmoved, hedge⟩
  · refine ⟨pc, hstay, ?_⟩
    rcases hpc with ⟨⟨now, rfl⟩, hnone⟩ | hpc
    · exact .inl ⟨⟨now, rfl⟩, hnone.step (hlogin now rfl) hstep⟩
    · exact .inr hpc
  · refine ⟨pc', hmoved, ?_⟩
    generalize cfg'.shared = s' at hedge
    rcases hpc with ⟨⟨now, rfl⟩, hnone⟩ | rfl | ⟨cs, rfl⟩
    · cases hedge with
      | authorized hmu hrecord =>
        refine absurd ?_ (hnone.thread conn _ hlocal)
        rw [relies, if_pos hrecord]
      | unauthorized hmu hrecord => exact .inr (.inl rfl)
    · cases hedge
      exact .inr (.inr ⟨none, rfl⟩)
    · cases hedge

theorem Unrecorded.refused (h : Unrecorded cfg reg.key)
    (hlocal : cfg.threads.lookup (.plane conn) = some (.plane reg .start))
    (hstep : ServerStep gate cfg (.step (.plane conn) choice) cfg') : Refused cfg' conn reg := by
  have hnone := h.step (fun n choice heq => by cases heq) hstep
  obtain ⟨reg', pc, pc', hmine, hthreads, hedge⟩ := plane_of_step hstep
  rw [hlocal] at hmine
  cases hmine
  refine ⟨pc', by rw [hthreads, Finmap.lookup_insert], ?_⟩
  generalize cfg'.shared = s' at hedge
  cases hedge with
  | anonymous hname => exact .inr (.inl rfl)
  | clock hname => exact .inl ⟨⟨_, rfl⟩, hnone⟩

/-- In every run that bars idle accounts only, a call of `AuthorizeDataPlane`
that returns ok is made while its account is usable, and returns while it is. -/
theorem authorized_while_usable (setup : Setup) (front rest : List ServerAction) (conn : ConnId)
    (choice : Choice) (reg : Registration) (made returned : ServerConfig)
    (hsteps : Along setup.next (fun cfg action => revokesIdle cfg action = true) setup.initial
      (front ++ .step (.plane conn) choice :: rest))
    (hcall : Granted setup front rest conn choice reg made returned) :
    barredIn made reg.username = false ∧ barredIn returned reg.username = false := by
  obtain ⟨hfront, hrest⟩ := along_append.1 hsteps
  have hkept : ∀ cfg action cfg', Spares cfg cfg.shared.users cfg.shared.now →
      revokesIdle cfg action = true → setup.next cfg action = some cfg' →
      Spares cfg' cfg'.shared.users cfg'.shared.now :=
    fun cfg action cfg' h hok hnext => h.step hok (serverStep_of_next hnext)
  have hmade := run_invariant hkept setup.initial_spares hfront hcall.before
  have hreturned := run_invariant hkept hmade (hrest made hcall.before) hcall.after
  refine ⟨Bool.eq_false_iff.2 fun hbarred => ?_, hreturned.thread _ _ hcall.ok reg.key rfl⟩
  -- no record is left when the call is made, and none is entered before it looks
  have hnone : Unrecorded made reg.key := by
    refine ⟨fun expireAt hrecord => ?_, fun c l hlocal hrelies => ?_⟩
    · by_contra hle
      have husable := hmade.record reg.key expireAt hrecord (Nat.le_of_not_lt hle)
      exact Bool.eq_false_iff.1 husable hbarred
    · exact Bool.eq_false_iff.1 (hmade.thread _ l hlocal reg.key hrelies) hbarred
  obtain ⟨entered, hentered, hafter⟩ := run_cons_eq_some.1 hcall.after
  have hrefused : Refused returned conn reg := by
    refine run_invariant (fun cfg action cfg' h hok hnext => Refused.step h hok
      (serverStep_of_next hnext)) ?_ ((hrest made hcall.before).2 entered hentered) hafter
    exact hnone.refused hcall.call (serverStep_of_next hentered)
  obtain ⟨pc, hlocal, hpc⟩ := hrefused
  rw [hcall.ok] at hlocal
  cases hlocal
  rcases hpc with ⟨⟨now, heq⟩, -⟩ | heq | ⟨cs, heq⟩ <;> cases heq

/-! ## An account that is disabled after its login -/

/-- Ann logs in and gets an address; then her account is disabled, and her data
connection comes. -/
def disabledRun : List ServerAction :=
  loginRun 0 annData.peerIP "ann:pw" ++ requestRun 0 annData.key "dev" ++
    [.env (.store (.update "ann" ⟨"", false, 0, none⟩)), .spawn (.plane 1) (.plane annData .start)]

/-- The record of the login admits the data plane of a disabled account. -/
theorem disabled_account_authorized :
    ¬ ∀ (setup : Setup) front rest conn choice reg made returned,
      Granted setup front rest conn choice reg made returned →
        barredIn made reg.username = false ∨ barredIn returned reg.username = false := by
  intro h
  obtain ⟨made, hbefore, hcall, hbarred, returned, hafter, hok, hbarred'⟩ : ∃ made,
      run smallSetup.next smallSetup.initial disabledRun = some made ∧
      made.threads.lookup (.plane 1) = some (.plane annData .start) ∧
      barredIn made "ann" = true ∧
      ∃ returned, run smallSetup.next made (.step (.plane 1) .go :: steps (.plane 1) 4) =
          some returned ∧
        returned.threads.lookup (.plane 1) = some (.plane annData (.unlock true)) ∧
        barredIn returned "ann" = true := by
    decide +kernel
  rcases h smallSetup disabledRun _ 1 .go annData made returned ⟨hbefore, hcall, hafter, hok⟩
    with husable | husable
  · exact Bool.eq_false_iff.1 husable hbarred
  · exact Bool.eq_false_iff.1 husable hbarred'

def enabledRun : List ServerAction :=
  loginRun 0 annData.peerIP "ann:pw" ++ requestRun 0 annData.key "dev" ++
    [.env (.store (.update "bob" ⟨"", false, 0, none⟩)), .spawn (.plane 1) (.plane annData .start)]

theorem enabled_account_authorized :
    ∃ made returned,
      Granted smallSetup enabledRun (steps (.plane 1) 4) 1 .go annData made returned ∧
      barredIn made "ann" = false ∧ barredIn returned "ann" = false := by
  obtain ⟨made, hbefore, hcall, returned, hafter, hok⟩ : ∃ made,
      run smallSetup.next smallSetup.initial enabledRun = some made ∧
      made.threads.lookup (.plane 1) = some (.plane annData .start) ∧
      ∃ returned, run smallSetup.next made (.step (.plane 1) .go :: steps (.plane 1) 4) =
          some returned ∧
        returned.threads.lookup (.plane 1) = some (.plane annData (.unlock true)) := by
    decide +kernel
  have hgranted : Granted smallSetup enabledRun (steps (.plane 1) 4) 1 .go annData made returned :=
    ⟨hbefore, hcall, hafter, hok⟩
  exact ⟨made, returned, hgranted,
    authorized_while_usable smallSetup enabledRun _ 1 .go annData made returned
      (by decide +kernel) hgranted⟩

end Hy2Link.Server
