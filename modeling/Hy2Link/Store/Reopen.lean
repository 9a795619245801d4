import Hy2Link.Store.Flush

/-! # The store as the server and the next start see it

The handlers of the server look at the accounts of the store, whatever the
disk does.  A server that is started again has the file alone.
-/

namespace Hy2Link.Accounts

open Interleaving Store

/-! ## The accounts -/

/-- The change of the accounts that an action stands for.  `User.put` is the
only closure that `Update` is called with. -/
def StoreAction.Shows : StoreAction → Option Server.StoreEvent → Prop
  | .op (.create u _) _, e => e = some (.create u.username u.account)
  | .op (.update username fn) _, e => ∃ updates : User, fn = updates.put ∧
    e = some (.update username
      ⟨updates.password, updates.enabled, updates.maxBytes, updates.expireAt⟩)
  | .op (.delete username) _, e => e = some (.delete username)
  | .op (.resetTraffic username) disk, e => e = some (.resetTraffic username (disk = .saved))
  | .addTraffic username delta, e => e = some (.addTraffic username delta)
  | _, e => e = none

variable {upper : Char → Char} {s t : Store}

/-- An action changes the accounts as its event does. -/
theorem accounts_next (hshows : action.Shows e) (hnext : s.next upper action = some t) :
    t.accounts = e.elim s.accounts s.accounts.apply := by
  cases action with
  | op op disk =>
    cases hnext
    cases op with
    | create u now =>
      cases hshows
      exact accounts_create
    | update username fn =>
      obtain ⟨updates, rfl, rfl⟩ := hshows
      exact accounts_update
    | delete username =>
      cases hshows
      exact accounts_delete
    | resetTraffic username =>
      cases hshows
      exact accounts_resetTraffic
    | setAdminIfUninitialized | changeAdminPassword | setGeoConfig | setPerformanceConfig =>
      cases hshows
      simp only [exec, setAdminIfUninitialized, changeAdminPassword,
        setGeoConfig, setPerformanceConfig]
      repeat' split
      all_goals first | rfl | exact accounts_saveLocked
  | addTraffic username delta =>
    cases hnext
    cases hshows
    exact accounts_addTraffic
  | flushTick disk =>
    cases hnext
    cases hshows
    exact accounts_flushTick
  | flushStop disk =>
    cases hnext
    cases hshows
    exact accounts_saveLocked

/-- Through every run, with any failures of the disk, the accounts are those
that the events of the run make of the first ones. -/
theorem accounts_of_run (upper : Char → Char) (s t : Store) (actions : List StoreAction)
    (events : List (Option Server.StoreEvent))
    (hshows : List.Forall₂ StoreAction.Shows actions events)
    (hrun : run (next upper) s actions = some t) :
    t.accounts = events.reduceOption.foldl Server.Store.apply s.accounts := by
  induction hshows generalizing s with
  | nil =>
    cases hrun
    rfl
  | @cons action e _ _ hshow _ ih =>
    obtain ⟨next, hnext, hrest⟩ := run_cons_eq_some.1 hrun
    rw [ih next hrest, accounts_next hshow hnext]
    cases e <;> rfl

/-- The user is created although the save fails, and then charged. -/
theorem accounts_of_run_unsaved :
    ∃ t, run (next Char.toUpper) annStore
        [.op (.create { annUser with username := "bob" } 7) (.writeFailed "disk full"),
          .addTraffic "bob" 5] = some t ∧
      t.accounts = [.create "bob" annUser.account, .addTraffic "bob" 5].foldl
        Server.Store.apply annStore.accounts :=
  ⟨_, rfl, accounts_of_run Char.toUpper annStore _
    [.op (.create { annUser with username := "bob" } 7) (.writeFailed "disk full"),
      .addTraffic "bob" 5]
    [some (.create "bob" annUser.account), some (.addTraffic "bob" 5)]
    (.cons rfl (.cons rfl .nil)) rfl⟩

/-! ## The file -/

/-- Every user stands under its own name, and the mode of the fence is not
empty. -/
structure Store.Keyed (s : Store) : Prop where
  name : ∀ username u, s.userMap.lookup username = some u → u.username = username
  mode : s.cfg.geoMode ≠ ""

theorem Store.Keyed.saveLocked (h : t.Keyed) : (t.saveLocked disk).1.Keyed :=
  ⟨by simpa using h.name, by simpa using h.mode⟩

theorem Store.Keyed.insert (h : s.Keyed) (hname : u.username = username) :
    Store.Keyed { s with userMap := s.userMap.insert username u } :=
  ⟨forall_lookup_insert hname fun username' u' _ => h.name username' u', h.mode⟩

theorem Store.Keyed.exec (h : s.Keyed) (hshows : (StoreAction.op op disk).Shows e) :
    (s.exec upper disk op).1.Keyed := by
  cases op with
  | setAdminIfUninitialized | changeAdminPassword | setPerformanceConfig =>
    simp only [Store.exec, Store.setAdminIfUninitialized, Store.changeAdminPassword,
      setPerformanceConfig]
    repeat' split
    all_goals first | exact h | exact saveLocked ⟨h.name, h.mode⟩
  | setGeoConfig mode countries blockPrivate =>
    simp only [Store.exec, Store.setGeoConfig]
    split
    · exact h
    next hmode =>
      split
      · exact h
      · refine saveLocked ⟨h.name, ?_⟩
        rintro rfl
        simp at hmode
  | create u now =>
    simp only [Store.exec, Store.create]
    split
    · exact h
    · refine saveLocked (h.insert ?_)
      rfl
  | update username fn =>
    obtain ⟨updates, rfl, -⟩ := hshows
    simp only [Store.exec, Store.update]
    split
    · exact h
    next u hu =>
      refine saveLocked (h.insert ?_)
      exact h.name username u hu
  | delete username =>
    simp only [Store.exec, Store.delete]
    split
    · exact h
    · refine saveLocked ⟨fun username' u hu => ?_, h.mode⟩
      exact h.name username' u (lookup_erase_eq_some.1 hu).2
  | resetTraffic username =>
    by_cases hdisk : disk = .saved
    · subst hdisk
      cases hu : s.userMap.lookup username with
      | none => simpa only [Store.exec, Store.resetTraffic, hu] using h
      | some u =>
        by_cases hused : u.usedBytes = 0
        · simpa only [Store.exec, Store.resetTraffic, hu, if_pos hused] using h
        · simp only [Store.exec, Store.resetTraffic_saved hu hused]
          refine ⟨(h.insert ?_).name, h.mode⟩
          exact h.name username u hu
    · simpa only [Store.exec, Store.resetTraffic_failed hdisk] using h

theorem Store.Keyed.next (h : s.Keyed) (hshows : action.Shows e)
    (hnext : s.next upper action = some t) : t.Keyed := by
  cases action with
  | op op disk =>
    cases hnext
    exact h.exec hshows
  | addTraffic username delta =>
    cases hnext
    unfold addTraffic
    split
    · exact h
    · split
      · exact h
      next u hu =>
        refine ⟨(h.insert ?_).name, h.mode⟩
        exact h.name username u hu
  | flushTick disk =>
    cases hnext
    unfold flushTick
    split
    · exact ⟨h.saveLocked.name, h.saveLocked.mode⟩
    · exact h
  | flushStop disk =>
    cases hnext
    exact h.saveLocked

theorem lookup_loaded (hnames : ∀ u ∈ users, ∀ v ∈ users, u.username = v.username → u = v)
    (hu : u ∈ users) : (loaded users).lookup u.username = some u := by
  induction users using List.reverseRecOn with
  | nil => cases hu
  | append_singleton users last ih =>
    rw [loaded_append, lookup_insert_eq_some]
    by_cases hlast : u.username = last.username
    · exact .inl ⟨hlast, hnames u hu last (by simp) hlast⟩
    · refine .inr ⟨hlast, ih (fun v hv w hw => hnames v (by simp [hv]) w (by simp [hw])) ?_⟩
      rcases List.mem_append.1 hu with hu | hu
      · exact hu
      · exact absurd (congrArg User.username (List.mem_singleton.1 hu)) hlast

theorem newStore_keyed (hnew : newStore upper content disk = some s) : s.Keyed := by
  cases content with
  | none =>
    cases disk <;> cases hnew
    exact ⟨by simp, by decide⟩
  | some content =>
    cases hnew
    refine ⟨fun username u hu => (name_of_loaded hu).2, ?_⟩
    dsimp only
    split
    · decide
    next hmode => exact hmode

/-- A server that stops and is started again has the users it had, and the
settings up to the notation of the countries, in whatever order the file lists
the users. -/
theorem restart_keeps_store (upper : Char → Char) (content : Option (Config × List User))
    (disk disk' : Disk) (first stopped again : Store) (actions : List StoreAction)
    (users : List User) (hfirst : newStore upper content disk = some first)
    (hshows : ∀ action ∈ actions, ∃ e, action.Shows e)
    (hrun : run (next upper) first (actions ++ [.flushStop .saved]) = some stopped)
    (husers : ↑users = stopped.file.users)
    (hagain : newStore upper (some (stopped.file.config, users)) disk' = some again) :
    again.userMap = stopped.userMap ∧
      again.cfg = { stopped.cfg with
        geoCountries := normalizeCountries upper stopped.cfg.geoCountries } := by
  rw [run_append, Option.bind_eq_some_iff] at hrun
  obtain ⟨s, hrun, hstop⟩ := hrun
  have hstep : ∀ s action next, Store.Keyed s → (∃ e, action.Shows e) →
      s.next upper action = some next → next.Keyed :=
    fun _ _ _ h ⟨_, hshow⟩ hnext => h.next hshow hnext
  have hkeyed := run_invariant hstep (newStore_keyed hfirst)
    (along_of_forall fun _ => hshows) hrun
  cases hstop
  cases hagain
  change ↑users = s.list at husers
  have hlisted : ∀ u, u ∈ users ↔ s.userMap.lookup u.username = some u := by
    intro u
    rw [← Multiset.mem_coe, husers]
    constructor
    · intro hu
      obtain ⟨⟨username, v⟩, hentry, rfl⟩ := Multiset.mem_map.1 hu
      have hlookup := Finmap.lookup_eq_some_iff.2 hentry
      rw [hkeyed.name _ _ hlookup]
      exact hlookup
    · exact mem_list
  refine ⟨Finmap.ext_lookup fun username => ?_, ?_⟩
  · ext u
    constructor
    · intro hu
      obtain ⟨hmem, rfl⟩ := name_of_loaded hu
      exact (hlisted u).1 hmem
    · intro hu
      obtain rfl := hkeyed.name _ _ hu
      refine lookup_loaded (fun v hv w hw hname => ?_) ((hlisted u).2 hu)
      have hv := (hlisted v).1 hv
      rw [hname, (hlisted w).1 hw] at hv
      exact (Option.some.inj hv).symm
  · simp [flushStop, saveLocked, hkeyed.mode]

theorem restart_keeps_store_ann :
    ∃ first stopped again, newStore Char.toUpper none .saved = some first ∧
      run (next Char.toUpper) first [.op (.create annUser 7) .saved, .addTraffic "ann" 5,
        .flushStop .saved] = some stopped ∧
      newStore Char.toUpper (some (stopped.file.config,
        [{ annUser with createdAt := some 7, usedBytes := 5 }])) .saved = some again ∧
      again.userMap = stopped.userMap :=
  ⟨_, _, _, rfl, rfl, rfl, (restart_keeps_store Char.toUpper none .saved .saved _ _ _
    [.op (.create annUser 7) .saved, .addTraffic "ann" 5] _ rfl
    (by simp [StoreAction.Shows]) rfl rfl rfl).1⟩

end Hy2Link.Accounts
