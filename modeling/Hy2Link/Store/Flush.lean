import Hy2Link.Interleaving.Run
import Hy2Link.Store.Users

/-! # The dirty flag of the store

`addTraffic` changes the memory only and raises the flag; a tick of
`FlushLoop` saves and lowers it.  The tick lowers it after a failed save too,
and the methods that save do not raise it when their save fails.
-/

namespace Hy2Link.Accounts

open Interleaving Store

inductive StoreAction
  | op (op : Op) (disk : Disk)
  | addTraffic (username : String) (delta : UInt64)
  | flushTick (disk : Disk)
  | flushStop (disk : Disk)

def Store.next (upper : Char → Char) (s : Store) : StoreAction → Option Store
  | .op op disk => some (s.exec upper disk op).1
  | .addTraffic username delta => some (s.addTraffic username delta)
  | .flushTick disk => some (s.flushTick disk)
  | .flushStop disk => some (s.flushStop disk)

/-- Every user in memory stands in the file with the same traffic. -/
def Store.Listed (s : Store) : Prop :=
  ∀ username u, s.userMap.lookup username = some u →
    ∃ r ∈ s.file.users, r.username = u.username ∧ r.usedBytes = u.usedBytes

def Store.Flushed (s : Store) : Prop := s.dirty = false → s.Listed

instance : DecidablePred Store.Listed := fun s =>
  have (u : User) : Decidable (∃ r ∈ s.file.users, r.username = u.username ∧
      r.usedBytes = u.usedBytes) := Multiset.decidableExistsMultiset
  decidableForallLookup

instance : DecidablePred Store.Flushed := fun s =>
  inferInstanceAs (Decidable (s.dirty = false → s.Listed))

/-- A tick that has something to save saves it.  While the flag is down, a
new user is saved, and so is an update that touches the name or the traffic. -/
def Store.keepsFlushed (s : Store) : StoreAction → Bool
  | .op (.create u _) disk => s.dirty || u.username ∈ s.userMap || disk = .saved
  | .op (.update username fn) disk =>
    s.dirty || disk = .saved || (s.userMap.lookup username).all fun u =>
      (fn u).username = u.username && (fn u).usedBytes = u.usedBytes
  | .flushTick disk => !s.dirty || disk = .saved
  | _ => true

variable {username : String}

namespace Store

variable {upper : Char → Char} {s t : Store} {disk : Disk}

theorem listed_saved : (s.saveLocked .saved).1.Listed :=
  fun _ _ hu => ⟨_, mem_list hu, rfl, rfl⟩

theorem Flushed.saveLocked (h : disk ≠ .saved → t.Flushed) : (t.saveLocked disk).1.Flushed := by
  by_cases hdisk : disk = .saved
  · subst hdisk
    exact fun _ => listed_saved
  · rw [saveLocked_failed hdisk]
    exact h hdisk

theorem Listed.mono (h : s.Listed) (hfile : t.file = s.file)
    (hkeep : ∀ username u, t.userMap.lookup username = some u →
      ∃ username' u', s.userMap.lookup username' = some u' ∧ u'.username = u.username ∧
        u'.usedBytes = u.usedBytes) : t.Listed := by
  intro username u hu
  obtain ⟨username', u', hu', hname, hused⟩ := hkeep username u hu
  obtain ⟨r, hr, hrname, hrused⟩ := h username' u' hu'
  exact ⟨r, hfile ▸ hr, hrname.trans hname, hrused.trans hused⟩

section

variable (h : s.Flushed)
include h

open Flushed

theorem Flushed.create (hok : s.keepsFlushed (.op (.create u now) disk) = true) :
    (s.create u now disk).1.Flushed := by
  unfold Store.create
  split
  · exact h
  next hnew =>
    apply saveLocked
    intro hdisk hdirty
    simp only [keepsFlushed, hnew, hdisk, decide_false, Bool.or_false] at hok
    exact absurd (hok.symm.trans hdirty) Bool.noConfusion

theorem Flushed.update
    (hok : s.keepsFlushed (.op (.update username fn) disk) = true) :
    (s.update username fn disk).1.Flushed := by
  unfold Store.update
  split
  · exact h
  next u hu =>
    apply saveLocked
    intro hdisk hdirty
    have hclean : s.dirty = false := hdirty
    simp only [keepsFlushed, hclean, hdisk, hu, decide_false, Bool.or_self, Bool.false_or,
      Option.all_some, Bool.and_eq_true, decide_eq_true_eq] at hok
    refine Listed.mono (h hclean) rfl ?_
    apply forall_lookup_insert
    · exact ⟨username, u, hu, hok.1.symm, hok.2.symm⟩
    · intro username' u' _ hu'
      exact ⟨username', u', hu', rfl, rfl⟩

theorem Flushed.delete : (s.delete username disk).1.Flushed := by
  unfold Store.delete
  split
  · exact h
  · apply saveLocked
    intro _ hdirty
    refine Listed.mono (h hdirty) rfl ?_
    intro username' u hu
    exact ⟨username', u, (lookup_erase_eq_some.1 hu).2, rfl, rfl⟩

theorem Flushed.resetTraffic : (s.resetTraffic username disk).1.Flushed := by
  by_cases hdisk : disk = .saved
  · subst hdisk
    cases hu : s.userMap.lookup username with
    | none => simpa only [resetTraffic, hu] using h
    | some u =>
      by_cases hused : u.usedBytes = 0
      · simpa only [resetTraffic, hu, if_pos hused] using h
      · rw [resetTraffic_saved hu hused]
        exact fun _ username' u' hu' => ⟨u', mem_list hu', rfl, rfl⟩
  · rw [resetTraffic_failed hdisk]
    exact h

theorem Flushed.exec (hok : s.keepsFlushed (.op op disk) = true) :
    (s.exec upper disk op).1.Flushed := by
  cases op with
  | setAdminIfUninitialized username password =>
    simp only [Store.exec, Store.setAdminIfUninitialized]
    split
    · exact h
    · exact saveLocked fun _ => h
  | changeAdminPassword oldPwd newPwd =>
    simp only [Store.exec, Store.changeAdminPassword]
    split
    · exact h
    · exact saveLocked fun _ => h
  | setGeoConfig mode countries blockPrivate =>
    simp only [Store.exec, Store.setGeoConfig]
    split
    · exact h
    · split
      · exact h
      · exact saveLocked fun _ => h
  | setPerformanceConfig lowPerf logEnabled highPriority latencyMode =>
    exact saveLocked fun _ => h
  | create u now => exact h.create hok
  | update username fn => exact h.update hok
  | delete username => exact h.delete
  | resetTraffic username => exact h.resetTraffic

theorem Flushed.addTraffic : (s.addTraffic username delta).Flushed := by
  unfold Store.addTraffic
  split
  · exact h
  · split
    · exact h
    · exact fun hdirty => absurd hdirty Bool.noConfusion

theorem Flushed.flushTick (hok : s.keepsFlushed (.flushTick disk) = true) :
    (s.flushTick disk).Flushed := by
  unfold Store.flushTick
  split
  next hdirty =>
    simp only [keepsFlushed, hdirty, Bool.not_true, Bool.false_or, decide_eq_true_eq] at hok
    subst hok
    exact fun _ => listed_saved
  · exact h

/-- An action that keeps to the condition keeps the file up to date. -/
theorem Flushed.next (hok : s.keepsFlushed action = true)
    (hnext : s.next upper action = some t) : t.Flushed := by
  cases action with
  | op op disk =>
    cases hnext
    exact h.exec hok
  | addTraffic username delta =>
    cases hnext
    exact h.addTraffic
  | flushTick disk =>
    cases hnext
    exact h.flushTick hok
  | flushStop disk =>
    cases hnext
    exact saveLocked fun _ => h

end

end Store

def loaded (users : List User) : Table String User :=
  users.foldl (fun m u => m.insert u.username u) ∅

theorem loaded_append : loaded (users ++ [u]) = (loaded users).insert u.username u := by
  rw [loaded, List.foldl_append]
  rfl

theorem name_of_loaded (hu : (loaded users).lookup username = some u) :
    u ∈ users ∧ u.username = username := by
  induction users using List.reverseRecOn with
  | nil => simp [loaded] at hu
  | append_singleton users last ih =>
    rw [loaded_append] at hu
    rcases lookup_insert_eq_some.1 hu with ⟨rfl, rfl⟩ | ⟨-, hold⟩
    · simp
    · exact ⟨List.mem_append_left _ (ih hold).1, (ih hold).2⟩

theorem newStore_flushed (hnew : newStore upper content disk = some s) : s.Flushed := by
  intro _ username u hu
  cases content with
  | none =>
    cases disk <;> cases hnew
    simp at hu
  | some content =>
    cases hnew
    exact ⟨u, (name_of_loaded hu).1, rfl, rfl⟩

/-- While the flag is down, the file has the traffic of all users, if no save that
matters fails. -/
theorem flushed_of_run (upper : Char → Char) (s t : Store) (actions : List StoreAction)
    (hs : s.Flushed)
    (hok : Along (next upper) (fun s action => s.keepsFlushed action = true) s actions)
    (hrun : run (next upper) s actions = some t) : t.Flushed :=
  run_invariant (fun _ _ _ h hok hnext => h.next hok hnext) hs hok hrun

def annUser : User := ⟨"ann", "pw", true, 0, 0, none, none, ""⟩

def annStore : Store := ⟨⟨.default, {annUser}⟩, .default, Finmap.singleton "ann" annUser, false⟩

/-- Traffic, and a tick that saves it. -/
theorem flushed_of_run_saved :
    ∃ t, run (next Char.toUpper) annStore [.addTraffic "ann" 5, .flushTick .saved] = some t ∧
      t.dirty = false ∧ t.Flushed := by
  obtain ⟨t, hrun, hdirty⟩ : ∃ t, run (next Char.toUpper) annStore
      [.addTraffic "ann" 5, .flushTick .saved] = some t ∧ t.dirty = false := by
    decide +kernel
  exact ⟨t, hrun, hdirty, flushed_of_run Char.toUpper annStore t _
    (by decide +kernel) (by decide +kernel) hrun⟩

/-- A tick whose save fails lowers the flag; the file does not have the
traffic. -/
theorem failed_tick_lowers_flag :
    annStore.Flushed ∧
    ∃ t, run (next Char.toUpper) annStore
        [.addTraffic "ann" 5, .flushTick (.writeFailed "no space left on device")] = some t ∧
      ¬ t.Flushed := by
  decide +kernel

end Hy2Link.Accounts
