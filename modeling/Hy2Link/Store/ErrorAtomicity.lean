import Hy2Link.Store.Users

/-! # What a method of the store leaves behind when it fails

A method refuses before it has changed anything, or it changes the memory and
saves.  Only `resetTraffic` takes the change back when the save fails; the
other methods keep it and report the error.
-/

namespace Hy2Link.Accounts

open Interleaving Store

variable {upper : Char → Char} {s s' t : Store} {disk : Disk}

/-- The two stores answer every question alike. -/
structure SameValues (s s' : Store) : Prop where
  hasAdmin : s'.hasAdmin = s.hasAdmin
  verifyAdmin : ∀ username password, s'.verifyAdmin username password =
    s.verifyAdmin username password
  getGeoConfig : s'.getGeoConfig = s.getGeoConfig
  getPerformanceConfig : s'.getPerformanceConfig = s.getPerformanceConfig
  get : ∀ username, s'.get username = s.get username
  list : s'.list = s.list

/-- An error of the method means that no value has changed. -/
def ErrorAtomic (upper : Char → Char) (s : Store) (disk : Disk) (op : Op) : Prop :=
  (s.exec upper disk op).2 ≠ none → SameValues s (s.exec upper disk op).1

/-- The method refuses, writes what stands there already, writes what no
method shows, or takes its change back. -/
def Op.Traceless (upper : Char → Char) (s : Store) : Op → Prop
  | .setAdminIfUninitialized username _ => s.hasAdmin = true ∨ username = ""
  | .changeAdminPassword oldPwd newPwd =>
    s.cfg.adminPassword ≠ hashPassword oldPwd ∨ s.cfg.adminUsername = "" ∨
      hashPassword newPwd = hashPassword oldPwd
  | .setGeoConfig mode countries blockPrivate =>
    ["off", "block", "allow"].contains mode = false ∨
      (mode ≠ "off" ∧ normalizeCountries upper countries = []) ∨
      s.getGeoConfig = (mode, normalizeCountries upper countries, blockPrivate)
  | .setPerformanceConfig lowPerf logEnabled highPriority latencyMode =>
    s.getPerformanceConfig =
      (lowPerf, logEnabled, highPriority, normalizeLatencyMode latencyMode)
  | .create u _ => u.username ∈ s.userMap
  | .update username fn => ∀ u, s.userMap.lookup username = some u → fn u = u
  | .delete username => username ∉ s.userMap
  | .resetTraffic _ => True

theorem SameValues.refl (s : Store) : SameValues s s :=
  ⟨rfl, fun _ _ => rfl, rfl, rfl, fun _ => rfl, rfl⟩

theorem SameValues.congr (h : SameValues s t) (hcfg : s'.cfg = t.cfg)
    (hmap : s'.userMap = t.userMap) : SameValues s s' where
  hasAdmin := by simpa only [Store.hasAdmin, hcfg] using h.hasAdmin
  verifyAdmin := by simpa only [Store.verifyAdmin, hcfg] using h.verifyAdmin
  getGeoConfig := by simpa only [Store.getGeoConfig, hcfg] using h.getGeoConfig
  getPerformanceConfig := by
    simpa only [Store.getPerformanceConfig, hcfg] using h.getPerformanceConfig
  get := by simpa only [Store.get, hmap] using h.get
  list := by simpa only [Store.list, hmap] using h.list

theorem sameValues_saveLocked : SameValues s (t.saveLocked disk).1 ↔ SameValues s t :=
  ⟨fun h => h.congr saveLocked_cfg.symm saveLocked_userMap.symm,
    fun h => h.congr saveLocked_cfg saveLocked_userMap⟩

/-- A method that ends with a save is atomic if the save succeeds or what it
has written shows nowhere. -/
theorem atomic_saveLocked :
    ((t.saveLocked disk).2 ≠ none → SameValues s (t.saveLocked disk).1) ↔
      disk = .saved ∨ SameValues s t := by
  rw [saveLocked_error, Ne, error_eq_none_iff, sameValues_saveLocked, imp_iff_not_or, not_not]

/-! ## What the methods write -/

theorem verifyAdmin_of_not_hasAdmin (h : s.hasAdmin = false) (username password : String) :
    s.verifyAdmin username password = false := by
  unfold verifyAdmin
  split
  · rfl
  next hset => simp_all [hasAdmin]

variable {username : String}

theorem sameValues_setAdmin (hno : s.hasAdmin = false) :
    SameValues s
        { s with
          cfg := { s.cfg with
            adminUsername := username
            adminPassword := hashPassword password } } ↔
      username = "" := by
  constructor
  · intro h
    have hadmin := h.hasAdmin
    rw [hno] at hadmin
    simpa [hasAdmin, hashPassword_ne_empty] using hadmin
  · rintro rfl
    refine ⟨?_, fun username' password' => ?_, rfl, rfl, fun _ => rfl, rfl⟩
    · rw [hno]
      simp [hasAdmin]
    · rw [verifyAdmin_of_not_hasAdmin hno]
      simp [verifyAdmin]

theorem sameValues_changePassword (hold : s.cfg.adminPassword = hashPassword oldPwd) :
    SameValues s { s with cfg := { s.cfg with adminPassword := hashPassword newPwd } } ↔
      s.cfg.adminUsername = "" ∨ hashPassword newPwd = hashPassword oldPwd := by
  constructor
  · intro h
    by_cases hname : s.cfg.adminUsername = ""
    · exact .inl hname
    -- the new password passes afterwards, so it passed before
    have hnew := h.verifyAdmin s.cfg.adminUsername newPwd
    simp only [verifyAdmin, hname, hold, hashPassword_ne_empty, decide_false, Bool.or_self,
      Bool.false_eq_true, if_false, decide_true, Bool.and_self, Bool.true_and] at hnew
    exact .inr (of_decide_eq_true hnew.symm).symm
  · rintro (hname | hsame)
    · refine ⟨?_, fun username password => ?_, rfl, rfl, fun _ => rfl, rfl⟩
      · simp [hasAdmin, hname]
      · simp [verifyAdmin, hname]
    · rw [hsame, ← hold]
      exact .refl s

theorem sameValues_setGeo :
    SameValues s
        { s with
          cfg := { s.cfg with
            geoMode := mode
            geoCountries := countries
            geoBlockPrivate := blockPrivate } } ↔
      s.getGeoConfig = (mode, countries, blockPrivate) :=
  ⟨fun h => h.getGeoConfig.symm,
    fun h => ⟨rfl, fun _ _ => rfl, h.symm, rfl, fun _ => rfl, rfl⟩⟩

theorem normalizeLatencyMode_idem (latencyMode : String) :
    normalizeLatencyMode (normalizeLatencyMode latencyMode) =
      normalizeLatencyMode latencyMode := by
  unfold normalizeLatencyMode
  split
  · rfl
  · rfl

theorem sameValues_setPerformance :
    SameValues s
        { s with
          cfg := { s.cfg with
            lowPerformanceMode := some lowPerf
            logEnabled := some logEnabled
            highPriority := some highPriority
            latencyMode := some (normalizeLatencyMode latencyMode) } } ↔
      s.getPerformanceConfig =
        (lowPerf, logEnabled, highPriority, normalizeLatencyMode latencyMode) := by
  have hshown : getPerformanceConfig
      { s with
        cfg := { s.cfg with
          lowPerformanceMode := some lowPerf
          logEnabled := some logEnabled
          highPriority := some highPriority
          latencyMode := some (normalizeLatencyMode latencyMode) } } =
      (lowPerf, logEnabled, highPriority, normalizeLatencyMode latencyMode) := by
    simp only [getPerformanceConfig, Option.getD_some, normalizeLatencyMode_idem]
  exact ⟨fun h => h.getPerformanceConfig.symm.trans hshown,
    fun h => ⟨rfl, fun _ _ => rfl, rfl, hshown.trans h.symm, fun _ => rfl, rfl⟩⟩

theorem not_sameValues_insert (hnew : username ∉ s.userMap) :
    ¬ SameValues s { s with userMap := s.userMap.insert username u } := by
  intro h
  have hget := h.get username
  simp only [Store.get, Finmap.lookup_insert, Finmap.lookup_eq_none.2 hnew] at hget
  cases hget

theorem sameValues_update (hu : s.userMap.lookup username = some u) :
    SameValues s { s with userMap := s.userMap.insert username u' } ↔ u' = u := by
  constructor
  · intro h
    have hget := h.get username
    simp only [Store.get, Finmap.lookup_insert, hu] at hget
    exact Option.some.inj hget
  · rintro rfl
    rw [insert_eq_self hu]
    exact .refl s

theorem not_sameValues_erase (hmem : username ∈ s.userMap) :
    ¬ SameValues s { s with userMap := s.userMap.erase username } := by
  intro h
  have hget := h.get username
  simp only [Store.get, Finmap.lookup_erase] at hget
  exact Finmap.lookup_eq_none.1 hget.symm hmem

theorem resetTraffic_atomic (herr : (s.resetTraffic username disk).2.2 ≠ none) :
    SameValues s (s.resetTraffic username disk).1 := by
  by_cases hdisk : disk = .saved
  · subst hdisk
    -- with a save there is an error only for an unknown name
    unfold resetTraffic at herr ⊢
    split
    · exact .refl s
    next u hu =>
      rw [hu] at herr
      dsimp only at herr
      split at herr <;> exact absurd rfl herr
  · rw [resetTraffic_failed hdisk]
    exact .refl s

/-! ## All methods -/

open SameValues

/-- An error of a method leaves every value as it was exactly if the disk works or
the method has nothing to undo. -/
theorem error_atomic_iff (upper : Char → Char) (s : Store) (disk : Disk) (op : Op) :
    ErrorAtomic upper s disk op ↔ disk = .saved ∨ op.Traceless upper s := by
  cases op with
  | setAdminIfUninitialized username password =>
    simp only [ErrorAtomic, exec, Op.Traceless, setAdminIfUninitialized]
    split
    next hset =>
      have hadmin : s.hasAdmin = true := hset
      simp [hadmin, refl]
    next hset =>
      have hno : s.hasAdmin = false := Bool.eq_false_iff.2 hset
      rw [atomic_saveLocked, sameValues_setAdmin hno]
      simp [hno]
  | changeAdminPassword oldPwd newPwd =>
    simp only [ErrorAtomic, exec, Op.Traceless, changeAdminPassword]
    split
    next hwrong => simp [hwrong, refl]
    next hold =>
      rw [not_ne_iff] at hold
      rw [atomic_saveLocked, sameValues_changePassword hold]
      simp [hold]
  | setGeoConfig mode countries blockPrivate =>
    simp only [ErrorAtomic, exec, Op.Traceless, setGeoConfig]
    split
    next hmode =>
      rw [Bool.not_eq_true'] at hmode
      exact ⟨fun _ => .inr (.inl hmode), fun _ _ => .refl s⟩
    next hmode =>
      rw [Bool.not_eq_true, Bool.not_eq_false'] at hmode
      split
      next hempty =>
        simp only [Bool.and_eq_true, decide_eq_true_eq, List.length_eq_zero_iff] at hempty
        simp [hempty, refl]
      next hfull =>
        simp only [Bool.and_eq_true, decide_eq_true_eq, List.length_eq_zero_iff] at hfull
        rw [atomic_saveLocked, sameValues_setGeo]
        simp only [hmode, Bool.true_eq_false, false_or, hfull]
  | setPerformanceConfig lowPerf logEnabled highPriority latencyMode =>
    simp only [ErrorAtomic, exec, Op.Traceless, setPerformanceConfig]
    rw [atomic_saveLocked, sameValues_setPerformance]
  | create u now =>
    simp only [ErrorAtomic, exec, Op.Traceless, create]
    split
    next hmem => simp [hmem, refl]
    next hnew =>
      rw [atomic_saveLocked]
      simp only [hnew, or_false, or_iff_left_iff_imp]
      exact fun h => absurd h (not_sameValues_insert hnew)
  | update username fn =>
    simp only [ErrorAtomic, exec, Op.Traceless, update]
    cases hu : s.userMap.lookup username with
    | none => simp [refl]
    | some u =>
      simp only [Option.some.injEq, forall_eq']
      rw [atomic_saveLocked, sameValues_update hu]
  | delete username =>
    simp only [ErrorAtomic, exec, Op.Traceless, delete]
    split
    next hnew => simp [hnew, refl]
    next hmem =>
      rw [not_not] at hmem
      rw [atomic_saveLocked]
      simp only [hmem, not_true, or_false, or_iff_left_iff_imp]
      exact fun h => absurd h (not_sameValues_erase hmem)
  | resetTraffic username =>
    simp only [Op.Traceless, or_true, iff_true]
    exact resetTraffic_atomic

/-- The file cannot be written; `create` says so, and the user is there. -/
theorem create_fails_and_stays :
    ¬ ErrorAtomic Char.toUpper ⟨⟨.default, 0⟩, .default, ∅, false⟩
      (.writeFailed "no space left on device")
      (.create ⟨"ann", "pw", true, 0, 0, none, none, ""⟩ 0) := by
  intro h
  have hget := (h (by decide)).get "ann"
  revert hget
  decide

end Hy2Link.Accounts
