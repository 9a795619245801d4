import Hy2Link.Server.Config
import Hy2Link.Server.Logins
import Hy2Link.TextRules

/-! # The versions that an accepted configuration admits

`Validate` reads the two bounds with its own parser, the authenticator
compares with another one, and a third place takes the version out of the
credential.  They disagree about negative components: `Validate` accepts them,
while for the authenticator such a bound is no version and compares as equal
to everything.
-/

namespace Hy2Link.Config

open Interleaving Text Server ServerConfig List

/-! ## Versions as numbers -/

structure Version where
  major : Int
  minor : Int
  patch : Int
deriving DecidableEq

variable {v w : Version} {s text auth : List Char}

namespace Version

def Nonneg (v : Version) : Prop := 0 ≤ v.major ∧ 0 ≤ v.minor ∧ 0 ≤ v.patch

def Le (v w : Version) : Prop :=
  v.major < w.major ∨ v.major = w.major ∧
    (v.minor < w.minor ∨ v.minor = w.minor ∧ v.patch ≤ w.patch)

instance (v : Version) : Decidable v.Nonneg := inferInstanceAs (Decidable (_ ∧ _ ∧ _))

instance (v w : Version) : Decidable (v.Le w) := inferInstanceAs (Decidable (_ ∨ _ ∧ (_ ∨ _ ∧ _)))

def parts (v : Version) : List Int := [v.major, v.minor, v.patch]

theorem compare_parts (v w : Version) :
    (compare v.parts w.parts ≠ .lt ↔ w.Le v) ∧ (compare v.parts w.parts ≠ .gt ↔ v.Le w) := by
  -- each component decides, or leaves the decision to the next one
  have hthen : ∀ (a b : Int) (o : Ordering),
      ((compare a b).then o ≠ .lt ↔ b < a ∨ b = a ∧ o ≠ .lt) ∧
        ((compare a b).then o ≠ .gt ↔ a < b ∨ a = b ∧ o ≠ .gt) := by
    intro a b o
    rcases Int.lt_trichotomy a b with h | h | h
    · rw [Int.compare_eq_lt.2 h]
      simp [Ordering.then]
      omega
    · rw [Int.compare_eq_eq.2 h]
      simp [Ordering.then, h]
    · rw [Int.compare_eq_gt.2 h]
      simp [Ordering.then]
      omega
  simp only [parts, Le, List.compare_cons_cons, List.compare_nil_nil, hthen]
  constructor <;> simp only [ne_eq, reduceCtorEq, not_false_eq_true, and_true] <;> omega

theorem Le.trans {u : Version} (huv : u.Le v) (hvw : v.Le w) : u.Le w := by
  unfold Le at *
  omega

end Version

/-- The text is three integers with dots between them. -/
def Denotes (s : List Char) (v : Version) : Prop := (s.splitOn '.').mapM atoi = some v.parts

open Version

theorem denotes_of_isValidSemVer (h : isValidSemVer s = true) : ∃ v, Denotes s v := by
  simp only [isValidSemVer, Bool.and_eq_true, decide_eq_true_eq, all_eq_true] at h
  obtain ⟨hlength, hparts⟩ := h
  obtain ⟨x, y, z, hsplit⟩ := length_eq_three.1 hlength
  rw [hsplit] at hparts
  obtain ⟨a, ha⟩ := Option.isSome_iff_exists.1 (hparts x (by simp)).2
  obtain ⟨b, hb⟩ := Option.isSome_iff_exists.1 (hparts y (by simp)).2
  obtain ⟨c, hc⟩ := Option.isSome_iff_exists.1 (hparts z (by simp)).2
  refine ⟨⟨a, b, c⟩, ?_⟩
  simp [Denotes, hsplit, mapM_cons, ha, hb, hc, parts]

theorem Denotes.unique (hv : Denotes s v) (hw : Denotes s w) : v = w := by
  have hparts := Option.some.inj (hv.symm.trans hw)
  cases v
  cases w
  simp_all [parts]

theorem parseVersion_of_denotes (h : Denotes s v) :
    parseVersion s = if v.Nonneg then some v.parts else none := by
  unfold Denotes parts at h
  simp only [parseVersion, h, Version.Nonneg, parts, Bool.and_eq_true, decide_eq_true_eq,
    and_assoc]
  congr

theorem denotes_of_parseVersion (h : parseVersion s = some x) : ∃ v, Denotes s v ∧ v.Nonneg := by
  unfold parseVersion at h
  split at h
  next a b c hparts =>
    simp only [Option.ite_none_right_eq_some, Bool.and_eq_true, decide_eq_true_eq] at h
    exact ⟨⟨a, b, c⟩, hparts, h.1.1.1, h.1.1.2, h.1.2⟩
  · cases h

theorem Denotes.colon_not_mem (h : Denotes s v) : ':' ∉ s := by
  intro hcolon
  rcases @mem_splitOn '.' ':' s hcolon with hdot | ⟨piece, hpiece, hin⟩
  · exact absurd hdot (by decide)
  · obtain ⟨n, hn⟩ := exists_of_mapM h hpiece
    rcases chars_of_atoi hn hin with hdigit | hsign | hsign
    · exact absurd hdigit (by decide)
    · exact absurd hsign (by decide)
    · exact absurd hsign (by decide)

/-! ## What a credential carries -/

/-- The text ends in the version `v`. -/
def Carries (auth : List Char) (v : Version) : Prop :=
  ∃ front text, auth = front ++ versionMarker ++ text ∧ Denotes text v ∧ v.Nonneg

theorem versionMarker_eq : versionMarker = ':' :: "vn=".toList := rfl

theorem lastIndex_versionMarker (htext : ':' ∉ text) :
    lastIndex versionMarker (front ++ versionMarker ++ text) = some front.length := by
  have hrest : ':' ∉ "vn=".toList ++ text := by simp [htext]
  rw [append_assoc, versionMarker_eq, cons_append]
  exact lastIndex_of_not_mem hrest

theorem extractVersionAndStrip_append (htext : Denotes text v) (hv : v.Nonneg) :
    extractVersionAndStrip (front ++ versionMarker ++ text) = (front, text) := by
  have hsome : (parseVersion text).isSome = true := by
    rw [parseVersion_of_denotes htext, if_pos hv]
    rfl
  have hdrop : (front ++ versionMarker ++ text).drop (front.length + versionMarker.length) =
      text := by
    rw [← length_append, drop_left]
  have htake : (front ++ versionMarker ++ text).take front.length = front := by
    rw [append_assoc, take_left]
  simp only [extractVersionAndStrip, lastIndex_versionMarker htext.colon_not_mem, hdrop, htake,
    hsome, if_true]

theorem carries_of_extract (h : (extractVersionAndStrip auth).2 = text) (htext : text ≠ []) :
    ∃ v, Carries auth v ∧ Denotes text v ∧ v.Nonneg := by
  unfold extractVersionAndStrip at h
  split at h
  · exact absurd h.symm htext
  next i hi =>
    dsimp only at h
    split at h
    next hsome =>
      obtain ⟨x, hx⟩ := Option.isSome_iff_exists.1 hsome
      obtain ⟨v, hv, hnonneg⟩ := denotes_of_parseVersion hx
      subst h
      refine ⟨v, ⟨auth.take i, _, ?_, hv, hnonneg⟩, hv, hnonneg⟩
      have hprefix := find?_some hi
      obtain ⟨rest, hrest⟩ := isPrefixOf_iff_prefix.1 hprefix
      rw [append_assoc, ← drop_drop, ← hrest, drop_left, hrest, take_append_drop]
    · exact absurd h.symm htext

theorem Carries.unique (hv : Carries auth v) (hw : Carries auth w) : v = w := by
  obtain ⟨front, text, hauth, htext, hnonneg⟩ := hv
  obtain ⟨front', text', hauth', htext', hnonneg'⟩ := hw
  have hextract := @extractVersionAndStrip_append v text front htext hnonneg
  rw [← hauth, hauth', extractVersionAndStrip_append htext' hnonneg', Prod.mk.injEq] at hextract
  rw [hextract.2] at htext'
  exact htext.unique htext'

/-! ## The gate of a configuration -/

/-- The authenticator is built with the trimmed bounds. -/
def ServerConfig.gate (c : ServerConfig) : VersionGate :=
  ⟨trimSpace c.minClientVersion, trimSpace c.maxClientVersion⟩

/-- The version of the credential lies between the bounds that are set. -/
structure ServerConfig.Admits (c : ServerConfig) (auth : List Char) : Prop where
  min : limits (trimSpace c.minClientVersion) = true →
    ∃ v b, Carries auth v ∧ Denotes (trimSpace c.minClientVersion) b ∧ b.Le v
  max : limits (trimSpace c.maxClientVersion) = true →
    ∃ v b, Carries auth v ∧ Denotes (trimSpace c.maxClientVersion) b ∧ v.Le b

/-- A minimum with a negative component is below every version, and there is no
such maximum. -/
structure ServerConfig.SoundBounds (c : ServerConfig) : Prop where
  min : ∀ b, limits (trimSpace c.minClientVersion) = true →
    Denotes (trimSpace c.minClientVersion) b → b.Nonneg ∨ b.Le ⟨0, 0, 0⟩
  max : ∀ b, limits (trimSpace c.maxClientVersion) = true →
    Denotes (trimSpace c.maxClientVersion) b → b.Nonneg

variable {c : ServerConfig}

theorem isVersionUnlimited_trimSpace (s : List Char) :
    isVersionUnlimited (trimSpace s) = !limits (trimSpace s) := by
  rw [isVersionUnlimited, limits, trimSpace_idem]
  simp only [ne_eq, decide_not, Bool.not_and, Bool.not_not]

theorem ServerConfig.denotes_bounds (hvalid : c.validate = .ok ()) :
    (limits (trimSpace c.minClientVersion) = true →
      ∃ b, Denotes (trimSpace c.minClientVersion) b) ∧
    (limits (trimSpace c.maxClientVersion) = true →
      ∃ b, Denotes (trimSpace c.maxClientVersion) b) := by
  have hversions := (validate_eq_ok.1 hvalid).2.2.2.2.2.2.2
  simp only [checkVersions] at hversions
  split at hversions
  · cases hversions
  next hmin =>
    split at hversions
    · cases hversions
    next hmax =>
      simp only [Bool.and_eq_true, Bool.not_eq_true', not_and, Bool.not_eq_false] at hmin hmax
      exact ⟨fun h => denotes_of_isValidSemVer (hmin h), fun h => denotes_of_isValidSemVer (hmax h)⟩

theorem compareVersions_of_denotes (hs : Denotes s v) (hv : v.Nonneg) (ht : Denotes t b) :
    compareVersions s t = if b.Nonneg then compare v.parts b.parts else .eq := by
  rw [compareVersions, parseVersion_of_denotes hs, if_pos hv, parseVersion_of_denotes ht]
  by_cases hb : b.Nonneg
  · simp only [if_pos hb]
  · simp only [if_neg hb]

theorem ServerConfig.checkVersion_iff (text : List Char) :
    c.gate.checkVersion text = true ↔
      (limits (trimSpace c.minClientVersion) = false ∧
        limits (trimSpace c.maxClientVersion) = false) ∨
      text ≠ [] ∧
        (limits (trimSpace c.minClientVersion) = true →
          compareVersions text (trimSpace c.minClientVersion) ≠ .lt) ∧
        (limits (trimSpace c.maxClientVersion) = true →
          compareVersions text (trimSpace c.maxClientVersion) ≠ .gt) := by
  simp only [VersionGate.checkVersion, gate, isVersionUnlimited_trimSpace]
  by_cases hlow : compareVersions text (trimSpace c.minClientVersion) = .lt <;>
    by_cases hhigh : compareVersions text (trimSpace c.maxClientVersion) = .gt <;>
      by_cases htext : text = [] <;>
        cases limits (trimSpace c.minClientVersion) <;>
          cases limits (trimSpace c.maxClientVersion) <;> simp [hlow, hhigh, htext]

theorem ServerConfig.admits_of_checkVersion (hvalid : c.validate = .ok ()) (hsound : c.SoundBounds)
    (hcheck : c.gate.checkVersion (extractVersionAndStrip auth).2 = true) : c.Admits auth := by
  obtain ⟨hmin, hmax⟩ := denotes_bounds hvalid
  rcases (checkVersion_iff _).1 hcheck with ⟨hnomin, hnomax⟩ | ⟨htext, hlow, hhigh⟩
  · refine ⟨fun h => ?_, fun h => ?_⟩
    · rw [hnomin] at h
      cases h
    · rw [hnomax] at h
      cases h
  · obtain ⟨v, hcarries, hv, hnonneg⟩ := carries_of_extract rfl htext
    refine ⟨fun hlimits => ?_, fun hlimits => ?_⟩
    · obtain ⟨b, hb⟩ := hmin hlimits
      refine ⟨v, b, hcarries, hb, ?_⟩
      have hcompare := hlow hlimits
      rw [compareVersions_of_denotes hv hnonneg hb] at hcompare
      by_cases hbound : b.Nonneg
      · rw [if_pos hbound] at hcompare
        exact (compare_parts v b).1.1 hcompare
      · have hzero := (hsound.min b hlimits hb).resolve_left hbound
        refine hzero.trans ?_
        obtain ⟨hmajor, hminor, hpatch⟩ := hnonneg
        simp only [Version.Le]
        omega
    · obtain ⟨b, hb⟩ := hmax hlimits
      refine ⟨v, b, hcarries, hb, ?_⟩
      have hcompare := hhigh hlimits
      rw [compareVersions_of_denotes hv hnonneg hb, if_pos (hsound.max b hlimits hb)] at hcompare
      exact (compare_parts v b).2.1 hcompare

/-! ## Versions that pass unsound bounds -/

def credential (text : List Char) : String := String.ofList ("u:p".toList ++ versionMarker ++ text)

theorem toList_credential (text : List Char) :
    (credential text).toList = "u:p".toList ++ versionMarker ++ text :=
  String.toList_ofList

def ServerConfig.setup (c : ServerConfig) : Setup where
  gate := c.gate
  startIP := 0x0a000064
  endIP := 0x0a0000c8
  users := (∅ : Store).insert "u" ⟨"p", true, 0, 0, none⟩
  p2pEnabled := false
  now := 0

theorem ServerConfig.login_with (htext : Denotes text v) (hv : v.Nonneg)
    (hcheck : c.gate.checkVersion text = true) :
    ∃ cfg, run c.setup.next c.setup.initial (loginRun 0 "198.51.100.1" (credential text)) =
        some cfg ∧
      cfg.threads.lookup (.login 0) = some (.login (.accepted ⟨"198.51.100.1", "u"⟩)) := by
  have hread : c.setup.gate.readAuth (credential text) = some ("u", "p") := by
    have hextract : extractVersionAndStrip (credential text).toList = ("u:p".toList, text) :=
      (congrArg extractVersionAndStrip (toList_credential text)).trans
        (extractVersionAndStrip_append htext hv)
    have hgate : c.setup.gate = c.gate := rfl
    have hparse : parseAuth "u:p".toList = some ("u", "p") := by decide +kernel
    rw [VersionGate.readAuth, hextract, hgate, if_pos hcheck, hparse]
  have hfresh : c.setup.initial.threads.lookup (.login 0) = none := Finmap.lookup_empty _
  exact ⟨_, login_accepted hfresh rfl rfl hread (Finmap.lookup_insert _)
    ⟨rfl, rfl, rfl, by decide⟩, Finmap.lookup_insert _⟩

theorem ServerConfig.carries_credential (htext : Denotes text v) (hv : v.Nonneg) :
    Carries (credential text).toList v :=
  ⟨"u:p".toList, text, toList_credential text, htext, hv⟩

def greatest : Version := ⟨2 ^ 63 - 1, 2 ^ 63 - 1, 2 ^ 63 - 1⟩

def greatestText : List Char :=
  "9223372036854775807.9223372036854775807.9223372036854775807".toList

theorem denotes_greatest : Denotes greatestText greatest := by
  unfold Denotes
  decide +kernel

theorem Denotes.le_greatest (h : Denotes s v) : v.Le greatest := by
  have hparts : ∀ n ∈ v.parts, n < 2 ^ 63 := by
    intro n hn
    obtain ⟨piece, -, hpiece⟩ := mem_of_mapM h hn
    exact atoi_lt hpiece
  have hmajor := hparts v.major (by simp [parts])
  have hminor := hparts v.minor (by simp [parts])
  have hpatch := hparts v.patch (by simp [parts])
  simp only [Version.Le, greatest]
  omega

/-- Every login that the server of a configuration accepts was admitted by the
bounds of the configuration. -/
def ServerConfig.Enforced (c : ServerConfig) : Prop :=
  ∀ (setup : Setup), setup.gate = c.gate → ∀ front n ip auth back cfg key,
    run setup.next setup.initial
      (front ++ .spawn (.login n) (.login (.start ip auth)) :: back) = some cfg →
    cfg.threads.lookup (.login n) = some (.login (.accepted key)) → c.Admits auth.toList

theorem ServerConfig.enforced_of_sound (hvalid : c.validate = .ok ()) (hsound : c.SoundBounds) :
    c.Enforced := by
  intro setup hgate front n ip auth back cfg key hrun haccepted
  rw [run_append, Option.bind_eq_some_iff] at hrun
  obtain ⟨middle, -, hrest⟩ := hrun
  obtain ⟨password, hread⟩ := readAuth_of_accepted hrest haccepted
  rw [hgate, VersionGate.readAuth] at hread
  split at hread
  next hcheck => exact admits_of_checkVersion hvalid hsound hcheck
  · cases hread

theorem ServerConfig.Enforced.admits (h : c.Enforced) (htext : Denotes text v) (hv : v.Nonneg)
    (hcheck : c.gate.checkVersion text = true) : c.Admits (credential text).toList := by
  obtain ⟨cfg, hrun, haccepted⟩ := login_with htext hv hcheck
  exact h c.setup rfl [] 0 _ _ (steps (.login 0) 5) cfg _ hrun haccepted

/-- A maximum with a negative component does not keep out the greatest version,
and a minimum with one does not keep out 0.0.0. -/
theorem ServerConfig.sound_of_enforced (hvalid : c.validate = .ok ()) (h : c.Enforced) :
    c.SoundBounds := by
  obtain ⟨hmin, hmax⟩ := denotes_bounds hvalid
  have hsoundMax : ∀ b, limits (trimSpace c.maxClientVersion) = true →
      Denotes (trimSpace c.maxClientVersion) b → b.Nonneg := by
    intro b hlimits hb
    by_contra hneg
    have hcheck : c.gate.checkVersion greatestText = true := by
      refine (checkVersion_iff _).2 (.inr ⟨by decide, fun hlow => ?_, fun _ => ?_⟩)
      · obtain ⟨low, hlow⟩ := hmin hlow
        rw [compareVersions_of_denotes denotes_greatest (by decide) hlow]
        split
        · exact (compare_parts greatest low).1.2 hlow.le_greatest
        · decide
      · rw [compareVersions_of_denotes denotes_greatest (by decide) hb, if_neg hneg]
        decide
    obtain ⟨v, b', hv, hb', hle⟩ := (h.admits denotes_greatest (by decide) hcheck).max hlimits
    obtain rfl := hv.unique (carries_credential denotes_greatest (by decide))
    obtain rfl := hb.unique hb'
    apply hneg
    simp only [Version.Le, greatest] at hle
    unfold Version.Nonneg
    have hbound := hb.le_greatest
    simp only [Version.Le, greatest] at hbound
    omega
  refine ⟨fun b hlimits hb => ?_, hsoundMax⟩
  by_contra hneg
  rw [not_or] at hneg
  have hzero : Denotes "0.0.0".toList ⟨0, 0, 0⟩ := by
    unfold Denotes
    decide +kernel
  have hcheck : c.gate.checkVersion "0.0.0".toList = true := by
    refine (checkVersion_iff _).2 (.inr ⟨by decide, fun _ => ?_, fun hhigh => ?_⟩)
    · rw [compareVersions_of_denotes hzero (by decide) hb, if_neg hneg.1]
      decide
    · obtain ⟨high, hhigh'⟩ := hmax hhigh
      obtain ⟨hmajor, hminor, hpatch⟩ := hsoundMax high hhigh hhigh'
      rw [compareVersions_of_denotes hzero (by decide) hhigh', if_pos ⟨hmajor, hminor, hpatch⟩]
      apply (compare_parts _ high).2.2
      simp only [Version.Le]
      omega
  obtain ⟨v, b', hv, hb', hle⟩ := (h.admits hzero (by decide) hcheck).min hlimits
  obtain rfl := hv.unique (carries_credential hzero (by decide))
  obtain rfl := hb.unique hb'
  exact hneg.2 hle

/-- An accepted configuration has its version bounds enforced exactly when the
maximum has no negative component, and the minimum has none or is below every
version. -/
theorem version_bounds_enforced (c : ServerConfig) (hvalid : c.validate = .ok ()) :
    c.Enforced ↔ c.SoundBounds :=
  ⟨sound_of_enforced hvalid, enforced_of_sound hvalid⟩

def bounded : ServerConfig :=
  { default with
    minClientVersion := "1.2.0".toList
    maxClientVersion := " 1.9.0".toList }

theorem version_bounds_enforced_bounded : bounded.validate = .ok () ∧ bounded.Enforced := by
  have hvalid : bounded.validate = .ok () := by decide +kernel
  refine ⟨hvalid, (version_bounds_enforced bounded hvalid).2 ⟨fun b _ hb => ?_, fun b _ hb => ?_⟩⟩
  · have hmin : Denotes (trimSpace bounded.minClientVersion) ⟨1, 2, 0⟩ := by
      unfold Denotes
      decide +kernel
    exact .inl (hb.unique hmin ▸ by decide)
  · have hmax : Denotes (trimSpace bounded.maxClientVersion) ⟨1, 9, 0⟩ := by
      unfold Denotes
      decide +kernel
    exact hb.unique hmax ▸ by decide

/-- The minimum 1.-2.0 lets version 0.0.0 in. -/
theorem negative_bound_ignored :
    ¬ ∀ c : ServerConfig, c.validate = .ok () → c.Enforced := by
  intro h
  have hbound : Denotes "1.-2.0".toList ⟨1, -2, 0⟩ := by
    unfold Denotes
    decide +kernel
  have hvalid : { default with minClientVersion := "1.-2.0".toList }.validate =
      .ok () := by decide +kernel
  have hsound := (sound_of_enforced hvalid (h _ hvalid)).min ⟨1, -2, 0⟩
    (by decide +kernel) hbound
  revert hsound
  decide

end Hy2Link.Config
