import Hy2Link.Digest.Sha256
import Hy2Link.Interleaving.Run
import Hy2Link.Interleaving.Table
import Hy2Link.Protocol
import Hy2Link.TextRules

/-! # The certificate that is trusted on first use

`verifyPin` and the file with the fingerprint of a server.  Up to six
connections are verified at the same time.  A verification reads the file in
one step; one that finds no fingerprint, also because the read fails, writes a
temporary file, which all of them share, and renames it.
-/

namespace Hy2Link.Client.Pin

open Interleaving Text

structure Certificate where
  notBefore : Time
  notAfter : Time
deriving DecidableEq

inductive VerifyError
  | noCertificate
  | unparsable
  | expired (cert : Certificate)
  | notSaved
  | mismatch (known got : List Char)
deriving DecidableEq

def fingerprint (raw : List UInt8) : List Char := Sha256.hex (Sha256.hash raw)

/-- `read` is what reading the file gives, with `none` for an error.  A text
that is no fingerprint counts as none. -/
def loadPinnedFingerprint (read : Option (List Char)) : Option (List Char) :=
  read.bind fun data =>
    let fp := (trimSpace data).map Char.toLower
    if byteLength fp = 64 && fp.all fun c => (hexDigit c).isSome then some fp else none

/-- Where a verification is, with the certificate that the server shows. -/
inductive PC
  | start (rawCerts : List (List UInt8))
  | write (raw : List UInt8)
  | rename (raw : List UInt8)
  | accepted (shown : Option (List UInt8))
  | refused (err : VerifyError)
deriving DecidableEq

structure Config where
  skipCertVerify : Bool
  file : Option (List Char)
  tmp : Option (List Char)
  threads : Table Nat PC

/-- A call that fails may leave something in the temporary file. -/
inductive Disk
  | works
  | fails (left : Option (List Char))

def Disk.readFile (file : Option (List Char)) : Disk → Option (List Char)
  | .works => file
  | .fails _ => none

inductive Action
  | connect (n : Nat) (rawCerts : List (List UInt8))
  | step (n : Nat) (now : Time) (disk : Disk)
  | clearPinnedFingerprint (disk : Disk)

variable (parseCertificate : List UInt8 → Option Certificate)

/-- `verifyPin` up to the end of its look at the file. -/
def verify (skipCertVerify : Bool) (read : Option (List Char)) (now : Time)
    (rawCerts : List (List UInt8)) : PC :=
  if skipCertVerify then .accepted rawCerts.head?
  else
    match rawCerts with
    | [] => .refused .noCertificate
    | raw :: _ =>
      match parseCertificate raw with
      | none => .refused .unparsable
      | some cert =>
        if now < cert.notBefore || cert.notAfter < now then .refused (.expired cert)
        else
          match loadPinnedFingerprint read with
          | none => .write raw
          | some known =>
            if equalFold known (fingerprint raw) then .accepted (some raw)
            else .refused (.mismatch known (fingerprint raw))

def Config.advance (cfg : Config) (now : Time) (disk : Disk) : PC → Option (Config × PC)
  | .start rawCerts =>
    some (cfg, verify parseCertificate cfg.skipCertVerify (disk.readFile cfg.file) now rawCerts)
  | .write raw =>
    match disk with
    | .works => some ({ cfg with tmp := some (fingerprint raw) }, .rename raw)
    | .fails left => some ({ cfg with tmp := left }, .refused .notSaved)
  | .rename raw =>
    match disk, cfg.tmp with
    | .works, some fp => some ({ cfg with file := some fp, tmp := none }, .accepted (some raw))
    | .works, none => some (cfg, .refused .notSaved)
    | .fails left, _ => some ({ cfg with tmp := left }, .refused .notSaved)
  | _ => none

def Config.next (cfg : Config) : Action → Option Config
  | .connect n rawCerts =>
    if n ∈ cfg.threads then none
    else some { cfg with threads := cfg.threads.insert n (.start rawCerts) }
  | .step n now disk =>
    (cfg.threads.lookup n).bind fun pc =>
      (cfg.advance parseCertificate now disk pc).map fun (cfg, pc) =>
        { cfg with threads := cfg.threads.insert n pc }
  | .clearPinnedFingerprint .works => some { cfg with file := none, tmp := none }
  | .clearPinnedFingerprint (.fails left) => some { cfg with file := none, tmp := left }

def PC.saving : PC → Bool
  | .write _ => true
  | .rename _ => true
  | _ => false

/-- The user does not clear the fingerprint, a verification is not skipped and can
read the file, and one that finds no fingerprint is the only one that saves. -/
def Config.undisturbed (cfg : Config) : Action → Bool
  | .connect _ _ => true
  | .step n _ disk =>
    match cfg.threads.lookup n, disk with
    | some (.start _), .works => !cfg.skipCertVerify &&
      ((loadPinnedFingerprint cfg.file).isSome || !cfg.threads.hasEntry fun _ pc => pc.saving)
    | some (.start _), .fails _ => false
    | _, _ => true
  | _ => false

/-- An accepted server has shown the certificate whose fingerprint is stored. -/
def Stored (file : Option (List Char)) (pc : PC) : Prop :=
  ∀ shown, pc = .accepted shown →
    ∃ raw, shown = some raw ∧ loadPinnedFingerprint file = some (fingerprint raw)

/-! ## The text of a fingerprint -/

theorem hexDigit_of_mem (hc : c ∈ fingerprint raw) :
    c.toLower = c ∧ isSpace c = false ∧ (hexDigit c).isSome = true ∧ c.utf8Size = 1 := by
  simp only [fingerprint, Sha256.hex, Sha256.hexWord, List.mem_flatMap, List.mem_map] at hc
  obtain ⟨w, -, i, -, rfl⟩ := hc
  have hdigit : ∀ n < 16, (Sha256.hexDigit n).toLower = Sha256.hexDigit n ∧
      isSpace (Sha256.hexDigit n) = false ∧ (hexDigit (Sha256.hexDigit n)).isSome = true ∧
      (Sha256.hexDigit n).utf8Size = 1 := by
    decide
  exact hdigit _ (Nat.mod_lt _ (by decide))

theorem lower_fingerprint : (fingerprint raw).map Char.toLower = fingerprint raw :=
  (List.map_congr_left fun _ hc => (hexDigit_of_mem hc).1).trans (List.map_id _)

theorem toLower_toLower (c : Char) : c.toLower.toLower = c.toLower := by
  unfold Char.toLower
  split
  next h =>
    rw [dif_neg]
    simp [UInt32.le_iff_toNat_le] at h ⊢
    omega
  · rfl

/-- A fingerprint that was saved is read back as it is. -/
theorem load_fingerprint :
    loadPinnedFingerprint (some (fingerprint raw)) = some (fingerprint raw) := by
  have htight : trimSpace (fingerprint raw) = fingerprint raw := Tight.trimSpace
    ⟨fun c hc => (hexDigit_of_mem (List.mem_of_mem_head? hc)).2.1,
      fun c hc => (hexDigit_of_mem (List.mem_of_mem_getLast? hc)).2.1⟩
  have hlength : byteLength (fingerprint raw) = 64 := by
    have hone : (fingerprint raw).map Char.utf8Size = List.replicate 64 1 := by
      rw [List.eq_replicate_iff, List.length_map, List.forall_mem_map]
      exact ⟨Sha256.length_hex _, fun c hc => (hexDigit_of_mem hc).2.2.2⟩
    rw [byteLength, hone]
    rfl
  have hhex : (fingerprint raw).all (fun c => (hexDigit c).isSome) = true :=
    List.all_eq_true.2 fun c hc => (hexDigit_of_mem hc).2.2.1
  simp only [loadPinnedFingerprint, Option.bind_some, htight, lower_fingerprint, hlength, hhex]
  rfl

theorem eq_of_equalFold (hload : loadPinnedFingerprint file = some known)
    (hfold : equalFold known (fingerprint raw) = true) : known = fingerprint raw := by
  obtain ⟨data, rfl, hdata⟩ := Option.bind_eq_some_iff.1 hload
  simp only [Option.ite_none_right_eq_some, Option.some.injEq] at hdata
  obtain ⟨-, rfl⟩ := hdata
  rw [equalFold, decide_eq_true_eq, lower_fingerprint, List.map_map] at hfold
  exact (List.map_congr_left fun c _ => (toLower_toLower c).symm).trans hfold

/-! ## One certificate -/

/-- What is accepted is what is stored, and was before if anything was; at most
one verification is saving. -/
structure Pinned (before : Option (List Char)) (cfg : Config) : Prop where
  kept : ∀ fp ∈ loadPinnedFingerprint before, loadPinnedFingerprint cfg.file = some fp
  accepted : ∀ n pc, cfg.threads.lookup n = some pc → Stored cfg.file pc
  saving : ∀ n pc, cfg.threads.lookup n = some pc → pc.saving = true →
    loadPinnedFingerprint cfg.file = none ∧
      ∀ m pc', cfg.threads.lookup m = some pc' → pc'.saving = true → m = n
  written : ∀ n raw, cfg.threads.lookup n = some (.rename raw) → cfg.tmp = some (fingerprint raw)

theorem Pinned.insert (h : Pinned before cfg) (hsaving : pc.saving = false)
    (hstored : Stored cfg.file pc) :
    Pinned before { cfg with threads := cfg.threads.insert n pc } := by
  have hold : ∀ m pc', (cfg.threads.insert n pc).lookup m = some pc' → pc'.saving = true →
      cfg.threads.lookup m = some pc' := by
    intro m pc' hm hsaving'
    rcases lookup_insert_eq_some.1 hm with ⟨-, rfl⟩ | ⟨-, hm⟩
    · simp [hsaving] at hsaving'
    · exact hm
  refine ⟨h.kept, forall_lookup_insert hstored fun m pc' _ hm => h.accepted m pc' hm,
    fun m pc' hm hsaving' => ?_, fun m raw hm => ?_⟩
  · obtain ⟨hnone, honly⟩ := h.saving m pc' (hold m pc' hm hsaving') hsaving'
    exact ⟨hnone, fun k pc'' hk hs => honly k pc'' (hold k pc'' hk hs) hs⟩
  · exact h.written m raw (hold m _ hm rfl)

/-- Nothing was stored before, and the other verifications are neither saving nor
accepted. -/
structure Alone (before : Option (List Char)) (cfg : Config) (n : Nat) : Prop where
  unpinned : loadPinnedFingerprint before = none
  others : ∀ m pc, m ≠ n → cfg.threads.lookup m = some pc →
    pc.saving = false ∧ ∀ shown, pc ≠ .accepted shown

theorem Pinned.alone (h : Pinned before cfg) (hnone : loadPinnedFingerprint cfg.file = none)
    (honly : ∀ m pc, cfg.threads.lookup m = some pc → pc.saving = true → m = n) :
    Alone before cfg n := by
  refine ⟨Option.eq_none_iff_forall_not_mem.2 fun fp hfp => ?_, fun m pc hne hm => ⟨?_, ?_⟩⟩
  · exact absurd ((h.kept fp hfp).symm.trans hnone) nofun
  · by_contra hs
    exact hne (honly m pc hm (Bool.not_eq_false _ ▸ hs))
  · rintro shown rfl
    obtain ⟨raw, -, hload⟩ := h.accepted m _ hm shown rfl
    exact absurd (hload.symm.trans hnone) nofun

theorem Alone.pinned (h : Alone before cfg n) (hstored : Stored cfg.file pc)
    (hsaving : pc.saving = true → loadPinnedFingerprint cfg.file = none)
    (hwritten : ∀ raw, pc = .rename raw → cfg.tmp = some (fingerprint raw)) :
    Pinned before { cfg with threads := cfg.threads.insert n pc } := by
  have hmine : ∀ m pc', (cfg.threads.insert n pc).lookup m = some pc' →
      (pc'.saving = true ∨ ∃ shown, pc' = .accepted shown) → m = n ∧ pc' = pc := by
    intro m pc' hm hpc
    rcases lookup_insert_eq_some.1 hm with hmine | ⟨hne, hm⟩
    · exact hmine
    · obtain ⟨hs, ha⟩ := h.others m pc' hne hm
      rcases hpc with hpc | ⟨shown, rfl⟩
      · simp [hs] at hpc
      · exact absurd rfl (ha shown)
  refine ⟨by simp [h.unpinned], fun m pc' hm shown heq => ?_, fun m pc' hm hs => ?_,
    fun m raw hm => ?_⟩
  · exact hstored shown ((hmine m pc' hm (.inr ⟨shown, heq⟩)).2.symm.trans heq)
  · obtain ⟨rfl, rfl⟩ := hmine m pc' hm (.inl hs)
    exact ⟨hsaving hs, fun k pc'' hk hs' => (hmine k pc'' hk (.inl hs')).1⟩
  · exact hwritten raw (hmine m _ hm (.inl rfl)).2.symm

variable {parseCertificate}

theorem verify_cases (file : Option (List Char))
    (hpc : verify parseCertificate false file now rawCerts = pc) :
    (pc.saving = false ∧ Stored file pc) ∨
      (∃ raw, pc = .write raw) ∧ loadPinnedFingerprint file = none := by
  subst hpc
  cases rawCerts with
  | nil => exact .inl ⟨rfl, nofun⟩
  | cons raw rest =>
    simp only [verify, Bool.false_eq_true, if_false]
    split
    · exact .inl ⟨rfl, nofun⟩
    · split
      · exact .inl ⟨rfl, nofun⟩
      · split
        next hnone => exact .inr ⟨⟨raw, rfl⟩, hnone⟩
        next known hload =>
          split
          next hfold =>
            have hstored := hload.trans (congrArg some (eq_of_equalFold hload hfold))
            exact .inl ⟨rfl, fun shown hshown => ⟨raw, (PC.accepted.inj hshown).symm, hstored⟩⟩
          · exact .inl ⟨rfl, nofun⟩

/-- A step keeps the fingerprint that the accepted connections rest on. -/
theorem Pinned.next (h : Pinned before cfg) (hok : cfg.undisturbed action = true)
    (hnext : cfg.next parseCertificate action = some cfg') : Pinned before cfg' := by
  cases action with
  | connect n rawCerts =>
    simp only [Config.next, Option.ite_none_left_eq_some] at hnext
    cases hnext.2
    exact h.insert rfl nofun
  | clearPinnedFingerprint disk => cases hok
  | step n now disk =>
    simp only [Config.next, Option.bind_eq_some_iff, Option.map_eq_some_iff] at hnext
    obtain ⟨pc, hn, ⟨after, pc'⟩, hadvance, rfl⟩ := hnext
    cases pc with
    | start rawCerts =>
      simp only [Config.undisturbed, hn] at hok
      cases disk with
      | fails left => cases hok
      | works =>
        simp only [Bool.and_eq_true, Bool.not_eq_true'] at hok
        obtain ⟨hskip, hok⟩ := hok
        simp only [Config.advance, hskip, Disk.readFile] at hadvance
        cases hadvance
        rcases verify_cases cfg.file rfl with ⟨hsaving, hstored⟩ | ⟨⟨raw, heq⟩, hnone⟩
        · exact h.insert hsaving hstored
        · simp only [hnone, Option.isSome_none, Bool.false_or, Bool.not_eq_true',
            Bool.eq_false_iff, ne_eq, hasEntry_iff] at hok
          rw [heq]
          refine (h.alone hnone fun m pc hm hs => ?_).pinned nofun (fun _ => hnone) nofun
          exact absurd ⟨m, pc, hm, hs⟩ hok
    | write raw =>
      obtain ⟨hnone, honly⟩ := h.saving n _ hn rfl
      obtain ⟨hbefore, hothers⟩ := h.alone hnone honly
      cases disk with
      | works =>
        cases hadvance
        exact Alone.pinned ⟨hbefore, hothers⟩ nofun (fun _ => hnone) (by simp)
      | fails left =>
        cases hadvance
        exact Alone.pinned ⟨hbefore, hothers⟩ nofun nofun nofun
    | rename raw =>
      obtain ⟨hnone, honly⟩ := h.saving n _ hn rfl
      obtain ⟨hbefore, hothers⟩ := h.alone hnone honly
      cases disk with
      | works =>
        simp only [Config.advance, h.written n raw hn] at hadvance
        cases hadvance
        refine Alone.pinned ⟨hbefore, hothers⟩ (fun shown hshown => ?_) nofun nofun
        exact ⟨raw, (PC.accepted.inj hshown).symm, load_fingerprint⟩
      | fails left =>
        cases hadvance
        exact Alone.pinned ⟨hbefore, hothers⟩ nofun nofun nofun
    | accepted | refused => cases hadvance

/-- However many connections are verified at the same time, all that are accepted
show the certificate that is stored, and it is the one that was stored before. -/
theorem trusted_on_first_use (parseCertificate : List UInt8 → Option Certificate)
    (skipCertVerify : Bool) (file tmp : Option (List Char)) (actions : List Action) (cfg : Config)
    (hok : Along (Config.next parseCertificate)
      (fun cfg action => cfg.undisturbed action = true) ⟨skipCertVerify, file, tmp, ∅⟩ actions)
    (hrun : run (Config.next parseCertificate) ⟨skipCertVerify, file, tmp, ∅⟩ actions = some cfg)
    (n : Nat) (shown : Option (List UInt8))
    (hn : cfg.threads.lookup n = some (.accepted shown)) :
    ∃ raw, shown = some raw ∧ loadPinnedFingerprint cfg.file = some (fingerprint raw) ∧
      ∀ fp ∈ loadPinnedFingerprint file, fp = fingerprint raw := by
  have hinitial : Pinned file ⟨skipCertVerify, file, tmp, ∅⟩ :=
    ⟨fun _ h => h, by simp, by simp, by simp⟩
  have h := run_invariant (fun _ _ _ h hok hnext => h.next hok hnext) hinitial hok hrun
  obtain ⟨raw, hshown, hstored⟩ := h.accepted n _ hn shown rfl
  exact ⟨raw, hshown, hstored, fun fp hfp => Option.some.inj ((h.kept fp hfp).symm.trans hstored)⟩

/-- The first of two connections stores its certificate, the second shows the
same one, and a third another one. -/
def firstUse : List Action :=
  [.connect 0 [[1]], .connect 1 [[1]], .connect 2 [[2]], .step 0 5 .works, .step 0 5 .works,
    .step 0 5 .works, .step 1 5 .works, .step 2 5 .works]

theorem trusted_on_first_use_saved :
    ∃ cfg, run (Config.next fun _ => some ⟨0, 9⟩) ⟨false, none, none, ∅⟩ firstUse = some cfg ∧
      (∀ shown, cfg.threads.lookup 2 ≠ some (.accepted shown)) ∧
      loadPinnedFingerprint cfg.file = some (fingerprint [1]) := by
  obtain ⟨cfg, hrun, hn, hother⟩ : ∃ cfg,
      run (Config.next fun _ => some ⟨0, 9⟩) ⟨false, none, none, ∅⟩ firstUse = some cfg ∧
      cfg.threads.lookup 1 = some (.accepted (some [1])) ∧
      cfg.threads.lookup 2 = some (.refused (.mismatch (fingerprint [1]) (fingerprint [2]))) := by
    decide +kernel
  obtain ⟨raw, hraw, hstored, -⟩ := trusted_on_first_use _ false none none firstUse cfg
    (by decide +kernel) hrun 1 _ hn
  cases hraw
  exact ⟨cfg, hrun, by simp [hother], hstored⟩

end Hy2Link.Client.Pin
