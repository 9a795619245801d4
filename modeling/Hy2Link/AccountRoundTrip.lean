import Hy2Link.RegistrationFrame
import Hy2Link.Store.Users
import Hy2Link.VersionBounds

/-! # An account on its way through the texts

The panel takes any name and password that are not empty.  The client joins
them with a version into one credential, which the server cuts at the first
colon, and writes the name into the registration frame of each plane.  A name
comes back from both if it has no colon and no line feed, has no space at its
ends and leaves room in the frame.
-/

namespace Hy2Link

open Interleaving Text Server Client AuthTables

namespace Admin

open Accounts

/-- The answers of `handleUsers` to a `POST`. -/
inductive CreateAnswer
  | invalidJSON
  | required
  | conflict (err : StoreError)
  | created (u : Accounts.User)
deriving DecidableEq

def CreateAnswer.status : CreateAnswer → Nat
  | .invalidJSON => 400
  | .required => 400
  | .conflict _ => 409
  | .created _ => 201

/-- The `POST` of `handleUsers`; the body is `none` if it is not the JSON of a
user. -/
def handleUsers (s : Accounts.Store) (body : Option Accounts.User) (now : Time) (disk : Disk) :
    Accounts.Store × CreateAnswer :=
  match body with
  | none => (s, .invalidJSON)
  | some u =>
    if u.username = "" || u.password = "" then (s, .required)
    else
      match s.create u now disk with
      | (s, some err) => (s, .conflict err)
      | (s, none) => (s, .created { u with createdAt := some (u.createdAt.getD now) })

theorem lookup_of_created (h : (handleUsers s (some u) now disk).2 = .created u') :
    u.username ≠ "" ∧ u.password ≠ "" ∧
      (handleUsers s (some u) now disk).1.accounts.lookup u.username = some u.account := by
  unfold handleUsers at h ⊢
  dsimp only at h ⊢
  split at h
  · cases h
  next hnames =>
    rw [if_neg hnames]
    simp only [Bool.or_eq_true, decide_eq_true_eq, not_or] at hnames
    refine ⟨hnames.1, hnames.2, ?_⟩
    cases hcreate : s.create u now disk with
    | mk t err =>
      rw [hcreate] at h
      cases err with
      | some err => cases h
      | none =>
        have hnew : u.username ∉ s.userMap := by
          intro hmem
          rw [Accounts.Store.create, if_pos hmem] at hcreate
          cases hcreate
        have haccounts := @Accounts.Store.accounts_create u s disk now
        rw [hcreate] at haccounts
        dsimp only at haccounts ⊢
        rw [haccounts, Server.Store.apply, Server.Store.create,
          if_neg (Accounts.Store.mem_accounts.not.2 hnew)]
        exact Finmap.lookup_insert _

end Admin

/-! ## The round trip -/

variable {setup : Setup} {cfg : ServerConfig} {n : Nat} {conn : ConnId} {ip : String}
  {u : Accounts.User} {vip : IPv4} {version : List Char} {plane : Plane}

open Admin

/-- The panel has accepted the account and the server finds it as it was
stored; it may be used, every version is admitted, the address is leased and
no call is in progress. -/
structure Ready (setup : Setup) (cfg : ServerConfig) (n : Nat) (conn : ConnId)
    (u : Accounts.User) (vip : IPv4) : Prop where
  unlimited : (isVersionUnlimited setup.gate.minClientVersion &&
    isVersionUnlimited setup.gate.maxClientVersion) = true
  created : ∃ store created disk u',
    (handleUsers store (some u) created disk).2 = .created u' ∧
      cfg.shared.users.lookup u.username =
        (handleUsers store (some u) created disk).1.accounts.lookup u.username
  enabled : u.enabled = true
  notExpired : u.account.expired cfg.shared.now = false
  underQuota : u.account.overQuota = false
  idle : cfg.shared.auth.mu = none
  login : cfg.threads.lookup (.login n) = none
  handler : cfg.threads.lookup (.plane conn) = none
  leased : cfg.shared.alloc.isLeased vip = true

def credentialOf (u : Accounts.User) (version : List Char) : String :=
  String.ofList (authString u.username.toList u.password.toList version)

/-- Login `n` with the credential of the account is accepted under the name of
the account, and the frame for the plane is read back with the name and the
address, so that the handler of `conn` is authorized. -/
def RoundTrip (setup : Setup) (cfg : ServerConfig) (n : Nat) (conn : ConnId) (ip : String)
    (u : Accounts.User) (vip : IPv4) (version : List Char) (plane : Plane) : Prop :=
  ∃ loggedIn, run setup.next cfg (loginRun n ip (credentialOf u version)) = some loggedIn ∧
    loggedIn.threads.lookup (.login n) = some (.login (.accepted ⟨ip, u.username⟩)) ∧
    ∃ reg, readRegistration plane ip (regFrame plane u.username.toList vip) = .ok reg ∧
      reg.username = u.username ∧ reg.vip = vip ∧
      ∃ registered, run setup.next loggedIn (connectRun conn reg 6) = some registered ∧
        registered.threads.lookup (.plane conn) = some (.plane reg .accept)

structure PlainName (username : List Char) (plane : Plane) (vip : IPv4) : Prop where
  colon : ':' ∉ username
  line : '\n' ∉ username
  tight : Tight username
  fits : byteLength (regFrame plane username vip) ≤ maxRegFrameSize

/-- Nothing is in the way of the account: not its name, no ban of the peer and
no other owner of the address. -/
structure Unhindered (cfg : ServerConfig) (ip : String) (u : Accounts.User) (vip : IPv4)
    (plane : Plane) : Prop where
  name : PlainName u.username.toList plane vip
  notBanned : (cfg.shared.auth.isBanned ip cfg.shared.now).2 = false
  free : cfg.shared.auth.claimable ⟨ip, u.username⟩ vip = true

theorem checkVersion_of_unlimited {gate : VersionGate}
    (h : (isVersionUnlimited gate.minClientVersion &&
      isVersionUnlimited gate.maxClientVersion) = true) (text : List Char) :
    gate.checkVersion text = true := by
  unfold VersionGate.checkVersion
  rw [if_pos h]

/-- The server reads the credential up to its first colon, whatever the
password. -/
theorem readAuth_credentialOf {gate : VersionGate}
    (hgate : (isVersionUnlimited gate.minClientVersion &&
      isVersionUnlimited gate.maxClientVersion) = true)
    (hversion : (parseVersion version).isSome = true) :
    gate.readAuth (credentialOf u version) =
      parseAuth (u.username.toList ++ ':' :: u.password.toList) := by
  obtain ⟨x, hx⟩ := Option.isSome_iff_exists.1 hversion
  obtain ⟨v, hv, hnonneg⟩ := Config.denotes_of_parseVersion hx
  have hextract : extractVersionAndStrip (credentialOf u version).toList =
      (u.username.toList ++ ':' :: u.password.toList, version) := by
    rw [credentialOf, String.toList_ofList, authString]
    exact Config.extractVersionAndStrip_append hv hnonneg
  rw [VersionGate.readAuth, hextract]
  dsimp only
  rw [if_pos (checkVersion_of_unlimited hgate version)]

theorem parseAuth_append (hcolon : ':' ∉ username.toList) :
    parseAuth (username.toList ++ ':' :: password.toList) = some (username, password) := by
  rw [parseAuth, index_append hcolon]
  simp

theorem colon_of_parseAuth (h : parseAuth s = some (username, password)) :
    ':' ∉ username.toList := by
  obtain ⟨i, hi, heq⟩ := Option.map_eq_some_iff.1 h
  obtain ⟨rfl, -⟩ := Prod.mk.inj heq
  rw [String.toList_ofList]
  exact not_mem_take_index hi

section

variable (h : Ready setup cfg n conn u vip)
include h

theorem Ready.login_run
    (hversion : (parseVersion version).isSome = true) (hcolon : ':' ∉ u.username.toList)
    (hban : (cfg.shared.auth.isBanned ip cfg.shared.now).2 = false) :
    run setup.next cfg (loginRun n ip (credentialOf u version)) =
      some { shared := { cfg.shared with
               auth := cfg.shared.auth.afterLogin ip u.username cfg.shared.now }
             threads := cfg.threads.insert (.login n) (.login (.accepted ⟨ip, u.username⟩)) } := by
  obtain ⟨store, created, disk, u', hcreated, husers⟩ := h.created
  obtain ⟨-, -, hlookup⟩ := lookup_of_created hcreated
  have hread : setup.gate.readAuth (credentialOf u version) = some (u.username, u.password) := by
    rw [readAuth_credentialOf h.unlimited hversion]
    exact parseAuth_append hcolon
  have hadmits : u.account.Admits u.password cfg.shared.now :=
    ⟨h.enabled, rfl, h.notExpired, h.underQuota⟩
  exact login_accepted h.login h.idle hban hread (husers.trans hlookup) hadmits

theorem Ready.username_ne : u.username ≠ "" := by
  obtain ⟨store, created, disk, u', hcreated, -⟩ := h.created
  exact (lookup_of_created hcreated).1

theorem Ready.handler_insert (l : Local) :
    (cfg.threads.insert (.login n) l).lookup (.plane conn) = none := by
  rw [Finmap.lookup_insert_of_ne _ (by simp)]
  exact h.handler

theorem Ready.roundTrip
    (hversion : (parseVersion version).isSome = true) (hclear : Unhindered cfg ip u vip plane) :
    RoundTrip setup cfg n conn ip u vip version plane := by
  have hplain := hclear.name
  have hframe : readRegistration plane ip (regFrame plane u.username.toList vip) =
      .ok ⟨some plane, ip, u.username, vip⟩ := by
    rw [readRegistration_regFrame hplain.line hplain.tight hplain.fits, String.ofList_toList]
  refine ⟨_, h.login_run hversion hplain.colon hclear.notBanned, Finmap.lookup_insert _, _,
    hframe, rfl, rfl, ?_⟩
  apply plane_authorized
  · exact h.handler_insert _
  · rw [afterLogin_mu]
    exact h.idle
  · exact h.username_ne
  · exact authorized_afterLogin _ _ _ _
  · exact h.leased
  · rfl
  · exact (afterLogin_claimable _ _ _ _ _ _).trans hclear.free

end

theorem RoundTrip.plainName (h : RoundTrip setup cfg n conn ip u vip version plane)
    (hgate : (isVersionUnlimited setup.gate.minClientVersion &&
      isVersionUnlimited setup.gate.maxClientVersion) = true)
    (hversion : (parseVersion version).isSome = true) :
    PlainName u.username.toList plane vip := by
  obtain ⟨loggedIn, hrun, haccepted, reg, hreg, hname, -, -⟩ := h
  obtain ⟨password, hread⟩ := readAuth_of_accepted hrun haccepted
  rw [readAuth_credentialOf hgate hversion] at hread
  obtain ⟨hline, htight, hfits⟩ := of_readRegistration hreg
  rw [hname] at hline htight
  exact ⟨colon_of_parseAuth hread, hline, htight, hfits⟩

theorem RoundTrip.unhindered (h : RoundTrip setup cfg n conn ip u vip version plane)
    (hready : Ready setup cfg n conn u vip) (hversion : (parseVersion version).isSome = true) :
    Unhindered cfg ip u vip plane := by
  have hplain := h.plainName hready.unlimited hversion
  obtain ⟨loggedIn, hrun, -, reg, hreg, -, -, registered, hregister, haccept⟩ := h
  have hban := notBanned_of_loginRun hrun
  -- a plain name is read back, so both runs start where the forward direction starts them
  rw [readRegistration_regFrame hplain.line hplain.tight hplain.fits, String.ofList_toList,
    Except.ok.injEq] at hreg
  subst hreg
  rw [hready.login_run hversion hplain.colon hban, Option.some.injEq] at hrun
  subst hrun
  have hfree := claimable_of_authorized (hready.handler_insert _)
    ((afterLogin_mu _ _ _ _).trans hready.idle) hready.username_ne
    (authorized_afterLogin _ _ _ _) hready.leased hregister haccept
  exact ⟨hplain, hban, (afterLogin_claimable _ _ _ _ _ _).symm.trans hfree⟩

/-- An account that the panel has accepted can log in and register its address
exactly if nothing is in its way: its name fits the credential and the frame, its
peer is not banned, and nobody else owns the address. -/
theorem account_round_trip (hready : Ready setup cfg n conn u vip)
    (hversion : (parseVersion version).isSome = true) :
    RoundTrip setup cfg n conn ip u vip version plane ↔ Unhindered cfg ip u vip plane :=
  ⟨fun h => h.unhindered hready hversion, hready.roundTrip hversion⟩

/-! ## Two accounts -/

def annAccount : Accounts.User := ⟨"ann", "pw", true, 0, 0, none, none, ""⟩

def colonAccount : Accounts.User := ⟨"ann:b", "pw", true, 0, 0, none, none, ""⟩

def emptyStore : Accounts.Store := ⟨⟨.default, 0⟩, .default, ∅, false⟩

/-- The panel has accepted both. -/
def twoAccounts : Accounts.Store :=
  (handleUsers (handleUsers emptyStore (some annAccount) 0 .saved).1
    (some colonAccount) 0 .saved).1

def twoAccountSetup : Setup := { smallSetup with users := twoAccounts.accounts }

/-- Ann logs in and gets an address. -/
def annLeaseRun : List ServerAction :=
  loginRun 0 annData.peerIP "ann:pw" ++ requestRun 0 annData.key "dev"

/-- What a state decides of `Ready` and `Unhindered`, for an account that was
created in this store. -/
def isReady (store : Accounts.Store) (u : Accounts.User) (cfg : ServerConfig) : Bool :=
  (cfg.shared.users.lookup u.username =
    (handleUsers store (some u) 0 .saved).1.accounts.lookup u.username) &&
  !u.account.expired cfg.shared.now &&
  cfg.shared.auth.mu = none &&
  cfg.threads.lookup (.login 1) = none &&
  cfg.threads.lookup (.plane 1) = none &&
  cfg.shared.alloc.isLeased annVIP &&
  !(cfg.shared.auth.isBanned annData.peerIP cfg.shared.now).2 &&
  cfg.shared.auth.claimable ⟨annData.peerIP, u.username⟩ annVIP

theorem ready_of_run (hcreated : (handleUsers store (some u) 0 .saved).2 = .created u')
    (henabled : u.enabled = true) (hquota : u.account.overQuota = false)
    (hrun : ∃ cfg, run twoAccountSetup.next twoAccountSetup.initial annLeaseRun = some cfg ∧
      isReady store u cfg = true) :
    ∃ cfg, run twoAccountSetup.next twoAccountSetup.initial annLeaseRun = some cfg ∧
      Ready twoAccountSetup cfg 1 1 u annVIP ∧
      (cfg.shared.auth.isBanned annData.peerIP cfg.shared.now).2 = false ∧
      cfg.shared.auth.claimable ⟨annData.peerIP, u.username⟩ annVIP = true := by
  obtain ⟨cfg, hcfg, hready⟩ := hrun
  simp only [isReady, Bool.and_eq_true, Bool.not_eq_true', decide_eq_true_eq] at hready
  obtain ⟨⟨⟨⟨⟨⟨⟨hlookup, hexpired⟩, hmu⟩, hlogin⟩, hplane⟩, hleased⟩, hbanned⟩, hfree⟩ := hready
  exact ⟨cfg, hcfg, ⟨by decide +kernel, ⟨store, 0, .saved, u', hcreated, hlookup⟩, henabled,
    hexpired, hquota, hmu, hlogin, hplane, hleased⟩, hbanned, hfree⟩

/-- Ann comes back. -/
theorem account_round_trip_ann :
    ∃ cfg, run twoAccountSetup.next twoAccountSetup.initial annLeaseRun = some cfg ∧
      RoundTrip twoAccountSetup cfg 1 1 annData.peerIP annAccount annVIP "1.0.0".toList .data := by
  have hcreated : (handleUsers emptyStore (some annAccount) 0 .saved).2 =
      .created { annAccount with createdAt := some 0 } := by decide +kernel
  obtain ⟨cfg, hcfg, hready, hbanned, hfree⟩ :=
    ready_of_run hcreated rfl rfl (by decide +kernel)
  have hplain : PlainName annAccount.username.toList .data annVIP :=
    ⟨by decide +kernel, by decide +kernel, trimSpace_eq_self_iff.1 (by decide +kernel),
      by decide +kernel⟩
  exact ⟨cfg, hcfg, (account_round_trip hready (by decide +kernel)).2 ⟨hplain, hbanned, hfree⟩⟩

/-- A name with a colon is accepted by the panel and cut by the server, though
the peer is not banned and the address is free. -/
theorem colon_account_lost :
    ∃ cfg, run twoAccountSetup.next twoAccountSetup.initial annLeaseRun = some cfg ∧
      Ready twoAccountSetup cfg 1 1 colonAccount annVIP ∧
      (cfg.shared.auth.isBanned annData.peerIP cfg.shared.now).2 = false ∧
      cfg.shared.auth.claimable ⟨annData.peerIP, colonAccount.username⟩ annVIP = true ∧
      ¬ RoundTrip twoAccountSetup cfg 1 1 annData.peerIP colonAccount annVIP "1.0.0".toList
        .data := by
  have hcreated : (handleUsers (handleUsers emptyStore (some annAccount) 0 .saved).1
      (some colonAccount) 0 .saved).2 = .created { colonAccount with createdAt := some 0 } := by
    decide +kernel
  obtain ⟨cfg, hcfg, hready, hbanned, hfree⟩ :=
    ready_of_run hcreated rfl rfl (by decide +kernel)
  refine ⟨cfg, hcfg, hready, hbanned, hfree, fun htrip => ?_⟩
  exact absurd (htrip.plainName hready.unlimited (by decide +kernel)).colon (by decide +kernel)

end Hy2Link
