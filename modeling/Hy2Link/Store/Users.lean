import Hy2Link.Digest.Sha256
import Hy2Link.Server.Store
import Hy2Link.Text

/-! # The store and its file

`Store` with everything it keeps in memory and the file it saves to.  Each
method is one section under the mutex of the store.  A save can fail at any
time, and the methods differ in what they have changed by then.  The accounts
that the server looks at are a part of this store.
-/

namespace Hy2Link.Accounts

open Interleaving

/-- The zero time is `none`. -/
structure User where
  username : String
  password : String
  enabled : Bool
  maxBytes : UInt64
  usedBytes : UInt64
  createdAt : Option Time
  expireAt : Option Time
  note : String
deriving DecidableEq

/-- The pointers of the performance settings are `none` where the file has no
such field.  The users are kept in the map of the store; `saveLocked` lists
them anew. -/
structure Config where
  adminUsername : String
  adminPassword : String
  geoMode : String
  geoCountries : List String
  geoBlockPrivate : Bool
  lowPerformanceMode : Option Bool
  logEnabled : Option Bool
  highPriority : Option Bool
  latencyMode : Option String
deriving DecidableEq

/-- What stands in the file.  The users come in the order of a map iteration. -/
structure File where
  config : Config
  users : Multiset User

structure Store where
  file : File
  cfg : Config
  userMap : Table String User
  dirty : Bool

/-- How a save ends: it replaces the file, or `MarshalIndent`, `WriteFile` of
the temporary file or `Rename` answers with an error. -/
inductive Disk
  | saved
  | marshalFailed (message : String)
  | writeFailed (message : String)
  | renameFailed (message : String)
deriving DecidableEq

inductive StoreError
  | userExists
  | userNotFound
  | alreadyInitialized
  | wrongPassword
  | invalidMode (mode : String)
  | noCountries
  | disk (message : String)
deriving DecidableEq

def StoreError.text : StoreError → String
  | .userExists => "用户已存在"
  | .userNotFound => "用户不存在"
  | .alreadyInitialized => "服务端已初始化"
  | .wrongPassword => "原密码错误"
  | .invalidMode mode => "模式无效: " ++ mode
  | .noCountries => "地理围栏模式下国家/地区列表不能为空"
  | .disk message => message

def Disk.error : Disk → Option StoreError
  | .saved => none
  | .marshalFailed message => some (.disk message)
  | .writeFailed message => some (.disk message)
  | .renameFailed message => some (.disk message)

def hashPassword (pwd : String) : String :=
  String.ofList (Sha256.hex (Sha256.hash pwd.toUTF8.toList))

theorem hashPassword_ne_empty (pwd : String) : hashPassword pwd ≠ "" := by
  intro h
  have hlength := Sha256.length_hex (Sha256.hash pwd.toUTF8.toList)
  rw [hashPassword, String.ofList_eq_empty_iff] at h
  rw [h] at hlength
  cases hlength

/-- `upper` is `unicode.ToUpper`, a table of the Unicode standard; what is
proved here holds for every table. -/
def normalizeCountries (upper : Char → Char) (list : List String) : List String :=
  list.foldl (fun out c =>
    let c := (Text.trimSpace c.toList).map upper
    if Text.byteLength c ≠ 2 || out.contains (String.ofList c) then out
    else out ++ [String.ofList c]) []

example : normalizeCountries Char.toUpper [" cn", "US", "cn", "Germany"] = ["CN", "US"] := by
  decide +kernel

def normalizeLatencyMode (latencyMode : String) : String :=
  if ["low", "balanced", "throughput"].contains latencyMode then latencyMode else "low"

namespace Store

variable (upper : Char → Char) (s : Store)

/-! ## Values -/

def hasAdmin : Bool := s.cfg.adminUsername ≠ "" && s.cfg.adminPassword ≠ ""

def verifyAdmin (username password : String) : Bool :=
  if s.cfg.adminUsername = "" || s.cfg.adminPassword = "" then false
  else s.cfg.adminUsername = username && s.cfg.adminPassword = hashPassword password

def getGeoConfig : String × List String × Bool :=
  (s.cfg.geoMode, s.cfg.geoCountries, s.cfg.geoBlockPrivate)

def getPerformanceConfig : Bool × Bool × Bool × String :=
  (s.cfg.lowPerformanceMode.getD false, s.cfg.logEnabled.getD true,
    s.cfg.highPriority.getD false, normalizeLatencyMode (s.cfg.latencyMode.getD "low"))

def get (username : String) : Option User := s.userMap.lookup username

def list : Multiset User := s.userMap.entries.map fun entry => entry.2

/-! ## Methods that save -/

def saveLocked (disk : Disk) : Store × Option StoreError :=
  match disk with
  | .saved => ({ s with file := ⟨s.cfg, s.list⟩ }, none)
  | _ => (s, disk.error)

def setAdminIfUninitialized (username password : String) (disk : Disk) :
    Store × Option StoreError :=
  if s.cfg.adminUsername ≠ "" && s.cfg.adminPassword ≠ "" then (s, some .alreadyInitialized)
  else
    saveLocked
      { s with
        cfg := { s.cfg with
          adminUsername := username
          adminPassword := hashPassword password } } disk

def changeAdminPassword (oldPwd newPwd : String) (disk : Disk) : Store × Option StoreError :=
  if s.cfg.adminPassword ≠ hashPassword oldPwd then (s, some .wrongPassword)
  else saveLocked { s with cfg := { s.cfg with adminPassword := hashPassword newPwd } } disk

def setGeoConfig (mode : String) (countries : List String) (blockPrivate : Bool) (disk : Disk) :
    Store × Option StoreError :=
  if !(["off", "block", "allow"].contains mode) then (s, some (.invalidMode mode))
  else
    let normalized := normalizeCountries upper countries
    if mode ≠ "off" && normalized.length = 0 then (s, some .noCountries)
    else
      saveLocked
        { s with
          cfg := { s.cfg with
            geoMode := mode
            geoCountries := normalized
            geoBlockPrivate := blockPrivate } } disk

def setPerformanceConfig (lowPerf logEnabled highPriority : Bool) (latencyMode : String)
    (disk : Disk) : Store × Option StoreError :=
  saveLocked
    { s with
      cfg := { s.cfg with
        lowPerformanceMode := some lowPerf
        logEnabled := some logEnabled
        highPriority := some highPriority
        latencyMode := some (normalizeLatencyMode latencyMode) } } disk

def create (u : User) (now : Time) (disk : Disk) : Store × Option StoreError :=
  if u.username ∈ s.userMap then (s, some .userExists)
  else
    let u := { u with createdAt := some (u.createdAt.getD now) }
    saveLocked { s with userMap := s.userMap.insert u.username u } disk

def update (username : String) (fn : User → User) (disk : Disk) : Store × Option StoreError :=
  match s.userMap.lookup username with
  | none => (s, some .userNotFound)
  | some u => saveLocked { s with userMap := s.userMap.insert username (fn u) } disk

def delete (username : String) (disk : Disk) : Store × Option StoreError :=
  if username ∉ s.userMap then (s, some .userNotFound)
  else saveLocked { s with userMap := s.userMap.erase username } disk

/-- The value before the reset, and the error.  A failed save puts the value
back. -/
def resetTraffic (username : String) (disk : Disk) : Store × UInt64 × Option StoreError :=
  match s.userMap.lookup username with
  | none => (s, 0, some .userNotFound)
  | some u =>
    if u.usedBytes = 0 then (s, 0, none)
    else
      let zeroed := { s with userMap := s.userMap.insert username { u with usedBytes := 0 } }
      match zeroed.saveLocked disk with
      | (failed, some err) =>
        ({ failed with userMap := failed.userMap.insert username u }, 0, some err)
      | (saved, none) => ({ saved with dirty := false }, u.usedBytes, none)

/-! ## Traffic and the loop that flushes it -/

def addTraffic (username : String) (delta : UInt64) : Store :=
  if delta = 0 then s
  else
    match s.userMap.lookup username with
    | none => s
    | some u =>
      { s with
        userMap := s.userMap.insert username { u with usedBytes := u.usedBytes + delta }
        dirty := true }

/-- A tick of `FlushLoop`: the error of the save is dropped. -/
def flushTick (disk : Disk) : Store :=
  if s.dirty then { (s.saveLocked disk).1 with dirty := false } else s

/-- `FlushLoop` is told to stop. -/
def flushStop (disk : Disk) : Store := (s.saveLocked disk).1

end Store

inductive Op
  | setAdminIfUninitialized (username password : String)
  | changeAdminPassword (oldPwd newPwd : String)
  | setGeoConfig (mode : String) (countries : List String) (blockPrivate : Bool)
  | setPerformanceConfig (lowPerf logEnabled highPriority : Bool) (latencyMode : String)
  | create (u : User) (now : Time)
  | update (username : String) (fn : User → User)
  | delete (username : String)
  | resetTraffic (username : String)

def Store.exec (upper : Char → Char) (s : Store) (disk : Disk) : Op → Store × Option StoreError
  | .setAdminIfUninitialized username password => s.setAdminIfUninitialized username password disk
  | .changeAdminPassword oldPwd newPwd => s.changeAdminPassword oldPwd newPwd disk
  | .setGeoConfig mode countries blockPrivate =>
    s.setGeoConfig upper mode countries blockPrivate disk
  | .setPerformanceConfig lowPerf logEnabled highPriority latencyMode =>
    s.setPerformanceConfig lowPerf logEnabled highPriority latencyMode disk
  | .create u now => s.create u now disk
  | .update username fn => s.update username fn disk
  | .delete username => s.delete username disk
  | .resetTraffic username =>
    ((s.resetTraffic username disk).1, (s.resetTraffic username disk).2.2)

def Config.default : Config := ⟨"", "", "off", [], false, none, none, none, none⟩

/-- A new store: the file is read, or written if there is none.  A name that
the file has twice stands for the last of its users. -/
def newStore (upper : Char → Char) (content : Option (Config × List User)) (disk : Disk) :
    Option Store :=
  match content with
  | some (cfg, users) =>
    some
      { file := ⟨cfg, users⟩
        cfg := { cfg with
          geoMode := if cfg.geoMode = "" then "off" else cfg.geoMode
          geoCountries := normalizeCountries upper cfg.geoCountries }
        userMap := users.foldl (fun m u => m.insert u.username u) ∅
        dirty := false }
  | none =>
    match disk with
    | .saved => some ⟨⟨.default, 0⟩, .default, ∅, false⟩
    | _ => none

/-! ## Saving -/

variable {username : String} {u : User}

namespace Store

variable {upper : Char → Char} {s : Store} {disk : Disk}

@[simp] theorem saveLocked_cfg : (s.saveLocked disk).1.cfg = s.cfg := by
  cases disk <;> rfl

@[simp] theorem saveLocked_userMap : (s.saveLocked disk).1.userMap = s.userMap := by
  cases disk <;> rfl

@[simp] theorem saveLocked_error : (s.saveLocked disk).2 = disk.error := by
  cases disk <;> rfl

theorem error_eq_none_iff : disk.error = none ↔ disk = .saved := by
  cases disk <;> simp [Disk.error]

theorem saveLocked_failed (hdisk : disk ≠ .saved) : (s.saveLocked disk).1 = s := by
  cases disk with
  | saved => exact absurd rfl hdisk
  | _ => rfl

theorem resetTraffic_failed (hdisk : disk ≠ .saved) : (s.resetTraffic username disk).1 = s := by
  unfold resetTraffic
  cases hu : s.userMap.lookup username with
  | none => rfl
  | some u =>
    dsimp only
    split
    · rfl
    · cases disk with
      | saved => exact absurd rfl hdisk
      | _ =>
        simp only [saveLocked, Disk.error]
        rw [Finmap.insert_insert, insert_eq_self hu]

theorem resetTraffic_saved (hu : s.userMap.lookup username = some u) (hused : u.usedBytes ≠ 0) :
    s.resetTraffic username .saved =
      ({ (saveLocked { s with userMap := s.userMap.insert username { u with usedBytes := 0 } }
          .saved).1 with dirty := false }, u.usedBytes, none) := by
  simp only [resetTraffic, hu, if_neg hused]
  rfl

/-! The methods for users leave the settings alone. -/

@[simp] theorem create_cfg : (s.create u now disk).1.cfg = s.cfg := by
  unfold create
  split
  · rfl
  · rw [saveLocked_cfg]

@[simp] theorem update_cfg : (s.update username fn disk).1.cfg = s.cfg := by
  unfold update
  split
  · rfl
  · rw [saveLocked_cfg]

@[simp] theorem delete_cfg : (s.delete username disk).1.cfg = s.cfg := by
  unfold delete
  split
  · rfl
  · rw [saveLocked_cfg]

@[simp] theorem resetTraffic_cfg : (s.resetTraffic username disk).1.cfg = s.cfg := by
  unfold resetTraffic
  split
  · rfl
  · split
    · rfl
    · cases disk <;> rfl

@[simp] theorem addTraffic_cfg : (s.addTraffic username delta).cfg = s.cfg := by
  unfold addTraffic
  split
  · rfl
  · split <;> rfl

theorem mem_list (h : s.userMap.lookup username = some u) : u ∈ s.list :=
  Multiset.mem_map.2 ⟨⟨username, u⟩, Finmap.lookup_eq_some_iff.1 h, rfl⟩

end Store

/-! ## The accounts that the server looks at -/

def User.account (u : User) : Server.User :=
  ⟨u.password, u.enabled, u.maxBytes, u.usedBytes, u.expireAt⟩

/-- The closure that a `PUT` of `handleUserByName` passes to `update`. -/
def User.put (updates u : User) : User :=
  { u with
    password := if updates.password ≠ "" then updates.password else u.password
    enabled := updates.enabled
    maxBytes := updates.maxBytes
    note := updates.note
    expireAt := updates.expireAt }

namespace Store

/-- The store as `Authenticate` and the quota sweep see it. -/
def accounts (s : Store) : Server.Store := s.userMap.mapValues User.account

variable {upper : Char → Char} {s : Store} {disk : Disk}

theorem accounts_lookup :
    s.accounts.lookup username = (s.get username).map User.account := lookup_mapValues

theorem mem_accounts : username ∈ s.accounts ↔ username ∈ s.userMap := by
  simp only [Finmap.mem_iff, accounts_lookup, get, Option.map_eq_some_iff]
  constructor
  · rintro ⟨-, u, hu, -⟩
    exact ⟨u, hu⟩
  · rintro ⟨u, hu⟩
    exact ⟨_, u, hu, rfl⟩

theorem accounts_saveLocked : (s.saveLocked disk).1.accounts = s.accounts := by
  rw [accounts, accounts, saveLocked_userMap]

theorem accounts_create :
    (s.create u now disk).1.accounts =
      s.accounts.apply (.create u.username u.account) := by
  unfold create
  simp only [Server.Store.apply, Server.Store.create, mem_accounts]
  split
  · rfl
  · rw [accounts_saveLocked]
    exact mapValues_insert

theorem accounts_update {updates : User} :
    (s.update username updates.put disk).1.accounts =
      s.accounts.apply (.update username
        ⟨updates.password, updates.enabled, updates.maxBytes, updates.expireAt⟩) := by
  unfold update
  simp only [Server.Store.apply, Server.Store.update, Server.Store.modify, accounts_lookup, get]
  cases s.userMap.lookup username with
  | none => rfl
  | some u =>
    simp only [accounts_saveLocked, Option.map_some]
    exact mapValues_insert

theorem accounts_delete :
    (s.delete username disk).1.accounts = s.accounts.apply (.delete username) := by
  unfold delete
  simp only [Server.Store.apply, Server.Store.delete]
  split
  next habsent => exact (erase_eq_self (mem_accounts.not.2 habsent)).symm
  · rw [accounts_saveLocked]
    exact mapValues_erase

theorem accounts_addTraffic :
    (s.addTraffic username delta).accounts = s.accounts.apply (.addTraffic username delta) := by
  unfold addTraffic
  simp only [Server.Store.apply, Server.Store.addTraffic, Server.Store.modify, accounts_lookup, get]
  cases hu : s.userMap.lookup username with
  | none =>
    simp only [Option.map_none]
    split <;> rfl
  | some u =>
    simp only [Option.map_some]
    split
    next hzero =>
      -- no traffic, no change of the record
      subst hzero
      refine (insert_eq_self ?_).symm
      rw [accounts_lookup, get, hu, Option.map_some]
      simp [User.account]
    · exact mapValues_insert

theorem accounts_resetTraffic :
    (s.resetTraffic username disk).1.accounts =
      s.accounts.apply (.resetTraffic username (disk = .saved)) := by
  simp only [Server.Store.apply, Server.Store.resetTraffic, Server.Store.modify,
    accounts_lookup, get]
  cases hu : s.userMap.lookup username with
  | none => simp only [resetTraffic, hu, Option.map_none]
  | some u =>
    have hsame : s.accounts.lookup username = some u.account := by
      rw [accounts_lookup, get, hu, Option.map_some]
    simp only [Option.map_some]
    by_cases hdisk : disk = .saved
    · subst hdisk
      by_cases hused : u.usedBytes = 0
      · -- there is nothing to reset
        have hzero : { u.account with usedBytes := 0 } = u.account := by
          simp [User.account, hused]
        simp only [resetTraffic, hu, hused, if_true, decide_true, hzero]
        exact (insert_eq_self hsame).symm
      · rw [resetTraffic_saved hu hused]
        simp only [decide_true, if_true]
        exact mapValues_insert
    · rw [resetTraffic_failed hdisk]
      simp only [hdisk, decide_false, Bool.false_eq_true, if_false]
      exact (insert_eq_self hsame).symm

theorem accounts_flushTick : (s.flushTick disk).accounts = s.accounts := by
  unfold flushTick
  split
  · exact accounts_saveLocked
  · rfl

end Store

end Hy2Link.Accounts
