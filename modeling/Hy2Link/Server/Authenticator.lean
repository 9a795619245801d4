import Hy2Link.Interleaving.Table
import Hy2Link.Protocol
import Hy2Link.Text

/-! # The authenticator

`CustomAuthenticator`: how a credential text is read, the ban table, the
authorization records that a successful login leaves behind, and the owners of
virtual addresses.  Each operation is one section under the mutex of the
authenticator; the call that authorizes a data plane keeps the mutex over two
calls of the allocator and is therefore cut into several operations.
-/

namespace Hy2Link.Server

open Interleaving Option

def maxFailCount : Nat := 5

def banDuration : Time := 10 * minute

def dataPlaneSessionTTL : Time := 10 * minute

/-- `sessionKey` of the code joins the two texts with a NUL, which no IP
address contains. -/
structure SessionKey where
  peerIP : String
  username : String
deriving DecidableEq

/-- The goroutines that use the tables of the server: the handler of a plane
connection, the signalling loop of a control connection, the datagram loop of
a game connection, a login, an address request carried by the connection of a
login, and a call of `PushSignal`. -/
inductive Thread
  | plane (conn : ConnId)
  | signal (conn : ConnId)
  | datagrams (conn : ConnId)
  | login (n : Nat)
  | dhcp (login n : Nat)
  | push (n : Nat)
deriving DecidableEq

/-! ## Credentials -/

section Credentials

open Text

def versionMarker : List Char := ":vn=".toList

def parseVersion (v : List Char) : Option (List Int) :=
  match (v.splitOn '.').mapM atoi with
  | some [x, y, z] => if 0 ≤ x && 0 ≤ y && 0 ≤ z then some [x, y, z] else none
  | _ => none

/-- An invalid version compares as equal to everything. -/
def compareVersions (a b : List Char) : Ordering :=
  match parseVersion a, parseVersion b with
  | some x, some y => compare x y
  | _, _ => .eq

def isVersionUnlimited (v : List Char) : Bool :=
  trimSpace v = [] || trimSpace v = "0.0.0".toList

def extractVersionAndStrip (auth : List Char) : List Char × List Char :=
  match lastIndex versionMarker auth with
  | none => (auth, [])
  | some i =>
    let version := auth.drop (i + versionMarker.length)
    if (parseVersion version).isSome then (auth.take i, version) else (auth, [])

def parseAuth (auth : List Char) : Option (String × String) :=
  (index ':' auth).map fun i =>
    (String.ofList (auth.take i), String.ofList (auth.drop (i + 1)))

structure VersionGate where
  minClientVersion : List Char
  maxClientVersion : List Char

def VersionGate.checkVersion (gate : VersionGate) (clientVersion : List Char) : Bool :=
  if isVersionUnlimited gate.minClientVersion && isVersionUnlimited gate.maxClientVersion then
    true
  else if clientVersion = [] then false
  else if !isVersionUnlimited gate.minClientVersion &&
      compareVersions clientVersion gate.minClientVersion = .lt then false
  else !(!isVersionUnlimited gate.maxClientVersion &&
      compareVersions clientVersion gate.maxClientVersion = .gt)

/-- What `Authenticate` makes of the text before it looks at the accounts. -/
def VersionGate.readAuth (gate : VersionGate) (auth : String) : Option (String × String) :=
  let stripped := extractVersionAndStrip auth.toList
  if gate.checkVersion stripped.2 then parseAuth stripped.1 else none

example : (VersionGate.mk "0.2.0".toList []).readAuth "ann:a:b:vn=0.2.1" =
    some ("ann", "a:b") := by decide +kernel

end Credentials

/-! ## Tables -/

/-- `mu` is the thread inside the mutex, where a call is cut into several
operations. -/
structure AuthTables where
  mu : Option Thread
  failCount : Table String Nat
  bannedUntil : Table String Time
  authorizedKeys : Table SessionKey Time
  vipOwner : Table IPv4 SessionKey

/-- The sections under the mutex.  `authorize` and `claimOwner` are the two
parts of `AuthorizeDataPlane`; the time is the one the call read before it
took the mutex. -/
inductive AuthOp : Type → Type
  | authorize (key : SessionKey) (now : Time) : AuthOp Bool
  | claimOwner (key : SessionKey) (vip : IPv4) (now : Time) : AuthOp Bool
  | unlock : AuthOp Unit
  | releaseSession (key : SessionKey) (vip : IPv4) : AuthOp Unit
  | registerSession (key : SessionKey) : AuthOp Unit
  | isBanned (ip : String) : AuthOp Bool
  | recordFailure (ip : String) : AuthOp Unit
  | recordSuccess (ip : String) : AuthOp Unit

namespace AuthTables

variable (a : AuthTables)

def empty : AuthTables := ⟨none, ∅, ∅, ∅, ∅⟩

/-- There is a record of a login that has not expired. -/
def authorized (key : SessionKey) (now : Time) : Bool :=
  match a.authorizedKeys.lookup key with
  | none => false
  | some expireAt => now ≤ expireAt

/-- The record check.  It removes an expired record; the mutex stays taken
only if the call goes on. -/
def authorize (t : Thread) (key : SessionKey) (now : Time) : AuthTables × Bool :=
  if a.authorized key now then ({ a with mu := some t }, true)
  else ({ a with authorizedKeys := a.authorizedKeys.erase key }, false)

/-- An address of another owner is refused; otherwise it is bound to the key,
and the record of the key is renewed. -/
def claimable (key : SessionKey) (vip : IPv4) : Bool :=
  match a.vipOwner.lookup vip with
  | none => true
  | some owner => owner = key

def claimOwner (key : SessionKey) (vip : IPv4) (now : Time) : AuthTables × Bool :=
  if a.claimable key vip then
    ({ a with
      vipOwner := a.vipOwner.insert vip key
      authorizedKeys := a.authorizedKeys.insert key (now + dataPlaneSessionTTL) }, true)
  else (a, false)

def releaseSession (key : SessionKey) (vip : IPv4) : AuthTables :=
  if a.vipOwner.lookup vip = some key then { a with vipOwner := a.vipOwner.erase vip } else a

def registerSession (key : SessionKey) (now : Time) : AuthTables :=
  { a with authorizedKeys := a.authorizedKeys.insert key (now + dataPlaneSessionTTL) }

def unban (ip : String) : AuthTables :=
  { a with bannedUntil := a.bannedUntil.erase ip, failCount := a.failCount.erase ip }

def isBanned (ip : String) (now : Time) : AuthTables × Bool :=
  match a.bannedUntil.lookup ip with
  | none => (a, false)
  | some deadline => if deadline < now then (a.unban ip, false) else (a, true)

def recordFailure (ip : String) (now : Time) : AuthTables :=
  let count := (a.failCount.lookup ip).getD 0 + 1
  let a := { a with failCount := a.failCount.insert ip count }
  if maxFailCount ≤ count then
    { a with bannedUntil := a.bannedUntil.insert ip (now + banDuration) }
  else a

def recordSuccess (ip : String) : AuthTables := a.unban ip

/-- Another thread inside the mutex blocks an operation. -/
def exec (t : Thread) (now : Time) {Result : Type} : AuthOp Result → Option (AuthTables × Result)
  | .authorize key at_ => if a.mu = none then some (a.authorize t key at_) else none
  | .claimOwner key vip at_ => if a.mu = some t then some (a.claimOwner key vip at_) else none
  | .unlock => if a.mu = some t then some ({ a with mu := none }, ()) else none
  | .releaseSession key vip => if a.mu = none then some (a.releaseSession key vip, ()) else none
  | .registerSession key => if a.mu = none then some (a.registerSession key now, ()) else none
  | .isBanned ip => if a.mu = none then some (a.isBanned ip now) else none
  | .recordFailure ip => if a.mu = none then some (a.recordFailure ip now, ()) else none
  | .recordSuccess ip => if a.mu = none then some (a.recordSuccess ip, ()) else none

def sweepKey (key : SessionKey) (now : Time) : AuthTables :=
  if a.authorized key now then a else { a with authorizedKeys := a.authorizedKeys.erase key }

def sweepBan (ip : String) (now : Time) : AuthTables := (a.isBanned ip now).1

/-- The part of the cleanup loop for one owner: it goes only when the address
is not leased. -/
def sweepOwner (vip : IPv4) (leased : Bool) : AuthTables :=
  if leased then a else { a with vipOwner := a.vipOwner.erase vip }

end AuthTables

def AuthOp.releases {Result : Type} (vip : IPv4) : AuthOp Result → Bool
  | .releaseSession _ v => v = vip
  | _ => false

namespace AuthTables

variable {a a' : AuthTables} {Result : Type}

theorem claimOwner_owner (howner : a.vipOwner.lookup v = some owner) :
    (a.claimOwner key vip at_).1.vipOwner.lookup v = some owner := by
  unfold claimOwner
  split
  next hclaim =>
    by_cases hv : v = vip
    · subst hv
      rw [claimable, howner] at hclaim
      rw [of_decide_eq_true hclaim]
      exact Finmap.lookup_insert _
    · exact (Finmap.lookup_insert_of_ne _ hv).trans howner
  · exact howner

theorem exec_owner (hexec : a.exec t now op = some (a', result)) (hop : op.releases vip = false)
    (howner : a.vipOwner.lookup vip = some owner) : a'.vipOwner.lookup vip = some owner := by
  cases op with
  | authorize key at_ =>
    simp only [exec, ite_none_right_eq_some, some.injEq] at hexec
    obtain ⟨-, hexec⟩ := hexec
    unfold authorize at hexec
    split at hexec <;> cases hexec <;> exact howner
  | claimOwner key v at_ =>
    simp only [exec, ite_none_right_eq_some, some.injEq] at hexec
    rw [show a' = (a.claimOwner key v at_).1 from (congrArg Prod.fst hexec.2).symm]
    exact claimOwner_owner howner
  | releaseSession key v =>
    simp only [exec, ite_none_right_eq_some, some.injEq] at hexec
    cases hexec.2
    have hne : vip ≠ v := Ne.symm (of_decide_eq_false hop)
    unfold releaseSession
    split
    · exact (Finmap.lookup_erase_ne hne).trans howner
    · exact howner
  | isBanned ip =>
    simp only [exec, ite_none_right_eq_some, some.injEq] at hexec
    obtain ⟨-, hexec⟩ := hexec
    unfold isBanned at hexec
    split at hexec
    · cases hexec
      exact howner
    · split at hexec <;> cases hexec <;> exact howner
  | recordFailure ip =>
    simp only [exec, ite_none_right_eq_some, some.injEq] at hexec
    cases hexec.2
    unfold recordFailure
    dsimp only
    split <;> exact howner
  | _ =>
    simp only [exec, ite_none_right_eq_some, some.injEq] at hexec
    cases hexec.2
    exact howner

theorem authorized_iff :
    a.authorized key at_ = true ↔
      ∃ expireAt, a.authorizedKeys.lookup key = some expireAt ∧ at_ ≤ expireAt := by
  unfold authorized
  cases a.authorizedKeys.lookup key <;> simp

@[simp] theorem isBanned_authorizedKeys (ip : String) :
    (a.isBanned ip now).1.authorizedKeys = a.authorizedKeys := by
  unfold isBanned
  split
  · rfl
  · split <;> rfl

@[simp] theorem recordFailure_authorizedKeys (ip : String) :
    (a.recordFailure ip now).authorizedKeys = a.authorizedKeys := by
  unfold recordFailure
  dsimp only
  split <;> rfl

@[simp] theorem releaseSession_authorizedKeys (key : SessionKey) (vip : IPv4) :
    (a.releaseSession key vip).authorizedKeys = a.authorizedKeys := by
  unfold releaseSession
  split <;> rfl

@[simp] theorem sweepOwner_authorizedKeys (vip : IPv4) (leased : Bool) :
    (a.sweepOwner vip leased).authorizedKeys = a.authorizedKeys := by
  unfold sweepOwner
  split <;> rfl

theorem sweepKey_record (h : (a.sweepKey k now).authorizedKeys.lookup key = some expireAt) :
    a.authorizedKeys.lookup key = some expireAt := by
  unfold sweepKey at h
  split at h
  · exact h
  · exact (lookup_erase_eq_some.1 h).2

end AuthTables

end Hy2Link.Server
