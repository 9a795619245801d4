import Hy2Link.Interleaving.Table
import Hy2Link.Protocol

/-! # Accounts

The part of `Store` that decides whether an account may be used: the users in
memory and the operations of the panel and of the traffic meter on them.  The
file behind the store is not part of it; an operation whose save fails has
changed the memory all the same, except for `resetTraffic`, which then puts
the old value back.
-/

namespace Hy2Link.Server

open Interleaving

/-- `expireAt` is `none` for the zero time. -/
structure User where
  password : String
  enabled : Bool
  maxBytes : UInt64
  usedBytes : UInt64
  expireAt : Option Time
deriving DecidableEq

abbrev Store := Table String User

/-- The fields a `PUT` of `handleUserByName` carries. -/
structure UserUpdate where
  password : String
  enabled : Bool
  maxBytes : UInt64
  expireAt : Option Time
deriving DecidableEq

def User.overQuota (u : User) : Bool := 0 < u.maxBytes && u.maxBytes ≤ u.usedBytes

def User.expired (u : User) (now : Time) : Bool :=
  match u.expireAt with
  | none => false
  | some deadline => deadline < now

/-- No new login of this account succeeds: it is disabled, past its end or out
of traffic. -/
def User.barred (u : User) (now : Time) : Bool := !u.enabled || u.expired now || u.overQuota

def UserUpdate.apply (updates : UserUpdate) (u : User) : User :=
  { u with
    password := if updates.password ≠ "" then updates.password else u.password
    enabled := updates.enabled
    maxBytes := updates.maxBytes
    expireAt := updates.expireAt }

inductive StoreEvent
  | create (username : String) (user : User)
  | update (username : String) (updates : UserUpdate)
  | delete (username : String)
  | addTraffic (username : String) (delta : UInt64)
  | resetTraffic (username : String) (saved : Bool)
deriving DecidableEq

namespace Store

variable (s : Store)

def modify (username : String) (f : User → User) : Store :=
  match s.lookup username with
  | none => s
  | some u => s.insert username (f u)

def create (username : String) (user : User) : Store :=
  if username ∈ s then s else s.insert username user

def update (username : String) (updates : UserUpdate) : Store := s.modify username updates.apply

def delete (username : String) : Store := s.erase username

def addTraffic (username : String) (delta : UInt64) : Store :=
  s.modify username fun u => { u with usedBytes := u.usedBytes + delta }

def resetTraffic (username : String) (saved : Bool) : Store :=
  s.modify username fun u => if saved then { u with usedBytes := 0 } else u

def apply : StoreEvent → Store
  | .create username user => s.create username user
  | .update username updates => s.update username updates
  | .delete username => s.delete username
  | .addTraffic username delta => s.addTraffic username delta
  | .resetTraffic username saved => s.resetTraffic username saved

/-- The account may not be used at this time: there is none, or it is barred. -/
def barred (username : String) (now : Time) : Bool :=
  match s.lookup username with
  | none => true
  | some u => u.barred now

end Store

theorem User.expired_mono {u : User} (hle : now ≤ later) (h : u.expired later = false) :
    u.expired now = false := by
  unfold User.expired at h ⊢
  cases hend : u.expireAt with
  | none => rfl
  | some deadline =>
    simp only [hend, decide_eq_false_iff_not, not_lt] at h ⊢
    exact hle.trans h

end Hy2Link.Server
