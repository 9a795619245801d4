import Hy2Link.Interleaving.Table
import Hy2Link.Protocol

/-! # Sessions and failed logins of the panel

`SessionManager` and `loginLimiter`.  Every method is one section under the
mutex of its object.  Tokens are 32 random bytes; they are numbered here in
the order in which they are generated, so that no two are alike.
-/

namespace Hy2Link.Admin

open Interleaving

/-! ## Sessions -/

abbrev Token := Nat

structure Session where
  expireAt : Time
  hardDeadline : Time
deriving DecidableEq

structure SessionManager where
  sessions : Table Token Session
  nextToken : Token
  ttl : Time
  maxLifetime : Time

def hour : Time := 60 * minute

def newSessionManager (ttl : Time) : SessionManager :=
  let ttl := if ttl = 0 then 24 * hour else ttl
  ⟨∅, 0, ttl, ttl⟩

def Session.expired (s : Session) (now : Time) : Bool := s.expireAt < now || s.hardDeadline < now

variable {token : Option Token} {now : Time} {t : Token}

namespace SessionManager

variable (m : SessionManager)

def create (now : Time) : SessionManager × Token :=
  ({ m with
    sessions := m.sessions.insert m.nextToken ⟨now + m.ttl, now + m.maxLifetime⟩
    nextToken := m.nextToken + 1 }, m.nextToken)

/-- A request without a token has `none`.  A session that is used is renewed,
but not past its hard deadline. -/
def validate (token : Option Token) (now : Time) : SessionManager × Bool :=
  match token with
  | none => (m, false)
  | some token =>
    match m.sessions.lookup token with
    | none => (m, false)
    | some s =>
      if s.expired now then ({ m with sessions := m.sessions.erase token }, false)
      else
        let next := now + m.ttl
        let next := if s.hardDeadline < next then s.hardDeadline else next
        ({ m with sessions := m.sessions.insert token { s with expireAt := next } }, true)

def delete (token : Option Token) : SessionManager :=
  match token with
  | none => m
  | some token => { m with sessions := m.sessions.erase token }

def deleteAll : SessionManager := { m with sessions := ∅ }

def cleanup (now : Time) : SessionManager :=
  { m with sessions := m.sessions.filter fun _ s => !s.expired now }

variable {m}

theorem validate_nextToken : (m.validate token now).1.nextToken = m.nextToken := by
  unfold validate
  split
  · rfl
  · split
    · rfl
    · split <;> rfl

theorem mem_of_mem_validate (h : t ∈ (m.validate token now).1.sessions) : t ∈ m.sessions := by
  unfold validate at h
  split at h
  · exact h
  next token =>
    split at h
    · exact h
    next s hs =>
      split at h
      · exact (Finmap.mem_erase.1 h).2
      · rcases Finmap.mem_insert.1 h with rfl | h
        · exact Finmap.mem_of_lookup_eq_some hs
        · exact h

theorem mem_of_mem_delete (h : t ∈ (m.delete token).sessions) : t ∈ m.sessions := by
  unfold delete at h
  split at h
  · exact h
  · exact (Finmap.mem_erase.1 h).2

theorem mem_of_mem_cleanup (h : t ∈ (m.cleanup now).sessions) : t ∈ m.sessions := by
  obtain ⟨s, hs⟩ := Finmap.mem_iff.1 h
  exact Finmap.mem_of_lookup_eq_some (lookup_filter_eq_some.1 hs).1

theorem validate_of_not_mem (h : t ∉ m.sessions) : (m.validate (some t) now).2 = false := by
  simp only [validate, Finmap.lookup_eq_none.2 h]

end SessionManager

/-! ## The lifetime of a session -/

inductive SessionCall
  | create (now : Time)
  | validate (token : Option Token) (now : Time)
  | delete (token : Option Token)
  | deleteAll
  | cleanup (now : Time)

namespace SessionManager

variable {m : SessionManager}

def call (m : SessionManager) : SessionCall → SessionManager
  | .create now => (m.create now).1
  | .validate token now => (m.validate token now).1
  | .delete token => m.delete token
  | .deleteAll => m.deleteAll
  | .cleanup now => m.cleanup now

theorem call_nextToken (c : SessionCall) : m.nextToken ≤ (m.call c).nextToken := by
  cases c with
  | create now => exact Nat.le_succ _
  | validate token now => exact validate_nextToken.ge
  | delete token => cases token <;> exact le_refl _
  | deleteAll | cleanup => exact le_refl _

theorem lookup_of_call (ht : t < m.nextToken) (hs : (m.call c).sessions.lookup t = some s) :
    ∃ old, m.sessions.lookup t = some old ∧ s.hardDeadline = old.hardDeadline := by
  cases c with
  | create now =>
    rcases lookup_insert_eq_some.1 hs with ⟨rfl, -⟩ | ⟨-, hs⟩
    · exact absurd ht (lt_irrefl _)
    · exact ⟨s, hs, rfl⟩
  | validate token now =>
    simp only [call, validate] at hs
    split at hs
    · exact ⟨s, hs, rfl⟩
    · split at hs
      · exact ⟨s, hs, rfl⟩
      next old hold =>
        split at hs
        · exact ⟨s, (lookup_erase_eq_some.1 hs).2, rfl⟩
        · rcases lookup_insert_eq_some.1 hs with ⟨rfl, rfl⟩ | ⟨-, hs⟩
          · exact ⟨old, hold, rfl⟩
          · exact ⟨s, hs, rfl⟩
  | delete token =>
    cases token with
    | none => exact ⟨s, hs, rfl⟩
    | some token => exact ⟨s, (lookup_erase_eq_some.1 hs).2, rfl⟩
  | deleteAll => simp [call, deleteAll] at hs
  | cleanup now => exact ⟨s, (lookup_filter_eq_some.1 hs).1, rfl⟩

theorem lookup_of_calls (calls : List SessionCall) (ht : t < m.nextToken) :
    t < (calls.foldl call m).nextToken ∧
      ∀ s, (calls.foldl call m).sessions.lookup t = some s →
        ∃ old, m.sessions.lookup t = some old ∧ s.hardDeadline = old.hardDeadline := by
  induction calls generalizing m with
  | nil => exact ⟨ht, fun s hs => ⟨s, hs, rfl⟩⟩
  | cons c rest ih =>
    obtain ⟨hlater, hrest⟩ := ih (ht.trans_le (call_nextToken c))
    refine ⟨hlater, fun s hs => ?_⟩
    obtain ⟨mid, hmid, heq⟩ := hrest s hs
    obtain ⟨old, hold, heq'⟩ := lookup_of_call ht hmid
    exact ⟨old, hold, heq.trans heq'⟩

theorem lookup_of_validate (h : (m.validate (some t) now).2 = true) :
    ∃ s, m.sessions.lookup t = some s ∧ now ≤ s.hardDeadline := by
  simp only [validate] at h
  split at h
  · cases h
  next s hs =>
    split at h
    · cases h
    next hlive =>
      simp only [Session.expired, Bool.or_eq_true, decide_eq_true_eq, not_or, not_lt] at hlive
      exact ⟨s, hs, hlive.2⟩

/-- A token that is accepted is younger than `maxLifetime`, however often its
session has been renewed, and the session was there after each of the calls: a
token that has been deleted or refused is never accepted again. -/
theorem session_lifetime (m : SessionManager) (created now : Time) (front back : List SessionCall)
    (h : (((front ++ back).foldl call (m.create created).1).validate (some m.nextToken) now).2 =
      true) :
    now ≤ created + m.maxLifetime ∧
      m.nextToken ∈ (front.foldl call (m.create created).1).sessions := by
  obtain ⟨s, hs, hnow⟩ := lookup_of_validate h
  obtain ⟨hissued, hfront⟩ := lookup_of_calls (m := (m.create created).1) front
    (Nat.lt_succ_self m.nextToken)
  rw [List.foldl_append] at hs
  obtain ⟨mid, hmid, heq⟩ := (lookup_of_calls back hissued).2 s hs
  obtain ⟨old, hold, heq'⟩ := hfront mid hmid
  cases (Finmap.lookup_insert _).symm.trans hold
  exact ⟨hnow.trans_eq (heq.trans heq'), Finmap.mem_of_lookup_eq_some hmid⟩

theorem session_lifetime_renewed :
    5 ≤ 0 + (newSessionManager 10).maxLifetime :=
  (session_lifetime (newSessionManager 10) 0 5 [.validate (some 0) 3] []
    (by decide +kernel)).1

end SessionManager

/-! ## Failed logins -/

def maxLoginAttempts : Nat := 5

def loginWindow : Time := 5 * minute

def maxLimiterEntries : Nat := 20000

structure AttemptInfo where
  count : Nat
  lastTry : Time
deriving DecidableEq

structure LoginLimiter where
  attempts : Table String AttemptInfo

def AttemptInfo.stale (info : AttemptInfo) (now : Time) : Bool := loginWindow < now - info.lastTry

namespace LoginLimiter

variable (l : LoginLimiter)

def allow (ip : String) (now : Time) : LoginLimiter × Bool :=
  match l.attempts.lookup ip with
  | none => (l, true)
  | some info =>
    if info.stale now then (⟨l.attempts.erase ip⟩, true)
    else (l, info.count < maxLoginAttempts)

/-- One round of the cleanup loop; a full table is cleaned up in the same
way. -/
def cleanup (now : Time) : LoginLimiter := ⟨l.attempts.filter fun _ info => !info.stale now⟩

def size : Nat := l.attempts.keys.card

/-- A new address that finds no room is not recorded. -/
def recordFail (ip : String) (now : Time) : LoginLimiter :=
  match l.attempts.lookup ip with
  | some info => ⟨l.attempts.insert ip ⟨info.count + 1, now⟩⟩
  | none =>
    let l := if maxLimiterEntries ≤ l.size then l.cleanup now else l
    if maxLimiterEntries ≤ l.size then l else ⟨l.attempts.insert ip ⟨1, now⟩⟩

def reset (ip : String) : LoginLimiter := ⟨l.attempts.erase ip⟩

/-- The failures that count against the address. -/
def live (ip : String) (now : Time) : Nat :=
  match l.attempts.lookup ip with
  | none => 0
  | some info => if info.stale now then 0 else info.count

def hasRoom (ip : String) (now : Time) : Bool :=
  (l.attempts.lookup ip).isSome || l.size < maxLimiterEntries ||
    (l.cleanup now).size < maxLimiterEntries

end LoginLimiter

end Hy2Link.Admin
