import Hy2Link.Interleaving.Table
import Hy2Link.Limits.SlidingWindow
import Hy2Link.Protocol

/-! # The punch table

`punchTable` holds the coordination attempts of the server: the records by
their attempt id, the last coordination of each ordered pair of clients, and
the recent attempts of each initiator.  Every method is one section of the
table's lock and takes the time it has read.

Virtual addresses are the texts the clients and the server exchange.
-/

namespace Hy2Link.Server

open Interleaving SlidingWindow

def punchAttemptTTL : Time := 45 * second

def punchPairCooldown : Time := 10 * second

def punchRateLimit : Nat := 5

def punchRateWindow : Time := minute

def relayMaxResponderInvites : Nat := 2

/-- The code hands out records by their pointer; `serial` tells apart two
records that are made one after the other under one id. -/
structure PunchAttempt where
  serial : Nat
  id : List Char
  initiator : List Char
  responder : List Char
  windowMs : Int
  createdAt : Time
  peerReady : Bool
  peerPushed : Bool
deriving DecidableEq

/-- `allocated` counts the records that have been made; no answer depends on
it. -/
structure PunchTable where
  attempts : Table (List Char) PunchAttempt
  byPair : Table (List Char) Time
  rate : Table (List Char) (List Time)
  allocated : Nat

inductive StartError
  | rateLimited | pairCooldown | pairBusy | attemptExists
deriving DecidableEq

/-- The reasons as they stand in the error message to the client. -/
def StartError.text : StartError → String
  | .rateLimited => "rate-limited"
  | .pairCooldown => "pair-cooldown"
  | .pairBusy => "pair-busy"
  | .attemptExists => "attempt-exists"

variable {a : PunchAttempt}

namespace PunchAttempt

def live (a : PunchAttempt) (now : Time) : Bool := now - a.createdAt ≤ punchAttemptTTL

def joins (a : PunchAttempt) (initiator responder : List Char) : Bool :=
  a.initiator = initiator && a.responder = responder

theorem joins_iff {initiator responder : List Char} :
    a.joins initiator responder = true ↔ a.initiator = initiator ∧ a.responder = responder := by
  simp [joins]

end PunchAttempt

def pairKey (initiator responder : List Char) : List Char := initiator ++ '|' :: responder

namespace PunchTable

variable (t : PunchTable)

def empty : PunchTable := ⟨∅, ∅, ∅, 0⟩

/-- The times of the initiator's attempts that the limit still counts. -/
def kept (now : Time) (initiator : List Char) : List Time :=
  recent punchRateWindow now ((t.rate.lookup initiator).getD [])

def cooling (now : Time) (initiator responder : List Char) : Bool :=
  (t.byPair.lookup (pairKey initiator responder)).any fun at_ => now - at_ ≤ punchPairCooldown

/-- The scan of `start` over all records. -/
def hasPair (initiator responder : List Char) : Bool :=
  t.attempts.hasEntry fun _ cur => cur.joins initiator responder

def drop (id : List Char) : PunchTable := { t with attempts := t.attempts.erase id }

/-- The checks of `start` once the id is free, in their order. -/
def refusal (now : Time) (initiator responder : List Char) : Option StartError :=
  if punchRateLimit ≤ (t.kept now initiator).length then some .rateLimited
  else if t.cooling now initiator responder then some .pairCooldown
  else if t.hasPair initiator responder then some .pairBusy
  else none

def fresh (now : Time) (initiator responder id : List Char) (windowMs : Int) : PunchAttempt :=
  ⟨t.allocated, id, initiator, responder, windowMs, now, false, false⟩

/-- `start` once the id is free; a refusal still stores the pruned times. -/
def startNew (now : Time) (initiator responder id : List Char) (windowMs : Int) :
    PunchTable × Except StartError (PunchAttempt × Bool) :=
  match t.refusal now initiator responder with
  | some e => ({ t with rate := t.rate.insert initiator (t.kept now initiator) }, .error e)
  | none =>
    let a := t.fresh now initiator responder id windowMs
    ({ attempts := t.attempts.insert id a
       byPair := t.byPair.insert (pairKey initiator responder) now
       rate := t.rate.insert initiator (t.kept now initiator ++ [now])
       allocated := t.allocated + 1 },
     .ok (a, false))

/-- The answer tells whether the record was there before. -/
def start (now : Time) (initiator responder id : List Char) (windowMs : Int) :
    PunchTable × Except StartError (PunchAttempt × Bool) :=
  match t.attempts.lookup id with
  | none => t.startNew now initiator responder id windowMs
  | some cur =>
    if cur.live now then
      if cur.joins initiator responder then (t, .ok (cur, true))
      else (t, .error .attemptExists)
    else (t.drop id).startNew now initiator responder id windowMs

def activeResponderCount (now : Time) (responder : List Char) : Nat :=
  t.attempts.countEntries fun _ a => a.responder = responder && a.live now

/-- The answer tells whether `punch-peer` has not been pushed before. -/
def markReady (now : Time) (id initiator responder : List Char) :
    PunchTable × Option (PunchAttempt × Bool) :=
  match t.attempts.lookup id with
  | none => (t, none)
  | some a =>
    if a.joins initiator responder then
      if a.live now then
        let ready := { a with peerReady := true, peerPushed := true }
        ({ t with attempts := t.attempts.insert id ready }, some (ready, !a.peerPushed))
      else (t.drop id, none)
    else (t, none)

def dropByVIP (vip : List Char) : PunchTable :=
  if vip = [] then t
  else { t with attempts := t.attempts.filter fun _ a => a.initiator ≠ vip && a.responder ≠ vip }

/-- The loop over `rate` keeps the times inside the window and deletes the
entries where none is left. -/
def pruneRate (now : Time) : Table (List Char) (List Time) :=
  Table.filter (fun _ times => times ≠ [])
    (t.rate.mapValues (recent punchRateWindow now))

def cleanup (now : Time) : PunchTable :=
  { t with
    attempts := t.attempts.filter fun _ a => a.live now
    byPair := t.byPair.filter fun _ at_ => now - at_ ≤ punchAttemptTTL
    rate := t.pruneRate now }

end PunchTable

inductive PunchCall
  | start (initiator responder id : List Char) (windowMs : Int)
  | markReady (id initiator responder : List Char)
  | drop (id : List Char)
  | dropByVIP (vip : List Char)
  | cleanup
deriving DecidableEq

def PunchTable.call (t : PunchTable) (now : Time) : PunchCall → PunchTable
  | .start initiator responder id windowMs => (t.start now initiator responder id windowMs).1
  | .markReady id initiator responder => (t.markReady now id initiator responder).1
  | .drop id => t.drop id
  | .dropByVIP vip => t.dropByVIP vip
  | .cleanup => t.cleanup now

def PunchTable.after (calls : List (Time × PunchCall)) : PunchTable :=
  calls.foldl (fun t c => t.call c.1 c.2) .empty

/-! ## What a call does -/

namespace PunchTable

variable {t t' : PunchTable} {now later : Time} {initiator responder id : List Char}

theorem lookup_drop :
    (t.drop id).attempts.lookup id' = some a ↔ id' ≠ id ∧ t.attempts.lookup id' = some a :=
  lookup_erase_eq_some

theorem drop_of_lookup_none (h : t.attempts.lookup id = none) : t.drop id = t := by
  have hattempts : t.attempts.erase id = t.attempts := by
    apply Finmap.ext_lookup
    intro id'
    by_cases hid : id' = id
    · rw [hid, Finmap.lookup_erase, h]
    · exact Finmap.lookup_erase_ne hid
  rw [drop, hattempts]

def Free (t : PunchTable) (now : Time) (id : List Char) : Prop :=
  ∀ cur, t.attempts.lookup id = some cur → cur.live now = false

theorem start_of_free (h : t.Free now id) :
    t.start now initiator responder id windowMs =
      (t.drop id).startNew now initiator responder id windowMs := by
  unfold start
  split
  next hnone => rw [drop_of_lookup_none hnone]
  next cur hcur => rw [h cur hcur, if_neg Bool.false_ne_true]

theorem start_of_live (hcur : t.attempts.lookup id = some cur) (hlive : cur.live now = true) :
    t.start now initiator responder id windowMs =
      (t, if cur.joins initiator responder then .ok (cur, true) else .error .attemptExists) := by
  unfold start
  rw [hcur]
  simp only [hlive, if_true]
  split <;> rfl

theorem free_or_live (t : PunchTable) (now : Time) (id : List Char) :
    t.Free now id ∨ ∃ cur, t.attempts.lookup id = some cur ∧ cur.live now = true := by
  by_cases h : ∃ cur, t.attempts.lookup id = some cur ∧ cur.live now = true
  · exact .inr h
  · refine .inl fun cur hcur => ?_
    rw [Bool.eq_false_iff]
    exact fun hlive => h ⟨cur, hcur, hlive⟩

theorem hasPair_iff :
    t.hasPair initiator responder = true ↔
      ∃ id a, t.attempts.lookup id = some a ∧ a.initiator = initiator ∧
        a.responder = responder := by
  simp only [hasPair, hasEntry_iff, PunchAttempt.joins_iff]

theorem cooling_iff :
    t.cooling now initiator responder = true ↔
      ∃ at_, t.byPair.lookup (pairKey initiator responder) = some at_ ∧
        now - at_ ≤ punchPairCooldown := by
  simp only [cooling, Option.any_eq_true, decide_eq_true_eq]

theorem refusal_eq_none :
    t.refusal now initiator responder = none ↔
      (t.kept now initiator).length < punchRateLimit ∧
        t.cooling now initiator responder = false ∧ t.hasPair initiator responder = false := by
  unfold refusal
  split
  next h => simp [h]
  next h =>
    rw [not_le] at h
    split
    next hcooling => simp [hcooling]
    next hcooling =>
      rw [Bool.not_eq_true] at hcooling
      split <;> simp_all

/-- The record a call leaves under an id is the one that was there, at most
with its flags raised. -/
structure Inherits (a old : PunchAttempt) : Prop where
  serial : a.serial = old.serial
  id : a.id = old.id
  initiator : a.initiator = old.initiator
  responder : a.responder = old.responder
  windowMs : a.windowMs = old.windowMs
  createdAt : a.createdAt = old.createdAt
  pushed : old.peerPushed = true → a.peerPushed = true

theorem Inherits.trans (h : Inherits a b) (h' : Inherits b c) : Inherits a c :=
  ⟨h.serial.trans h'.serial, h.id.trans h'.id, h.initiator.trans h'.initiator,
    h.responder.trans h'.responder, h.windowMs.trans h'.windowMs,
    h.createdAt.trans h'.createdAt, fun hp => h.pushed (h'.pushed hp)⟩

theorem Inherits.refl (a : PunchAttempt) : Inherits a a :=
  ⟨rfl, rfl, rfl, rfl, rfl, rfl, fun h => h⟩

/-- Nothing is added to the table, and nothing is forgotten that a limit may
still ask for. -/
structure Quiet (now : Time) (t t' : PunchTable) : Prop where
  attempts : ∀ id a, t'.attempts.lookup id = some a →
    ∃ old, t.attempts.lookup id = some old ∧ Inherits a old
  byPair : ∀ key at_, t.byPair.lookup key = some at_ → now - at_ ≤ punchPairCooldown →
    t'.byPair.lookup key = some at_
  kept : ∀ who later, now ≤ later → t'.kept later who = t.kept later who
  allocated : t'.allocated = t.allocated

theorem Quiet.refl (now : Time) (t : PunchTable) : Quiet now t t :=
  ⟨fun _ a ha => ⟨a, ha, .refl a⟩, fun _ _ h _ => h, fun _ _ _ => rfl, rfl⟩

theorem Quiet.of_subset {attempts : Table (List Char) PunchAttempt}
    (h : ∀ id a, attempts.lookup id = some a → t.attempts.lookup id = some a) :
    Quiet now t { t with attempts := attempts } :=
  ⟨fun id a ha => ⟨a, h id a ha, .refl a⟩, fun _ _ h _ => h, fun _ _ _ => rfl, rfl⟩

theorem quiet_drop : Quiet now t (t.drop id) :=
  .of_subset fun _ _ ha => (lookup_erase_eq_some.1 ha).2

theorem quiet_dropByVIP : Quiet now t (t.dropByVIP vip) := by
  unfold dropByVIP
  split
  · exact .refl now t
  · exact .of_subset fun _ _ ha => (lookup_filter_eq_some.1 ha).1

/-- Storing the pruned times of one initiator is not observed later. -/
theorem kept_insert_kept (who : List Char) (h : now ≤ later) :
    kept { t with rate := t.rate.insert initiator (t.kept now initiator) } later who =
      t.kept later who := by
  unfold kept
  by_cases hwho : who = initiator
  · subst hwho
    rw [Finmap.lookup_insert, Option.getD_some]
    exact recent_recent h
  · rw [Finmap.lookup_insert_of_ne t.rate hwho]

theorem kept_pruneRate (who : List Char) (h : now ≤ later) :
    (t.cleanup now).kept later who = t.kept later who := by
  simp only [kept, cleanup, pruneRate, lookup_filter, lookup_mapValues]
  cases t.rate.lookup who with
  | none => rfl
  | some times =>
    have hlater : recent punchRateWindow later
        (recent punchRateWindow now times) =
          recent punchRateWindow later times := recent_recent h
    by_cases hnil : recent punchRateWindow now times = []
    · simpa [hnil, Option.filter] using hlater
    · simpa [hnil, Option.filter] using hlater

theorem quiet_cleanup : Quiet now t (t.cleanup now) where
  attempts := fun _ a ha => ⟨a, (lookup_filter_eq_some.1 ha).1, .refl a⟩
  byPair := fun key at_ hat hcool => by
    refine lookup_filter_eq_some.2 ⟨hat, ?_⟩
    have hle : punchPairCooldown ≤ punchAttemptTTL := by decide
    exact decide_eq_true (hcool.trans hle)
  kept := fun who later h => kept_pruneRate who h
  allocated := rfl

theorem quiet_markReady : Quiet now t (t.markReady now id initiator responder).1 := by
  unfold markReady
  split
  · exact .refl now t
  next a ha =>
    split
    · split
      · refine ⟨fun id' a' ha' => ?_, fun _ _ h _ => h, fun _ _ _ => rfl, rfl⟩
        rcases lookup_insert_eq_some.1 ha' with ⟨rfl, rfl⟩ | ⟨-, ha'⟩
        · exact ⟨a, ha, rfl, rfl, rfl, rfl, rfl, rfl, fun _ => rfl⟩
        · exact ⟨a', ha', .refl a'⟩
      · exact quiet_drop
    · exact .refl now t

theorem markReady_eq_some (h : t.markReady now id initiator responder = (t', some (a, first))) :
    ∃ old, t.attempts.lookup id = some old ∧ old.initiator = initiator ∧
      old.responder = responder ∧ a = { old with peerReady := true, peerPushed := true } ∧
      first = !old.peerPushed ∧ t' = { t with attempts := t.attempts.insert id a } := by
  unfold markReady at h
  split at h
  · cases h
  next old hold =>
    split at h
    next hjoins =>
      split at h <;> cases h
      · obtain ⟨hinitiator, hresponder⟩ := PunchAttempt.joins_iff.1 hjoins
        exact ⟨old, hold, hinitiator, hresponder, rfl, rfl, rfl⟩
    next => cases h

def create (t : PunchTable) (now : Time) (initiator responder id : List Char) (windowMs : Int) :
    PunchTable where
  attempts := t.attempts.insert id (t.fresh now initiator responder id windowMs)
  byPair := t.byPair.insert (pairKey initiator responder) now
  rate := t.rate.insert initiator (t.kept now initiator ++ [now])
  allocated := t.allocated + 1

theorem startNew_of_refusal (h : t.refusal now initiator responder = some e) :
    t.startNew now initiator responder id windowMs =
      ({ t with rate := t.rate.insert initiator (t.kept now initiator) }, .error e) := by
  unfold startNew
  rw [h]

theorem startNew_of_no_refusal (h : t.refusal now initiator responder = none) :
    t.startNew now initiator responder id windowMs =
      (t.create now initiator responder id windowMs,
       .ok (t.fresh now initiator responder id windowMs, false)) := by
  unfold startNew
  rw [h]
  rfl

theorem quiet_refuse :
    Quiet now t { t with rate := t.rate.insert initiator (t.kept now initiator) } where
  attempts := fun _ a ha => ⟨a, ha, .refl a⟩
  byPair := fun _ _ h _ => h
  kept := fun who _ h => kept_insert_kept who h
  allocated := rfl

theorem Quiet.trans (h : Quiet now t t') (h' : Quiet now t' t'') :
    Quiet now t t'' where
  attempts := fun id a ha => by
    obtain ⟨a', ha', hinh⟩ := h'.attempts id a ha
    obtain ⟨a'', ha'', hinh'⟩ := h.attempts id a' ha'
    exact ⟨a'', ha'', hinh.trans hinh'⟩
  byPair := fun key at_ hat hcool => h'.byPair key at_ (h.byPair key at_ hat hcool) hcool
  kept := fun who later hle => (h'.kept who later hle).trans (h.kept who later hle)
  allocated := h'.allocated.trans h.allocated

section

variable (t : PunchTable) (now : Time) (initiator responder id : List Char) (windowMs : Int)

inductive Started : PunchTable × Except StartError (PunchAttempt × Bool) → Prop
  | existing (hcur : t.attempts.lookup id = some cur)
      (hlive : cur.live now = true) (hinitiator : cur.initiator = initiator)
      (hresponder : cur.responder = responder) :
      Started (t, .ok (cur, true))
  | taken (hcur : t.attempts.lookup id = some cur)
      (hlive : cur.live now = true) (hother : cur.joins initiator responder = false) :
      Started (t, .error .attemptExists)
  | refused (hfree : t.Free now id)
      (hrefusal : (t.drop id).refusal now initiator responder = some e) :
      Started
        ({ t.drop id with rate := t.rate.insert initiator (t.kept now initiator) }, .error e)
  | created (hfree : t.Free now id)
      (hrefusal : (t.drop id).refusal now initiator responder = none) :
      Started
        ((t.drop id).create now initiator responder id windowMs,
         .ok (t.fresh now initiator responder id windowMs, false))

end

theorem started (t : PunchTable) (now : Time) (initiator responder id : List Char)
    (windowMs : Int) :
    Started t now initiator responder id windowMs
      (t.start now initiator responder id windowMs) := by
  rcases t.free_or_live now id with hfree | ⟨cur, hcur, hlive⟩
  · rw [start_of_free hfree]
    cases hrefusal : (t.drop id).refusal now initiator responder with
    | some e =>
      rw [startNew_of_refusal hrefusal]
      exact .refused hfree hrefusal
    | none =>
      rw [startNew_of_no_refusal hrefusal]
      exact .created hfree hrefusal
  · rw [start_of_live hcur hlive]
    split
    next hjoins =>
      obtain ⟨hinitiator, hresponder⟩ := PunchAttempt.joins_iff.1 hjoins
      exact .existing hcur hlive hinitiator hresponder
    next hother => exact .taken hcur hlive (Bool.not_eq_true _ ▸ hother)

theorem start_eq_created (h : t.start now initiator responder id windowMs = (t', .ok (a, false))) :
    a = t.fresh now initiator responder id windowMs ∧
      (t.drop id).refusal now initiator responder = none ∧
      t' = (t.drop id).create now initiator responder id windowMs := by
  have hstarted := t.started now initiator responder id windowMs
  rw [h] at hstarted
  generalize hresult : (t', Except.ok (a, false)) = result at hstarted
  cases hstarted with
  | existing | taken | refused => cases hresult
  | created hfree hrefusal =>
    cases hresult
    exact ⟨rfl, hrefusal, rfl⟩

theorem quiet_start (h : t.start now initiator responder id windowMs = (t', answer))
    (hanswer : ∀ a, answer ≠ .ok (a, false)) : Quiet now t t' := by
  have hstarted := t.started now initiator responder id windowMs
  rw [h] at hstarted
  generalize hresult : (t', answer) = result at hstarted
  cases hstarted with
  | existing | taken =>
    cases hresult
    exact .refl now t
  | refused hfree hrefusal =>
    cases hresult
    exact quiet_drop.trans quiet_refuse
  | created hfree hrefusal =>
    cases hresult
    exact absurd rfl (hanswer _)

inductive Called (t : PunchTable) (now : Time) : PunchCall → PunchTable → Prop
  | quiet {c : PunchCall} {t' : PunchTable} (h : Quiet now t t') : Called t now c t'
  | created {initiator responder id : List Char} {windowMs : Int} (hfree : t.Free now id)
      (hrefusal : (t.drop id).refusal now initiator responder = none) :
      Called t now (.start initiator responder id windowMs)
        ((t.drop id).create now initiator responder id windowMs)

theorem called (t : PunchTable) (now : Time) (c : PunchCall) : Called t now c (t.call now c) := by
  cases c with
  | start initiator responder id windowMs =>
    have hstarted := t.started now initiator responder id windowMs
    simp only [call]
    generalize t.start now initiator responder id windowMs = result at hstarted ⊢
    cases hstarted with
    | existing | taken => exact .quiet (.refl now t)
    | refused hfree hrefusal => exact .quiet (quiet_drop.trans quiet_refuse)
    | created hfree hrefusal => exact .created hfree hrefusal
  | markReady id initiator responder => exact .quiet quiet_markReady
  | drop id => exact .quiet quiet_drop
  | dropByVIP vip => exact .quiet quiet_dropByVIP
  | cleanup => exact .quiet quiet_cleanup

/-! ## What holds of every table -/

/-- Every record stands under its own id, no two records join the same ordered
pair, and no record is there twice. -/
structure Sound (t : PunchTable) : Prop where
  keyed : ∀ id a, t.attempts.lookup id = some a → a.id = id
  unique : ∀ id a id' a', t.attempts.lookup id = some a → t.attempts.lookup id' = some a' →
    a.initiator = a'.initiator → a.responder = a'.responder → id = id'
  serial_lt : ∀ id a, t.attempts.lookup id = some a → a.serial < t.allocated
  serial_inj : ∀ id a id' a', t.attempts.lookup id = some a → t.attempts.lookup id' = some a' →
    a.serial = a'.serial → id = id'

theorem sound_empty : empty.Sound := by
  constructor <;> intro id a <;> simp [empty]

theorem Sound.quiet (h : t.Sound) (hquiet : Quiet now t t') : t'.Sound where
  keyed := fun id a ha => by
    obtain ⟨old, hold, hinh⟩ := hquiet.attempts id a ha
    exact hinh.id.trans (h.keyed id old hold)
  unique := fun id a id' a' ha ha' hi hr => by
    obtain ⟨old, hold, hinh⟩ := hquiet.attempts id a ha
    obtain ⟨old', hold', hinh'⟩ := hquiet.attempts id' a' ha'
    refine h.unique id old id' old' hold hold' ?_ ?_
    · rw [← hinh.initiator, ← hinh'.initiator, hi]
    · rw [← hinh.responder, ← hinh'.responder, hr]
  serial_lt := fun id a ha => by
    obtain ⟨old, hold, hinh⟩ := hquiet.attempts id a ha
    rw [hinh.serial, hquiet.allocated]
    exact h.serial_lt id old hold
  serial_inj := fun id a id' a' ha ha' hs => by
    obtain ⟨old, hold, hinh⟩ := hquiet.attempts id a ha
    obtain ⟨old', hold', hinh'⟩ := hquiet.attempts id' a' ha'
    refine h.serial_inj id old id' old' hold hold' ?_
    rw [← hinh.serial, ← hinh'.serial, hs]

theorem Sound.create (h : t.Sound) (hrefusal : t.refusal now initiator responder = none) :
    (t.create now initiator responder id windowMs).Sound := by
  have hpair : ∀ id a, t.attempts.lookup id = some a →
      ¬ (a.initiator = initiator ∧ a.responder = responder) := by
    intro id a ha hjoins
    have hno := (refusal_eq_none.1 hrefusal).2.2
    simp [hasPair_iff.2 ⟨id, a, ha, hjoins⟩] at hno
  refine ⟨?_, ?_, ?_, ?_⟩
  · intro id' a ha
    rcases lookup_insert_eq_some.1 ha with ⟨rfl, rfl⟩ | ⟨-, ha⟩
    · rfl
    · exact h.keyed id' a ha
  · intro id₁ a₁ id₂ a₂ h₁ h₂ hi hr
    rcases lookup_insert_eq_some.1 h₁ with ⟨rfl, rfl⟩ | ⟨-, hold₁⟩ <;>
      rcases lookup_insert_eq_some.1 h₂ with ⟨rfl, rfl⟩ | ⟨-, hold₂⟩
    · rfl
    · exact absurd ⟨hi.symm, hr.symm⟩ (hpair id₂ a₂ hold₂)
    · exact absurd ⟨hi, hr⟩ (hpair id₁ a₁ hold₁)
    · exact h.unique id₁ a₁ id₂ a₂ hold₁ hold₂ hi hr
  · intro id' a ha
    rcases lookup_insert_eq_some.1 ha with ⟨rfl, rfl⟩ | ⟨-, ha⟩
    · exact Nat.lt_succ_self _
    · exact (h.serial_lt id' a ha).trans (Nat.lt_succ_self _)
  · intro id₁ a₁ id₂ a₂ h₁ h₂ hs
    rcases lookup_insert_eq_some.1 h₁ with ⟨rfl, rfl⟩ | ⟨-, hold₁⟩ <;>
      rcases lookup_insert_eq_some.1 h₂ with ⟨rfl, rfl⟩ | ⟨-, hold₂⟩
    · rfl
    · exact absurd hs.symm (h.serial_lt id₂ a₂ hold₂).ne
    · exact absurd hs (h.serial_lt id₁ a₁ hold₁).ne
    · exact h.serial_inj id₁ a₁ id₂ a₂ hold₁ hold₂ hs

theorem Sound.call (h : t.Sound) (now : Time) (c : PunchCall) : (t.call now c).Sound := by
  have hcalled := t.called now c
  generalize t.call now c = t' at hcalled ⊢
  cases hcalled with
  | quiet hquiet => exact h.quiet hquiet
  | created hfree hrefusal => exact (h.quiet (@quiet_drop t now _)).create hrefusal

theorem sound_after (calls : List (Time × PunchCall)) : (after calls).Sound := by
  suffices h : ∀ t : PunchTable, t.Sound →
      (calls.foldl (fun t c => t.call c.1 c.2) t).Sound from h empty sound_empty
  induction calls with
  | nil => exact fun t ht => ht
  | cons c rest ih => exact fun t ht => ih _ (ht.call c.1 c.2)

end PunchTable

end Hy2Link.Server
