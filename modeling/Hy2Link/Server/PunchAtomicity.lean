import Hy2Link.Server.PunchHandlers
import Hy2Link.Server.PunchLimits
import Mathlib.Algebra.Order.BigOperators.Group.List
import Mathlib.Algebra.Order.Group.Nat

/-! # What a refused intent leaves behind

Two tables cannot be told apart from some time on when every sequence of later
calls leads to tables with the same answers.  A refused intent should leave
such a table.  It does not where `start` has removed an expired record before
it refused, and where the invitation could not be delivered: the rollback takes
the record away, whether or not this call has made it, and keeps the rest.
-/

namespace Hy2Link.Server

open Interleaving Text PunchTable PunchHistory

namespace PunchTable

/-- From `now` on, every sequence of calls leads to tables that answer every
query alike. -/
def Indistinguishable (now : Time) (t t' : PunchTable) : Prop :=
  ∀ calls h h', run next ⟨t, now, []⟩ calls = some h →
    run next ⟨t', now, []⟩ calls = some h' →
    ∀ later, h.clock ≤ later → SameAnswers later h.table h'.table

/-- The tables differ at most in times that have left the window. -/
structure Alike (now : Time) (t t' : PunchTable) : Prop where
  attempts : t'.attempts = t.attempts
  byPair : t'.byPair = t.byPair
  kept : ∀ who later, now ≤ later → t'.kept later who = t.kept later who
  allocated : t'.allocated = t.allocated

variable {initiator responder id : List Char}

theorem Alike.refl (now : Time) (t : PunchTable) : Alike now t t :=
  ⟨rfl, rfl, fun _ _ _ => rfl, rfl⟩

section

variable (h : Alike now t t')
include h

theorem Alike.mono (hle : now ≤ later) : Alike later t t' :=
  ⟨h.attempts, h.byPair, fun who last hlast => h.kept who last (hle.trans hlast), h.allocated⟩

theorem Alike.remove
    (f : Table (List Char) PunchAttempt → Table (List Char) PunchAttempt) :
    Alike now { t with attempts := f t.attempts } { t' with attempts := f t'.attempts } :=
  ⟨congrArg f h.attempts, h.byPair, h.kept, h.allocated⟩

theorem Alike.drop (id : List Char) : Alike now (t.drop id) (t'.drop id) :=
  h.remove fun attempts => attempts.erase id

theorem Alike.refusal : t'.refusal now initiator responder = t.refusal now initiator responder := by
  refine refusal_congr (h.kept initiator now (Nat.le_refl now)) ?_ fun _ _ => ?_
  · rw [cooling, h.byPair, cooling]
  · rw [hasPair, h.attempts, hasPair]

theorem Alike.free : t'.Free now id ↔ t.Free now id := by
  rw [Free, h.attempts, Free]

omit h in
theorem alike_insert_kept :
    Alike now t { t with rate := t.rate.insert initiator (t.kept now initiator) } :=
  ⟨rfl, rfl, fun who _ hle => kept_insert_kept who hle, rfl⟩

theorem Alike.create :
    Alike now (t.create now initiator responder id windowMs)
      (t'.create now initiator responder id windowMs) where
  attempts := by simp only [PunchTable.create, fresh, h.attempts, h.allocated]
  byPair := by simp only [PunchTable.create, h.byPair]
  kept := fun who later hle => by
    rw [kept_create who hle, kept_create who hle, h.kept who later hle]
  allocated := congrArg (· + 1) h.allocated

theorem Alike.trans (h' : Alike now t' t'') : Alike now t t'' :=
  ⟨h'.attempts.trans h.attempts, h'.byPair.trans h.byPair,
    fun who later hle => (h'.kept who later hle).trans (h.kept who later hle),
    h'.allocated.trans h.allocated⟩

theorem Alike.symm : Alike now t' t :=
  ⟨h.attempts.symm, h.byPair.symm, fun who later hle => (h.kept who later hle).symm,
    h.allocated.symm⟩

theorem Alike.start :
    Alike now (t.start now initiator responder id windowMs).1
      (t'.start now initiator responder id windowMs).1 := by
  rcases t.free_or_live now id with hfree | ⟨cur, hcur, hlive⟩
  · rw [start_of_free hfree, start_of_free (h.free.2 hfree)]
    have hdrop := h.drop id
    cases hrefusal : (t.drop id).refusal now initiator responder with
    | some e =>
      rw [startNew_of_refusal hrefusal, startNew_of_refusal (hdrop.refusal.trans hrefusal)]
      exact (alike_insert_kept.symm.trans hdrop).trans alike_insert_kept
    | none =>
      rw [startNew_of_no_refusal hrefusal, startNew_of_no_refusal (hdrop.refusal.trans hrefusal)]
      exact hdrop.create
  · rw [start_of_live hcur hlive, start_of_live (h.attempts ▸ hcur) hlive]
    exact h

theorem Alike.markReady :
    Alike now (t.markReady now id initiator responder).1
      (t'.markReady now id initiator responder).1 := by
  unfold PunchTable.markReady
  rw [h.attempts]
  split
  · exact h
  next a ha =>
    split
    · split
      · exact ⟨rfl, h.byPair, h.kept, h.allocated⟩
      · exact h.drop id
    · exact h

theorem Alike.cleanup : Alike now (t.cleanup now) (t'.cleanup now) where
  attempts := by simp only [PunchTable.cleanup, h.attempts]
  byPair := by simp only [PunchTable.cleanup, h.byPair]
  kept := fun who later hle => by
    rw [kept_pruneRate who hle, kept_pruneRate who hle, h.kept who later hle]
  allocated := h.allocated

theorem Alike.call (c : PunchCall) : Alike now (t.call now c) (t'.call now c) := by
  cases c with
  | start initiator responder id windowMs => exact h.start
  | markReady id initiator responder => exact h.markReady
  | drop id => exact h.drop id
  | dropByVIP vip =>
    simp only [PunchTable.call, dropByVIP]
    split
    · exact h
    · exact h.remove _
  | cleanup => exact h.cleanup

theorem Alike.sameAnswers : SameAnswers now t t' := by
  apply sameAnswers_of_live
  · intro id a _
    rw [h.attempts]
  · intro initiator responder id _ _
    exact (h.drop id).refusal.symm

omit h in
theorem Alike.run (calls : List (Time × PunchCall)) (start start' : PunchHistory)
    (hclock : start'.clock = start.clock) (h : Alike start.clock start.table start'.table)
    (hlast : run next start calls = some last)
    (hlast' : run next start' calls = some last') :
    Alike last.clock last.table last'.table := by
  induction calls generalizing start start' with
  | nil =>
    cases hlast
    cases hlast'
    exact h
  | cons c rest ih =>
    obtain ⟨mid, hmid, hlast⟩ := run_cons_eq_some.1 hlast
    obtain ⟨mid', hmid', hlast'⟩ := run_cons_eq_some.1 hlast'
    simp only [next, Option.ite_none_right_eq_some, Option.some.injEq]
      at hmid hmid'
    obtain ⟨hle, rfl⟩ := hmid
    obtain ⟨-, rfl⟩ := hmid'
    refine ih _ _ ?_ ?_ hlast hlast'
    · rfl
    · exact (h.mono hle).call c.2

theorem Alike.indistinguishable : Indistinguishable now t t' := by
  intro calls last last' hlast hlast' later hle
  have halike : Alike last.clock last.table last'.table :=
    Alike.run calls ⟨t, now, []⟩ ⟨t', now, []⟩ rfl h hlast hlast'
  exact (halike.mono hle).sameAnswers

end

theorem Indistinguishable.sameAnswers (h : Indistinguishable now t t') (hle : now ≤ later) :
    SameAnswers later t t' :=
  h [] ⟨t, now, []⟩ ⟨t', now, []⟩ rfl rfl later hle

/-! ## Telling tables apart -/

/-- In the end every limit has run out. -/
theorem exists_calm (t : PunchTable) (now : Time) (initiator responder : List Char) :
    ∃ later, now ≤ later ∧ t.kept later initiator = [] ∧
      t.cooling later initiator responder = false := by
  let times : List Nat := (t.rate.lookup initiator).getD []
  let last : Nat := (t.byPair.lookup (pairKey initiator responder)).getD 0
  refine ⟨now + times.sum + last + punchRateWindow + punchPairCooldown + 1, ?_, ?_, ?_⟩
  · unfold Time at *
    omega
  · rw [List.eq_nil_iff_forall_not_mem]
    intro at_ hat
    obtain ⟨hmem, hrecent⟩ := SlidingWindow.mem_recent.1 hat
    have hle : at_ ≤ times.sum := List.single_le_sum (fun _ _ => Nat.zero_le _) at_ hmem
    unfold Time at *
    omega
  · rw [Bool.eq_false_iff]
    intro hcooling
    obtain ⟨at_, hat, hcool⟩ := cooling_iff.1 hcooling
    have hlast : last = at_ := by simp only [last, hat, Option.getD_some]
    unfold Time at *
    omega

/-- A table from which a stored record is gone can be told apart: some day the
pair is refused here and accepted there. -/
theorem Sound.not_indistinguishable (hsound : t.Sound) (ha : t.attempts.lookup id = some a)
    (hsub : ∀ id' a', t'.attempts.lookup id' = some a' → id' ≠ id ∧ t.attempts.lookup id' = some a')
    (hkept : ∀ later, now ≤ later → t'.kept later a.initiator = t.kept later a.initiator)
    (hbyPair : t'.byPair = t.byPair) : ¬ Indistinguishable now t t' := by
  intro h
  obtain ⟨later, hle, hcalm, hcool⟩ := exists_calm t now a.initiator a.responder
  have hsame := h.sameAnswers hle
  have hroom : (t.kept later a.initiator).length < punchRateLimit := by
    rw [hcalm]
    decide
  have hpair : t.hasPair a.initiator a.responder = true := hasPair_iff.2 ⟨id, a, ha, rfl, rfl⟩
  refine not_sameAnswers_of_hasPair (fun id' a' ha' => (hsub id' a' ha').2) (hkept later hle) ?_
    hroom hcool hpair (hsound.hasPair_of_removed ha hsub) ?_
  · rw [cooling, hbyPair, cooling]
  · exact ⟨fun i r id w => (hsame.start i r id w).symm,
      fun id i r => (hsame.markReady id i r).symm,
      fun r => (hsame.activeResponderCount r).symm⟩

theorem not_indistinguishable_of_create
    (hrefusal : (t.drop id).refusal now initiator responder = none) :
    ¬ Indistinguishable now t
      (((t.drop id).create now initiator responder id windowMs).drop id) := by
  intro h
  have hsame := h.sameAnswers (Nat.le_refl now)
  obtain ⟨hroom, hcool, -⟩ := refusal_eq_none.1 hrefusal
  obtain ⟨unused, hunused⟩ := Infinite.exists_notMem_finset (insert id t.attempts.keys)
  rw [Finset.mem_insert, not_or, Finmap.mem_keys, ← Finmap.lookup_eq_none] at hunused
  obtain ⟨hne, hnone⟩ := hunused
  have hnone' : (((t.drop id).create now initiator responder id windowMs).drop id).attempts.lookup
      unused = none := by
    rw [Option.eq_none_iff_forall_ne_some]
    intro a ha
    obtain ⟨-, ha⟩ := lookup_drop.1 ha
    rcases lookup_insert_eq_some.1 ha with ⟨heq, -⟩ | ⟨-, ha⟩
    · exact hne heq
    · rw [(lookup_drop.1 ha).2] at hnone
      cases hnone
  have hcooling : (((t.drop id).create now initiator responder id windowMs).drop id).cooling now
      initiator responder = true :=
    cooling_iff.2 ⟨now, lookup_insert_eq_some.2 (.inl ⟨rfl, rfl⟩), by simp⟩
  have hanswers := hsame.start initiator responder unused windowMs
  rw [startAnswer_of_none hnone, startAnswer_of_none hnone'] at hanswers
  have hopen : ∀ e, t.refusal now initiator responder = some e → e = .pairBusy := by
    intro e he
    have hroom' : ¬ punchRateLimit ≤ (t.kept now initiator).length := Nat.not_le.2 hroom
    have hcool' : t.cooling now initiator responder = false := hcool
    simp only [refusal, hroom', hcool', if_false, Bool.false_eq_true] at he
    split at he <;> cases he
    rfl
  have hclosed : ∃ e, (((t.drop id).create now initiator responder id windowMs).drop id).refusal
      now initiator responder = some e ∧ e ≠ .pairBusy := by
    simp only [refusal, hcooling, if_true]
    split
    · exact ⟨_, rfl, by decide⟩
    · exact ⟨_, rfl, by decide⟩
  obtain ⟨e, he, hbusy⟩ := hclosed
  rw [he] at hanswers
  cases hold : t.refusal now initiator responder with
  | none =>
    rw [hold] at hanswers
    cases hanswers
  | some e' =>
    rw [hold, hopen e' hold] at hanswers
    exact hbusy (Except.error.inj hanswers).symm

end PunchTable

/-! ## Refused intents -/

/-- `start` refuses the pair without removing an expired record before. -/
def PunchTable.refusesInPlace (t : PunchTable) (now : Time)
    (initiator responder id : List Char) : Bool :=
  match t.attempts.lookup id with
  | some cur => cur.live now && !cur.joins initiator responder
  | none => (t.refusal now initiator responder).isSome

/-- The call is refused before `start`, or by a `start` that removes nothing. -/
def Traceless (env : Surroundings) (t : PunchTable) (now : Time) (vip : List Char)
    (msg : PunchMessage) : Bool :=
  !env.admits t now vip msg ||
    t.refusesInPlace now vip (trimSpace msg.peerVIP) msg.attemptID

section Refused

variable {t t' : PunchTable} {id : List Char} {windowMs : Int}

theorem failed_start_atomic (hsound : t.Sound)
    (hstart : t.start now initiator responder id windowMs = (t', .error e)) :
    PunchTable.Indistinguishable now t t' ↔
      t.refusesInPlace now initiator responder id = true := by
  have hstarted := t.started now initiator responder id windowMs
  rw [hstart] at hstarted
  generalize hresult : (t', Except.error e) = result at hstarted
  cases hstarted with
  | existing | created => cases hresult
  | @taken cur hcur hlive hother =>
    cases hresult
    refine iff_of_true (PunchTable.Alike.refl now t).indistinguishable ?_
    simp [refusesInPlace, hcur, hlive, hother]
  | refused hfree hrefusal =>
    cases hresult
    cases hcur : t.attempts.lookup id with
    | some cur =>
      refine iff_of_false (hsound.not_indistinguishable hcur ?_ ?_ rfl) ?_
      · exact fun id' a' ha' => lookup_drop.1 ha'
      · exact fun later hle => kept_insert_kept cur.initiator hle
      · simp [refusesInPlace, hcur, hfree cur hcur]
    | none =>
      rw [drop_of_lookup_none hcur] at hrefusal ⊢
      refine iff_of_true alike_insert_kept.indistinguishable ?_
      simp [refusesInPlace, hcur, hrefusal]

/-- An accepted `start` is not undone by the removal of its record. -/
theorem undelivered_not_atomic (hsound : t.Sound)
    (hstart : t.start now initiator responder id windowMs = (t', .ok (a, existing))) :
    ¬ PunchTable.Indistinguishable now t (t'.drop a.id) ∧
      t.refusesInPlace now initiator responder id = false := by
  have hstarted := t.started now initiator responder id windowMs
  rw [hstart] at hstarted
  generalize hresult : (t', Except.ok (a, existing)) = result at hstarted
  cases hstarted with
  | taken | refused => cases hresult
  | existing hcur hlive hinitiator hresponder =>
    cases hresult
    constructor
    · refine hsound.not_indistinguishable hcur (fun id' a' ha' => ?_) (fun _ _ => rfl) rfl
      rw [hsound.keyed id a hcur] at ha'
      exact lookup_drop.1 ha'
    · simp [refusesInPlace, hcur, hinitiator, hresponder, PunchAttempt.joins]
  | created hfree hrefusal =>
    cases hresult
    refine ⟨not_indistinguishable_of_create hrefusal, ?_⟩
    cases hcur : t.attempts.lookup id with
    | some cur => simp [refusesInPlace, hcur, hfree cur hcur]
    | none =>
      rw [drop_of_lookup_none hcur] at hrefusal
      simp [refusesInPlace, hcur, hrefusal]

end Refused

/-- A refused intent leaves a table that answers as before exactly when the
checks before `start` refuse it, or `start` does so and has found no expired
record under its id. -/
theorem intent_error_atomic (env : Surroundings) (calls : List (Time × PunchCall)) (now : Time)
    (vip : List Char) (msg : PunchMessage)
    (herror : (env.handlePunchIntent (.after calls) now vip msg).reply.isError = true) :
    PunchTable.Indistinguishable now (.after calls)
        (env.handlePunchIntent (.after calls) now vip msg).table ↔
      Traceless env (.after calls) now vip msg = true := by
  have hhandled := intentHandled env (.after calls) now vip msg
  generalize env.handlePunchIntent (.after calls) now vip msg = outcome at hhandled herror ⊢
  have hsound := sound_after calls
  cases hhandled with
  | refused hadmits =>
    exact iff_of_true (PunchTable.Alike.refl _ _).indistinguishable (by simp [Traceless, hadmits])
  | failed hadmits hstart => simpa [Traceless, hadmits] using failed_start_atomic hsound hstart
  | undelivered hadmits hstart =>
    obtain ⟨htells, hrefuses⟩ := undelivered_not_atomic hsound hstart
    exact iff_of_false htells (by simp [Traceless, hadmits, hrefuses])
  | invited => cases herror

/-! ### Fixed inputs -/

def nobodyListens : Surroundings := { everybodyOnline with delivers := fun _ => false }

/-- The invitation of a new attempt fails, and the pair has to wait. -/
theorem failed_push_leaves_cooldown :
    ¬ ∀ (env : Surroundings) (calls : List (Time × PunchCall)) (now : Time) (vip : List Char)
      (msg : PunchMessage),
      (env.handlePunchIntent (.after calls) now vip msg).reply.isError = true →
      PunchTable.Indistinguishable now (.after calls)
        (env.handlePunchIntent (.after calls) now vip msg).table := by
  intro h
  have hsame := (h nobodyListens [] 0 aliceText (intentToBob "0123456789abcdef")
    (by decide +kernel)).sameAnswers (Nat.zero_le second)
  have hstart := hsame.start aliceText bobText "fedcba9876543210".toList 10000
  have hbefore : (after []).startAnswer second aliceText bobText
      "fedcba9876543210".toList 10000 = .ok (10000, false) := by
    decide +kernel
  have hafter : (nobodyListens.handlePunchIntent (.after []) 0 aliceText
      (intentToBob "0123456789abcdef")).table.startAnswer second aliceText bobText
        "fedcba9876543210".toList 10000 = .error .pairCooldown := by
    decide +kernel
  rw [hbefore, hafter] at hstart
  cases hstart

/-- With its first attempt stored, a second one of the pair is told to wait. -/
theorem intent_error_atomic_cooldown :
    (everybodyOnline.handlePunchIntent (.after aliceInvitesBob) second aliceText
      (intentToBob "fedcba9876543210")).reply = .refused (.start .pairCooldown) ∧
    PunchTable.Indistinguishable second (.after aliceInvitesBob)
      (everybodyOnline.handlePunchIntent (.after aliceInvitesBob) second aliceText
        (intentToBob "fedcba9876543210")).table := by
  have hreply : (everybodyOnline.handlePunchIntent (.after aliceInvitesBob) second aliceText
      (intentToBob "fedcba9876543210")).reply = .refused (.start .pairCooldown) := by
    decide +kernel
  refine ⟨hreply, (intent_error_atomic everybodyOnline aliceInvitesBob second aliceText
    (intentToBob "fedcba9876543210") (by rw [hreply]; rfl)).2 ?_⟩
  decide +kernel

end Hy2Link.Server
