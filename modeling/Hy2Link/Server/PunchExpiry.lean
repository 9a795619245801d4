import Hy2Link.Server.PunchTable
import Mathlib.Data.Fintype.EquivFin

/-! # Expired records and the answers of the punch table

The methods compare ages with `punchAttemptTTL`, so that a record which is past
it should count as gone whether or not `cleanup` has come by.  The scan of
`start` over all records does not compare: an expired record keeps its ordered
pair busy until it is removed.
-/

namespace Hy2Link.Server.PunchTable

open Interleaving

/-! ## Answers -/

/-- What `start` tells its caller: the window of the record and whether it was
there before, or the reason of the refusal. -/
def startAnswer (t : PunchTable) (now : Time) (initiator responder id : List Char)
    (windowMs : Int) : Except StartError (Int × Bool) :=
  (t.start now initiator responder id windowMs).2.map fun answer => (answer.1.windowMs, answer.2)

def readyAnswer (t : PunchTable) (now : Time) (id initiator responder : List Char) :
    Option (Int × Bool) :=
  (t.markReady now id initiator responder).2.map fun answer => (answer.1.windowMs, answer.2)

/-- The two tables answer every query at this time alike. -/
structure SameAnswers (now : Time) (t t' : PunchTable) : Prop where
  start : ∀ initiator responder id windowMs,
    t.startAnswer now initiator responder id windowMs =
      t'.startAnswer now initiator responder id windowMs
  markReady : ∀ id initiator responder,
    t.readyAnswer now id initiator responder = t'.readyAnswer now id initiator responder
  activeResponderCount : ∀ responder,
    t.activeResponderCount now responder = t'.activeResponderCount now responder

variable {t t' : PunchTable} {initiator responder id : List Char}

def startNewAnswer (refusal : Option StartError) (windowMs : Int) :
    Except StartError (Int × Bool) :=
  match refusal with
  | some e => .error e
  | none => .ok (windowMs, false)

theorem startAnswer_of_free (h : t.Free now id) :
    t.startAnswer now initiator responder id windowMs =
      startNewAnswer ((t.drop id).refusal now initiator responder) windowMs := by
  rw [startAnswer, start_of_free h]
  cases hrefusal : (t.drop id).refusal now initiator responder with
  | some e =>
    rw [startNew_of_refusal hrefusal]
    rfl
  | none =>
    rw [startNew_of_no_refusal hrefusal]
    rfl

theorem startAnswer_of_none (h : t.attempts.lookup id = none) :
    t.startAnswer now initiator responder id windowMs =
      startNewAnswer (t.refusal now initiator responder) windowMs := by
  have hfree : t.Free now id := by
    intro cur hcur
    simp [h] at hcur
  rw [startAnswer_of_free hfree, drop_of_lookup_none h]

theorem startAnswer_of_live (hcur : t.attempts.lookup id = some cur) (hlive : cur.live now = true) :
    t.startAnswer now initiator responder id windowMs =
      if cur.joins initiator responder then .ok (cur.windowMs, true)
      else .error .attemptExists := by
  rw [startAnswer, start_of_live hcur hlive]
  split <;> rfl

theorem readyAnswer_of_free (h : t.Free now id) :
    t.readyAnswer now id initiator responder = none := by
  unfold readyAnswer markReady
  split
  · rfl
  next a ha =>
    rw [h a ha]
    split <;> rfl

theorem readyAnswer_of_live (hcur : t.attempts.lookup id = some cur) (hlive : cur.live now = true) :
    t.readyAnswer now id initiator responder =
      if cur.joins initiator responder then some (cur.windowMs, !cur.peerPushed) else none := by
  unfold readyAnswer markReady
  rw [hcur]
  simp only [hlive, if_true]
  split <;> rfl

theorem refusal_congr (hkept : t.kept now initiator = t'.kept now initiator)
    (hcooling : t.cooling now initiator responder = t'.cooling now initiator responder)
    (hpair : (t.kept now initiator).length < punchRateLimit →
      t.cooling now initiator responder = false →
      t.hasPair initiator responder = t'.hasPair initiator responder) :
    t.refusal now initiator responder = t'.refusal now initiator responder := by
  unfold refusal
  rw [← hkept, ← hcooling]
  split
  · rfl
  next hroom =>
    split
    · rfl
    next hcool => rw [hpair (not_le.1 hroom) (Bool.not_eq_true _ ▸ hcool)]

/-- A query looks at the records that are live, and at the pairs of all. -/
theorem sameAnswers_of_live
    (hlive : ∀ id a, a.live now = true →
      (t.attempts.lookup id = some a ↔ t'.attempts.lookup id = some a))
    (hrefusal : ∀ initiator responder id, t.Free now id → t'.Free now id →
      (t.drop id).refusal now initiator responder =
        (t'.drop id).refusal now initiator responder) :
    SameAnswers now t t' := by
  have hfree : ∀ id, t.Free now id → t'.Free now id := by
    intro id h cur hcur
    rw [Bool.eq_false_iff]
    intro hl
    have := h cur ((hlive id cur hl).2 hcur)
    rw [hl] at this
    cases this
  refine ⟨?_, ?_, ?_⟩
  · intro initiator responder id windowMs
    rcases t.free_or_live now id with h | ⟨cur, hcur, hl⟩
    · rw [startAnswer_of_free h, startAnswer_of_free (hfree id h),
        hrefusal initiator responder id h (hfree id h)]
    · rw [startAnswer_of_live hcur hl, startAnswer_of_live ((hlive id cur hl).1 hcur) hl]
  · intro id initiator responder
    rcases t.free_or_live now id with h | ⟨cur, hcur, hl⟩
    · rw [readyAnswer_of_free h, readyAnswer_of_free (hfree id h)]
    · rw [readyAnswer_of_live hcur hl, readyAnswer_of_live ((hlive id cur hl).1 hcur) hl]
  · intro responder
    refine le_antisymm (countEntries_le fun id a ha hp => ?_)
      (countEntries_le fun id a ha hp => ?_)
    · exact ⟨a, (hlive id a (Bool.and_eq_true_iff.1 hp).2).1 ha, hp⟩
    · exact ⟨a, (hlive id a (Bool.and_eq_true_iff.1 hp).2).2 ha, hp⟩

/-! ## Cleaning up first -/

theorem cleanup_lookup :
    (t.cleanup now).attempts.lookup id = some a ↔
      t.attempts.lookup id = some a ∧ a.live now = true :=
  lookup_filter_eq_some

theorem cleanup_cooling :
    (t.cleanup now).cooling now initiator responder = t.cooling now initiator responder := by
  rw [Bool.eq_iff_iff, cooling_iff, cooling_iff]
  constructor
  · rintro ⟨at_, hat, hcool⟩
    exact ⟨at_, (lookup_filter_eq_some.1 hat).1, hcool⟩
  · rintro ⟨at_, hat, hcool⟩
    exact ⟨at_, quiet_cleanup.byPair _ at_ hat hcool, hcool⟩

theorem cleanup_kept : (t.cleanup now).kept now initiator = t.kept now initiator :=
  kept_pruneRate initiator (Nat.le_refl now)

/-- The pair of every expired record is refused for another reason. -/
def Masked (t : PunchTable) (now : Time) : Prop :=
  ∀ id a, t.attempts.lookup id = some a → a.live now = false →
    punchRateLimit ≤ (t.kept now a.initiator).length ∨
      t.cooling now a.initiator a.responder = true

theorem cleanup_hasPair (hmasked : t.Masked now)
    (hroom : (t.kept now initiator).length < punchRateLimit)
    (hcool : t.cooling now initiator responder = false) :
    ((t.cleanup now).drop id).hasPair initiator responder =
      (t.drop id).hasPair initiator responder := by
  rw [Bool.eq_iff_iff, hasPair_iff, hasPair_iff]
  constructor
  · rintro ⟨id', a, ha, hjoins⟩
    obtain ⟨hne, ha⟩ := lookup_drop.1 ha
    exact ⟨id', a, lookup_drop.2 ⟨hne, (cleanup_lookup.1 ha).1⟩, hjoins⟩
  · rintro ⟨id', a, ha, rfl, rfl⟩
    obtain ⟨hne, ha⟩ := lookup_drop.1 ha
    refine ⟨id', a, lookup_drop.2 ⟨hne, cleanup_lookup.2 ⟨ha, ?_⟩⟩, rfl, rfl⟩
    by_contra hlive
    rcases hmasked id' a ha (Bool.not_eq_true _ ▸ hlive) with hlimit | hcooling
    · exact absurd hroom (Nat.not_lt.2 hlimit)
    · simp [hcool] at hcooling

theorem sameAnswers_cleanup (hmasked : t.Masked now) : SameAnswers now (t.cleanup now) t := by
  apply sameAnswers_of_live
  · intro id a hlive
    rw [cleanup_lookup]
    exact and_iff_left hlive
  · intro initiator responder id _ _
    refine refusal_congr cleanup_kept cleanup_cooling fun hroom hcool => ?_
    refine cleanup_hasPair hmasked ?_ ?_
    · exact (congrArg List.length cleanup_kept).symm.trans_lt hroom
    · exact cleanup_cooling.symm.trans hcool

theorem not_sameAnswers_of_hasPair
    (hsub : ∀ id a, t'.attempts.lookup id = some a → t.attempts.lookup id = some a)
    (hkept : t'.kept now initiator = t.kept now initiator)
    (hcooling : t'.cooling now initiator responder = t.cooling now initiator responder)
    (hroom : (t.kept now initiator).length < punchRateLimit)
    (hcool : t.cooling now initiator responder = false)
    (hpair : t.hasPair initiator responder = true)
    (hgone : t'.hasPair initiator responder = false) : ¬ SameAnswers now t' t := by
  intro hsame
  obtain ⟨fresh, hfresh⟩ := Infinite.exists_notMem_finset t.attempts.keys
  have hnone : t.attempts.lookup fresh = none := by
    rwa [Finmap.mem_keys, ← Finmap.lookup_eq_none] at hfresh
  have hnone' : t'.attempts.lookup fresh = none := by
    rw [Option.eq_none_iff_forall_ne_some]
    intro a ha
    rw [hsub fresh a ha] at hnone
    cases hnone
  have hbusy : t.refusal now initiator responder = some .pairBusy := by
    simp [refusal, Nat.not_le.2 hroom, hcool, hpair]
  have hadmit : t'.refusal now initiator responder = none :=
    refusal_eq_none.2 ⟨by rwa [hkept], hcooling.trans hcool, hgone⟩
  have hanswers := hsame.start initiator responder fresh 0
  rw [startAnswer_of_none hnone, startAnswer_of_none hnone', hbusy, hadmit] at hanswers
  cases hanswers

theorem Sound.hasPair_of_removed (hsound : t.Sound) (ha : t.attempts.lookup id = some a)
    (hsub : ∀ id' a', t'.attempts.lookup id' = some a' →
      id' ≠ id ∧ t.attempts.lookup id' = some a') :
    t'.hasPair a.initiator a.responder = false := by
  rw [Bool.eq_false_iff]
  intro hpair
  obtain ⟨id', a', ha', hinitiator, hresponder⟩ := hasPair_iff.1 hpair
  obtain ⟨hne, ha'⟩ := hsub id' a' ha'
  exact hne (hsound.unique id' a' id a ha' ha hinitiator hresponder)

theorem masked_of_sameAnswers (hsound : t.Sound) (h : SameAnswers now (t.cleanup now) t) :
    t.Masked now := by
  intro id a ha hexpired
  by_contra hunmasked
  rw [not_or, not_le, Bool.not_eq_true] at hunmasked
  have hpair : t.hasPair a.initiator a.responder = true := hasPair_iff.2 ⟨id, a, ha, rfl, rfl⟩
  refine not_sameAnswers_of_hasPair (fun id a ha => (cleanup_lookup.1 ha).1) cleanup_kept
    cleanup_cooling hunmasked.1 hunmasked.2 hpair ?_ h
  apply hsound.hasPair_of_removed ha
  intro id' a' ha'
  obtain ⟨ha', hlive⟩ := cleanup_lookup.1 ha'
  refine ⟨?_, ha'⟩
  rintro rfl
  rw [ha] at ha'
  cases ha'
  simp [hexpired] at hlive

/-- Cleaning up right before a call is not observed exactly when the pair of
every expired record would be refused anyway. -/
theorem cleanup_transparent (calls : List (Time × PunchCall)) (now : Time) :
    SameAnswers now ((after calls).cleanup now) (after calls) ↔ (after calls).Masked now :=
  ⟨masked_of_sameAnswers (sound_after calls), sameAnswers_cleanup⟩

/-- One attempt, and 46 seconds later a second one of the same pair: it is
refused as long as nobody has cleaned up. -/
theorem expired_record_keeps_pair_busy :
    ¬ ∀ calls now, SameAnswers now ((after calls).cleanup now) (after calls) := by
  intro h
  have hsame := (h [(0, .start "a".toList "b".toList "1".toList 10000)] (46 * second)).start
    "a".toList "b".toList "2".toList 10000
  have hdiffer : (after [(0, .start "a".toList "b".toList "1".toList 10000)]).startAnswer
      (46 * second) "a".toList "b".toList "2".toList 10000 = .error .pairBusy := by
    decide +kernel
  have hclean : ((after [(0, .start "a".toList "b".toList "1".toList 10000)]).cleanup
      (46 * second)).startAnswer (46 * second) "a".toList "b".toList "2".toList 10000 =
        .ok (10000, false) := by
    decide +kernel
  rw [hdiffer, hclean] at hsame
  cases hsame

end Hy2Link.Server.PunchTable
