import Hy2Link.Interleaving.Run
import Hy2Link.Server.PunchTable

/-! # The limits of the punch table over whole runs

The table forgets: `cleanup`, `drop` and `dropByVIP` remove what the limits of
`start` are computed from, each at its own age.  Beside the table stands the
full history of the calls that made a record, and the invariant says that
everything a limit may still ask for has been kept.
-/

namespace Hy2Link.Server

open Interleaving PunchTable SlidingWindow

structure Creation where
  initiator : List Char
  responder : List Char
  at_ : Time
deriving DecidableEq

structure PunchHistory where
  table : PunchTable
  clock : Time
  created : List Creation

namespace PunchHistory

def initial : PunchHistory := ⟨.empty, 0, []⟩

def creations (t : PunchTable) (now : Time) : PunchCall → List Creation
  | .start initiator responder id windowMs =>
    match (t.start now initiator responder id windowMs).2 with
    | .ok (_, false) => [⟨initiator, responder, now⟩]
    | _ => []
  | _ => []

def next (h : PunchHistory) (c : Time × PunchCall) : Option PunchHistory :=
  if h.clock ≤ c.1 then
    some ⟨h.table.call c.1 c.2, c.1, h.created ++ creations h.table c.1 c.2⟩
  else none

def times (h : PunchHistory) (initiator : List Char) : List Time :=
  (h.created.filter fun c => c.initiator = initiator).map Creation.at_

/-- Two records of one ordered pair are made more than the cooldown apart. -/
def Spaced (created : List Creation) : Prop :=
  created.Pairwise fun earlier later =>
    earlier.initiator = later.initiator → earlier.responder = later.responder →
      earlier.at_ + punchPairCooldown < later.at_

/-! ## One call -/

inductive Step (h : PunchHistory) (now : Time) : PunchHistory → Prop
  | quiet {table : PunchTable} (hquiet : PunchTable.Quiet now h.table table) :
      Step h now ⟨table, now, h.created⟩
  | created {initiator responder id : List Char} {windowMs : Int}
      (hrefusal : (h.table.drop id).refusal now initiator responder = none) :
      Step h now ⟨(h.table.drop id).create now initiator responder id windowMs, now,
        h.created ++ [⟨initiator, responder, now⟩]⟩

variable {h h' : PunchHistory}

theorem Step.of_quiet {table : PunchTable} (hquiet : PunchTable.Quiet now h.table table) :
    Step h now ⟨table, now, h.created ++ []⟩ := by
  rw [List.append_nil]
  exact .quiet hquiet

theorem step_of_start (h : PunchHistory) (now : Time) (initiator responder id : List Char)
    (windowMs : Int) :
    Step h now ⟨(h.table.start now initiator responder id windowMs).1, now,
      h.created ++ creations h.table now (.start initiator responder id windowMs)⟩ := by
  have hstarted := h.table.started now initiator responder id windowMs
  simp only [creations]
  generalize h.table.start now initiator responder id windowMs = result at hstarted ⊢
  cases hstarted with
  | existing | taken => exact .of_quiet (.refl now h.table)
  | refused hfree hrefusal =>
    exact .of_quiet (quiet_drop.trans quiet_refuse)
  | created hfree hrefusal => exact .created hrefusal

theorem step_of_next (hnext : h.next c = some h') : h.clock ≤ c.1 ∧ Step h c.1 h' := by
  obtain ⟨now, call⟩ := c
  simp only [next, Option.ite_none_right_eq_some, Option.some.injEq] at hnext
  obtain ⟨hclock, rfl⟩ := hnext
  refine ⟨hclock, ?_⟩
  cases call with
  | start initiator responder id windowMs => exact step_of_start ..
  | markReady id initiator responder => exact .of_quiet quiet_markReady
  | drop id => exact .of_quiet quiet_drop
  | dropByVIP vip => exact .of_quiet quiet_dropByVIP
  | cleanup => exact .of_quiet quiet_cleanup

/-! ## The invariant -/

structure Recorded (h : PunchHistory) : Prop where
  sound : h.table.Sound
  past : ∀ c ∈ h.created, c.at_ ≤ h.clock
  cooled : ∀ c ∈ h.created, h.clock - c.at_ ≤ punchPairCooldown →
    ∃ at_, h.table.byPair.lookup (pairKey c.initiator c.responder) = some at_ ∧ c.at_ ≤ at_
  kept : ∀ who later, h.clock ≤ later →
    h.table.kept later who = recent punchRateWindow later (h.times who)
  spaced : Spaced h.created
  limited : ∀ who, SlidingWindow.Limited punchRateWindow punchRateLimit (h.times who)

theorem recorded_initial : initial.Recorded where
  sound := sound_empty
  past := by simp [initial]
  cooled := by simp [initial]
  kept := fun who later _ => by simp [initial, empty, kept, times]
  spaced := List.Pairwise.nil
  limited := fun _ => limited_nil

theorem Recorded.cooled_at (hrec : h.Recorded) (hclock : h.clock ≤ now) (hc : c ∈ h.created)
    (hcool : now - c.at_ ≤ punchPairCooldown) :
    ∃ at_, h.table.byPair.lookup (pairKey c.initiator c.responder) = some at_ ∧ c.at_ ≤ at_ ∧
      now - at_ ≤ punchPairCooldown := by
  obtain ⟨at_, hat, hle⟩ := hrec.cooled c hc ((Nat.sub_le_sub_right hclock _).trans hcool)
  exact ⟨at_, hat, hle, (Nat.sub_le_sub_left hle now).trans hcool⟩

theorem Recorded.quiet {table : PunchTable} (hrec : h.Recorded) (hclock : h.clock ≤ now)
    (hquiet : PunchTable.Quiet now h.table table) :
    Recorded ⟨table, now, h.created⟩ where
  sound := hrec.sound.quiet hquiet
  past := fun c hc => (hrec.past c hc).trans hclock
  cooled := fun c hc hcool => by
    obtain ⟨at_, hat, hle, hfresh⟩ := hrec.cooled_at hclock hc hcool
    exact ⟨at_, hquiet.byPair _ at_ hat hfresh, hle⟩
  kept := fun who later hle =>
    (hquiet.kept who later hle).trans (hrec.kept who later (hclock.trans hle))
  spaced := hrec.spaced
  limited := hrec.limited

theorem times_append (h : PunchHistory) (table : PunchTable) (c : Creation) (who : List Char) :
    times ⟨table, c.at_, h.created ++ [c]⟩ who =
      h.times who ++ if c.initiator = who then [c.at_] else [] := by
  unfold times
  by_cases hwho : c.initiator = who <;> simp [hwho]

section Creating

variable {initiator responder id : List Char}

theorem Recorded.spaced_create (hrec : h.Recorded) (hclock : h.clock ≤ now)
    (hcooling : h.table.cooling now initiator responder = false) :
    Spaced (h.created ++ [⟨initiator, responder, now⟩]) := by
  refine List.pairwise_append.2 ⟨hrec.spaced, List.pairwise_singleton _ _, ?_⟩
  intro c hc c' hc' hinitiator hresponder
  obtain rfl := List.mem_singleton.1 hc'
  by_contra hclose
  have hcool : now - c.at_ ≤ punchPairCooldown := by
    simp only [not_lt] at hclose
    exact Nat.sub_le_iff_le_add'.2 hclose
  obtain ⟨at_, hat, -, hfresh⟩ := hrec.cooled_at hclock hc hcool
  simp only at hinitiator hresponder
  rw [hinitiator, hresponder] at hat
  simp [cooling_iff.2 ⟨at_, hat, hfresh⟩] at hcooling

theorem kept_create {t : PunchTable} (who : List Char) (hle : now ≤ later) :
    (t.create now initiator responder id windowMs).kept later who =
      t.kept later who ++
        if initiator = who then recent punchRateWindow later [now] else [] := by
  unfold kept create
  by_cases hwho : initiator = who
  · subst hwho
    rw [Finmap.lookup_insert, Option.getD_some, recent_append, if_pos rfl, kept, recent_recent hle]
  · rw [Finmap.lookup_insert_of_ne t.rate (Ne.symm hwho), if_neg hwho, List.append_nil]

theorem Recorded.create (hrec : h.Recorded) (hclock : h.clock ≤ now)
    (hrefusal : (h.table.drop id).refusal now initiator responder = none) :
    Recorded ⟨(h.table.drop id).create now initiator responder id windowMs, now,
      h.created ++ [⟨initiator, responder, now⟩]⟩ := by
  obtain ⟨hroom, hcooling, -⟩ := refusal_eq_none.1 hrefusal
  refine ⟨?_, ?_, ?_, ?_, hrec.spaced_create hclock hcooling, ?_⟩
  · have hdrop : PunchTable.Quiet now h.table (h.table.drop id) := quiet_drop
    exact (hrec.sound.quiet hdrop).create hrefusal
  · intro c hc
    rcases List.mem_append.1 hc with hc | hc
    · exact (hrec.past c hc).trans hclock
    · rw [List.mem_singleton.1 hc]
  · intro c hc hcool
    by_cases hkey : pairKey c.initiator c.responder = pairKey initiator responder
    · refine ⟨now, lookup_insert_eq_some.2 (.inl ⟨hkey, rfl⟩), ?_⟩
      rcases List.mem_append.1 hc with hc | hc
      · exact (hrec.past c hc).trans hclock
      · rw [List.mem_singleton.1 hc]
    · rcases List.mem_append.1 hc with hc | hc
      · obtain ⟨at_, hat, hle, -⟩ := hrec.cooled_at hclock hc hcool
        exact ⟨at_, lookup_insert_eq_some.2 (.inr ⟨hkey, hat⟩), hle⟩
      · rw [List.mem_singleton.1 hc] at hkey
        exact absurd rfl hkey
  · intro who later hle
    have hold : (h.table.drop id).kept later who = recent punchRateWindow later (h.times who) :=
      hrec.kept who later (hclock.trans hle)
    rw [kept_create who hle, times_append h _ ⟨initiator, responder, now⟩, recent_append, hold]
    split <;> rfl
  · intro who
    rw [times_append h _ ⟨initiator, responder, now⟩]
    split
    next hwho =>
      refine (hrec.limited who).append_now ?_
      rw [← hrec.kept who now hclock, ← hwho]
      exact hroom
    next => simpa using hrec.limited who

end Creating

/-- A call keeps the table in step with the history of attempts. -/
theorem Recorded.next (hrec : h.Recorded) (hnext : h.next c = some h') : h'.Recorded := by
  obtain ⟨hclock, hstep⟩ := step_of_next hnext
  cases hstep with
  | quiet hquiet => exact hrec.quiet hclock hquiet
  | created hrefusal => exact hrec.create hclock hrefusal

end PunchHistory

/-! ## Whole runs -/

/-- The limits of `start` hold of every run, whatever is dropped and cleaned up
in between. -/
theorem punch_limits (calls : List (Time × PunchCall)) (h : PunchHistory)
    (hrun : run PunchHistory.next .initial calls = some h) :
    (∀ id a id' a', h.table.attempts.lookup id = some a → h.table.attempts.lookup id' = some a' →
      a.initiator = a'.initiator → a.responder = a'.responder → id = id') ∧
    PunchHistory.Spaced h.created ∧
    ∀ initiator, SlidingWindow.Limited punchRateWindow punchRateLimit (h.times initiator) := by
  have hrec : h.Recorded :=
    run_stable (fun _ _ _ => PunchHistory.Recorded.next) PunchHistory.recorded_initial hrun
  exact ⟨hrec.sound.unique, hrec.spaced, hrec.limited⟩

/-- A record is made and dropped, and the pair has to wait for the cooldown. -/
def droppedAndRepeated : List (Time × PunchCall) :=
  [(0, .start "a".toList "b".toList "1".toList 10000), (second, .drop "1".toList),
   (5 * second, .start "a".toList "b".toList "2".toList 10000),
   (11 * second, .start "a".toList "b".toList "3".toList 10000)]

theorem punch_limits_dropped :
    ∃ h, run PunchHistory.next .initial droppedAndRepeated = some h ∧
      h.created.map Creation.at_ = [0, 11 * second] ∧
      (∀ id a id' a', h.table.attempts.lookup id = some a →
        h.table.attempts.lookup id' = some a' →
        a.initiator = a'.initiator → a.responder = a'.responder → id = id') ∧
      PunchHistory.Spaced h.created ∧
      ∀ initiator, SlidingWindow.Limited punchRateWindow punchRateLimit (h.times initiator) := by
  obtain ⟨h, hrun, hcreated⟩ : ∃ h,
      run PunchHistory.next .initial droppedAndRepeated = some h ∧
      h.created.map Creation.at_ = [0, 11 * second] := by
    decide +kernel
  exact ⟨h, hrun, hcreated, punch_limits droppedAndRepeated h hrun⟩

end Hy2Link.Server
