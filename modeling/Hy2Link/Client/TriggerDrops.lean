import Mathlib.Data.List.Pairwise
import Hy2Link.Client.Triggers

/-! # Dropped triggers

A full queue drops a trigger, and the comment in `Observe` leaves the retry to
the next packet.  But the peer is noted before the queue is tried, and the note
stays when the trigger is dropped: until it ends, `Observe` ignores the peer
even if the queue has room again.
-/

namespace Hy2Link.Client.Path

open Interleaving Traffic Triggers Option

/-- A call of `Observe` at this time would find the peer in the set. -/
def Triggers.seenAt (q : Triggers) (dst : IPv4) (now : Time) : Bool :=
  (q.triggerSeen.lookup dst).any (now < ·)

def Traffic.hasRoute (s : Traffic) (dst : IPv4) : Bool :=
  (s.main.shared.routes.lookup dst).isSome

def Traffic.hasRoom (s : Traffic) : Bool := s.side.triggerCh.length < triggerQueueLen

/-- The time of a call of `Observe` for this peer whose trigger is dropped: there
is no route, the set does not hold the peer, and the queue is full. -/
def discards (dst : IPv4) (s : Traffic) : TrafficTurn → Option Time
  | .side (.observe now other) =>
    if other = dst ∧ !s.hasRoute dst ∧ !s.side.seenAt dst now ∧ !s.hasRoom then some now
    else none
  | _ => none

/-- Where there is no route to the peer, a call for it finds no room. -/
def FindsNoRoom (dst : IPv4) (s : Traffic) (turn : TrafficTurn) : Prop :=
  ∀ now, turn = .side (.observe now dst) → s.hasRoute dst = false → s.hasRoom = false

def turnTime : TrafficTurn → Option Time
  | .side (.observe now _) => some now
  | .side (.pruneTriggerSeen now) => some now
  | _ => none

/-! ## The set after one call -/

section Set

variable {q : Triggers}

theorem seenAt_pruneTriggerSeen (h : t ≤ now) :
    (q.pruneTriggerSeen t).seenAt dst now = q.seenAt dst now := by
  unfold seenAt pruneTriggerSeen
  rw [lookup_filter]
  cases q.triggerSeen.lookup dst with
  | none => rfl
  | some ends =>
    rw [filter_some]
    split
    next => rfl
    next hended =>
      have hnot : ¬ now < ends := fun hlt => hended (decide_eq_true (lt_of_le_of_lt h hlt))
      simp [hnot]

theorem triggerSeen_send : (q.send dst).triggerSeen = q.triggerSeen := by
  unfold send
  split <;> rfl

theorem observe_of_seenAt (hseen : q.seenAt dst t = true) : q.observe t dst routes = q := by
  unfold observe seenRecently
  rw [if_pos (show (q.triggerSeen.lookup dst).any (t < ·) = true from hseen)]
  simp

theorem triggerSeen_observe (hroute : (routes.lookup dst).isSome = false)
    (hseen : q.seenAt dst t = false) :
    (q.observe t dst routes).triggerSeen =
      (q.pruneTriggerSeen t).triggerSeen.insert dst (t + triggerSeenTTL) := by
  have hfresh : ¬ (q.triggerSeen.lookup dst).any (t < ·) = true := by
    rw [Bool.not_eq_true]
    exact hseen
  unfold observe seenRecently
  rw [if_neg (by simp [hroute]), if_neg hfresh]
  exact triggerSeen_send

theorem seenAt_observe_of_ne (hne : other ≠ dst) (h : t ≤ now) :
    (q.observe t other routes).seenAt dst now = q.seenAt dst now := by
  by_cases hroute : (routes.lookup other).isSome = true
  · obtain ⟨p, hp⟩ := isSome_iff_exists.1 hroute
    rw [observe_of_route hp]
  · by_cases hseen : q.seenAt other t = true
    · rw [observe_of_seenAt hseen]
    · rw [Bool.not_eq_true] at hroute hseen
      rw [← seenAt_pruneTriggerSeen (q := q) h, seenAt, seenAt,
        triggerSeen_observe hroute hseen, Finmap.lookup_insert_of_ne _ hne.symm]

end Set

theorem observe_sends_iff {q : Triggers} (hroute : (routes.lookup dst).isSome = false)
    (hroom : q.triggerCh.length < triggerQueueLen) :
    (q.observe now dst routes).triggerCh = q.triggerCh ++ [dst] ↔ q.seenAt dst now = false := by
  by_cases hseen : q.seenAt dst now = true
  · rw [observe_of_seenAt hseen]
    simp [hseen]
  · refine iff_of_true (observe_of_no_route (by simpa using hroute) ?_ hroom) (by simpa using hseen)
    intro ends hends
    rw [seenAt, hends] at hseen
    exact Nat.le_of_not_lt fun hlt => hseen (decide_eq_true hlt)

/-! ## The set after a run -/

/-- The set holds the peer exactly as long as a trigger was dropped within the
time of an entry. -/
def DropsNoted (dst : IPv4) (s : Traffic) (turns : List TrafficTurn) (last : Traffic) : Prop :=
  ∀ now, (∀ t ∈ turns.filterMap turnTime, t ≤ now) →
    (last.side.seenAt dst now = true ↔
      ∃ t ∈ outputs step (discards dst) s turns, now < t + triggerSeenTTL)

section

variable (hrun : run step s turns = some last)
include hrun

theorem DropsNoted.quiet (h : DropsNoted dst s turns last) (hdrop : discards dst last turn = none)
    (hside : ∀ now, (∀ t ∈ (turnTime turn), t ≤ now) →
      next.side.seenAt dst now = last.side.seenAt dst now) :
    DropsNoted dst s (turns ++ [turn]) next := by
  intro now htimes
  rw [List.filterMap_append, List.forall_mem_append] at htimes
  have hout : outputs step (discards dst) s (turns ++ [turn]) =
      outputs step (discards dst) s turns := by
    rw [outputs_append _ hrun, outputs_singleton, hdrop]
    exact List.append_nil _
  rw [hout, hside now, h now htimes.1]
  intro t ht
  apply htimes.2
  simpa using ht

theorem dropsNoted_drop
    (hnoted : ∀ u ∈ outputs step (discards dst) s turns, t < u + triggerSeenTTL →
      last.side.seenAt dst t = true) (hdrop : discards dst last (.side (.observe t dst)) = some t)
    (hside : next.side = last.side.observe t dst last.main.shared.routes) :
    DropsNoted dst s (turns ++ [.side (.observe t dst)]) next := by
  have hcall : last.hasRoute dst = false ∧ last.side.seenAt dst t = false := by
    by_contra hnot
    rw [discards, if_neg] at hdrop
    · cases hdrop
    · rintro ⟨-, hroute, hseen, -⟩
      exact hnot ⟨by simpa using hroute, by simpa using hseen⟩
  intro now htimes
  have hnow : t ≤ now := htimes t (by simp [turnTime])
  have hentry : next.side.seenAt dst now = decide (now < t + triggerSeenTTL) := by
    rw [hside, seenAt, triggerSeen_observe hcall.1 hcall.2, Finmap.lookup_insert, any_some]
  have hout : outputs step (discards dst) s (turns ++ [.side (.observe t dst)]) =
      outputs step (discards dst) s turns ++ [t] := by
    rw [outputs_append _ hrun, outputs_singleton, hdrop]
    rfl
  have hended : ∀ u ∈ outputs step (discards dst) s turns, ¬ now < u + triggerSeenTTL := by
    intro u hu hlt
    have hseen := hnoted u hu (lt_of_le_of_lt hnow hlt)
    simp [hcall.2] at hseen
  rw [hentry, hout, decide_eq_true_iff]
  constructor
  · intro hlt
    exact ⟨t, by simp, hlt⟩
  · rintro ⟨u, hu, hlt⟩
    rcases List.mem_append.1 hu with hu | hu
    · exact absurd hlt (hended u hu)
    · rw [List.mem_singleton] at hu
      rwa [← hu]

/-- A turn notes the peer exactly if it drops its trigger. -/
theorem DropsNoted.step (h : DropsNoted dst s turns last) (hroom : FindsNoRoom dst last turn)
    (hearlier : ∀ t ∈ turnTime turn, ∀ u ∈ turns.filterMap turnTime, u ≤ t)
    (hnext : step last turn = some next) : DropsNoted dst s (turns ++ [turn]) next := by
  cases jointStep_of_joint hnext with
  | main hstep => exact h.quiet hrun rfl fun _ _ => rfl
  | @look b l hadvance =>
    cases b with
    | observe t other =>
      cases hadvance
      by_cases hdrop : discards dst last (.side (.observe t other)) = none
      · apply h.quiet hrun hdrop
        intro now hnow
        by_cases hother : other = dst
        · subst hother
          -- a call that has a route or finds the peer in the set does nothing
          cases hroute : last.hasRoute other with
          | true =>
            obtain ⟨p, hp⟩ := isSome_iff_exists.1 hroute
            exact congrArg (seenAt · other now) (observe_of_route hp)
          | false =>
            have hfull := hroom t rfl hroute
            have hseen : last.side.seenAt other t = true := by
              by_contra hnot
              simp [discards, hroute, hfull, hnot] at hdrop
            exact congrArg (seenAt · other now) (observe_of_seenAt hseen)
        · exact seenAt_observe_of_ne hother (hnow t rfl)
      · obtain ⟨u, hu⟩ := ne_none_iff_exists'.1 hdrop
        obtain ⟨rfl, rfl⟩ : other = dst ∧ t = u := by
          rw [discards] at hu
          split at hu
          next hcall => exact ⟨hcall.1, some.inj hu⟩
          next => cases hu
        refine dropsNoted_drop hrun ?_ hu rfl
        intro u hu hlt
        exact (h t (hearlier t rfl)).2 ⟨u, hu, hlt⟩
    | pruneTriggerSeen t =>
      cases hadvance
      exact h.quiet hrun rfl fun now hnow => seenAt_pruneTriggerSeen (hnow t rfl)
    | take =>
      obtain ⟨q, hq, hl⟩ := map_eq_some_iff.1 hadvance
      cases hl
      refine h.quiet hrun rfl fun _ _ => ?_
      unfold take at hq
      split at hq <;> cases hq
      · rfl
  | @act a b next l hadvance hstep =>
    cases b with
    | take =>
      obtain ⟨q, hq, hl⟩ := map_eq_some_iff.1 hadvance
      cases hl
    | _ => cases hadvance

end

theorem DropsNoted.run (h : DropsNoted dst s front t)
    (hfront : Interleaving.run Traffic.step s front = some t)
    (hroom : Along Traffic.step (FindsNoRoom dst) t turns)
    (htimes : ((front ++ turns).filterMap turnTime).Pairwise (· ≤ ·))
    (hrun : Interleaving.run Traffic.step t turns = some last) :
    DropsNoted dst s (front ++ turns) last := by
  have hkept : Along Traffic.step (FindsNoRoom dst) t turns →
      ((front ++ turns).filterMap turnTime).Pairwise (· ≤ ·) →
      DropsNoted dst s (front ++ turns) last := by
    refine run_history (P := fun turns last => Along Traffic.step (FindsNoRoom dst) t turns →
      ((front ++ turns).filterMap turnTime).Pairwise (· ≤ ·) →
      DropsNoted dst s (front ++ turns) last) ?_ ?_ hrun
    · intro _ _
      rwa [List.append_nil]
    · intro turns mid turn next hmid ih hnext hroom htimes
      rw [← List.append_assoc, List.filterMap_append, List.pairwise_append] at htimes
      rw [along_append] at hroom
      rw [← List.append_assoc]
      refine (ih hroom.1 htimes.1).step ?_ (hroom.2 mid hmid).1 ?_ hnext
      · rw [run_append, hfront]
        exact hmid
      · intro now hnow u hu
        exact htimes.2.2 u hu now (by simpa using hnow)
  exact hkept hroom htimes

/-- **A dropped trigger is retried once its note has ended.**  After a call of
`Observe` whose trigger the full queue drops, take the next call for the same
peer that has no route and finds room.  It puts the peer into the queue if and
only if fifteen seconds have passed since every drop: the first one, and those of
calls in between that found the queue still full. -/
theorem dropped_trigger_retried_iff (enabled : Bool) (front middle : List TrafficTurn)
    (s last : Traffic) (dst : IPv4) (first now : Time)
    (hfront : run step (.initial enabled) front = some s)
    (hrun : run step (.initial enabled)
      (front ++ .side (.observe first dst) :: middle) = some last)
    (htimes : ((front ++ .side (.observe first dst) :: middle).filterMap turnTime ++
      [now]).Pairwise (· ≤ ·))
    (hdropped : discards dst s (.side (.observe first dst)) = some first)
    (hnext : Along step (FindsNoRoom dst) s (.side (.observe first dst) :: middle))
    (hroute : last.hasRoute dst = false) (hroom : last.hasRoom = true) :
    (last.side.observe now dst last.main.shared.routes).triggerCh =
        last.side.triggerCh ++ [dst] ↔
      ∀ t ∈ outputs step (discards dst) s (.side (.observe first dst) :: middle),
        t + triggerSeenTTL ≤ now := by
  rw [run_append, hfront, bind_some] at hrun
  obtain ⟨t, hfirst, hmiddle⟩ := run_cons_eq_some.1 hrun
  have hone : run step s [.side (.observe first dst)] = some t :=
    run_cons_eq_some.2 ⟨t, hfirst, rfl⟩
  have hdrop : DropsNoted dst s [.side (.observe first dst)] t := by
    refine dropsNoted_drop (show run step s [] = some s from rfl) ?_ hdropped ?_
    · simp
    · exact congrArg Joint.side (some.inj hfirst).symm
  rw [List.filterMap_append, List.append_assoc, List.pairwise_append,
    List.pairwise_append] at htimes
  have hnoted := hdrop.run hone (hnext.2 t hfirst) htimes.2.1.1 hmiddle now
    fun u hu => htimes.2.1.2.2 u hu now (List.mem_singleton.2 rfl)
  rw [observe_sends_iff hroute (of_decide_eq_true hroom), ← Bool.not_eq_true, hnoted]
  simp

/-! ## A full queue -/

def queued (i : Nat) : IPv4 := BitVec.ofNat 32 (i + 1)

def filling : List TrafficTurn := (List.range 8).map fun i => .side (.observe 0 (queued i))

/-- A destination that was dropped counts as seen for a while. -/
theorem dropped_trigger_not_retried :
    ∃ s last, run step (.initial true) filling = some s ∧
      discards (queued 8) s (.side (.observe 0 (queued 8))) = some 0 ∧
      run step (.initial true)
        (filling ++ [.side (.observe 0 (queued 8)), .side .take]) = some last ∧
      last.hasRoute (queued 8) = false ∧ last.hasRoom = true ∧
      (last.side.observe second (queued 8) last.main.shared.routes).triggerCh =
        last.side.triggerCh := by
  obtain ⟨s, hs, hdiscards⟩ : ∃ s, run step (.initial true) filling = some s ∧
      discards (queued 8) s (.side (.observe 0 (queued 8))) = some 0 := by
    decide +kernel
  obtain ⟨last, hlast, hroute, hroom, hseen⟩ : ∃ last, run step (.initial true)
        (filling ++ [.side (.observe 0 (queued 8)), .side .take]) = some last ∧
      last.hasRoute (queued 8) = false ∧ last.hasRoom = true ∧
      last.side.seenAt (queued 8) second = true := by
    decide +kernel
  refine ⟨s, last, hs, hdiscards, hlast, hroute, hroom, ?_⟩
  rw [observe_of_seenAt hseen]

theorem dropped_trigger_retried_later :
    ∃ last, run step (.initial true)
        (filling ++ [.side (.observe 0 (queued 8)), .side .take]) = some last ∧
      (last.side.observe (15 * second) (queued 8) last.main.shared.routes).triggerCh =
        last.side.triggerCh ++ [queued 8] := by
  obtain ⟨s, hs, hdiscards, houtputs, hroom⟩ : ∃ s,
      run step (.initial true) filling = some s ∧
      discards (queued 8) s (.side (.observe 0 (queued 8))) = some 0 ∧
      outputs step (discards (queued 8)) s
        [.side (.observe 0 (queued 8)), .side .take] = [0] ∧ s.hasRoom = false := by
    decide +kernel
  obtain ⟨last, hlast, hroute, hroom'⟩ : ∃ last, run step (.initial true)
        (filling ++ [.side (.observe 0 (queued 8)), .side .take]) = some last ∧
      last.hasRoute (queued 8) = false ∧ last.hasRoom = true := by
    decide +kernel
  refine ⟨last, hlast, ?_⟩
  refine (dropped_trigger_retried_iff true filling [.side .take] s last (queued 8) 0
    (15 * second) hs hlast ?_ hdiscards ?_ hroute hroom').2 ?_
  · decide +kernel
  · refine ⟨fun _ _ _ => hroom, fun _ _ => ⟨?_, fun _ _ => trivial⟩⟩
    intro now hnow
    cases hnow
  · rw [houtputs]
    decide +kernel

end Hy2Link.Client.Path
