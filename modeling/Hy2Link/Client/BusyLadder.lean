import Hy2Link.Interleaving.Run
import Hy2Link.Client.PunchManager

/-! # The ladder of busy sessions

Sessions to a peer come one after the other, and the next one starts only when
the cooldown of the last is over.  The n-th busy session in a row is meant to
write the n-th rung of the ladder.

The streak of a peer is pruned as soon as its cooldown is over, and the end of
a session prunes before it counts.  The cooldown that has to be over for the
session to start is the one that would keep the streak alive, so no session
ever finds a streak of its peer: `busy_ladder_first_rung`.
-/

namespace Hy2Link.Client.Punch

open Interleaving PunchManager

/-- The end of a session, with the number of peers that were tracked before it
and the length of the cooldown it wrote. -/
structure Ending where
  peerVIP : VIP
  outcome : Outcome
  tracked : Nat
  cooldown : Time
deriving DecidableEq

def Ending.busyWith (reason : Reason) (e : Ending) : Bool :=
  !e.outcome.succeeded && e.outcome.reason = some reason

/-- The sessions that the client has started itself: `live` holds those whose
goroutine has not come to its end, and `ended` the others, the last one first. -/
structure World where
  clock : Time
  manager : PunchManager
  live : Table SessionId (AttemptId × VIP)
  nextSession : SessionId
  ended : List Ending

def World.initial (clock : Time) : World where
  clock := clock
  manager := newPunchManager
  live := ∅
  nextSession := 0
  ended := []

/-- `lag` is the age of the clock reading that a start compares with the
cooldown, and `gap` the time between the two readings at an end. -/
inductive Event
  | elapse (d : Time)
  | punch (env : Surroundings) (lag : Time) (peerVIP : VIP) (trigger : Trigger)
  | finish (s : SessionId) (outcome : Outcome) (gap : Time)

def PunchManager.tracked (m : PunchManager) : Nat :=
  max m.busyPeerStreak.entries.card m.rateStreak.entries.card

def World.step (w : World) : Event → Option World
  | .elapse d => some { w with clock := w.clock + d }
  | .punch env lag peerVIP trigger =>
    match w.manager.punchWithTrigger env (w.clock - lag) w.nextSession peerVIP trigger with
    | .error _ => some w
    | .ok (id, manager) =>
      some
        { w with
          manager := manager
          live := w.live.insert w.nextSession (id, Text.trimSpace peerVIP)
          nextSession := w.nextSession + 1 }
  | .finish s outcome gap =>
    (w.live.lookup s).map fun (id, peerVIP) =>
      let (manager, d) :=
        w.manager.endSession w.clock (w.clock + gap) id peerVIP outcome
      { w with
        clock := w.clock + gap
        manager := manager
        live := w.live.erase s
        ended :=
          { peerVIP := peerVIP, outcome := outcome
            tracked := w.manager.tracked, cooldown := d } :: w.ended }

/-! ## What is meant -/

/-- How many sessions to the peer have ended with the reason in a row, up to
the last one. -/
def streakLength (peerVIP : VIP) (reason : Reason) (ended : List Ending) : Nat :=
  ((ended.filter fun e => e.peerVIP = peerVIP).takeWhile (Ending.busyWith reason)).length

def rung (n : Nat) : Time := punchBusyLadder.getD (min (n - 1) 3) 0

/-- Every busy session has written the rung of its streak, as long as there was
room in the tables. -/
def ClimbsLadder (ended : List Ending) : Prop :=
  ∀ e earlier, e :: earlier <:+ ended → ∀ reason ∈ [Reason.peerBusy, .rateLimited],
    e.busyWith reason = true →
    (∀ x ∈ e :: earlier, x.tracked < punchBusyStreakMaxEntries) →
    e.cooldown = rung (streakLength e.peerVIP reason (e :: earlier))

/-! ## Every session counts as the first one -/

/-- A session in flight is the only one to its peer, and has started after the
peer's cooldown. -/
structure World.Settled (w : World) : Prop where
  fresh : ∀ s session, w.live.lookup s = some session → s < w.nextSession
  single : ∀ s id vip, w.live.lookup s = some (id, vip) → w.manager.byPeer.lookup vip = some s
  expired : ∀ s id vip, w.live.lookup s = some (id, vip) → w.manager.expired w.clock vip = true
  first : ∀ e ∈ w.ended, e.outcome.succeeded = false → isBusyReason e.outcome.reason = true →
    e.cooldown = punchBusyCooldown

open World

theorem World.initial_settled (clock : Time) : (initial clock).Settled where
  fresh := fun _ _ h => by cases h
  single := fun _ _ _ h => by cases h
  expired := fun _ _ _ h => by cases h
  first := fun _ h => by cases h

theorem endSession_tables (m : PunchManager) (now later : Time) (id : AttemptId) (peerVIP : VIP)
    (outcome : Outcome) :
    (m.endSession now later id peerVIP outcome).1.byPeer = m.byPeer.erase peerVIP ∧
      (m.endSession now later id peerVIP outcome).1.cooldown =
        m.cooldown.insert peerVIP (now + (m.endSession now later id peerVIP outcome).2) := by
  obtain ⟨hcooldown, hpeer, -⟩ := noteSessionOutcomeLocked_cooldown
    { m with sessions := m.sessions.erase id, byPeer := m.byPeer.erase peerVIP }
    later peerVIP outcome
  exact ⟨hpeer, by simp only [endSession, hcooldown]⟩

variable {w : World}

theorem World.Settled.punch {id : AttemptId} {manager : PunchManager} (hw : w.Settled)
    (hok : w.manager.punchWithTrigger env (w.clock - lag) w.nextSession peerVIP trigger =
      .ok (id, manager)) :
    World.Settled
      { w with
        manager := manager
        live := w.live.insert w.nextSession (id, Text.trimSpace peerVIP)
        nextSession := w.nextSession + 1 } := by
  obtain ⟨hexpired, hpeer, rfl⟩ := punchWithTrigger_ok hok
  have hstarted := expired_mono hexpired (Nat.sub_le w.clock lag)
  refine ⟨fun s session hs => ?_, fun s id' vip hs => ?_, fun s id' vip hs => ?_, hw.first⟩
  · rcases lookup_insert_eq_some.1 hs with ⟨rfl, -⟩ | ⟨-, hs⟩
    · exact Nat.lt_succ_self _
    · exact Nat.lt_succ_of_lt (hw.fresh s session hs)
  · rcases lookup_insert_eq_some.1 hs with ⟨rfl, heq⟩ | ⟨-, hs⟩
    · cases heq
      exact Finmap.lookup_insert _
    · -- the peer of an earlier session is in the table already
      have hold := hw.single s id' vip hs
      have hne : vip ≠ Text.trimSpace peerVIP := by
        rintro rfl
        simp [hpeer] at hold
      exact (Finmap.lookup_insert_of_ne _ hne).trans hold
  · rcases lookup_insert_eq_some.1 hs with ⟨rfl, heq⟩ | ⟨-, hs⟩
    · cases heq
      exact hstarted
    · exact hw.expired s id' vip hs

theorem World.Settled.finish {id : AttemptId} (hw : w.Settled)
    (hs : w.live.lookup s = some (id, peerVIP)) (outcome : Outcome) (gap : Time) :
    World.Settled
      { w with
        clock := w.clock + gap
        manager := (w.manager.endSession w.clock (w.clock + gap) id peerVIP outcome).1
        live := w.live.erase s
        ended :=
          { peerVIP := peerVIP, outcome := outcome, tracked := w.manager.tracked
            cooldown := (w.manager.endSession w.clock (w.clock + gap) id peerVIP outcome).2 } ::
            w.ended } := by
  obtain ⟨hpeers, hcooldown⟩ :=
    endSession_tables w.manager w.clock (w.clock + gap) id peerVIP outcome
  have hother : ∀ t id' vip, t ≠ s → w.live.lookup t = some (id', vip) → vip ≠ peerVIP := by
    rintro t id' vip hne ht rfl
    have := (hw.single t id' vip ht).symm.trans (hw.single s id vip hs)
    exact hne (Option.some.inj this)
  refine ⟨fun t session ht => ?_, fun t id' vip ht => ?_, fun t id' vip ht => ?_, ?_⟩
  · exact hw.fresh t session (lookup_erase_eq_some.1 ht).2
  · obtain ⟨hne, ht⟩ := lookup_erase_eq_some.1 ht
    rw [hpeers]
    exact lookup_erase_eq_some.2 ⟨hother t id' vip hne ht, hw.single t id' vip ht⟩
  · obtain ⟨hne, ht⟩ := lookup_erase_eq_some.1 ht
    refine expired_eq_true.2 fun ends hends => ?_
    rw [hcooldown, Finmap.lookup_insert_of_ne _ (hother t id' vip hne ht)] at hends
    exact (expired_eq_true.1 (hw.expired t id' vip ht) ends hends).trans (Nat.le_add_right _ _)
  · intro e he hfailed hbusy
    rcases List.mem_cons.1 he with rfl | he
    · -- the cooldown that was over at the start is still in the table
      exact noteSessionOutcomeLocked_busy
        (expired_mono (hw.expired s id peerVIP hs) (Nat.le_add_right _ gap)) hfailed hbusy
    · exact hw.first e he hfailed hbusy

/-- A session begins only with a peer that has none and is not cooling down. -/
theorem World.Settled.step (hw : w.Settled) (hstep : w.step event = some w') : w'.Settled := by
  cases event with
  | elapse d =>
    cases hstep
    exact ⟨hw.fresh, hw.single,
      fun s id vip hs => expired_mono (hw.expired s id vip hs) (Nat.le_add_right _ _), hw.first⟩
  | punch env lag peerVIP trigger =>
    simp only [World.step] at hstep
    split at hstep <;> cases hstep
    · exact hw
    next id manager hok =>
      exact hw.punch hok
  | finish s outcome gap =>
    obtain ⟨⟨id, peerVIP⟩, hs, rfl⟩ := Option.map_eq_some_iff.1 hstep
    exact hw.finish hs outcome gap

theorem settled_of_run (hrun : run step (initial start) events = some w) : w.Settled :=
  run_stable (fun _ _ _ hw hstep => hw.step hstep) (initial_settled start) hrun

theorem streakLength_pos (hbusy : e.busyWith reason = true) (earlier : List Ending) :
    0 < streakLength e.peerVIP reason (e :: earlier) := by
  simp [streakLength, hbusy]

theorem rung_eq_busyCooldown (hn : 0 < n) : rung n = punchBusyCooldown ↔ n = 1 := by
  constructor
  · intro h
    by_contra hne
    have hhigher : min (n - 1) 3 = 1 ∨ min (n - 1) 3 = 2 ∨ min (n - 1) 3 = 3 := by omega
    rcases hhigher with hmin | hmin | hmin <;> rw [rung, hmin] at h <;> cases h
  · rintro rfl
    rfl

theorem isBusyReason_of_busyWith {e : Ending} (hreason : reason ∈ [Reason.peerBusy, .rateLimited])
    (hbusy : e.busyWith reason = true) :
    e.outcome.succeeded = false ∧ isBusyReason e.outcome.reason = true := by
  simp only [Ending.busyWith, Bool.and_eq_true, Bool.not_eq_true', decide_eq_true_eq] at hbusy
  refine ⟨hbusy.1, ?_⟩
  simp only [List.mem_cons, List.not_mem_nil, or_false] at hreason
  rcases hreason with rfl | rfl <;> rw [hbusy.2] <;> rfl

/-- A busy session writes the rung of its streak when it is the first of the
streak, and only then. -/
theorem busy_ladder_first_rung (start : Time) (events : List Event) (w : World)
    (hrun : run step (initial start) events = some w) (e : Ending)
    (earlier : List Ending) (hended : e :: earlier <:+ w.ended) (reason : Reason)
    (hreason : reason ∈ [Reason.peerBusy, .rateLimited]) (hbusy : e.busyWith reason = true) :
    e.cooldown = rung (streakLength e.peerVIP reason (e :: earlier)) ↔
      streakLength e.peerVIP reason (e :: earlier) = 1 := by
  obtain ⟨hfailed, hisBusy⟩ := isBusyReason_of_busyWith hreason hbusy
  have hmem : e ∈ w.ended := hended.subset List.mem_cons_self
  rw [(settled_of_run hrun).first e hmem hfailed hisBusy, eq_comm]
  exact rung_eq_busyCooldown (streakLength_pos hbusy earlier)

/-! ## Two busy sessions in a row -/

def refused : Outcome where
  succeeded := false
  reason := some .peerBusy

def busyTwice : List Event :=
  [.punch calm 0 bobVIP .manual, .elapse second, .finish 0 refused 0,
    .elapse (30 * second), .punch calm 0 bobVIP .manual, .elapse second, .finish 1 refused 0]

def firstBusy : Ending where
  peerVIP := bobVIP
  outcome := refused
  tracked := 0
  cooldown := 30 * second

def secondBusy : Ending := { firstBusy with tracked := 1 }

theorem busyTwice_ended :
    ∃ w, run step (initial 0) busyTwice = some w ∧
      w.ended = [secondBusy, firstBusy] := by
  decide +kernel

/-- The second of two busy sessions in a row waits 30 seconds and not 60. -/
theorem busy_ladder_not_climbed :
    ¬ ∀ (start : Time) (events : List Event) (w : World),
      run step (initial start) events = some w → ClimbsLadder w.ended := by
  intro h
  obtain ⟨w, hrun, hended⟩ := busyTwice_ended
  have hlaw := h 0 busyTwice w hrun secondBusy [firstBusy] (by rw [hended]) .peerBusy
    (by simp) rfl (by decide)
  revert hlaw
  decide +kernel

/-- The first of the two sessions writes the first rung. -/
theorem busy_ladder_first_rung_bob :
    ∃ w, run step (initial 0) busyTwice = some w ∧ [firstBusy] <:+ w.ended ∧
      firstBusy.cooldown = rung (streakLength bobVIP .peerBusy [firstBusy]) := by
  obtain ⟨w, hrun, hended⟩ := busyTwice_ended
  have hsuffix : [firstBusy] <:+ w.ended := by
    rw [hended]
    exact List.suffix_cons _ _
  exact ⟨w, hrun, hsuffix,
    (busy_ladder_first_rung 0 busyTwice w hrun firstBusy [] hsuffix .peerBusy (by simp) rfl).2
      (by decide +kernel)⟩

end Hy2Link.Client.Punch
