import Hy2Link.Interleaving.Run
import Hy2Link.Client.PathBackoff

/-! # The laws of the backoff

The five writers of a peer's retry time as events, and the two laws of a
sequence of them: how far a failure climbs its ladder, which depends on the
failures since the last reset alone, and when a failure leaves the retry time
where it was or later.

`delayRetry` compares with the time stored before; the other four overwrite it.
-/

namespace Hy2Link.Client.Path

open Interleaving

inductive Failure
  | onPunchFailed (peerVIP : Punch.VIP) (reason : String)
  | setBackoffTransient (dst : IPv4) (err : String)
  | delayRetry (dst : IPv4) (d : Time)
  | setRejectedCooldown (dst : IPv4)
  | scheduleRetry (dst : IPv4) (reason : String)
deriving DecidableEq

inductive RetryEvent
  | failed (failure : Failure)
  | resetBackoffFor (dst : IPv4)
  | resetAllBackoff
  | onPunchSucceeded (peerVIP : Punch.VIP)
deriving DecidableEq

namespace Failure

/-- The peer that rests; a text that is no address is nobody's. -/
def peer : Failure → Option IPv4
  | .onPunchFailed peerVIP _ => (Text.parseIP peerVIP).bind Text.IP.to4
  | .setBackoffTransient dst _ => some dst
  | .delayRetry dst _ => some dst
  | .setRejectedCooldown dst => some dst
  | .scheduleRetry dst _ => some dst

/-- The class of the reason, where a reason is given. -/
def failClass : Failure → Option PathFailClass
  | .onPunchFailed _ reason => some (classifyPathFail reason)
  | .scheduleRetry _ reason => some (classifyPathFail reason)
  | _ => none

/-- The reason is of a class with a ladder, other than poor quality. -/
def ladders (f : Failure) : Bool :=
  f.failClass = some .retryable || f.failClass = some .permanent

/-- The rest that the failure asks for, by the streaks of its peer. -/
def rest (st : BackoffState) : Failure → Time
  | .onPunchFailed _ reason => (backoffDelayFor (classifyPathFail reason) st).1
  | .scheduleRetry _ reason =>
    if classifyPathFail reason = .peerClosed then backoffBusy
    else (backoffDelayFor (classifyPathFail reason) st).1
  | .setBackoffTransient _ _ => backoffBusy
  | .setRejectedCooldown _ => backoffBusy
  | .delayRetry _ d => d

/-- The one writer that looks at the time stored before. -/
def keepsLater : Failure → Bool
  | .delayRetry _ _ => true
  | _ => false

def lastErr (st : BackoffState) : Failure → String
  | .onPunchFailed _ reason => reason
  | .scheduleRetry _ reason =>
    if classifyPathFail reason = .peerClosed then st.lastErr else reason
  | .setBackoffTransient _ err => err
  | .setRejectedCooldown _ => st.lastErr
  | .delayRetry _ _ => st.lastErr

/-- A failure of the peer `dst` that climbs the ladder of poor quality. -/
def climbsQuality (dst : IPv4) (f : Failure) : Bool :=
  f.peer = some dst && f.failClass = some .quality

/-- A failure of the peer `dst` that climbs one of the other two ladders. -/
def climbsOther (dst : IPv4) (f : Failure) : Bool := f.peer = some dst && f.ladders

end Failure

variable {f : Failure} {dst : IPv4}

namespace Backoff

def note (t : Backoff) (now : Time) : Failure → Backoff
  | .onPunchFailed peerVIP reason => t.onPunchFailed now peerVIP reason
  | .setBackoffTransient dst err => t.setBackoffTransient now dst err
  | .delayRetry dst d => t.delayRetry now dst d
  | .setRejectedCooldown dst => t.setRejectedCooldown now dst
  | .scheduleRetry dst reason => t.scheduleRetry now dst reason

def handle (t : Backoff) (now : Time) : RetryEvent → Backoff
  | .failed f => t.note now f
  | .resetBackoffFor dst => t.resetBackoffFor dst
  | .resetAllBackoff => t.resetAllBackoff
  | .onPunchSucceeded peerVIP => t.onPunchSucceeded peerVIP

def after (t : Backoff) (events : List (Time × Failure)) : Backoff :=
  events.foldl (fun t event => t.note event.1 event.2) t

/-! ## One event -/

def record (now : Time) (st : BackoffState) (f : Failure) : BackoffState where
  step := if f.ladders then st.step + 1 else st.step
  qualityStep := if f.failClass = some .quality then st.qualityStep + 1 else st.qualityStep
  «until» := if f.keepsLater then max st.until (now + f.rest st) else now + f.rest st
  lastErr := f.lastErr st

open Failure

theorem note_of_peer (t : Backoff) (now : Time) (hpeer : f.peer = some dst) :
    t.note now f = t.insert dst (record now (t.get dst) f) := by
  cases f with
  | onPunchFailed peerVIP reason =>
    simp only [peer] at hpeer
    cases hclass : classifyPathFail reason <;>
      simp [note, onPunchFailed, hpeer, record, ladders, failClass,
        rest, keepsLater, lastErr, hclass, backoffDelayFor]
  | setBackoffTransient | setRejectedCooldown =>
    cases hpeer
    rfl
  | delayRetry peer d =>
    cases hpeer
    simp only [note, delayRetry, record, keepsLater, rest, if_true]
    split
    next hlt =>
      rw [max_eq_right hlt.le]
      rfl
    next hge =>
      rw [max_eq_left (not_lt.1 hge)]
      rfl
  | scheduleRetry peer reason =>
    cases hpeer
    cases hclass : classifyPathFail reason <;>
      simp [note, scheduleRetry, record, ladders, failClass,
        rest, keepsLater, lastErr, hclass, backoffDelayFor]

theorem note_of_no_peer (t : Backoff) (now : Time) (hpeer : f.peer = none) : t.note now f = t := by
  cases f with
  | onPunchFailed peerVIP reason =>
    simp only [peer] at hpeer
    simp only [note, onPunchFailed, hpeer]
  | _ => cases hpeer

theorem get_note_self (t : Backoff) (now : Time) (hpeer : f.peer = some dst) :
    (t.note now f).get dst = record now (t.get dst) f := by
  rw [note_of_peer t now hpeer, get_insert, if_pos rfl]

theorem get_note_other (t : Backoff) (now : Time) (hpeer : f.peer ≠ some dst) :
    (t.note now f).get dst = t.get dst := by
  cases hother : f.peer with
  | none => rw [note_of_no_peer t now hother]
  | some other =>
    rw [note_of_peer t now hother, get_insert, if_neg]
    rintro rfl
    exact hpeer hother

/-- A failure with a ladder, and a busy peer, rest alike at both entries. -/
theorem record_until (now : Time) (st : BackoffState) (hclass : f.failClass = some c)
    (hclosed : c ≠ .peerClosed) :
    (record now st f).until = now + (backoffDelayFor c st).1 := by
  cases f with
  | onPunchFailed peerVIP reason =>
    obtain rfl := Option.some.inj hclass
    rfl
  | scheduleRetry dst reason =>
    obtain rfl := Option.some.inj hclass
    simp [record, keepsLater, rest, hclosed]
  | _ => cases hclass

theorem streaks_note (t : Backoff) (now : Time) (f : Failure) (dst : IPv4) :
    (t.note now f).streaks dst =
      ((t.streaks dst).1 + if f.climbsOther dst then 1 else 0,
        (t.streaks dst).2 + if f.climbsQuality dst then 1 else 0) := by
  by_cases hpeer : f.peer = some dst
  · simp only [streaks, get_note_self t now hpeer, record, climbsOther,
      climbsQuality, hpeer, decide_true, Bool.true_and, decide_eq_true_eq]
    congr 1 <;> split <;> simp
  · simp [streaks, get_note_other t now hpeer, climbsOther, climbsQuality, hpeer]

/-! ## The streaks -/

/-- The streaks count the failures of their class since the last reset. -/
theorem streaks_after (t : Backoff) (events : List (Time × Failure)) (dst : IPv4) :
    (t.after events).streaks dst =
      ((t.streaks dst).1 + events.countP (fun event => event.2.climbsOther dst),
        (t.streaks dst).2 + events.countP (fun event => event.2.climbsQuality dst)) := by
  induction events generalizing t with
  | nil => simp [after]
  | cons event rest ih =>
    have hstep := streaks_note t event.1 event.2 dst
    have hrest := ih (t.note event.1 event.2)
    rw [hstep] at hrest
    rw [after, List.foldl_cons]
    refine hrest.trans ?_
    simp only [List.countP_cons]
    congr 1 <;> split <;> omega

theorem streaks_reset (t : Backoff) (dst : IPv4) :
    (t.resetBackoffFor dst).streaks dst = (0, 0) := by
  simp [streaks, get, resetBackoffFor, BackoffState.zero, Finmap.lookup_erase]

theorem ladderStep_natCast (hladder : ladder ≠ []) (n : Nat) :
    ladderStep ladder n = ladder.getD (min n (ladder.length - 1)) 0 := by
  have hlength : 0 < ladder.length := List.length_pos_iff.2 hladder
  have hsign : ¬ (n : Int) < 0 := by omega
  simp only [ladderStep, hsign, if_false]
  split
  next hle =>
    congr 1
    omega
  next hlt =>
    congr 1
    omega

/-- **The delay of a failure is a function of the failures since the last
reset.**  A path of poor quality rests by the number of such failures before
it, every other failure with a ladder by the number of those; the events without
a ladder leave both numbers. -/
theorem streak_law (t : Backoff) {dst : IPv4} (events : List (Time × Failure)) (now : Time)
    {f : Failure} (hpeer : f.peer = some dst) :
    let before := (t.resetBackoffFor dst).after events
    let q := events.countP fun event => event.2.climbsQuality dst
    let s := events.countP fun event => event.2.climbsOther dst
    (f.failClass = some .quality →
      ((before.note now f).get dst).until = now + backoffLadderQuality.getD (min q 3) 0) ∧
    (f.failClass = some .retryable →
      ((before.note now f).get dst).until = now + backoffLadder.getD (min s 3) 0) ∧
    (f.failClass = some .permanent →
      ((before.note now f).get dst).until =
        now + backoffLadderDeterministic.getD (min s 3) 0) ∧
    before.streaks dst = (↑s, ↑q) ∧
    (f.failClass = none ∨ f.failClass = some .busy ∨ f.failClass = some .peerClosed →
      (before.note now f).streaks dst = before.streaks dst) := by
  intro before q s
  have hstreaks : before.streaks dst = (↑s, ↑q) := by
    have hcount := streaks_after (t.resetBackoffFor dst) events dst
    rw [streaks_reset] at hcount
    simpa using hcount
  have hstep : (before.get dst).step = s := congrArg Prod.fst hstreaks
  have hquality : (before.get dst).qualityStep = q := congrArg Prod.snd hstreaks
  -- the three ladders differ in the class and in the streak that is read
  have huntil (c : PathFailClass) (hclass : f.failClass = some c) (hclosed : c ≠ .peerClosed) :
      ((before.note now f).get dst).until =
        now + (backoffDelayFor c (before.get dst)).1 := by
    rw [get_note_self before now hpeer]
    exact record_until now (before.get dst) hclass hclosed
  refine ⟨?_, ?_, ?_, hstreaks, ?_⟩
  · intro hclass
    rw [huntil _ hclass (by decide), backoffDelayFor, hquality, ladderStep_natCast (by decide)]
    rfl
  · intro hclass
    rw [huntil _ hclass (by decide), backoffDelayFor, hstep, ladderStep_natCast (by decide)]
    rfl
  · intro hclass
    rw [huntil _ hclass (by decide), backoffDelayFor, hstep, ladderStep_natCast (by decide)]
    rfl
  · intro hclass
    rw [streaks_note]
    rcases hclass with hclass | hclass | hclass <;>
      simp [climbsOther, climbsQuality, ladders, hclass]

def bob : IPv4 := 0x0a000003#32

/-- A lost path and a lost trial before the second failure of its class. -/
theorem streak_law_second_loss :
    (Failure.scheduleRetry bob "probe-timeout").peer = some bob ∧
      ((((resetBackoffFor ∅ bob).after [(second, .scheduleRetry bob "direct-lost"),
          (2 * second, .setRejectedCooldown bob)]).note minute
            (.scheduleRetry bob "probe-timeout")).get bob).until = minute + 15 * minute :=
  ⟨rfl, (streak_law ∅ [(second, .scheduleRetry bob "direct-lost"),
    (2 * second, .setRejectedCooldown bob)] minute rfl).1 (by decide)⟩

/-! ## The retry time -/

def retry (t : Backoff) (event : Time × RetryEvent) : Option Backoff :=
  some (t.handle event.1 event.2)

/-- A failure leaves the retry time of `dst` where it was or later. -/
def NotEarlier (dst : IPv4) (t : Backoff) (event : Time × RetryEvent) : Prop :=
  ∀ f, event.2 = .failed f → (t.get dst).until ≤ ((t.handle event.1 event.2).get dst).until

/-- The failures of `dst` since its last reset, the newest first. -/
def since (dst : IPv4) (past : List (Time × Failure)) :
    Time × RetryEvent → List (Time × Failure)
  | (now, .failed f) => if f.peer = some dst then (now, f) :: past else past
  | (_, .resetBackoffFor peer) => if peer = dst then [] else past
  | (_, .resetAllBackoff) => []
  | (_, .onPunchSucceeded peerVIP) =>
    if (Text.parseIP peerVIP).bind Text.IP.to4 = some dst then [] else past

/-- The retry time that a failure asks for, by the kinds of those before it. -/
def asks (past : List (Time × Failure)) (now : Time) (f : Failure) : Time :=
  now + f.rest ⟨past.countP fun e => e.2.ladders,
    past.countP fun e => e.2.failClass = some .quality, 0, ""⟩

def asked : List (Time × Failure) → List Time
  | [] => []
  | e :: past => asks past e.1 e.2 :: asked past

/-- A failure of `dst` other than `delayRetry` asks for no earlier time than one
of those since the last reset. -/
def InTime (dst : IPv4) (past : List (Time × Failure)) (event : Time × RetryEvent) : Prop :=
  ∀ f, event.2 = .failed f → f.peer = some dst → f.keepsLater = false →
    ∀ time ∈ asked past, time ≤ asks past event.1 f

/-- What the table holds of a peer whose retry time was never moved earlier. -/
structure Reflects (dst : IPv4) (past : List (Time × Failure)) (t : Backoff) : Prop where
  step : (t.get dst).step = past.countP fun e => e.2.ladders
  qualityStep : (t.get dst).qualityStep = past.countP fun e => e.2.failClass = some .quality
  le_until : ∀ time ∈ asked past, time ≤ (t.get dst).until
  until_mem : (t.get dst).until = 0 ∨ (t.get dst).until ∈ asked past

section

variable (h : Reflects dst past t)
include h

theorem Reflects.asks_eq (now : Time) (f : Failure) :
    asks past now f = now + f.rest (t.get dst) := by
  rw [asks, ← h.step, ← h.qualityStep]
  cases f with
  | onPunchFailed _ reason | scheduleRetry _ reason =>
    simp only [rest]
    cases classifyPathFail reason <;> rfl
  | _ => rfl

theorem Reflects.notEarlier_iff (event : Time × RetryEvent) :
    NotEarlier dst t event ↔ InTime dst past event := by
  obtain ⟨now, event⟩ := event
  refine forall_congr' fun f => imp_congr_right fun hevent => ?_
  obtain rfl : event = .failed f := hevent
  simp only [handle]
  by_cases hpeer : f.peer = some dst
  -- `delayRetry` takes the later of two times, the other writers overwrite
  · simp only [get_note_self t now hpeer, record, hpeer, forall_const]
    cases f.keepsLater with
    | true => simp
    | false =>
      simp only [Bool.false_eq_true, if_false, forall_const, h.asks_eq now f]
      refine ⟨fun hlate time htime => (h.le_until time htime).trans hlate, fun hlate => ?_⟩
      rcases h.until_mem with hzero | hmem
      · exact hzero ▸ Nat.zero_le _
      · exact hlate _ hmem
  · simp [get_note_other t now hpeer, hpeer]

omit h in
theorem reflects_nil (ht : t.lookup dst = none) : Reflects dst [] t := by
  have hget : t.get dst = .zero := by rw [get, ht, Option.getD_none]
  refine ⟨?_, ?_, nofun, .inl ?_⟩ <;> rw [hget] <;> rfl

theorem Reflects.congr (hget : t'.get dst = t.get dst) : Reflects dst past t' := by
  constructor <;> rw [hget]
  · exact h.step
  · exact h.qualityStep
  · exact h.le_until
  · exact h.until_mem

theorem Reflects.note (hpeer : f.peer = some dst)
    (hlate : NotEarlier dst t (now, .failed f)) :
    Reflects dst ((now, f) :: past) (t.note now f) := by
  have hle : (t.get dst).until ≤ ((t.note now f).get dst).until := hlate f rfl
  have hasks := h.asks_eq now f
  rw [get_note_self t now hpeer] at hle
  constructor <;> rw [get_note_self t now hpeer]
  · simp only [record, h.step, List.countP_cons]
    split <;> simp
  · simp only [record, h.qualityStep, List.countP_cons, decide_eq_true_eq]
    split <;> simp
  · intro time htime
    rcases List.mem_cons.1 htime with rfl | htime
    · simp only [hasks, record]
      split
      · exact le_max_right _ _
      · exact le_rfl
    · exact (h.le_until time htime).trans hle
  · simp only [record, asked, hasks, List.mem_cons]
    split
    · rcases max_choice (t.get dst).until (now + f.rest (t.get dst)) with hmax | hmax
      · rw [hmax]
        exact h.until_mem.imp_right .inr
      · exact .inr (.inl hmax)
    · exact .inr (.inl rfl)

theorem Reflects.handle (hlate : NotEarlier dst t event) :
    Reflects dst (since dst past event) (t.handle event.1 event.2) := by
  have herase : ∀ peer, Reflects dst (if peer = dst then [] else past) (t.erase peer) := by
    intro peer
    split
    next heq => exact reflects_nil (heq ▸ Finmap.lookup_erase peer t)
    next hne => exact h.congr (by rw [get, Finmap.lookup_erase_ne (Ne.symm hne), get])
  obtain ⟨now, event⟩ := event
  cases event with
  | failed f =>
    simp only [since]
    split
    next hpeer => exact h.note hpeer hlate
    next hpeer => exact h.congr (get_note_other t now hpeer)
  | resetBackoffFor peer => exact herase peer
  | resetAllBackoff => exact reflects_nil (Finmap.lookup_empty dst)
  | onPunchSucceeded peerVIP =>
    simp only [since, Backoff.handle, onPunchSucceeded]
    cases (Text.parseIP peerVIP).bind Text.IP.to4 with
    | none => exact h
    | some peer => simpa only [Option.some.injEq] using herase peer

theorem Reflects.along_iff (events : List (Time × RetryEvent)) :
    Along retry (NotEarlier dst) t events ↔
      Along (fun past event => some (since dst past event)) (InTime dst) past events := by
  induction events generalizing past t with
  | nil => exact iff_of_true trivial trivial
  | cons event rest ih =>
    rw [along_cons, along_cons, h.notEarlier_iff]
    refine and_congr_right fun hintime => ?_
    have hnext := ih (h.handle ((h.notEarlier_iff event).2 hintime))
    exact ⟨fun hrest _ heq => Option.some.inj heq ▸ hnext.1 (hrest _ rfl),
      fun hrest _ heq => Option.some.inj heq ▸ hnext.2 (hrest _ rfl)⟩

end

/-- **No failure shortens the rest of a peer exactly in the sequences in which
every failure asks for a time no earlier than the failures since the last
reset**: a condition on the kinds and the times of the events alone. -/
theorem never_shortened_iff (dst : IPv4) (events : List (Time × RetryEvent)) :
    Along retry (NotEarlier dst) ∅ events ↔
      Along (fun past event => some (since dst past event)) (InTime dst) [] events :=
  (reflects_nil (Finmap.lookup_empty dst)).along_iff events

/-- A path dies and its peer is to rest for five minutes; a second later a
session that the user has asked for finds the peer busy. -/
def busyAfterLoss : List (Time × RetryEvent) :=
  [(second, .failed (.scheduleRetry bob "direct-lost")),
    (2 * second, .failed (.onPunchFailed Punch.bobVIP "peer-busy"))]

/-- The shorter rest of a busy peer replaces the longer one. -/
theorem shortened_by_busy_peer :
    busyAfterLoss.Pairwise (fun a b => a.1 ≤ b.1) ∧
      ¬ Along retry (NotEarlier bob) ∅ busyAfterLoss := by
  refine ⟨by decide, fun hkept => ?_⟩
  have hlast := (hkept.2 _ rfl).1 _ rfl
  revert hlast
  decide +kernel

end Backoff

end Hy2Link.Client.Path
