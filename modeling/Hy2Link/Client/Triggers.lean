import Hy2Link.Interleaving.Beside
import Hy2Link.Client.PathManager

/-! # Triggers

A packet on its way to a peer asks for a direct path.  `Observe` is called for
every packet: it puts the peer into a short queue for the scheduler, unless it
did so a moment ago.

`HasUsablePath` calls a path usable when it is up or on trial, so that a path on
standby does not keep a new one from being tried.  But `Observe` gives up on any
entry of the route table, and a path on standby, or one that has just died, is
still there.
-/

namespace Hy2Link.Client.Path

open Interleaving

def triggerSeenTTL : Time := 15 * second

def triggerQueueLen : Nat := 8

/-- The path to the peer carries traffic, or is on trial. -/
def Tables.hasUsablePath (s : Tables) (dst : IPv4) : Bool :=
  (match s.routes.lookup dst with
    | none => false
    | some p => s.stateOf p = some .up) ||
  s.trialPaths.any fun p =>
    match s.paths.lookup p with
    | none => false
    | some path => path.peer = dst && path.state = .trial

/-- The set that keeps triggers apart, with the end of each entry, and the queue
of the scheduler. -/
structure Triggers where
  triggerSeen : Table IPv4 Time
  triggerCh : List IPv4

namespace Triggers

variable (q : Triggers) (now : Time) (dst : IPv4)

def initial : Triggers := ⟨∅, []⟩

def pruneTriggerSeen : Triggers :=
  { q with triggerSeen := q.triggerSeen.filter fun _ ends => now < ends }

/-- Looks the peer up and notes it. -/
def seenRecently : Triggers × Bool :=
  if (q.triggerSeen.lookup dst).any (now < ·) then (q, true)
  else
    let q := q.pruneTriggerSeen now
    ({ q with triggerSeen := q.triggerSeen.insert dst (now + triggerSeenTTL) }, false)

/-- A full queue drops the trigger. -/
def send : Triggers :=
  if q.triggerCh.length < triggerQueueLen then { q with triggerCh := q.triggerCh ++ [dst] } else q

def observe (routes : Table IPv4 PathId) : Triggers :=
  if (routes.lookup dst).isSome then q
  else
    let (q, seen) := q.seenRecently now dst
    if seen then q else q.send dst

def take : Option Triggers :=
  match q.triggerCh with
  | [] => none
  | _ :: rest => some { q with triggerCh := rest }

end Triggers

/-! ## Beside the path manager -/

inductive TriggerAction
  | observe (now : Time) (dst : IPv4)
  | pruneTriggerSeen (now : Time)
  | take
deriving DecidableEq

def trigger (cfg : PathConfig) (q : Triggers) :
    TriggerAction → Option (Triggers × Option PathAction)
  | .observe now dst => some (q.observe now dst cfg.shared.routes, none)
  | .pruneTriggerSeen now => some (q.pruneTriggerSeen now, none)
  | .take => q.take.map fun q => (q, none)

abbrev Traffic := Joint PathConfig Triggers

abbrev TrafficTurn := Turn PathAction TriggerAction

def Traffic.step : Traffic → TrafficTurn → Option Traffic := joint system.next trigger

open Triggers

def Traffic.initial (p2pLocalEnabled : Bool) : Traffic :=
  ⟨Path.initial p2pLocalEnabled, Triggers.initial⟩

/-! ## What the set remembers -/

/-- Every entry of the set stems from a call of `Observe`. -/
def SeenBy (turns : List TrafficTurn) (q : Triggers) : Prop :=
  ∀ dst ends, q.triggerSeen.lookup dst = some ends →
    ∃ t, .side (.observe t dst) ∈ turns ∧ ends = t + triggerSeenTTL

namespace SeenBy

variable {turns : List TrafficTurn} {q : Triggers}

section

variable (h : SeenBy turns q)
include h

theorem snoc (turn : TrafficTurn) : SeenBy (turns ++ [turn]) q := by
  intro dst ends hends
  obtain ⟨t, ht, httl⟩ := h dst ends hends
  exact ⟨t, List.mem_append_left _ ht, httl⟩

theorem pruned (now : Time) : SeenBy turns (q.pruneTriggerSeen now) :=
  fun dst ends hends => h dst ends (lookup_filter_eq_some.1 hends).1

theorem observed (now : Time) (dst : IPv4) (routes : Table IPv4 PathId) :
    SeenBy (turns ++ [.side (.observe now dst)]) (q.observe now dst routes) := by
  have hold := h.snoc (.side (.observe now dst))
  have hnoted : SeenBy (turns ++ [.side (.observe now dst)]) (q.seenRecently now dst).1 := by
    unfold seenRecently
    split
    · exact hold
    · intro other ends hends
      rcases lookup_insert_eq_some.1 hends with ⟨rfl, rfl⟩ | ⟨-, hends⟩
      · exact ⟨now, by simp, rfl⟩
      · exact hold.pruned now other ends hends
  unfold observe
  split
  · exact hold
  · dsimp only
    split
    · exact hnoted
    · unfold send
      split <;> exact hnoted

theorem taken (htake : q.take = some q') : SeenBy turns q' := by
  unfold take at htake
  split at htake <;> cases htake
  · exact h

end

end SeenBy

open Traffic

theorem seenBy_of_run (hrun : run step (.initial enabled) turns = some s) :
    SeenBy turns s.side := by
  refine run_history (P := fun turns s => SeenBy turns s.side) ?_ ?_ hrun
  · intro dst ends hends
    simp [Traffic.initial, Triggers.initial] at hends
  · intro turns s turn next _ ih hnext
    cases jointStep_of_joint hnext with
    -- the path manager does not touch the set
    | main hstep => exact ih.snoc _
    | @look b l hadvance =>
      cases b with
      | observe now dst =>
        cases hadvance
        exact ih.observed now dst _
      | pruneTriggerSeen now =>
        cases hadvance
        exact (ih.pruned now).snoc _
      | take =>
        obtain ⟨q, hq, hl⟩ := Option.map_eq_some_iff.1 hadvance
        cases hl
        exact (ih.taken hq).snoc _
    -- no trigger is an action of the path manager
    | @act a b next l hadvance hstep =>
      cases b with
      | take =>
        obtain ⟨q, hq, hl⟩ := Option.map_eq_some_iff.1 hadvance
        cases hl
      | _ => cases hadvance

/-! ## One call -/

variable {routes : Table IPv4 PathId}

theorem observe_of_route {q : Triggers} (hroute : routes.lookup dst = some p) :
    q.observe now dst routes = q := by
  rw [observe, hroute]
  rfl

theorem observe_of_no_route {q : Triggers} (hroute : routes.lookup dst = none)
    (hunseen : ∀ ends, q.triggerSeen.lookup dst = some ends → ends ≤ now)
    (hroom : q.triggerCh.length < triggerQueueLen) :
    (q.observe now dst routes).triggerCh = q.triggerCh ++ [dst] := by
  have hfresh : ¬ (q.triggerSeen.lookup dst).any (now < ·) = true := by
    rw [Option.any_eq_true]
    rintro ⟨ends, hends, hlate⟩
    exact Nat.not_lt.2 (hunseen ends hends) (of_decide_eq_true hlate)
  rw [observe, hroute, if_neg (by decide), seenRecently, if_neg hfresh]
  dsimp only [send, pruneTriggerSeen]
  rw [if_neg (by decide), if_pos hroom]

/-- **A peer is triggered unless a path that is not up is in its slot.**  In
every state that can be reached, with no usable path to a peer that was not
observed for a while, and with room in the queue: the call of `Observe` puts the
peer into the queue if and only if every path in its slot of the route table is
up, which is to say that there is none. -/
theorem observe_triggers_iff (enabled : Bool) (turns : List TrafficTurn) (s : Traffic)
    (hrun : run step (.initial enabled) turns = some s) (now : Time) (dst : IPv4)
    (hunusable : s.main.shared.hasUsablePath dst = false)
    (hunseen : ∀ t, .side (.observe t dst) ∈ turns → t + triggerSeenTTL ≤ now)
    (hroom : s.side.triggerCh.length < triggerQueueLen) :
    (s.side.observe now dst s.main.shared.routes).triggerCh = s.side.triggerCh ++ [dst] ↔
      ∀ p, s.main.shared.routes.lookup dst = some p → s.main.shared.stateOf p = some .up := by
  cases hroute : s.main.shared.routes.lookup dst with
  | none =>
    refine iff_of_true (observe_of_no_route hroute ?_ hroom) ?_
    · intro ends hends
      obtain ⟨t, ht, rfl⟩ := seenBy_of_run hrun dst ends hends
      exact hunseen t ht
    · rintro p ⟨⟩
  | some p =>
    have hstate : s.main.shared.stateOf p ≠ some .up := by
      intro hup
      simp [Tables.hasUsablePath, hroute, hup] at hunusable
    refine iff_of_false ?_ fun hup => hstate (hup p rfl)
    rw [observe_of_route hroute]
    simp

/-! ## Two paths that were installed -/

def installed : List PathAction := handoverRun 0 0 peerReq ++ passRun 0 ++ goes (.watch 0) 9

def goesStandby : List PathAction :=
  installed ++ goes (.watch 0) 3 ++ .step (.watch 0) .degraded :: goes (.watch 0) 1

/-- A peer whose only path is on standby has a route, but no usable path. -/
theorem standby_peer_not_triggered :
    ∃ s, run step (.initial true) (goesStandby.map .main) = some s ∧
      s.main.shared.stateOf 0 = some .standby ∧
      s.main.shared.hasUsablePath peerReq.peer = false ∧
      s.side.triggerCh.length < triggerQueueLen ∧
      ∀ now, (s.side.observe now peerReq.peer s.main.shared.routes).triggerCh = [] := by
  obtain ⟨s, hs, hstandby, hunusable, hempty, hroute⟩ : ∃ s,
      run step (.initial true) (goesStandby.map .main) = some s ∧
      s.main.shared.stateOf 0 = some .standby ∧
      s.main.shared.hasUsablePath peerReq.peer = false ∧ s.side.triggerCh = [] ∧
      s.main.shared.routes.lookup peerReq.peer = some 0 := by
    decide +kernel
  refine ⟨s, hs, hstandby, hunusable, ?_, fun now => ?_⟩
  · rw [hempty]
    decide
  · rw [observe_of_route hroute, hempty]

def goesDown : List PathAction := installed ++ .step (.watch 0) .lost :: goes (.watch 0) 5

theorem observe_triggers_iff_lost :
    ∃ s, run step (.initial true) (goesDown.map .main) = some s ∧
      s.main.shared.stateOf 0 = some .down ∧
      (s.side.observe second peerReq.peer s.main.shared.routes).triggerCh =
        s.side.triggerCh ++ [peerReq.peer] := by
  obtain ⟨s, hs, hdown, hunusable, hempty, hroute⟩ : ∃ s,
      run step (.initial true) (goesDown.map .main) = some s ∧
      s.main.shared.stateOf 0 = some .down ∧
      s.main.shared.hasUsablePath peerReq.peer = false ∧ s.side.triggerCh = [] ∧
      s.main.shared.routes.lookup peerReq.peer = none := by
    decide +kernel
  refine ⟨s, hs, hdown, ?_⟩
  refine (observe_triggers_iff true _ s hs second peerReq.peer hunusable ?_ ?_).2 ?_
  · simp
  · rw [hempty]
    decide
  · rw [hroute]
    rintro p ⟨⟩

end Hy2Link.Client.Path
