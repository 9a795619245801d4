import Hy2Link.Client.PunchStages

/-! # Sessions and their surroundings

One session as threads over the session object: the goroutine that runs it,
the event loop that delivers the pushes of the server, the shutdown of the
manager, and the close of the direct path that the session may become.
-/

namespace Hy2Link.Client.Punch

open Interleaving

/-! ## The other goroutines -/

/-- `handlePush` for the pushes that name the session. -/
inductive EventsPC
  | idle
  | busyLookup
  | busyCheck
  | failing (pc : FailPC)
  | peerLookup (ready : PeerReady)
  | peerSend (ready : PeerReady)
  | ended
deriving DecidableEq

def eventsControl (choice : Choice) : EventsPC → Option (Request SessionOp EventsPC)
  | .idle =>
    match choice with
    | .busyPush => some ⟨.stage .pass, fun _ => .busyLookup⟩
    | .peerPush ready => some ⟨.stage .pass, fun _ => .peerLookup ready⟩
    | .done => some ⟨.stage (.ctxDone none), fun _ => .ended⟩
    | _ => none
  | .busyLookup =>
    some ⟨.manager .lookupSession, fun found => if found then .busyCheck else .idle⟩
  | .busyCheck =>
    some ⟨.manager .loadState, fun state =>
      if state.decided then .idle else .failing .begin⟩
  | .failing pc =>
    some ((failControl .peerBusy pc).map fun
      | some pc => .failing pc
      | none => .idle)
  | .peerLookup ready =>
    some ⟨.manager .lookupSession, fun found => if found then .peerSend ready else .idle⟩
  | .peerSend ready => some ⟨.manager (.sendPeer ready), fun _ => .idle⟩
  | .ended => none

/-- `punchManager.close` up to its waits. -/
inductive ClosePC
  | cancel
  | collect
  | closeAll (pc : CloseAllPC)
  | finish
  | ended
deriving DecidableEq

def closeControl : ClosePC → Option (Request SessionOp ClosePC)
  | .cancel => some ⟨.manager .cancel, fun _ => .collect⟩
  | .collect =>
    some ⟨.manager .lookupSession, fun found => if found then .closeAll .check else .ended⟩
  | .closeAll pc =>
    some ((closeAllControl pc).map fun
      | some pc => .closeAll pc
      | none => .finish)
  | .finish => some ⟨.manager .finish, fun _ => .ended⟩
  | .ended => none

/-- The body of `directPath.close` as far as it concerns the resources. -/
inductive PathPC
  | closeConn
  | release (pc : ReleasePC)
  | ended
deriving DecidableEq

def pathControl : PathPC → Option (Request SessionOp PathPC)
  | .closeConn => some ⟨.resource (.close .conn), fun _ => .release .take⟩
  | .release pc =>
    some ((releaseControl pc).map fun
      | some pc => .release pc
      | none => .ended)
  | .ended => none

/-! ## What a step of these goroutines does -/

inductive EventsStep (s : Shared) : EventsPC → Shared → EventsPC → Prop
  | busyPush : EventsStep s .idle s .busyLookup
  | peerPush : EventsStep s .idle s (.peerLookup ready)
  | ended : EventsStep s .idle s .ended
  | busyFound : EventsStep s .busyLookup s .busyCheck
  | busyGone : EventsStep s .busyLookup s .idle
  | decided : EventsStep s .busyCheck s .idle
  | undecided (hopen : s.state.decided = false) : EventsStep s .busyCheck s (.failing .begin)
  | failing {pc pc' : FailPC} {s' : Shared} (hstep : FailStep .peerBusy s pc s' (some pc')) :
      EventsStep s (.failing pc) s' (.failing pc')
  | failed (hstep : FailStep .peerBusy s pc s' none) :
      EventsStep s (.failing pc) s' .idle
  | peerFound : EventsStep s (.peerLookup ready) s (.peerSend ready)
  | peerGone : EventsStep s (.peerLookup ready) s .idle
  | peerSend :
      EventsStep s (.peerSend ready)
        { s with peerReadyCh := some (s.peerReadyCh.getD ready) } .idle

inductive CloseStep (s : Shared) : ClosePC → Shared → ClosePC → Prop
  | cancel : CloseStep s .cancel { s with cancelled := true } .collect
  | found : CloseStep s .collect s (.closeAll .check)
  | gone : CloseStep s .collect s .ended
  | closeAll {pc pc' : CloseAllPC} {s' : Shared} (hstep : CloseAllStep s pc s' (some pc')) :
      CloseStep s (.closeAll pc) s' (.closeAll pc')
  | closed (hstep : CloseAllStep s pc s' none) :
      CloseStep s (.closeAll pc) s' .finish
  | finish : CloseStep s .finish { s with finished := true } .ended

inductive PathStep (s : Shared) : PathPC → Shared → PathPC → Prop
  | closeConn :
      PathStep s .closeConn { s with closed := insert .conn s.closed } (.release .take)
  | release {pc pc' : ReleasePC} {s' : Shared} (hstep : ReleaseStep s pc s' (some pc')) :
      PathStep s (.release pc) s' (.release pc')
  | released (hstep : ReleaseStep s pc s' none) :
      PathStep s (.release pc) s' .ended

theorem eventsStep_of_exec (hcontrol : eventsControl choice pc = some request)
    (hexec : exec plan s request.op = some (s', result)) :
    EventsStep s pc s' (request.resume result) := by
  cases pc with
  | idle =>
    simp only [eventsControl] at hcontrol
    split at hcontrol <;> cases hcontrol
    · cases hexec
      exact .busyPush
    · cases hexec
      exact .peerPush
    · simp only [exec, execStage, Option.ite_none_right_eq_some] at hexec
      obtain ⟨-, hexec⟩ := hexec
      cases hexec
      exact .ended
  | busyLookup =>
    cases hcontrol
    cases hexec
    dsimp only
    split
    · exact .busyFound
    · exact .busyGone
  | busyCheck =>
    cases hcontrol
    cases hexec
    dsimp only
    split
    next => exact .decided
    next hopen => exact .undecided (by simpa using hopen)
  | failing pc =>
    cases hcontrol
    have hstep := failStep_of_exec hexec
    simp only [Request.map]
    generalize (failControl .peerBusy pc).resume result = next at hstep ⊢
    cases next with
    | none => exact .failed hstep
    | some pc' => exact .failing hstep
  | peerLookup ready =>
    cases hcontrol
    cases hexec
    dsimp only
    split
    · exact .peerFound
    · exact .peerGone
  | peerSend ready =>
    cases hcontrol
    cases hexec
    exact .peerSend
  | ended => cases hcontrol

theorem closeStep_of_exec (hcontrol : closeControl pc = some request)
    (hexec : exec plan s request.op = some (s', result)) :
    CloseStep s pc s' (request.resume result) := by
  cases pc with
  | cancel =>
    cases hcontrol
    cases hexec
    exact .cancel
  | collect =>
    cases hcontrol
    cases hexec
    dsimp only
    split
    · exact .found
    · exact .gone
  | closeAll pc =>
    cases hcontrol
    have hstep := closeAllStep_of_exec hexec
    simp only [Request.map]
    generalize (closeAllControl pc).resume result = next at hstep ⊢
    cases next with
    | none => exact .closed hstep
    | some pc' => exact .closeAll hstep
  | finish =>
    cases hcontrol
    cases hexec
    exact .finish
  | ended => cases hcontrol

theorem pathStep_of_exec (hcontrol : pathControl pc = some request)
    (hexec : exec plan s request.op = some (s', result)) :
    PathStep s pc s' (request.resume result) := by
  cases pc with
  | closeConn =>
    cases hcontrol
    cases hexec
    exact .closeConn
  | release pc =>
    cases hcontrol
    have hstep := releaseStep_of_exec hexec
    simp only [Request.map]
    generalize (releaseControl pc).resume result = next at hstep ⊢
    cases next with
    | none => exact .released hstep
    | some pc' => exact .release hstep
  | ended => cases hcontrol

/-! ## The system -/

inductive Thread
  | own | events | close | path
deriving DecidableEq

inductive Local
  | own (pc : OwnPC)
  | events (pc : EventsPC)
  | close (pc : ClosePC)
  | path (pc : PathPC)
deriving DecidableEq

def control (plan : Plan) (choice : Choice) : Local → Option (Request SessionOp Local)
  | .own pc => (ownControl plan choice pc).map (Request.map .own)
  | .events pc => (eventsControl choice pc).map (Request.map .events)
  | .close pc => (closeControl pc).map (Request.map .close)
  | .path pc => (pathControl pc).map (Request.map .path)

section

variable (plan : Plan) (s : Shared) (choice : Choice)

inductive LocalStep : Local → Shared → Local → Prop
  | own (hstep : OwnStep plan s choice pc s' pc') : LocalStep (.own pc) s' (.own pc')
  | events (hstep : EventsStep s pc s' pc') : LocalStep (.events pc) s' (.events pc')
  | close {pc pc' : ClosePC} {s' : Shared} (hstep : CloseStep s pc s' pc') :
      LocalStep (.close pc) s' (.close pc')
  | path (hstep : PathStep s pc s' pc') : LocalStep (.path pc) s' (.path pc')

end

/-- Everything that a step of any goroutine of the session can do. -/
theorem localStep_of_exec (hcontrol : control plan choice l = some request)
    (hexec : exec plan s request.op = some (s', result)) :
    LocalStep plan s choice l s' (request.resume result) := by
  cases l with
  | own pc =>
    obtain ⟨request, hrequest, rfl⟩ := Option.map_eq_some_iff.1 hcontrol
    exact .own (ownStep_of_exec hrequest hexec)
  | events pc =>
    obtain ⟨request, hrequest, rfl⟩ := Option.map_eq_some_iff.1 hcontrol
    exact .events (eventsStep_of_exec hrequest hexec)
  | close pc =>
    obtain ⟨request, hrequest, rfl⟩ := Option.map_eq_some_iff.1 hcontrol
    exact .close (closeStep_of_exec hrequest hexec)
  | path pc =>
    obtain ⟨request, hrequest, rfl⟩ := Option.map_eq_some_iff.1 hcontrol
    exact .path (pathStep_of_exec hrequest hexec)

def Local.thread : Local → Thread
  | .own _ => .own
  | .events _ => .events
  | .close _ => .close
  | .path _ => .path

theorem LocalStep.thread (h : LocalStep plan s choice l s' l') : l'.thread = l.thread := by
  cases h with
  | _ => rfl

abbrev SessionConfig := Config Thread Shared Local

/-- The event loop runs from the start on.  A path is closed once. -/
def spawnable (cfg : SessionConfig) : Thread → Local → Bool
  | .close, .close .cancel => true
  | .path, .path .closeConn => cfg.shared.paths ≠ []
  | _, _ => false

/-- Time passes, and the client installs or removes its path manager. -/
inductive Env
  | elapse (d : Time)
  | setPathMgr (present : Bool)
deriving DecidableEq

def environment (s : Shared) : Env → Option Shared
  | .elapse d => some { s with clock := s.clock + d }
  | .setPathMgr present => some { s with pathMgr := present }

def system (plan : Plan) : System Thread Shared Local Choice Env SessionOp where
  exec := fun _ s op => exec plan s op
  control := fun _ l choice => control plan choice l
  spawnable := spawnable
  environment := environment

abbrev SessionAction := Action Thread Local Choice Env

def stepOf (t : Thread) : SessionAction → Bool
  | .step t' _ => t' = t
  | _ => false

theorem next_local (hnext : (system plan).next cfg (.step t choice) = some cfg') :
    ∃ l s' l', cfg.threads.lookup t = some l ∧ LocalStep plan cfg.shared choice l s' l' ∧
      cfg' = { shared := s', threads := cfg.threads.insert t l' } := by
  obtain ⟨l, request, s', result, hl, hcontrol, hexec, rfl⟩ := next_step.1 hnext
  exact ⟨l, s', request.resume result, hl, localStep_of_exec hcontrol hexec, rfl⟩

theorem session_outline {ok : SessionConfig → SessionAction → Prop}
    (hspawn : ∀ cfg t l, Outline invariant assertion cfg → ok cfg (.spawn t l) →
      spawnable cfg t l = true → assertion t l cfg.shared)
    (hstep : ∀ cfg t choice l s' l', Outline invariant assertion cfg →
      ok cfg (.step t choice) → cfg.threads.lookup t = some l →
      LocalStep plan cfg.shared choice l s' l' →
      invariant s' ∧ assertion t l' s' ∧
        ∀ other m, other ≠ t → cfg.threads.lookup other = some m → assertion other m s')
    (henv : ∀ cfg e s', Outline invariant assertion cfg → ok cfg (.env e) →
      environment cfg.shared e = some s' →
      invariant s' ∧ ∀ t l, cfg.threads.lookup t = some l → assertion t l s') (cfg : SessionConfig)
    (action : SessionAction) (cfg' : SessionConfig) (hcfg : Outline invariant assertion cfg)
    (hok : ok cfg action) (hnext : (system plan).next cfg action = some cfg') :
    Outline invariant assertion cfg' := by
  refine next_outline hspawn ?_ henv cfg action cfg' hcfg hok hnext
  intro cfg t choice l request s' result hcfg hok hl hcontrol hexec
  exact hstep cfg t choice l s' _ hcfg hok hl (localStep_of_exec hcontrol hexec)

/-- `newSession`, once the session has been entered into the tables. -/
def Plan.newSession (plan : Plan) (manager : PunchManager) (pathMgr : Bool) (clock : Time) :
    Shared where
  clock := clock
  deadline := plan.deadline clock
  cancelled := false
  manager := manager
  pathMgr := pathMgr
  state := .at .querying
  reason := none
  succeeded := false
  detached := false
  finished := false
  peerReadyCh := none
  fields := ∅
  created := ∅
  closed := ∅
  sockClose := false
  calls := []
  failures := []
  paths := []

def Plan.entry (plan : Plan) : OwnPC :=
  match plan.role with
  | .initiator => .stage (.query .setState)
  | .responder => .stage (.socket .setState)

def Plan.initial (plan : Plan) (manager : PunchManager) (pathMgr : Bool) (clock : Time) :
    SessionConfig where
  shared := plan.newSession manager pathMgr clock
  threads :=
    ((∅ : Table Thread Local).insert .own (.own plan.entry)).insert .events (.events .idle)

/-- Every thread runs its own program, and the session's goroutine is there. -/
structure Typed (cfg : SessionConfig) : Prop where
  thread : ∀ t l, cfg.threads.lookup t = some l → l.thread = t
  own : ∃ pc, cfg.threads.lookup .own = some (.own pc)

theorem Plan.initial_typed (plan : Plan) (manager : PunchManager) (pathMgr : Bool)
    (clock : Time) : Typed (plan.initial manager pathMgr clock) where
  thread := fun t l hl => by
    rcases lookup_insert_eq_some.1 hl with ⟨rfl, rfl⟩ | ⟨-, hl⟩
    · rfl
    · rcases lookup_insert_eq_some.1 hl with ⟨rfl, rfl⟩ | ⟨-, hl⟩
      · rfl
      · cases hl
  own := ⟨plan.entry, by
    simp only [Plan.initial]
    rw [Finmap.lookup_insert_of_ne _ (by decide), Finmap.lookup_insert]⟩

theorem Typed.insert (hcfg : Typed cfg) (shared : Shared) (hl : l.thread = t) :
    Typed { shared := shared, threads := cfg.threads.insert t l } := by
  refine ⟨fun t' l' hl' => ?_, ?_⟩
  · rcases lookup_insert_eq_some.1 hl' with ⟨rfl, rfl⟩ | ⟨-, hl'⟩
    · exact hl
    · exact hcfg.thread t' l' hl'
  · obtain ⟨pc, hpc⟩ := hcfg.own
    by_cases ht : t = .own
    · subst ht
      cases l with
      | own pc => exact ⟨pc, Finmap.lookup_insert _⟩
      | _ => cases hl
    · exact ⟨pc, (Finmap.lookup_insert_of_ne _ (Ne.symm ht)).trans hpc⟩

theorem Typed.step (hcfg : Typed cfg) (hnext : (system plan).next cfg action = some cfg') :
    Typed cfg' := by
  cases action with
  | spawn t l =>
    obtain ⟨-, hspawn, rfl⟩ := next_spawn.1 hnext
    refine hcfg.insert cfg.shared ?_
    simp only [system, spawnable] at hspawn
    split at hspawn
    · rfl
    · rfl
    · cases hspawn
  | step t choice =>
    obtain ⟨l, s', l', hl, hstep, rfl⟩ := next_local hnext
    exact hcfg.insert s' (hstep.thread.trans (hcfg.thread t l hl))
  | env e =>
    obtain ⟨shared, -, rfl⟩ := next_env.1 hnext
    exact ⟨hcfg.thread, hcfg.own⟩

theorem typed_of_run
    (hrun : run (system plan).next (plan.initial manager pathMgr clock) actions = some cfg) :
    Typed cfg :=
  run_stable (fun _ _ _ hcfg hnext => hcfg.step hnext)
    (plan.initial_typed manager pathMgr clock) hrun

/-! ## A session to a peer -/

def bobPlan : Plan where
  session := 0
  id := 7
  peerVIP := bobVIP
  role := .initiator
  window := 10 * second
  seedValid := true
  tuning := defaultPunchTuning
  budget := 0

def bobStarted : PunchManager :=
  { newPunchManager with
    sessions := newPunchManager.sessions.insert 7 0
    byPeer := newPunchManager.byPeer.insert bobVIP 0 }

def bobInitial : SessionConfig := bobPlan.initial bobStarted true 0

def steps (t : Thread) (choices : List Choice) : List SessionAction := choices.map (.step t)

/-- The server and the peer answer up to the wait for the `punch-peer` push. -/
def toWait : List SessionAction :=
  steps .own
    [.go, .go, .peer ⟨true, true, .fullCone⟩ .fullCone, .go, .go, .go, .go, .go, .go, .go, .go,
      .go, .go]

/-- The wait is over without a push, and the session fails. -/
def waitFails : List SessionAction :=
  .env (.elapse (5 * second)) :: steps .own [.timer, .go, .go, .go, .go, .go, .go, .go, .go]

/-- The push comes, and the session goes on to where it waits for a probe. -/
def toProbe : List SessionAction :=
  toWait ++ steps .events [.peerPush ⟨true⟩, .go, .go] ++ steps .own (List.replicate 17 .go)

end Hy2Link.Client.Punch
