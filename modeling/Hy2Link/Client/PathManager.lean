import Hy2Link.Client.PathTables

/-! # The path manager

The goroutines of `pathManager` as threads over the tables.  A thread has a
main program and at most one call of `close` or `terminateDown` in progress;
the call runs to its end before the main program goes on.

The watch loop of a path is the only goroutine that settles its trial:
`installAfterTrial` moves the path from the registry into the route table, and
`rejectTrialSettled` keeps the connection without using it.  `ClearAll` and
the shutdown share the part that closes all paths, `DrainPC`.
-/

namespace Hy2Link.Client.Path

open Interleaving

/-! ## Ending a path -/

/-- The program points of `terminateDown` and of `close`; the latter knows
whether the former has called it. -/
inductive EndPC
  | demote
  | demoteTrial
  | demoteUntrack
  | demoteDown
  | demoteRoute
  | close (demoting : Bool)
  | closeTrial (demoting : Bool)
  | closeUntrack (demoting : Bool)
  | closeDown (demoting : Bool)
  | closeConn (demoting : Bool)
  | demoted
deriving DecidableEq

def EndPC.afterClose (demoting : Bool) : Option EndPC := if demoting then some .demoted else none

open EndPC in
def endControl (p : PathId) : EndPC → Request PathOp (Option EndPC)
  | .demote => ⟨.enterTerminate p, fun mine => if mine then some .demoteTrial else none⟩
  | .demoteTrial => ⟨.setTrialDone p, fun _ => some .demoteUntrack⟩
  | .demoteUntrack => ⟨.untrack p, fun _ => some .demoteDown⟩
  | .demoteDown => ⟨.setState p .down, fun _ => some .demoteRoute⟩
  | .demoteRoute => ⟨.removeRoute p, fun _ => some (.close true)⟩
  | .close d => ⟨.enterClose p, fun mine => if mine then some (.closeTrial d) else afterClose d⟩
  | .closeTrial d => ⟨.setTrialDone p, fun _ => some (.closeUntrack d)⟩
  | .closeUntrack d => ⟨.untrack p, fun _ => some (.closeDown d)⟩
  | .closeDown d => ⟨.setState p .down, fun _ => some (.closeConn d)⟩
  | .closeConn d => ⟨.finishClose p, fun _ => afterClose d⟩
  | .demoted => ⟨.finishTerminate p, fun _ => none⟩

abbrev Call := Option (PathId × EndPC)

section Frame

variable {PC : Type}

def goto (pc : PC) : PC × Call := (pc, none)

def closing (p : PathId) (pc : PC) : PC × Call := (pc, some (p, .close false))

def demoting (p : PathId) (pc : PC) : PC × Call := (pc, some (p, .demote))

end Frame

/-! ## The goroutines of a path -/

/-- What a step does not decide by itself: which case of a `select` is taken,
the verdict of a measurement, and whether an operation on the connection
succeeds. -/
inductive Choice
  | go
  | stop
  | connDone
  | probe
  | readFails
  | writeFails
  | degraded
  | recovered
  | passes
  | fails
  | scout
  | lost
  | idle
  | expired
  | victim (index : Nat)
deriving DecidableEq

inductive SetupPC
  | openStreams
  | hello
  | ready
  | failed
  | done (ok : Bool)
deriving DecidableEq

def setupControl (p : PathId) (choice : Choice) :
    SetupPC → Option (Request PathOp (SetupPC × Call))
  | .openStreams =>
    some ⟨.openStreams p (choice = .go), fun ok => goto (if ok then .hello else .failed)⟩
  | .hello => some ⟨.counters, fun _ => goto (if choice = .writeFails then .failed else .ready)⟩
  | .ready => some ⟨.markReady p, fun _ => goto (.done true)⟩
  | .failed => some ⟨.markReady p, fun _ => demoting p (.done false)⟩
  | .done _ => none

/-- `install`, `setUp` and `unlock` carry the path that is replaced. -/
inductive WatchPC
  | ready
  | started
  | select
  | standby
  | standbyAlive (state : PathState)
  | enterStandby
  | exitStandby
  | evalTrial
  | pass
  | passDone
  | untrack
  | lock
  | installCheck
  | abandon
  | arbitrate
  | refuse
  | install (existing : Option PathId)
  | setUp (existing : Option PathId)
  | unlock (existing : Option PathId)
  | fail
  | failDone
  | reject
  | rejectRoute
  | setRejected
  | echo
  | done
deriving DecidableEq

/-- The watch loop has seen its path on trial and is going to store a state. -/
def WatchPC.committed : WatchPC → Bool
  | .arbitrate => true
  | .install _ => true
  | .setUp _ => true
  | .rejectRoute => true
  | .setRejected => true
  | _ => false

def WatchPC.locked : WatchPC → Bool
  | .installCheck => true
  | .abandon => true
  | .arbitrate => true
  | .refuse => true
  | .install _ => true
  | .setUp _ => true
  | .unlock _ => true
  | _ => false

namespace WatchPC

def judged (choice : Choice) : WatchPC :=
  match choice with
  | .passes => .pass
  | .fails => .fail
  | _ => .echo

def compared (choice : Choice) (state : PathState) : WatchPC :=
  match choice, state with
  | .degraded, .up => .enterStandby
  | .recovered, .standby => .exitStandby
  | _, _ => .evalTrial

def arbitrated : Option (PathId × Bool) → WatchPC
  | none => .install none
  | some (q, keeps) => if keeps then .refuse else .install (some q)

def replaced : Option PathId → WatchPC × Call
  | none => goto .echo
  | some q => closing q .echo

end WatchPC

open WatchPC in
def watchControl (p : PathId) (choice : Choice) :
    WatchPC → Option (Request PathOp (WatchPC × Call))
  | .ready => some ⟨.awaitReady p, fun _ => goto .started⟩
  | .started => some ⟨.loadState p, fun s => goto (if s.alive then .select else .done)⟩
  | .select =>
    match choice with
    | .stop => some ⟨.isCancelled, fun cancelled => goto (if cancelled then .done else .select)⟩
    | .connDone => some ⟨.loadState p, fun s => if s.alive then demoting p .done else goto .done⟩
    | .probe => some ⟨.loadState p, fun _ => goto .select⟩
    | .writeFails =>
      some ⟨.loadState p, fun s => if s.alive then demoting p .done else goto .select⟩
    | _ => some ⟨.loadState p, fun s => goto (if s.alive then .standby else .done)⟩
  -- evalStandby
  | .standby => some ⟨.loadState p, fun s => goto (.standbyAlive s)⟩
  | .standbyAlive state =>
    some ⟨.loadState p, fun s => goto (if s.alive then compared choice state else .evalTrial)⟩
  | .enterStandby => some ⟨.casState p .up .standby, fun _ => goto .evalTrial⟩
  | .exitStandby => some ⟨.casState p .standby .up, fun _ => goto .evalTrial⟩
  | .evalTrial =>
    some ⟨.loadState p, fun s => goto (if s = .trial then judged choice else .echo)⟩
  -- tryPassTrial and installAfterTrial
  | .pass => some ⟨.loadState p, fun s => goto (if s = .trial then .passDone else .echo)⟩
  | .passDone => some ⟨.casTrialDone p, fun won => goto (if won then .untrack else .echo)⟩
  | .untrack => some ⟨.untrack p, fun _ => goto .lock⟩
  | .lock => some ⟨.lockRoutes, fun _ => goto .installCheck⟩
  | .installCheck =>
    some ⟨.loadState p, fun s => goto (if s = .trial then .arbitrate else .abandon)⟩
  | .abandon => some ⟨.unlockRoutes, fun _ => goto .echo⟩
  | .arbitrate => some ⟨.existing p, fun existing => goto (arbitrated existing)⟩
  | .refuse => some ⟨.unlockRoutes, fun _ => closing p .echo⟩
  | .install existing => some ⟨.installRoute p, fun _ => goto (.setUp existing)⟩
  | .setUp existing => some ⟨.setState p .up, fun _ => goto (.unlock existing)⟩
  | .unlock existing => some ⟨.unlockRoutes, fun _ => replaced existing⟩
  -- tryFailTrial and rejectTrialSettled
  | .fail => some ⟨.loadState p, fun s => goto (if s = .trial then .failDone else .echo)⟩
  | .failDone => some ⟨.casTrialDone p, fun won =>
    if won then if choice = .scout then demoting p .echo else goto .reject else goto .echo⟩
  | .reject => some ⟨.loadState p, fun s => goto (if s = .trial then .rejectRoute else .echo)⟩
  | .rejectRoute => some ⟨.removeRoute p, fun _ => goto .setRejected⟩
  | .setRejected => some ⟨.setState p .rejected, fun _ => goto .echo⟩
  | .echo => some ⟨.counters, fun _ => if choice = .lost then demoting p .done else goto .select⟩
  | .done => none

/-- A reader looks at the context and the state before it gives the path up,
a writer does not. -/
inductive WorkerPC
  | ready
  | started
  | running
  | readFailed
  | done
deriving DecidableEq

def workerControl (p : PathId) (choice : Choice) :
    WorkerPC → Option (Request PathOp (WorkerPC × Call))
  | .ready => some ⟨.awaitReady p, fun _ => goto .started⟩
  | .started => some ⟨.loadState p, fun s => goto (if s.alive then .running else .done)⟩
  | .running =>
    match choice with
    | .readFails =>
      some ⟨.isCancelled, fun cancelled => goto (if cancelled then .done else .readFailed)⟩
    | .writeFails => some ⟨.counters, fun _ => demoting p .done⟩
    | _ => some ⟨.counters, fun _ => goto .done⟩
  | .readFailed => some ⟨.loadState p, fun s => if s.alive then demoting p .done else goto .done⟩
  | .done => none

/-! ## The goroutines of the manager -/

/-- The program points of `evictIdle`, `releaseRejected` and
`pruneDeadRegistrations`. -/
inductive PrunePC
  | start
  | evict (p : PathId) (rest : List PathId)
  | remove (p : PathId) (rest : List PathId)
  | trial
  | inspect (p : PathId) (rest : List PathId)
  | release (p : PathId) (rest : List PathId)
  | settle (p : PathId) (rest : List PathId)
  | settling (p : PathId) (rest : List PathId)
  | untrack (p : PathId) (rest : List PathId)
  | inspected (rest : List PathId)
  | dead
  | done
deriving DecidableEq

namespace PrunePC

def evictNext : List PathId → PrunePC
  | [] => .trial
  | p :: rest => .evict p rest

def inspectNext : List PathId → PrunePC
  | [] => .dead
  | p :: rest => .inspect p rest

end PrunePC

open PrunePC in
def pruneControl (choice : Choice) : PrunePC → Option (Request PathOp (PrunePC × Call))
  | .start =>
    match choice with
    | .stop => some ⟨.isCancelled, fun cancelled => goto (if cancelled then .done else .start)⟩
    | _ => some ⟨.snapshotPaths, fun ps => goto (evictNext ps)⟩
  | .evict p rest => some ⟨.counters, fun _ =>
    if choice = .idle then closing p (.remove p rest) else goto (evictNext rest)⟩
  | .remove p rest => some ⟨.removeRoute p, fun _ => goto (evictNext rest)⟩
  | .trial => some ⟨.trialPathsSnapshot, fun ps => goto (inspectNext ps)⟩
  | .inspect p rest => some ⟨.loadState p, fun s =>
    goto (if s = .rejected ∧ choice = .expired then .release p rest else inspectNext rest)⟩
  | .release p rest => some ⟨.loadState p, fun s =>
    goto (if s = .rejected ∨ s = .rejectedSettling then .settle p rest else inspectNext rest)⟩
  | .settle p rest =>
    some ⟨.casSettled p, fun won => goto (if won then .settling p rest else inspectNext rest)⟩
  | .settling p rest =>
    some ⟨.casState p .rejected .rejectedSettling, fun _ => goto (.untrack p rest)⟩
  | .untrack p rest => some ⟨.untrack p, fun _ => closing p (.inspected rest)⟩
  | .inspected rest => some ⟨.counters, fun _ => goto (inspectNext rest)⟩
  | .dead => some ⟨.pruneDeadRegistrations, fun _ => goto .start⟩
  | .done => none

/-- The program points of `handleEstablished` and `evictLRU`. -/
inductive HandoverPC
  | start (req : EstablishedReq)
  | count (req : EstablishedReq) (routes : Nat)
  | evict (req : EstablishedReq)
  | removeVictim (req : EstablishedReq) (victim : PathId)
  | register (req : EstablishedReq)
  | done (p : PathId)
deriving DecidableEq

/-- The victim is the path that was used least recently. -/
def HandoverPC.evicted (req : EstablishedReq) (choice : Choice) (ps : List PathId) : HandoverPC :=
  match choice with
  | .victim index =>
    match ps[index]? with
    | some p => .removeVictim req p
    | none => match ps with
      | [] => .register req
      | p :: _ => .removeVictim req p
  | _ => match ps with
    | [] => .register req
    | p :: _ => .removeVictim req p

def handoverControl (choice : Choice) : HandoverPC → Option (Request PathOp (HandoverPC × Call))
  | .start req => some ⟨.snapshotPaths, fun ps => goto (.count req ps.length)⟩
  | .count req n => some ⟨.trialPathCount, fun m =>
    goto (if pathMaxPaths ≤ n + m then .evict req else .register req)⟩
  | .evict req => some ⟨.snapshotPaths, fun ps => goto (.evicted req choice ps)⟩
  | .removeVictim req p => some ⟨.removeRoute p, fun _ => closing p (.register req)⟩
  | .register req => some ⟨.register req, fun p => goto (.done p)⟩
  | .done _ => none

/-- Closing all paths: the routes first, then what is on trial. -/
inductive DrainPC
  | snapshot
  | replace (paths : List PathId)
  | closePaths (rest : List PathId)
  | readTrial
  | closeTrial (rest : List PathId)
  | finished
deriving DecidableEq

namespace DrainPC

def closeNext : List PathId → DrainPC × Call
  | [] => goto .readTrial
  | p :: rest => closing p (.closePaths rest)

def closeTrialNext : List PathId → DrainPC × Call
  | [] => goto .finished
  | p :: rest => closing p (.closeTrial rest)

end DrainPC

open DrainPC in
def drainControl : DrainPC → Option (Request PathOp (DrainPC × Call))
  | .snapshot => some ⟨.snapshotPaths, fun ps => goto (.replace ps)⟩
  | .replace ps => some ⟨.replaceRoutes, fun _ => closeNext ps⟩
  | .closePaths rest => some ⟨.counters, fun _ => closeNext rest⟩
  | .readTrial => some ⟨.trialPathsSnapshot, fun ps => closeTrialNext ps⟩
  | .closeTrial rest => some ⟨.counters, fun _ => closeTrialNext rest⟩
  | .finished => none

/-- The manager is taken out of the client before it is closed, so there is
one call of `close`. -/
inductive ClosePC
  | cancel
  | drain (pc : DrainPC)
deriving DecidableEq

def closeControl : ClosePC → Option (Request PathOp (ClosePC × Call))
  | .cancel => some ⟨.cancel, fun _ => goto (.drain .snapshot)⟩
  | .drain pc => (drainControl pc).map (·.map fun (pc, call) => (.drain pc, call))

/-- `ApplyP2PLocal`; `clear` is its call of `ClearAll`. -/
inductive ApplyPC
  | set (enabled : Bool)
  | clear (pc : DrainPC)
  | returned
deriving DecidableEq

def applyControl : ApplyPC → Option (Request PathOp (ApplyPC × Call))
  | .set enabled => some ⟨.setLocal enabled, fun changed =>
    goto (if changed && !enabled then .clear .snapshot else .returned)⟩
  | .clear pc => (drainControl pc).map (·.map fun (pc, call) => (.clear pc, call))
  | .returned => none

/-! ## The whole manager -/

inductive Main
  | setup (pc : SetupPC)
  | watch (pc : WatchPC)
  | worker (pc : WorkerPC)
  | prune (pc : PrunePC)
  | handover (pc : HandoverPC)
  | close (pc : ClosePC)
  | apply (pc : ApplyPC)
deriving DecidableEq

/-- The part that closes all paths, where the shutdown or `ClearAll` is in it. -/
def Main.drain : Main → Option DrainPC
  | .close (.drain pc) => some pc
  | .apply (.clear pc) => some pc
  | _ => none

structure Local where
  main : Main
  call : Call
deriving DecidableEq

def Local.of {PC : Type} (wrap : PC → Main) (frame : PC × Call) : Local :=
  ⟨wrap frame.1, frame.2⟩

def mainControl (choice : Choice) : Thread → Main → Option (Request PathOp Local)
  | .setup p, .setup pc => (setupControl p choice pc).map (·.map (.of .setup))
  | .watch p, .watch pc => (watchControl p choice pc).map (·.map (.of .watch))
  | .worker p _, .worker pc => (workerControl p choice pc).map (·.map (.of .worker))
  | .prune, .prune pc => (pruneControl choice pc).map (·.map (.of .prune))
  | .handover _, .handover pc => (handoverControl choice pc).map (·.map (.of .handover))
  | .close, .close pc => (closeControl pc).map (·.map (.of .close))
  | .apply _, .apply pc => (applyControl pc).map (·.map (.of .apply))
  | _, _ => none

def control (t : Thread) (l : Local) (choice : Choice) : Option (Request PathOp Local) :=
  match l.call with
  | some (p, pc) =>
    some ((endControl p pc).map fun next => ⟨l.main, next.map fun pc => (p, pc)⟩)
  | none => mainControl choice t l.main

/-- The goroutines of a path are started with its registration. -/
def spawnable (cfg : Config Thread Tables Local) (t : Thread) (l : Local) : Bool :=
  l.call.isNone &&
    match t, l.main with
    | .setup p, .setup .openStreams => (cfg.shared.paths.lookup p).isSome
    | .watch p, .watch .ready => (cfg.shared.paths.lookup p).isSome
    | .worker p _, .worker .ready => (cfg.shared.paths.lookup p).isSome
    | .prune, .prune .start => true
    | .handover _, .handover (.start _) => true
    | .close, .close .cancel => true
    | .apply _, .apply (.set _) => true
    | _, _ => false

def system : System Thread Tables Local Choice Empty PathOp where
  exec := exec
  control := control
  spawnable := spawnable
  environment := fun _ e => nomatch e

abbrev PathConfig := Config Thread Tables Local

abbrev PathAction := Action Thread Local Choice Empty

def initial (p2pLocalEnabled : Bool) : PathConfig := ⟨.initial p2pLocalEnabled, ∅⟩

/-! ## Inversion of a step -/

inductive MainStep (choice : Choice) : Thread → Main → Request PathOp Local → Prop
  | setup
      (hcontrol : setupControl p choice pc = some request) :
      MainStep choice (.setup p) (.setup pc) (request.map (.of .setup))
  | watch
      (hcontrol : watchControl p choice pc = some request) :
      MainStep choice (.watch p) (.watch pc) (request.map (.of .watch))
  | worker {p : PathId} {n : Nat} {pc : WorkerPC} {request : Request PathOp (WorkerPC × Call)}
      (hcontrol : workerControl p choice pc = some request) :
      MainStep choice (.worker p n) (.worker pc) (request.map (.of .worker))
  | prune
      (hcontrol : pruneControl choice pc = some request) :
      MainStep choice .prune (.prune pc) (request.map (.of .prune))
  | handover {n : Nat} {pc : HandoverPC} {request : Request PathOp (HandoverPC × Call)}
      (hcontrol : handoverControl choice pc = some request) :
      MainStep choice (.handover n) (.handover pc) (request.map (.of .handover))
  | close
      (hcontrol : closeControl pc = some request) :
      MainStep choice .close (.close pc) (request.map (.of .close))
  | apply {n : Nat} {pc : ApplyPC} {request : Request PathOp (ApplyPC × Call)}
      (hcontrol : applyControl pc = some request) :
      MainStep choice (.apply n) (.apply pc) (request.map (.of .apply))

variable {choice : Choice} {t : Thread} {main : Main} {request : Request PathOp Local}

theorem mainStep_of_control (hcontrol : mainControl choice t main = some request) :
    MainStep choice t main request := by
  unfold mainControl at hcontrol
  split at hcontrol
  all_goals
    first
    | cases hcontrol
    | obtain ⟨inner, hinner, rfl⟩ := Option.map_eq_some_iff.1 hcontrol
  · exact .setup hinner
  · exact .watch hinner
  · exact .worker hinner
  · exact .prune hinner
  · exact .handover hinner
  · exact .close hinner
  · exact .apply hinner

inductive MainOp : Thread → Main → {Result : Type} → PathOp Result → Prop
  | quiet {t : Thread} {main : Main} {Result : Type} {op : PathOp Result}
      (hquiet : op.quiet = true) : MainOp t main op
  | swap {t : Thread} {main : Main} {p : PathId} {old new : PathState}
      (hold : old.judged = true) (hnew : new.judged = true) : MainOp t main (.casState p old new)
  | store (hpc : pc.committed = true)
      (hstate : state.judged = true) : MainOp (.watch p) (.watch pc) (.setState p state)
  | untrack : MainOp (.watch p) (.watch .untrack) (.untrack p)
  | lock : MainOp (.watch p) (.watch .lock) .lockRoutes
  | install :
      MainOp (.watch p) (.watch (.install existing)) (.installRoute p)
  | unlock (hpc : pc.locked = true) :
      MainOp (.watch p) (.watch pc) .unlockRoutes
  | removeRoute {t : Thread} {main : Main} {p : PathId} : MainOp t main (.removeRoute p)
  | release :
      MainOp .prune (.prune (.untrack p rest)) (.untrack p)
  | pruneDead : MainOp .prune (.prune .dead) .pruneDeadRegistrations
  | register :
      MainOp (.handover n) (.handover (.register req)) (.register req)
  | replace {t : Thread} {main : Main} {ps : List PathId}
      (hdrain : main.drain = some (.replace ps)) : MainOp t main .replaceRoutes
  | cancel : MainOp .close (.close .cancel) .cancel
  | setLocal :
      MainOp (.apply n) (.apply (.set enabled)) (.setLocal enabled)

theorem drain_op {request : Request PathOp (DrainPC × Call)}
    (hcontrol : drainControl pc = some request) (hdrain : main.drain = some pc) :
    MainOp t main request.op := by
  cases pc with
  | replace ps =>
    cases hcontrol
    exact .replace hdrain
  | finished => cases hcontrol
  | _ =>
    cases hcontrol
    exact .quiet rfl

theorem main_op (hmain : MainStep choice t main request) : MainOp t main request.op := by
  cases hmain with
  | @setup p pc request hcontrol => cases pc <;> cases hcontrol <;> exact .quiet rfl
  | @watch p pc request hcontrol =>
    cases pc with
    | select => cases choice <;> cases hcontrol <;> exact .quiet rfl
    | enterStandby | exitStandby =>
      cases hcontrol
      exact .swap rfl rfl
    | setUp existing | setRejected =>
      cases hcontrol
      exact .store rfl rfl
    | untrack =>
      cases hcontrol
      exact .untrack
    | lock =>
      cases hcontrol
      exact .lock
    | install existing =>
      cases hcontrol
      exact .install
    | abandon | refuse | unlock existing =>
      cases hcontrol
      exact .unlock rfl
    | rejectRoute =>
      cases hcontrol
      exact .removeRoute
    | done => cases hcontrol
    | _ =>
      cases hcontrol
      exact .quiet rfl
  | @worker p n pc request hcontrol =>
    cases pc with
    | running => cases choice <;> cases hcontrol <;> exact .quiet rfl
    | _ => cases hcontrol <;> exact .quiet rfl
  | @prune pc request hcontrol =>
    cases pc with
    | start => cases choice <;> cases hcontrol <;> exact .quiet rfl
    | remove p rest =>
      cases hcontrol
      exact .removeRoute
    | settling p rest =>
      cases hcontrol
      exact .swap rfl rfl
    | untrack p rest =>
      cases hcontrol
      exact .release
    | dead =>
      cases hcontrol
      exact .pruneDead
    | done => cases hcontrol
    | _ =>
      cases hcontrol
      exact .quiet rfl
  | @handover n pc request hcontrol =>
    cases pc with
    | removeVictim req p =>
      cases hcontrol
      exact .removeRoute
    | register req =>
      cases hcontrol
      exact .register
    | done p => cases hcontrol
    | _ =>
      cases hcontrol
      exact .quiet rfl
  | @close pc request hcontrol =>
    cases pc with
    | cancel =>
      cases hcontrol
      exact .cancel
    | drain pc =>
      obtain ⟨inner, hinner, rfl⟩ := Option.map_eq_some_iff.1 hcontrol
      exact drain_op hinner rfl
  | @apply n pc request hcontrol =>
    cases pc with
    | set enabled =>
      cases hcontrol
      exact .setLocal
    | clear pc =>
      obtain ⟨inner, hinner, rfl⟩ := Option.map_eq_some_iff.1 hcontrol
      exact drain_op hinner rfl
    | returned => cases hcontrol

def WatchPC.unconcerned : WatchPC → Bool
  | .ready | .started | .select | .standby | .standbyAlive _ | .enterStandby | .exitStandby => true
  | .evalTrial | .echo | .done => true
  | _ => false

section

variable (p : PathId) (s : Tables)

/-- The steps of the watch loop through a verdict; the other ones lead out of
it. -/
inductive WatchEdge : WatchPC → WatchPC → Prop
  | leave (hnext : next.unconcerned = true) : WatchEdge pc next
  | pass (htrial : s.stateOf p = some .trial) : WatchEdge .evalTrial .pass
  | passDone (htrial : s.stateOf p = some .trial) : WatchEdge .pass .passDone
  | untrack : WatchEdge .passDone .untrack
  | lock : WatchEdge .untrack .lock
  | check : WatchEdge .lock .installCheck
  | abandon : WatchEdge .installCheck .abandon
  | arbitrate (htrial : s.stateOf p = some .trial) : WatchEdge .installCheck .arbitrate
  | refuse : WatchEdge .arbitrate .refuse
  | install (existing : Option PathId) : WatchEdge .arbitrate (.install existing)
  | setUp (existing : Option PathId) : WatchEdge (.install existing) (.setUp existing)
  | unlock (existing : Option PathId) : WatchEdge (.setUp existing) (.unlock existing)
  | fail (htrial : s.stateOf p = some .trial) : WatchEdge .evalTrial .fail
  | failDone (htrial : s.stateOf p = some .trial) : WatchEdge .fail .failDone
  | reject : WatchEdge .failDone .reject
  | rejectRoute (htrial : s.stateOf p = some .trial) : WatchEdge .reject .rejectRoute
  | setRejected : WatchEdge .rejectRoute .setRejected

end

theorem watchEdge_of_trial (hload : exec t s (.loadState p) = some (shared, state))
    (hyes : s.stateOf p = some .trial → WatchEdge p s pc yes) (hno : WatchEdge p s pc no) :
    WatchEdge p s pc (if state = .trial then yes else no) := by
  have hstate := (exec_loadState hload).2
  split
  next htrial => exact hyes (htrial ▸ hstate)
  next => exact hno

/-- The moves of a watch loop between its program points. -/
theorem watch_edge {request : Request PathOp (WatchPC × Call)} {result : request.Result}
    (hcontrol : watchControl p choice pc = some request)
    (hexec : exec t s request.op = some (shared, result)) :
    WatchEdge p s pc (request.resume result).1 := by
  cases pc with
  | evalTrial =>
    cases hcontrol
    refine watchEdge_of_trial hexec (fun htrial => ?_) (.leave rfl)
    cases choice with
    | passes => exact .pass htrial
    | fails => exact .fail htrial
    | _ => exact .leave rfl
  | pass =>
    cases hcontrol
    exact watchEdge_of_trial hexec .passDone (.leave rfl)
  | passDone =>
    cases hcontrol
    cases hwon : (result : Bool) with
    | true => exact .untrack
    | false => exact .leave rfl
  | untrack =>
    cases hcontrol
    exact .lock
  | lock =>
    cases hcontrol
    exact .check
  | installCheck =>
    cases hcontrol
    exact watchEdge_of_trial hexec .arbitrate .abandon
  | arbitrate =>
    cases hcontrol
    cases hexisting : (result : Option (PathId × Bool)) with
    | none => exact .install none
    | some other =>
      obtain ⟨q, keeps⟩ := other
      cases keeps with
      | true => exact .refuse
      | false => exact .install (some q)
  | install existing =>
    cases hcontrol
    exact .setUp existing
  | setUp existing =>
    cases hcontrol
    exact .unlock existing
  | unlock existing =>
    cases hcontrol
    cases existing <;> exact .leave rfl
  | fail =>
    cases hcontrol
    exact watchEdge_of_trial hexec .failDone (.leave rfl)
  | failDone =>
    cases hcontrol
    dsimp only
    split
    · split
      · exact .leave rfl
      · exact .reject
    · exact .leave rfl
  | reject =>
    cases hcontrol
    exact watchEdge_of_trial hexec .rejectRoute (.leave rfl)
  | rejectRoute =>
    cases hcontrol
    exact .setRejected
  | select =>
    cases choice <;> cases hcontrol <;> dsimp only [goto, demoting] <;>
      first
      | exact .leave rfl
      | (split <;> exact .leave rfl)
  | started =>
    cases hcontrol
    dsimp only [goto]
    split <;> exact .leave rfl
  | standbyAlive state =>
    cases hcontrol
    dsimp only [goto]
    split
    · unfold WatchPC.compared
      split <;> exact .leave rfl
    · exact .leave rfl
  | echo =>
    cases hcontrol
    dsimp only [goto, demoting]
    split <;> exact .leave rfl
  | done => cases hcontrol
  | _ =>
    cases hcontrol
    exact .leave rfl

inductive PathStep (cfg : PathConfig) : PathAction → PathConfig → Prop
  | spawn {t : Thread} {l : Local} (hfresh : cfg.threads.lookup t = none)
      (hspawn : spawnable cfg t l = true) :
      PathStep cfg (.spawn t l) { cfg with threads := cfg.threads.insert t l }
  | call {t : Thread} {choice : Choice} {main : Main} {p : PathId} {pc : EndPC}
      {shared : Tables} {result : (endControl p pc).Result}
      (hlocal : cfg.threads.lookup t = some ⟨main, some (p, pc)⟩)
      (hexec : exec t cfg.shared (endControl p pc).op = some (shared, result)) :
      PathStep cfg (.step t choice)
        { shared := shared
          threads := cfg.threads.insert t
            ⟨main, ((endControl p pc).resume result).map fun pc => (p, pc)⟩ }
  | main {t : Thread} {choice : Choice} {main : Main} {request : Request PathOp Local}
      {shared : Tables} {result : request.Result}
      (hlocal : cfg.threads.lookup t = some ⟨main, none⟩)
      (hmain : MainStep choice t main request)
      (hexec : exec t cfg.shared request.op = some (shared, result)) :
      PathStep cfg (.step t choice)
        { shared := shared, threads := cfg.threads.insert t (request.resume result) }

/-- Everything that a step of the path manager can do. -/
theorem pathStep_of_next (hnext : system.next cfg action = some cfg') :
    PathStep cfg action cfg' := by
  cases action with
  | spawn t l =>
    obtain ⟨hfresh, hspawn, rfl⟩ := next_spawn.1 hnext
    exact .spawn hfresh hspawn
  | env e => exact nomatch e
  | step t choice =>
    obtain ⟨⟨main, call⟩, request, shared, result, hlocal, hcontrol, hexec, rfl⟩ :=
      next_step.1 hnext
    change control t ⟨main, call⟩ choice = some request at hcontrol
    cases call with
    | none => exact .main hlocal (mainStep_of_control hcontrol) hexec
    | some frame =>
      obtain ⟨p, pc⟩ := frame
      cases hcontrol
      exact .call hlocal hexec

theorem valid_step (h : cfg.shared.Valid) (hstep : PathStep cfg action cfg') :
    cfg'.shared.Valid := by
  cases hstep with
  | spawn hfresh hspawn => exact h
  | call _ hexec | main _ _ hexec => exact h.exec hexec

theorem initial_valid (enabled : Bool) : (initial enabled).shared.Valid := by
  refine ⟨fun p path hp => ?_, fun dst p hroute => ?_⟩
  · simp [initial, Tables.initial] at hp
  · simp [initial, Tables.initial] at hroute

/-! ## Pieces of runs -/

def goes (t : Thread) (n : Nat) : List PathAction := List.replicate n (.step t .go)

/-- A handover that finds room, and the set-up of the path it registers. -/
def handoverRun (n : Nat) (p : PathId) (req : EstablishedReq) : List PathAction :=
  .spawn (.handover n) ⟨.handover (.start req), none⟩ :: goes (.handover n) 3 ++
    .spawn (.setup p) ⟨.setup .openStreams, none⟩ :: goes (.setup p) 3

/-- The watch loop of a path up to the verdict that its trial is passed. -/
def passRun (p : PathId) : List PathAction :=
  .spawn (.watch p) ⟨.watch .ready, none⟩ :: goes (.watch p) 5 ++ [.step (.watch p) .passes]

/-- A writer of a path that fails, up to its call of `terminateDown`. -/
def writeFailsRun (p : PathId) : List PathAction :=
  .spawn (.worker p 0) ⟨.worker .ready, none⟩ :: goes (.worker p 0) 2 ++
    [.step (.worker p 0) .writeFails]

def peerReq : EstablishedReq := ⟨0x0a000065, 0x0a000064, .initiator⟩

end Hy2Link.Client.Path
