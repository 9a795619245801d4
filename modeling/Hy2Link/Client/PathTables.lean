import Hy2Link.Interleaving.System
import Hy2Link.Protocol

/-! # Direct paths and their tables

The state of `pathManager`: the direct paths, the route table that the
writers consult, and the registry of the paths that are on trial.

Each atomic access of the code is one operation: a load, store or
compare-and-swap of a field of a path, a load of the route table, or a
critical section of `routeMu`.  `installAfterTrial` reads and writes the state
of a path inside its section while others write it without the mutex, so its
section is cut into several operations and `routeMu` says who is inside.

Measurements (round trips, traffic, idle times) are not modelled; what the
code decides from them is left open.
-/

namespace Hy2Link.Client.Path

open Interleaving

abbrev PathId := Nat

inductive Role
  | initiator | responder
deriving DecidableEq

inductive PathState
  | up | down | standby | trial | rejected | reusing | rejectedSettling
deriving DecidableEq

def PathState.alive : PathState → Bool
  | .up => true
  | .standby => true
  | .trial => true
  | .rejected => true
  | .reusing => true
  | .down => false
  | .rejectedSettling => false

def PathState.judged : PathState → Bool
  | .up => true
  | .standby => true
  | .rejected => true
  | .rejectedSettling => true
  | _ => false

theorem PathState.judged_ne {a b : PathState} (ha : a.judged = true) (hb : b.judged = false) :
    a ≠ b := by
  rintro rfl
  simp [ha] at hb

/-- A `sync.Once`: while the first caller is inside, the others wait. -/
inductive Once
  | fresh | running | done
deriving DecidableEq

structure EstablishedReq where
  peer : IPv4
  myVIP : IPv4
  role : Role
deriving DecidableEq

/-- `untracked` is the once of `detachTrialPath`, whose body is a single
section; `closeOnce` is done when the streams and the connection are closed. -/
structure DirectPath where
  peer : IPv4
  myVIP : IPv4
  role : Role
  state : PathState
  trialDone : Bool
  settled : Bool
  untracked : Bool
  ready : Bool
  closeOnce : Once
  terminateOnce : Once
deriving DecidableEq

def newDirectPath (req : EstablishedReq) : DirectPath where
  peer := req.peer
  myVIP := req.myVIP
  role := req.role
  state := .trial
  trialDone := false
  settled := false
  untracked := false
  ready := false
  closeOnce := .fresh
  terminateOnce := .fresh

/-- Of two connections to one peer, the one that the smaller address has
initiated is kept. -/
def arbitrationKeeps (peerVIP myVIP : IPv4) (role : Role) : Bool :=
  decide (myVIP < peerVIP) == decide (role = .initiator)

def pathMaxPaths : Nat := 8

/-- The goroutines: for each path its set-up, its watch loop and the readers
and writers of its streams; for the manager its pruning loop, the handovers
and its shutdown; and the calls that flip the local switch. -/
inductive Thread
  | setup (p : PathId)
  | watch (p : PathId)
  | worker (p : PathId) (n : Nat)
  | prune
  | handover (n : Nat)
  | close
  | apply (n : Nat)
deriving DecidableEq

/-- `trialPaths` lists the registry over all peers.  `cancelled` is the
manager's context and `p2pLocalEnabled` the switch of the client. -/
structure Tables where
  paths : Table PathId DirectPath
  nextPath : PathId
  routes : Table IPv4 PathId
  trialPaths : List PathId
  routeMu : Option Thread
  cancelled : Bool
  p2pLocalEnabled : Bool

/-- `existing` answers the path that holds the route of the peer of `p`, if it
is another one, and whether arbitration keeps it.  `register` is the last
section of `handleEstablished`.  `openStreams` succeeds if the peer serves it;
an initiator also needs the manager's context.  `counters` stands for an
access to what is not modelled. -/
inductive PathOp : Type → Type
  | loadState (p : PathId) : PathOp PathState
  | setState (p : PathId) (state : PathState) : PathOp Unit
  | casState (p : PathId) (old new : PathState) : PathOp Bool
  | casTrialDone (p : PathId) : PathOp Bool
  | setTrialDone (p : PathId) : PathOp Unit
  | casSettled (p : PathId) : PathOp Bool
  | untrack (p : PathId) : PathOp Unit
  | removeRoute (p : PathId) : PathOp Unit
  | replaceRoutes : PathOp Unit
  | snapshotPaths : PathOp (List PathId)
  | trialPathsSnapshot : PathOp (List PathId)
  | trialPathCount : PathOp Nat
  | pruneDeadRegistrations : PathOp Unit
  | lockRoutes : PathOp Unit
  | existing (p : PathId) : PathOp (Option (PathId × Bool))
  | installRoute (p : PathId) : PathOp Unit
  | unlockRoutes : PathOp Unit
  | enterClose (p : PathId) : PathOp Bool
  | finishClose (p : PathId) : PathOp Unit
  | enterTerminate (p : PathId) : PathOp Bool
  | finishTerminate (p : PathId) : PathOp Unit
  | register (req : EstablishedReq) : PathOp PathId
  | openStreams (p : PathId) (served : Bool) : PathOp Bool
  | markReady (p : PathId) : PathOp Unit
  | awaitReady (p : PathId) : PathOp Unit
  | cancel : PathOp Unit
  | isCancelled : PathOp Bool
  | setLocal (enabled : Bool) : PathOp Bool
  | counters : PathOp Unit

namespace Tables

variable (s : Tables)

def initial (p2pLocalEnabled : Bool) : Tables where
  paths := ∅
  nextPath := 0
  routes := ∅
  trialPaths := []
  routeMu := none
  cancelled := false
  p2pLocalEnabled := p2pLocalEnabled

def setPath (p : PathId) (path : DirectPath) : Tables :=
  { s with paths := s.paths.insert p path }

def onPath {Result : Type} (p : PathId) (f : DirectPath → Option (Tables × Result)) :
    Option (Tables × Result) :=
  (s.paths.lookup p).bind f

def routed (p : PathId) : Bool :=
  match s.paths.lookup p with
  | none => false
  | some path => s.routes.lookup path.peer = some p

def snapshotPaths : List PathId := (List.range s.nextPath).filter s.routed

def existing (p : PathId) (path : DirectPath) : Option (PathId × Bool) :=
  match s.routes.lookup path.peer with
  | none => none
  | some q =>
    if q = p then none
    else (s.paths.lookup q).map fun other =>
      (q, arbitrationKeeps other.peer other.myVIP other.role)

def locked {Result : Type} (f : Option (Tables × Result)) : Option (Tables × Result) :=
  if s.routeMu = none then f else none

def enterOnce (once : Once) (run : Tables) : Option (Tables × Bool) :=
  match once with
  | .fresh => some (run, true)
  | .running => none
  | .done => some (s, false)

def closed (p : PathId) : Bool :=
  match s.paths.lookup p with
  | none => false
  | some path => path.closeOnce = .done

def terminated (p : PathId) : Bool :=
  match s.paths.lookup p with
  | none => false
  | some path => path.terminateOnce = .done

def stateOf (p : PathId) : Option PathState := (s.paths.lookup p).map (·.state)

def dead (p : PathId) : Bool :=
  match s.paths.lookup p with
  | none => false
  | some path => path.state = .down

end Tables

open Tables in
def exec {Result : Type} (t : Thread) (s : Tables) : PathOp Result → Option (Tables × Result)
  | .loadState p => s.onPath p fun path => some (s, path.state)
  | .setState p state => s.onPath p fun path => some (s.setPath p { path with state := state }, ())
  | .casState p old new => s.onPath p fun path =>
    if path.state = old then some (s.setPath p { path with state := new }, true)
    else some (s, false)
  | .casTrialDone p => s.onPath p fun path =>
    if path.trialDone then some (s, false)
    else some (s.setPath p { path with trialDone := true }, true)
  | .setTrialDone p => s.onPath p fun path =>
    some (s.setPath p { path with trialDone := true }, ())
  | .casSettled p => s.onPath p fun path =>
    if path.settled then some (s, false)
    else some (s.setPath p { path with settled := true }, true)
  | .untrack p => s.onPath p fun path =>
    if path.untracked then some (s, ())
    else
      s.locked (some
        ({ s.setPath p { path with untracked := true } with
          trialPaths := s.trialPaths.erase p }, ()))
  | .removeRoute p => s.onPath p fun path =>
    s.locked
      (if s.routes.lookup path.peer = some p then
        some ({ s with routes := s.routes.erase path.peer }, ())
      else some (s, ()))
  | .replaceRoutes => s.locked (some ({ s with routes := ∅ }, ()))
  | .snapshotPaths => some (s, s.snapshotPaths)
  | .trialPathsSnapshot => s.locked (some (s, s.trialPaths))
  | .trialPathCount => s.locked (some (s, s.trialPaths.length))
  | .pruneDeadRegistrations =>
    s.locked (some ({ s with trialPaths := s.trialPaths.filter fun p => !s.dead p }, ()))
  | .lockRoutes => s.locked (some ({ s with routeMu := some t }, ()))
  | .existing p => s.onPath p fun path => some (s, s.existing p path)
  | .installRoute p => s.onPath p fun path =>
    some ({ s with routes := s.routes.insert path.peer p }, ())
  | .unlockRoutes => some ({ s with routeMu := none }, ())
  | .enterClose p => s.onPath p fun path =>
    s.enterOnce path.closeOnce (s.setPath p { path with closeOnce := .running })
  | .finishClose p => s.onPath p fun path =>
    some (s.setPath p { path with closeOnce := .done, ready := true }, ())
  | .enterTerminate p => s.onPath p fun path =>
    s.enterOnce path.terminateOnce (s.setPath p { path with terminateOnce := .running })
  | .finishTerminate p => s.onPath p fun path =>
    some (s.setPath p { path with terminateOnce := .done }, ())
  | .register req =>
    s.locked (some
      ({ s with
        paths := s.paths.insert s.nextPath (newDirectPath req)
        nextPath := s.nextPath + 1
        trialPaths := s.trialPaths ++ [s.nextPath] }, s.nextPath))
  | .openStreams p served => s.onPath p fun path =>
    some (s, served && !(s.cancelled && path.role = .initiator))
  | .markReady p => s.onPath p fun path => some (s.setPath p { path with ready := true }, ())
  | .awaitReady p => s.onPath p fun path => if path.ready then some (s, ()) else none
  | .cancel => some ({ s with cancelled := true }, ())
  | .isCancelled => some (s, s.cancelled)
  | .setLocal enabled =>
    some ({ s with p2pLocalEnabled := enabled }, s.p2pLocalEnabled != enabled)
  | .counters => some (s, ())

/-! ## What an operation can do -/

def PathOp.update {Result : Type} (p : PathId) (op : PathOp Result) (path : DirectPath) :
    DirectPath :=
  match op with
  | .setState q state => if q = p then { path with state := state } else path
  | .casState q old new =>
    if q = p then if path.state = old then { path with state := new } else path else path
  | .casTrialDone q => if q = p then { path with trialDone := true } else path
  | .setTrialDone q => if q = p then { path with trialDone := true } else path
  | .casSettled q => if q = p then { path with settled := true } else path
  | .untrack q => if q = p then { path with untracked := true } else path
  | .enterClose q =>
    if q = p then
      if path.closeOnce = .fresh then { path with closeOnce := .running } else path
    else path
  | .finishClose q => if q = p then { path with closeOnce := .done, ready := true } else path
  | .enterTerminate q =>
    if q = p then
      if path.terminateOnce = .fresh then { path with terminateOnce := .running } else path
    else path
  | .finishTerminate q => if q = p then { path with terminateOnce := .done } else path
  | .markReady q => if q = p then { path with ready := true } else path
  | _ => path

namespace Tables

variable {s s' : Tables} {Result : Type}

theorem onPath_eq_some :
    s.onPath q f = some r ↔ ∃ path, s.paths.lookup q = some path ∧ f path = some r :=
  Option.bind_eq_some_iff

theorem locked_eq_some : s.locked f = some r ↔ s.routeMu = none ∧ f = some r :=
  Option.ite_none_right_eq_some

theorem enterOnce_eq_some {run : Tables} :
    s.enterOnce once run = some (s', mine) ↔
      once = .fresh ∧ s' = run ∧ mine = true ∨ once = .done ∧ s' = s ∧ mine = false := by
  cases once <;> simp [enterOnce, eq_comm]

/-- The numbers of the paths are below the next one, and a route leads to a
path of the peer. -/
structure Valid (s : Tables) : Prop where
  bounded : ∀ p path, s.paths.lookup p = some path → p < s.nextPath
  routes : ∀ dst p, s.routes.lookup dst = some p →
    ∃ path, s.paths.lookup p = some path ∧ path.peer = dst

end Tables

section Exec

variable {s s' : Tables} {Result : Type} {op : PathOp Result}

open Tables

inductive Recorded (s : Tables) {Result : Type} (op : PathOp Result) (s' : Tables) : Prop
  | kept (hpaths : s'.paths = s.paths) (hsame : ∀ p path, op.update p path = path)
  | record (hq : s.paths.lookup q = some old)
      (hpaths : s'.paths = s.paths.insert q (op.update q old))
      (hothers : ∀ p path, p ≠ q → op.update p path = path)
  | registered (req : EstablishedReq)
      (hpaths : s'.paths = s.paths.insert s.nextPath (newDirectPath req))
      (hnext : s'.nextPath = s.nextPath + 1) (htrial : s.nextPath ∈ s'.trialPaths)
      (hsame : ∀ p path, op.update p path = path)

open PathOp

theorem exec_recorded (hexec : exec t s op = some (s', result)) : Recorded s op s' := by
  cases op with
  | setState q | setTrialDone q | finishClose q | finishTerminate q | markReady q =>
    obtain ⟨old, hq, hrest⟩ := onPath_eq_some.1 hexec
    cases hrest
    exact .record hq (by rw [update, if_pos rfl]; rfl) fun p _ hne => if_neg hne.symm
  | casState q old new =>
    obtain ⟨path, hq, hrest⟩ := onPath_eq_some.1 hexec
    refine .record hq ?_ fun p _ hne => if_neg hne.symm
    rw [update, if_pos rfl]
    split at hrest <;> cases hrest
    next hold => rw [if_pos hold, setPath]
    next hold => rw [if_neg hold, insert_eq_self hq]
  | casTrialDone q | casSettled q =>
    obtain ⟨path, hq, hrest⟩ := onPath_eq_some.1 hexec
    refine .record hq ?_ fun p _ hne => if_neg hne.symm
    rw [update, if_pos rfl]
    split at hrest <;> cases hrest
    next hdone => rw [← hdone, insert_eq_self hq]
    · rfl
  | untrack q =>
    obtain ⟨path, hq, hrest⟩ := onPath_eq_some.1 hexec
    refine .record hq ?_ fun p _ hne => if_neg hne.symm
    rw [update, if_pos rfl]
    split at hrest
    next hdone =>
      cases hrest
      rw [← hdone, insert_eq_self hq]
    · obtain ⟨-, hrest⟩ := locked_eq_some.1 hrest
      cases hrest
      rfl
  | enterClose q | enterTerminate q =>
    obtain ⟨path, hq, hrest⟩ := onPath_eq_some.1 hexec
    refine .record hq ?_ fun p _ hne => if_neg hne.symm
    rw [update, if_pos rfl]
    rcases enterOnce_eq_some.1 hrest with ⟨hfresh, rfl, -⟩ | ⟨hdone, rfl, -⟩
    · rw [if_pos hfresh, setPath]
    · rw [if_neg (by rw [hdone]; decide), insert_eq_self hq]
  | register req =>
    obtain ⟨-, hrest⟩ := locked_eq_some.1 hexec
    cases hrest
    exact .registered req rfl rfl (List.mem_append_right _ List.mem_cons_self) fun _ _ => rfl
  | removeRoute q =>
    obtain ⟨old, -, hrest⟩ := onPath_eq_some.1 hexec
    obtain ⟨-, hrest⟩ := locked_eq_some.1 hrest
    split at hrest <;> cases hrest <;> exact .kept rfl fun _ _ => rfl
  | awaitReady q =>
    obtain ⟨old, -, hrest⟩ := onPath_eq_some.1 hexec
    split at hrest <;> cases hrest
    exact .kept rfl fun _ _ => rfl
  | loadState q | existing q | installRoute q | openStreams q =>
    obtain ⟨old, -, hrest⟩ := onPath_eq_some.1 hexec
    cases hrest
    exact .kept rfl fun _ _ => rfl
  | replaceRoutes | trialPathsSnapshot | trialPathCount | pruneDeadRegistrations | lockRoutes =>
    obtain ⟨-, hrest⟩ := locked_eq_some.1 hexec
    cases hrest
    exact .kept rfl fun _ _ => rfl
  | _ =>
    cases hexec
    exact .kept rfl fun _ _ => rfl

theorem exec_update (hvalid : s.Valid) (hexec : exec t s op = some (s', result))
    (hp : s.paths.lookup p = some path) : s'.paths.lookup p = some (op.update p path) := by
  cases exec_recorded hexec with
  | kept hpaths hsame =>
    rw [hpaths, hsame]
    exact hp
  | @record q old hq hpaths hothers =>
    rw [hpaths]
    by_cases heq : p = q
    · subst heq
      rw [hp] at hq
      cases hq
      exact Finmap.lookup_insert _
    · rw [hothers p path heq]
      exact (Finmap.lookup_insert_of_ne _ heq).trans hp
  | registered req hpaths _ _ hsame =>
    rw [hpaths, hsame]
    exact (Finmap.lookup_insert_of_ne _ (Nat.ne_of_lt (hvalid.bounded p path hp))).trans hp

inductive Effect (t : Thread) (s : Tables) : {Result : Type} → PathOp Result → Tables → Prop
  | none {Result : Type} {op : PathOp Result} (paths : Table PathId DirectPath) :
      Effect t s op { s with paths := paths }
  | untrack (p : PathId) (paths : Table PathId DirectPath) :
      Effect t s (.untrack p) { s with paths := paths, trialPaths := s.trialPaths.erase p }
  | removeRoute (p : PathId) (dst : IPv4) :
      Effect t s (.removeRoute p) { s with routes := s.routes.erase dst }
  | replaceRoutes (hmu : s.routeMu = Option.none) :
      Effect t s .replaceRoutes { s with routes := ∅ }
  | pruneDeadRegistrations :
      Effect t s .pruneDeadRegistrations
        { s with trialPaths := s.trialPaths.filter fun p => !s.dead p }
  | lockRoutes (hmu : s.routeMu = Option.none) :
      Effect t s .lockRoutes { s with routeMu := some t }
  | installRoute (p : PathId) {path : DirectPath} (hp : s.paths.lookup p = some path) :
      Effect t s (.installRoute p) { s with routes := s.routes.insert path.peer p }
  | unlockRoutes : Effect t s .unlockRoutes { s with routeMu := Option.none }
  | register (req : EstablishedReq) :
      Effect t s (.register req)
        { s with
          paths := s.paths.insert s.nextPath (newDirectPath req)
          nextPath := s.nextPath + 1
          trialPaths := s.trialPaths ++ [s.nextPath] }
  | cancel : Effect t s .cancel { s with cancelled := true }
  | setLocal (enabled : Bool) :
      Effect t s (.setLocal enabled) { s with p2pLocalEnabled := enabled }

theorem exec_effect (hexec : exec t s op = some (s', result)) : Effect t s op s' := by
  cases op with
  | casState | casTrialDone | casSettled | awaitReady =>
    obtain ⟨path, -, hrest⟩ := onPath_eq_some.1 hexec
    split at hrest <;> cases hrest <;> exact .none _
  | enterClose q | enterTerminate q =>
    obtain ⟨path, -, hrest⟩ := onPath_eq_some.1 hexec
    rcases enterOnce_eq_some.1 hrest with ⟨-, rfl, -⟩ | ⟨-, rfl, -⟩ <;> exact .none _
  | trialPathsSnapshot | trialPathCount =>
    obtain ⟨-, hrest⟩ := locked_eq_some.1 hexec
    cases hrest
    exact .none _
  | snapshotPaths | isCancelled | counters =>
    cases hexec
    exact .none _
  | untrack q =>
    obtain ⟨path, -, hrest⟩ := onPath_eq_some.1 hexec
    split at hrest
    · cases hrest
      exact .none _
    · obtain ⟨-, hrest⟩ := locked_eq_some.1 hrest
      cases hrest
      exact .untrack q _
  | removeRoute q =>
    obtain ⟨path, -, hrest⟩ := onPath_eq_some.1 hexec
    obtain ⟨-, hrest⟩ := locked_eq_some.1 hrest
    split at hrest <;> cases hrest
    · exact .removeRoute q path.peer
    · exact .none _
  | installRoute q =>
    obtain ⟨path, hq, hrest⟩ := onPath_eq_some.1 hexec
    cases hrest
    exact .installRoute q hq
  | replaceRoutes =>
    obtain ⟨hmu, hrest⟩ := locked_eq_some.1 hexec
    cases hrest
    exact .replaceRoutes hmu
  | pruneDeadRegistrations =>
    obtain ⟨-, hrest⟩ := locked_eq_some.1 hexec
    cases hrest
    exact .pruneDeadRegistrations
  | lockRoutes =>
    obtain ⟨hmu, hrest⟩ := locked_eq_some.1 hexec
    cases hrest
    exact .lockRoutes hmu
  | unlockRoutes =>
    cases hexec
    exact .unlockRoutes
  | register req =>
    obtain ⟨-, hrest⟩ := locked_eq_some.1 hexec
    cases hrest
    exact .register req
  | cancel =>
    cases hexec
    exact .cancel
  | setLocal enabled =>
    cases hexec
    exact .setLocal enabled
  | _ =>
    obtain ⟨path, -, hrest⟩ := onPath_eq_some.1 hexec
    cases hrest
    exact .none _

def PathOp.installs {Result : Type} (p : PathId) : PathOp Result → Bool
  | .installRoute q => q = p
  | _ => false

def PathOp.detaches {Result : Type} (s : Tables) (p : PathId) : PathOp Result → Bool
  | .untrack q => q = p
  | .pruneDeadRegistrations => s.dead p
  | _ => false

theorem exec_routes (hexec : exec t s op = some (s', result))
    (hroute : s'.routes.lookup dst = some p) :
    s.routes.lookup dst = some p ∨
      op.installs p = true ∧ ∃ path, s.paths.lookup p = some path ∧ path.peer = dst := by
  cases exec_effect hexec with
  | installRoute q hq =>
    rcases lookup_insert_eq_some.1 hroute with ⟨rfl, rfl⟩ | ⟨-, hold⟩
    · exact .inr ⟨decide_eq_true rfl, _, hq, rfl⟩
    · exact .inl hold
  | removeRoute q dst => exact .inl (lookup_erase_eq_some.1 hroute).2
  | replaceRoutes hmu => simp at hroute
  | _ => exact .inl hroute

def PathOp.unlocks {Result : Type} : PathOp Result → Bool
  | .unlockRoutes => true
  | _ => false

theorem exec_routeMu (hexec : exec t s op = some (s', result)) (hmu : s.routeMu = some holder)
    (hop : op.unlocks = false) : s'.routeMu = some holder := by
  cases exec_effect hexec with
  | lockRoutes hfree =>
    simp [hmu] at hfree
  | unlockRoutes => cases hop
  | _ => exact hmu

theorem exec_trialPaths (hexec : exec t s op = some (s', result)) (hp : p ∈ s.trialPaths)
    (hop : op.detaches s p = false) : p ∈ s'.trialPaths := by
  cases exec_effect hexec with
  | untrack q paths => exact (List.mem_erase_of_ne (Ne.symm (of_decide_eq_false hop))).2 hp
  | pruneDeadRegistrations =>
    refine List.mem_filter.2 ⟨hp, ?_⟩
    rw [show s.dead p = false from hop]
    rfl
  | register req => exact List.mem_append_left _ hp
  | _ => exact hp

theorem exec_paths (hexec : exec t s op = some (s', result)) (hp : s'.paths.lookup p = some path') :
    (∃ path, s.paths.lookup p = some path) ∨
      p = s.nextPath ∧ s'.nextPath = s.nextPath + 1 ∧ p ∈ s'.trialPaths ∧
        ∃ req, path' = newDirectPath req := by
  cases exec_recorded hexec with
  | kept hpaths => exact .inl ⟨path', hpaths ▸ hp⟩
  | record hq hpaths =>
    rw [hpaths] at hp
    rcases lookup_insert_eq_some.1 hp with ⟨rfl, -⟩ | ⟨-, hold⟩
    · exact .inl ⟨_, hq⟩
    · exact .inl ⟨path', hold⟩
  | registered req hpaths hnext htrial =>
    rw [hpaths] at hp
    rcases lookup_insert_eq_some.1 hp with ⟨rfl, rfl⟩ | ⟨-, hold⟩
    · exact .inr ⟨rfl, hnext, htrial, req, rfl⟩
    · exact .inl ⟨path', hold⟩

theorem exec_nextPath (hexec : exec t s op = some (s', result)) : s.nextPath ≤ s'.nextPath := by
  cases exec_effect hexec with
  | register req => exact Nat.le_succ _
  | _ => exact le_refl _

theorem exec_cancelled (hexec : exec t s op = some (s', result)) (hcancelled : s.cancelled = true) :
    s'.cancelled = true := by
  cases exec_effect hexec with
  | cancel => rfl
  | _ => exact hcancelled

theorem PathOp.update_peer (op : PathOp Result) (p : PathId) (path : DirectPath) :
    (op.update p path).peer = path.peer := by
  cases op <;> simp only [update] <;> repeat' split
  all_goals rfl

/-- The store or swap of the state of `p` that an operation attempts: the
value it expects, if any, and the new value. -/
def PathOp.writes {Result : Type} (p : PathId) :
    PathOp Result → Option (Option PathState × PathState)
  | .setState q state => if q = p then some (none, state) else none
  | .casState q old new => if q = p then some (some old, new) else none
  | _ => none

theorem PathOp.update_state (op : PathOp Result) (p : PathId) (path : DirectPath) :
    (op.update p path).state =
      match op.writes p with
      | none => path.state
      | some (none, state) => state
      | some (some old, new) => if path.state = old then new else path.state := by
  cases op with
  | setState q state =>
    simp only [update, writes]
    split <;> rfl
  | casState q old new =>
    simp only [update, writes]
    by_cases hq : q = p
    · simp only [hq, if_true]
      split <;> rfl
    · simp only [hq, if_false]
  | _ =>
    simp only [update, writes]
    repeat' split
    all_goals rfl

theorem exec_stateOf (hvalid : s.Valid) (hexec : exec t s op = some (s', result))
    (hstate : s.stateOf p = some state) :
    s'.stateOf p = some (match op.writes p with
      | none => state
      | some (none, new) => new
      | some (some old, new) => if state = old then new else state) := by
  obtain ⟨path, hp, rfl⟩ := Option.map_eq_some_iff.1 hstate
  rw [stateOf, exec_update hvalid hexec hp, Option.map_some, op.update_state]

theorem PathOp.update_closed (op : PathOp Result) (p : PathId) (hclosed : path.closeOnce = .done) :
    (op.update p path).closeOnce = .done := by
  cases op with
  | enterClose q =>
    simp only [update, hclosed]
    repeat' split
    all_goals first | assumption | contradiction
  | finishClose q =>
    simp only [update]
    split
    · rfl
    · exact hclosed
  | _ =>
    simp only [update]
    repeat' split
    all_goals exact hclosed

theorem closed_eq_true :
    s.closed p = true ↔ ∃ path, s.paths.lookup p = some path ∧ path.closeOnce = .done := by
  unfold closed
  cases s.paths.lookup p with
  | none | some => simp

theorem exec_closed (hvalid : s.Valid) (hexec : exec t s op = some (s', result))
    (hclosed : s.closed p = true) : s'.closed p = true := by
  obtain ⟨path, hp, hdone⟩ := closed_eq_true.1 hclosed
  exact closed_eq_true.2 ⟨_, exec_update hvalid hexec hp, op.update_closed p hdone⟩

def PathOp.closes {Result : Type} (p : PathId) : PathOp Result → Bool
  | .finishClose q => q = p
  | _ => false

def PathOp.terminates {Result : Type} (p : PathId) : PathOp Result → Bool
  | .finishTerminate q => q = p
  | _ => false

theorem PathOp.closes_of_update (op : PathOp Result)
    (hdone : (op.update p path).closeOnce = .done) :
    path.closeOnce = .done ∨ op.closes p = true := by
  cases op with
  | finishClose q =>
    simp only [update] at hdone
    split at hdone
    next hq => exact .inr (decide_eq_true hq)
    · exact .inl hdone
  | _ =>
    simp only [update] at hdone
    repeat' split at hdone
    all_goals first | exact .inl hdone | cases hdone

theorem PathOp.terminates_of_update (op : PathOp Result)
    (hdone : (op.update p path).terminateOnce = .done) :
    path.terminateOnce = .done ∨ op.terminates p = true := by
  cases op with
  | finishTerminate q =>
    simp only [update] at hdone
    split at hdone
    next hq => exact .inr (decide_eq_true hq)
    · exact .inl hdone
  | _ =>
    simp only [update] at hdone
    repeat' split at hdone
    all_goals first | exact .inl hdone | cases hdone

theorem terminated_eq_true :
    s.terminated p = true ↔
      ∃ path, s.paths.lookup p = some path ∧ path.terminateOnce = .done := by
  unfold terminated
  cases s.paths.lookup p with
  | none | some => simp

theorem closed_of_exec (hvalid : s.Valid) (hexec : exec t s op = some (s', result))
    (hclosed : s'.closed p = true) : s.closed p = true ∨ op.closes p = true := by
  obtain ⟨path', hp', hdone⟩ := closed_eq_true.1 hclosed
  rcases exec_paths hexec hp' with ⟨path, hp⟩ | ⟨-, -, -, req, rfl⟩
  · rw [exec_update hvalid hexec hp] at hp'
    cases hp'
    exact (op.closes_of_update hdone).imp_left fun h => closed_eq_true.2 ⟨path, hp, h⟩
  · cases hdone

theorem terminated_of_exec (hvalid : s.Valid) (hexec : exec t s op = some (s', result))
    (hterminated : s'.terminated p = true) : s.terminated p = true ∨ op.terminates p = true := by
  obtain ⟨path', hp', hdone⟩ := terminated_eq_true.1 hterminated
  rcases exec_paths hexec hp' with ⟨path, hp⟩ | ⟨-, -, -, req, rfl⟩
  · rw [exec_update hvalid hexec hp] at hp'
    cases hp'
    exact (op.terminates_of_update hdone).imp_left fun h => terminated_eq_true.2 ⟨path, hp, h⟩
  · cases hdone

def PathOp.registers {Result : Type} : PathOp Result → Bool
  | .register _ => true
  | _ => false

def PathOp.switches {Result : Type} : PathOp Result → Bool
  | .setLocal _ => true
  | _ => false

theorem registered_of_exec (hexec : exec t s op = some (s', result)) (hop : op.registers = false)
    (hp : s'.paths.lookup p = some path') : ∃ path, s.paths.lookup p = some path := by
  rcases exec_paths hexec hp with hold | ⟨-, hnext, -⟩
  · exact hold
  · cases exec_effect hexec with
    | register req => cases hop
    | _ => exact absurd hnext (Nat.ne_of_lt (Nat.lt_succ_self _))

theorem exec_p2pLocalEnabled (hexec : exec t s op = some (s', result)) (hop : op.switches = false) :
    s'.p2pLocalEnabled = s.p2pLocalEnabled := by
  cases exec_effect hexec with
  | setLocal enabled => cases hop
  | _ => rfl

/-- The operation only reads, or sets a flag of a path that none of the above
depends on. -/
def PathOp.quiet {Result : Type} : PathOp Result → Bool
  | .loadState _ | .casTrialDone _ | .casSettled _ | .snapshotPaths | .trialPathsSnapshot => true
  | .trialPathCount | .existing _ | .openStreams _ _ | .markReady _ | .awaitReady _ => true
  | .isCancelled | .counters => true
  | _ => false

section

variable (hquiet : op.quiet = true)
include hquiet

theorem PathOp.writes_of_quiet (p : PathId) : op.writes p = none := by
  cases op <;> first | rfl | cases hquiet

theorem PathOp.unlocks_of_quiet : op.unlocks = false := by
  cases op <;> first | rfl | cases hquiet

theorem PathOp.installs_of_quiet (p : PathId) : op.installs p = false := by
  cases op <;> first | rfl | cases hquiet

theorem PathOp.registers_of_quiet : op.registers = false := by
  cases op <;> first | rfl | cases hquiet

theorem PathOp.switches_of_quiet : op.switches = false := by
  cases op <;> first | rfl | cases hquiet

theorem PathOp.ends_of_quiet (p : PathId) : op.closes p = false ∧ op.terminates p = false := by
  cases op <;> first | exact ⟨rfl, rfl⟩ | cases hquiet

end

theorem exec_stateOf_new (hexec : exec t s op = some (s', result)) (hnone : s.stateOf p = none)
    (hstate : s'.stateOf p = some state) : state = .trial := by
  obtain ⟨path', hp, rfl⟩ := Option.map_eq_some_iff.1 hstate
  rcases exec_paths hexec hp with ⟨path, hold⟩ | ⟨-, -, -, req, rfl⟩
  · simp [stateOf, hold] at hnone
  · rfl

theorem exec_loadState (hexec : exec t s (.loadState p) = some (s', state)) :
    s' = s ∧ s.stateOf p = some state := by
  obtain ⟨path, hp, hrest⟩ := onPath_eq_some.1 hexec
  cases hrest
  exact ⟨rfl, by rw [stateOf, hp, Option.map_some]⟩

theorem Tables.Valid.exec (h : s.Valid) (hexec : exec t s op = some (s', result)) : s'.Valid := by
  refine ⟨fun p path' hp => ?_, fun dst p hroute => ?_⟩
  · rcases exec_paths hexec hp with ⟨path, hold⟩ | ⟨rfl, hnext, -⟩
    · exact (h.bounded p path hold).trans_le (exec_nextPath hexec)
    · rw [hnext]
      exact Nat.lt_succ_self _
  · have hkeep : ∀ path, s.paths.lookup p = some path → path.peer = dst →
        ∃ path', s'.paths.lookup p = some path' ∧ path'.peer = dst := by
      intro path hp hpeer
      exact ⟨op.update p path, exec_update h hexec hp, (op.update_peer p path).trans hpeer⟩
    rcases exec_routes hexec hroute with hold | ⟨-, path, hp, hpeer⟩
    · obtain ⟨path, hp, hpeer⟩ := h.routes dst p hold
      exact hkeep path hp hpeer
    · exact hkeep path hp hpeer

end Exec

/-! ## Where a packet goes -/

inductive StreamKind
  | bulk | crit | ctrl
deriving DecidableEq

/-- ICMP (5), match (3) and game TCP (4) share a stream of their own. -/
def planeStream (plane : UInt8) : StreamKind :=
  if plane = 5 ∨ plane = 3 ∨ plane = 4 then .crit else .bulk

/-- The path in the route table, if its state is `up`.  The table is loaded at
one moment and the state of the path at another. -/
def upRoute (first second : Tables) (dst : IPv4) : Option PathId :=
  (first.routes.lookup dst).filter fun p =>
    match second.paths.lookup p with
    | none => false
    | some path => path.state = .up

/-- The queue a packet is put into: a path and one of its streams. -/
def sinkFor (first second : Tables) (dst : IPv4) (plane : UInt8) : Option (PathId × StreamKind) :=
  (upRoute first second dst).map fun p => (p, planeStream plane)

def isBroadcastOrMulticast4 (ip : IPv4) : Bool :=
  ip >>> 28 = 0xe || ip = 0xffffffff || ip = 0 || ip &&& 0xff = 0xff

/-- The lookup for the datagrams of the unreliable plane. -/
def directDatagramPath (first second : Tables) (dst : IPv4) : Option PathId :=
  if isBroadcastOrMulticast4 dst then none else upRoute first second dst

end Hy2Link.Client.Path
