import Hy2Link.Client.PathTables
import Hy2Link.Client.PunchManager

/-! # The punch session

The session object of `punchManager` with the operations on it, and the
programs that end a session: `releaseAll`, `closeAll`, `fail` and `succeed`
with the handover to the path manager.

Each access to an atomic cell or to a table, each section of the session's
mutex and each call on a resource is one operation.  The status events of a
session and the fields that only they read are not modelled.
-/

namespace Hy2Link.Client.Punch

open Interleaving

/-! ## Timeouts -/

def millisecond : Time := 1000000

def punchAttemptBudget : Time := 40 * second

def punchStageFloor : Time := 2 * second

def punchRetryFloor : Time := 15 * second

def punchQueryTimeout : Time := 5 * second

def punchQueryRetries : Nat := 1

def punchIntentRetries : Nat := 1

def punchProbeRounds : Nat := 3

def punchProbeInterval : Time := 200 * millisecond

def punchDialWait : Time := 500 * millisecond

def signalTimeout : Time := 5 * second

def signalCloseWait : Time := 2 * second

def pathWaitTimeout : Time := 5 * second

/-- A round trip on an open stream may first have to register there.  Each of
the two writes has a deadline, and so has the wait for the answer; a stream
that failed is then closed. -/
def signalTripTimeout : Time := 3 * signalTimeout + signalCloseWait

/-- `remaining` below the floor starts no new stage. -/
def stageTimeout (remaining d : Time) : Option Time :=
  if remaining < punchStageFloor then none else some (if remaining < d then remaining else d)

def canRetry (remaining cost : Time) : Bool := cost + punchRetryFloor ≤ remaining

structure PunchTuning where
  handshake : Time
  probe : Time
  stun : Time
  readyWait : Time

def defaultPunchTuning : PunchTuning where
  handshake := 5 * second
  probe := 3 * second
  stun := 3 * second
  readyWait := 5 * second

/-- The fields of a session that are set when it is made.  `seedValid` tells
whether `punchMetadataFromSeed` accepts its seed. -/
structure Plan where
  session : SessionId
  id : AttemptId
  peerVIP : VIP
  role : Path.Role
  window : Time
  seedValid : Bool
  tuning : PunchTuning
  budget : Time

def Plan.deadline (plan : Plan) (start : Time) : Time :=
  start + if plan.budget = 0 then punchAttemptBudget else plan.budget

def Plan.handshakeNeed (plan : Plan) : Time := plan.tuning.handshake + second

/-! ## The session object -/

inductive Phase
  | querying | discovering | intent | punching | handshaking | probing
deriving DecidableEq

/-- The phases of a session in flight, and the two states it ends in. -/
inductive SessionState
  | «at» (phase : Phase)
  | direct
  | failed
deriving DecidableEq

def SessionState.decided : SessionState → Bool
  | .at _ => false
  | .direct => true
  | .failed => true

inductive Resource
  | socket | transport | listener | conn
deriving DecidableEq

/-- The address in a `punch-peer` push may be empty. -/
structure PeerReady where
  valid : Bool
deriving DecidableEq

inductive Terminal
  | fail (reason : Reason)
  | succeed
deriving DecidableEq

/-- `fields` are the fields of the session that are not nil, `created` and
`closed` the resources that have been made and closed.  `calls` and `failures`
record the calls of `fail` and `succeed` and of `onPunchFailed`, and `paths`
the paths that `handleEstablished` has accepted. -/
structure Shared where
  clock : Time
  deadline : Time
  cancelled : Bool
  manager : PunchManager
  pathMgr : Bool
  state : SessionState
  reason : Option Reason
  succeeded : Bool
  detached : Bool
  finished : Bool
  peerReadyCh : Option PeerReady
  fields : Finset Resource
  created : Finset Resource
  closed : Finset Resource
  sockClose : Bool
  calls : List Terminal
  failures : List Reason
  paths : List Path.DirectPath

def Shared.remaining (s : Shared) : Time := s.deadline - s.clock

/-- The session's context, or one derived from it that ends at `due`. -/
def Shared.ctxErr (s : Shared) (due : Option Time) : Bool :=
  s.cancelled || s.deadline ≤ s.clock || due.any (· ≤ s.clock)

/-- What the stages of a session do besides handling resources.  `look` reads
the clock and with it the remaining budget; `timer`, `ctxDone` and `recvPeer`
are the cases of a `select`, and block. -/
inductive StageOp : Type → Type
  | pass : StageOp Unit
  | look : StageOp (Time × Time)
  | timer (due : Time) : StageOp Unit
  | ctxDone (due : Option Time) : StageOp Unit
  | ctxErr (due : Option Time) : StageOp Bool
  | recvPeer : StageOp PeerReady
  | setState (phase : Phase) : StageOp Unit
  | loadField (r : Resource) : StageOp Bool

inductive ResourceOp : Type → Type
  | create (r : Resource) : ResourceOp Unit
  | store (rs : List Resource) : ResourceOp Unit
  | close (r : Resource) : ResourceOp Unit
  | take : ResourceOp (List Resource × Bool)
  | sockOnce (sock : Bool) : ResourceOp Unit

inductive VerdictOp : Type → Type
  | beginFail (reason : Reason) : VerdictOp Unit
  | storeFailed : VerdictOp Unit
  | beginSucceed : VerdictOp Unit
  | storeOkDirect : VerdictOp Unit
  | storeDirect : VerdictOp Unit
  | onPunchFailed (reason : Reason) : VerdictOp Unit

inductive ManagerOp : Type → Type
  | loadDetached : ManagerOp Bool
  | storeDetached : ManagerOp Unit
  | finish : ManagerOp Unit
  | loadPathMgr : ManagerOp Bool
  | establish (req : Path.EstablishedReq) : ManagerOp Unit
  | lookupSession : ManagerOp Bool
  | loadState : ManagerOp SessionState
  | sendPeer (ready : PeerReady) : ManagerOp Unit
  | cancel : ManagerOp Unit
  | endRun : ManagerOp Unit

inductive SessionOp : Type → Type
  | stage {Result : Type} (op : StageOp Result) : SessionOp Result
  | resource {Result : Type} (op : ResourceOp Result) : SessionOp Result
  | verdict {Result : Type} (op : VerdictOp Result) : SessionOp Result
  | manager {Result : Type} (op : ManagerOp Result) : SessionOp Result

inductive RunOp : Type → Type
  | stage {Result : Type} (op : StageOp Result) : RunOp Result
  | resource {Result : Type} (op : ResourceOp Result) : RunOp Result

def RunOp.toSession {Result : Type} : RunOp Result → SessionOp Result
  | .stage op => .stage op
  | .resource op => .resource op

/-- What `releaseAll` takes out of the session.  The socket stays in its field. -/
def Shared.takeable (s : Shared) : List Resource :=
  [Resource.conn, .listener, .transport].filter (· ∈ s.fields)

/-- The block that a session's goroutine has deferred. -/
def Plan.endRun (plan : Plan) (s : Shared) : PunchManager :=
  match plan.role with
  | .initiator =>
    (s.manager.endSession s.clock s.clock plan.id plan.peerVIP ⟨s.succeeded, s.reason⟩).1
  | .responder => { s.manager with sessions := s.manager.sessions.erase plan.id }

def execStage {Result : Type} (s : Shared) : StageOp Result → Option (Shared × Result)
  | .pass => some (s, ())
  | .look => some (s, s.clock, s.remaining)
  | .timer due => if due ≤ s.clock then some (s, ()) else none
  | .ctxDone due => if s.ctxErr due then some (s, ()) else none
  | .ctxErr due => some (s, s.ctxErr due)
  | .recvPeer => s.peerReadyCh.map fun ready => ({ s with peerReadyCh := none }, ready)
  | .setState phase => some ({ s with state := .at phase }, ())
  | .loadField r => some (s, r ∈ s.fields)

def execResource {Result : Type} (s : Shared) : ResourceOp Result → Shared × Result
  | .create r => ({ s with created := insert r s.created }, ())
  | .store rs => ({ s with fields := s.fields ∪ rs.toFinset }, ())
  | .close r => ({ s with closed := insert r s.closed }, ())
  | .take => ({ s with fields := s.fields ∩ {.socket} }, s.takeable, .socket ∈ s.fields)
  | .sockOnce sock =>
    ({ s with
        sockClose := true
        closed := if sock ∧ ¬ s.sockClose then insert .socket s.closed else s.closed }, ())

def execVerdict {Result : Type} (s : Shared) : VerdictOp Result → Shared × Result
  | .beginFail reason => ({ s with reason := some reason, calls := s.calls ++ [.fail reason] }, ())
  | .storeFailed => ({ s with state := .failed }, ())
  | .beginSucceed => ({ s with succeeded := true, calls := s.calls ++ [.succeed] }, ())
  | .storeOkDirect => ({ s with reason := some .okDirect }, ())
  | .storeDirect => ({ s with state := .direct }, ())
  | .onPunchFailed reason => ({ s with failures := s.failures ++ [reason] }, ())

def execManager (plan : Plan) {Result : Type} (s : Shared) : ManagerOp Result → Shared × Result
  | .loadDetached => (s, s.detached)
  | .storeDetached => ({ s with detached := true }, ())
  | .finish => ({ s with finished := true }, ())
  | .loadPathMgr => (s, s.pathMgr)
  | .establish req => ({ s with paths := s.paths ++ [Path.newDirectPath req] }, ())
  | .lookupSession => (s, s.manager.sessions.lookup plan.id = some plan.session)
  | .loadState => (s, s.state)
  -- a full channel drops the push
  | .sendPeer ready => ({ s with peerReadyCh := some (s.peerReadyCh.getD ready) }, ())
  | .cancel => ({ s with cancelled := true }, ())
  | .endRun => ({ s with manager := plan.endRun s }, ())

def exec (plan : Plan) {Result : Type} (s : Shared) : SessionOp Result → Option (Shared × Result)
  | .stage op => execStage s op
  | .resource op => some (execResource s op)
  | .verdict op => some (execVerdict s op)
  | .manager op => some (execManager plan s op)

variable {s s' : Shared}

theorem exec_resource (hexec : exec plan s (.resource op) = some (s', result)) :
    s' = (execResource s op).1 ∧ result = (execResource s op).2 := by
  rw [Option.some.inj hexec]
  exact ⟨rfl, rfl⟩

theorem exec_manager (hexec : exec plan s (.manager op) = some (s', result)) :
    s' = (execManager plan s op).1 ∧ result = (execManager plan s op).2 := by
  rw [Option.some.inj hexec]
  exact ⟨rfl, rfl⟩

inductive StageEffect (s : Shared) : Shared → Prop
  | none : StageEffect s s
  | received : StageEffect s { s with peerReadyCh := none }
  | phase (phase : Phase) : StageEffect s { s with state := .at phase }

theorem stageEffect_of_exec (hexec : execStage s op = some (s', result)) :
    StageEffect s s' := by
  cases op with
  | setState phase =>
    cases hexec
    exact .phase phase
  | timer | ctxDone =>
    simp only [execStage, Option.ite_none_right_eq_some] at hexec
    obtain ⟨-, hexec⟩ := hexec
    cases hexec
    exact .none
  | recvPeer =>
    obtain ⟨ready, -, hexec⟩ := Option.map_eq_some_iff.1 hexec
    cases hexec
    exact .received
  | _ =>
    cases hexec
    exact .none

/-! ## Releasing and ending -/

/-- `closing` carries what is left to close, and whether a socket was seen. -/
inductive ReleasePC
  | take
  | closing (todo : List Resource) (sock : Bool)
deriving DecidableEq

/-- `releaseAll`; `none` is its end. -/
def releaseControl : ReleasePC → Request SessionOp (Option ReleasePC)
  | .take => ⟨.resource .take, fun taken => some (.closing taken.1 taken.2)⟩
  | .closing (r :: rest) sock => ⟨.resource (.close r), fun _ => some (.closing rest sock)⟩
  | .closing [] sock => ⟨.resource (.sockOnce sock), fun _ => none⟩

inductive CloseAllPC
  | check
  | release (pc : ReleasePC)
deriving DecidableEq

def closeAllControl : CloseAllPC → Request SessionOp (Option CloseAllPC)
  | .check =>
    ⟨.manager .loadDetached, fun detached => if detached then none else some (.release .take)⟩
  | .release pc => (releaseControl pc).map (Option.map .release)

inductive FailPC
  | begin
  | storeFailed
  | closeAll (pc : CloseAllPC)
  | finish
  | loadPathMgr
  | notify
deriving DecidableEq

def failControl (reason : Reason) : FailPC → Request SessionOp (Option FailPC)
  | .begin => ⟨.verdict (.beginFail reason), fun _ => some .storeFailed⟩
  | .storeFailed => ⟨.verdict .storeFailed, fun _ => some (.closeAll .check)⟩
  | .closeAll pc => (closeAllControl pc).map fun next => some (next.elim .finish .closeAll)
  | .finish => ⟨.manager .finish, fun _ => some .loadPathMgr⟩
  | .loadPathMgr =>
    ⟨.manager .loadPathMgr, fun present => if present then some .notify else none⟩
  | .notify => ⟨.verdict (.onPunchFailed reason), fun _ => none⟩

/-- From `vip` on, the steps of `handoverToPath`; `evicting` waits for the path
that has to make room. -/
inductive SucceedPC
  | begin
  | storeReason
  | storeState
  | loadDetached
  | loadPathMgr
  | vip
  | loadConn (req : Path.EstablishedReq)
  | detach (req : Path.EstablishedReq)
  | handle (req : Path.EstablishedReq)
  | evicting (req : Path.EstablishedReq) (due : Time)
  | establish (req : Path.EstablishedReq)
  | finish
deriving DecidableEq

inductive NATType
  | none | unknown | fullCone | restrictedCone | portRestricted | symmetric | other
deriving DecidableEq

structure SignalPeer where
  online : Bool
  signalReady : Bool
  natType : NATType
deriving DecidableEq

/-- What a step does not decide by itself: which case of a `select` is taken,
what a call answers, and which push arrives. -/
inductive Choice
  | go
  | fails
  | timer
  | done
  | peer (answer : SignalPeer) (own : NATType)
  | refused (text : List Char)
  | stranger
  | forged
  | empty
  | vip (mine : IPv4)
  | busyPush
  | peerPush (ready : PeerReady)
deriving DecidableEq

def succeedControl (plan : Plan) (choice : Choice) :
    SucceedPC → Option (Request SessionOp (Option SucceedPC))
  | .begin => some ⟨.verdict .beginSucceed, fun _ => some .storeReason⟩
  | .storeReason => some ⟨.verdict .storeOkDirect, fun _ => some .storeState⟩
  | .storeState => some ⟨.verdict .storeDirect, fun _ => some .loadDetached⟩
  | .loadDetached =>
    some ⟨.manager .loadDetached, fun detached =>
      some (if detached then .finish else .loadPathMgr)⟩
  | .loadPathMgr =>
    some ⟨.manager .loadPathMgr, fun present => some (if present then .vip else .finish)⟩
  | .vip =>
    match choice, (Text.parseIP plan.peerVIP).bind Text.IP.to4 with
    | .vip mine, some peer =>
      some ⟨.stage .pass, fun _ => some (.loadConn ⟨peer, mine, plan.role⟩)⟩
    | .vip _, none => some ⟨.stage .pass, fun _ => some .finish⟩
    | .fails, _ => some ⟨.stage .pass, fun _ => some .finish⟩
    | _, _ => none
  | .loadConn req =>
    some ⟨.stage (.loadField .conn), fun present =>
      some (if present then .detach req else .finish)⟩
  | .detach req => some ⟨.manager .storeDetached, fun _ => some (.handle req)⟩
  | .handle req =>
    some ⟨.stage .look, fun seen => some (.evicting req (seen.1 + pathWaitTimeout))⟩
  | .evicting req _ => some ⟨.stage .pass, fun _ => some (.establish req)⟩
  | .establish req => some ⟨.manager (.establish req), fun _ => some .finish⟩
  | .finish => some ⟨.manager .finish, fun _ => none⟩

/-! ## What a step of these programs does -/

inductive ReleaseStep (s : Shared) : ReleasePC → Shared → Option ReleasePC → Prop
  | take :
      ReleaseStep s .take { s with fields := s.fields ∩ {.socket} }
        (some (.closing s.takeable (.socket ∈ s.fields)))
  | close :
      ReleaseStep s (.closing (r :: rest) sock) { s with closed := insert r s.closed }
        (some (.closing rest sock))
  | once :
      ReleaseStep s (.closing [] sock) (execResource s (.sockOnce sock)).1 none

inductive CloseAllStep (s : Shared) : CloseAllPC → Shared → Option CloseAllPC → Prop
  | detached (hdetached : s.detached = true) : CloseAllStep s .check s none
  | attached (hdetached : s.detached = false) : CloseAllStep s .check s (some (.release .take))
  | release {pc : ReleasePC} {s' : Shared} {next : Option ReleasePC}
      (hstep : ReleaseStep s pc s' next) : CloseAllStep s (.release pc) s' (next.map .release)

section

variable (reason : Reason) (s : Shared)

inductive FailStep : FailPC → Shared → Option FailPC → Prop
  | begin : FailStep .begin
        { s with reason := some reason, calls := s.calls ++ [.fail reason] } (some .storeFailed)
  | storeFailed : FailStep .storeFailed { s with state := .failed }
      (some (.closeAll .check))
  | closeAll {pc : CloseAllPC} {s' : Shared} {next : Option CloseAllPC}
      (hstep : CloseAllStep s pc s' next) :
      FailStep (.closeAll pc) s' (some (next.elim .finish .closeAll))
  | finish : FailStep .finish { s with finished := true } (some .loadPathMgr)
  | present : FailStep .loadPathMgr s (some .notify)
  | absent : FailStep .loadPathMgr s none
  | notify : FailStep .notify { s with failures := s.failures ++ [reason] } none

end

section

variable (plan : Plan) (s : Shared) (choice : Choice)

inductive SucceedStep : SucceedPC → Shared → Option SucceedPC → Prop
  | begin : SucceedStep .begin
      { s with succeeded := true, calls := s.calls ++ [.succeed] } (some .storeReason)
  | storeReason : SucceedStep .storeReason { s with reason := some .okDirect }
      (some .storeState)
  | storeState : SucceedStep .storeState { s with state := .direct }
      (some .loadDetached)
  | detached (hdetached : s.detached = true) : SucceedStep .loadDetached s (some .finish)
  | attached : SucceedStep .loadDetached s (some .loadPathMgr)
  | managed : SucceedStep .loadPathMgr s (some .vip)
  | unmanaged (habsent : s.pathMgr = false) : SucceedStep .loadPathMgr s (some .finish)
  | known : SucceedStep .vip s (some (.loadConn req))
  | unknown (hunknown : choice = .fails ∨ (Text.parseIP plan.peerVIP).bind Text.IP.to4 = none) :
      SucceedStep .vip s (some .finish)
  | connected : SucceedStep (.loadConn req) s (some (.detach req))
  | released (hconn : .conn ∉ s.fields) : SucceedStep (.loadConn req) s (some .finish)
  | detach : SucceedStep (.detach req) { s with detached := true } (some (.handle req))
  | handle : SucceedStep (.handle req) s (some (.evicting req (s.clock + pathWaitTimeout)))
  | evicted : SucceedStep (.evicting req due) s (some (.establish req))
  | establish : SucceedStep (.establish req)
        { s with paths := s.paths ++ [Path.newDirectPath req] } (some .finish)
  | finish : SucceedStep .finish { s with finished := true } none

end

section

variable {plan : Plan} {s s' : Shared}

theorem releaseStep_of_exec (hexec : exec plan s (releaseControl pc).op = some (s', result)) :
    ReleaseStep s pc s' ((releaseControl pc).resume result) := by
  cases pc with
  | take =>
    cases hexec
    exact .take
  | closing todo sock =>
    cases todo with
    | nil =>
      cases hexec
      exact .once
    | cons r rest =>
      cases hexec
      exact .close

theorem closeAllStep_of_exec (hexec : exec plan s (closeAllControl pc).op = some (s', result)) :
    CloseAllStep s pc s' ((closeAllControl pc).resume result) := by
  cases pc with
  | check =>
    cases hexec
    simp only [closeAllControl]
    split
    next hdetached => exact .detached hdetached
    next hdetached => exact .attached (by simpa using hdetached)
  | release pc => exact .release (releaseStep_of_exec hexec)

theorem failStep_of_exec (hexec : exec plan s (failControl reason pc).op = some (s', result)) :
    FailStep reason s pc s' ((failControl reason pc).resume result) := by
  cases pc with
  | begin =>
    cases hexec
    exact .begin
  | storeFailed =>
    cases hexec
    exact .storeFailed
  | closeAll pc => exact .closeAll (closeAllStep_of_exec hexec)
  | finish =>
    cases hexec
    exact .finish
  | loadPathMgr =>
    cases hexec
    simp only [failControl]
    split
    · exact .present
    · exact .absent
  | notify =>
    cases hexec
    exact .notify

/-- Everything that a step of `succeed` can do. -/
theorem succeedStep_of_exec (hcontrol : succeedControl plan choice pc = some request)
    (hexec : exec plan s request.op = some (s', result)) :
    SucceedStep plan s choice pc s' (request.resume result) := by
  cases pc with
  | begin =>
    cases hcontrol
    cases hexec
    exact .begin
  | storeReason =>
    cases hcontrol
    cases hexec
    exact .storeReason
  | storeState =>
    cases hcontrol
    cases hexec
    exact .storeState
  | loadDetached =>
    cases hcontrol
    cases hexec
    dsimp only
    split
    next hdetached => exact .detached hdetached
    next => exact .attached
  | loadPathMgr =>
    cases hcontrol
    cases hexec
    dsimp only
    split
    next => exact .managed
    next habsent => exact .unmanaged (by simpa using habsent)
  | vip =>
    simp only [succeedControl] at hcontrol
    split at hcontrol <;> cases hcontrol
    · cases hexec
      exact .known
    next hpeer =>
      cases hexec
      exact .unknown (.inr hpeer)
    · cases hexec
      exact .unknown (.inl rfl)
  | loadConn req =>
    cases hcontrol
    cases hexec
    dsimp only
    split
    next => exact .connected
    next hconn => exact .released (by simpa using hconn)
  | detach req =>
    cases hcontrol
    cases hexec
    exact .detach
  | handle req =>
    cases hcontrol
    cases hexec
    exact .handle
  | evicting req due =>
    cases hcontrol
    cases hexec
    exact .evicted
  | establish req =>
    cases hcontrol
    cases hexec
    exact .establish
  | finish =>
    cases hcontrol
    cases hexec
    exact .finish

end

end Hy2Link.Client.Punch
