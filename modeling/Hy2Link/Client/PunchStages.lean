import Hy2Link.Client.PunchSession

/-! # The stages of a punch session

`runInitiator` and `runResponder`: the query, the socket, the exchange of
addresses, the punching, the handshake and the probes, each a program of its
own that comes to its end or calls `fail`.

Time passes only between the steps; a wait is a program point that knows when
it ends at the latest.  What the peer, the server and the local system answer
is left open.
-/

namespace Hy2Link.Client.Punch

open Interleaving

/-- Where a step of a function leads: to another of its program points, to its
end with a result, or to a call of `fail`. -/
inductive Progress (PC α : Type)
  | «at» (pc : PC)
  | done (a : α)
  | failed (reason : Reason)

/-- A request to the server: it waits for its turn and for an open stream, and
is then on its way until `due` at the latest. -/
inductive TripPC
  | lock
  | away (due : Time)
deriving DecidableEq

/-- What follows a gate: a stage that ends at the time given to it, or not. -/
def gated {α : Type} (seen : Time × Time) (d : Time) (next : Time → α) (otherwise : α) : α :=
  match stageTimeout seen.2 d with
  | some d => next (seen.1 + d)
  | none => otherwise

/-- The end of a context of length `d` derived from the session's. -/
def contextEnd (seen : Time × Time) (d : Time) : Time := seen.1 + min d seen.2

/-! ## The query of an initiator -/

/-- `i` counts the attempts. -/
inductive QueryPC
  | setState
  | trip (i : Nat) (pc : TripPC)
  | retry (i : Nat)
  | pause (i : Nat) (due : Time)
  | failed
deriving DecidableEq

/-- The checks of `runInitiator` on the answer to its query. -/
def preflight (own : NATType) (peer : SignalPeer) : Option Reason :=
  if ¬ peer.online then some .peerUnreachable
  else if ¬ peer.signalReady then some .peerNotReady
  else if own = .symmetric ∧ peer.natType = .symmetric then some .natSymmetric
  else if own = .none ∨ own = .unknown ∨ peer.natType = .none ∨ peer.natType = .unknown then
    some .natUnknown
  else none

def queryBackoff (i : Nat) : Time := 300 * (i + 1) * millisecond

def QueryPC.missed (i : Nat) : QueryPC := if i = punchQueryRetries then .failed else .retry i

/-- `queryWithRetry` and the checks after it. -/
def queryControl (choice : Choice) : QueryPC → Option (Request StageOp (Progress QueryPC Unit))
  | .setState => some ⟨.setState .querying, fun _ => .at (.trip 0 .lock)⟩
  | .trip i .lock =>
    match choice with
    | .go => some ⟨.look, fun seen => .at (.trip i (.away (seen.1 + signalTripTimeout)))⟩
    | .fails => some ⟨.pass, fun _ => .at (.missed i)⟩
    | _ => none
  | .trip i (.away _) =>
    match choice with
    | .peer answer own =>
      some ⟨.pass, fun _ => (preflight own answer).elim (.done ()) .failed⟩
    | .fails => some ⟨.pass, fun _ => .at (.missed i)⟩
    | _ => none
  | .retry i =>
    some ⟨.look, fun seen => .at
      (if canRetry seen.2 (punchQueryTimeout + queryBackoff i) then
        .pause i (seen.1 + queryBackoff i)
      else .failed)⟩
  | .pause i due =>
    match choice with
    | .timer => some ⟨.timer due, fun _ => .at (.trip (i + 1) .lock)⟩
    | .done => some ⟨.ctxDone none, fun _ => .at .failed⟩
    | _ => none
  | .failed =>
    some ⟨.look, fun seen =>
      .failed (if seen.2 < punchStageFloor then .attemptTimeout else .peerUnreachable)⟩

/-! ## The socket -/

inductive SocketPC
  | setState
  | make
  | store
deriving DecidableEq

def openSocketControl (choice : Choice) :
    SocketPC → Option (Request RunOp (Progress SocketPC Unit))
  | .setState => some ⟨.stage (.setState .discovering), fun _ => .at .make⟩
  | .make =>
    match choice with
    | .go => some ⟨.resource (.create .socket), fun _ => .at .store⟩
    | .fails => some ⟨.stage .pass, fun _ => .failed .localNoPunchAddr⟩
    | _ => none
  | .store => some ⟨.resource (.store [.socket]), fun _ => .done ()⟩

/-! ## The exchange of addresses -/

inductive MeetPC
  | discoverGate
  | discover (due : Time)
  | setIntent
  | cert
  | trip (i : Nat) (pc : TripPC)
  | retry (i : Nat) (text : List Char)
  | pause (i : Nat) (due : Time)
  | readyGate
  | waitPeer (due : Time)
  | invited
deriving DecidableEq

def mentions (text : List Char) (part : String) : Bool := part.toList <:+: text

def classifyServerRefusal (text : List Char) : Reason :=
  if mentions text "rate-limited" then .rateLimited
  else if mentions text "peer-not-ready" then .peerNotReady
  else if mentions text "peer-unreachable" then .peerUnreachable
  else if mentions text "pair-busy" || mentions text "pair-cooldown" then .peerBusy
  else if mentions text "超时" then .attemptTimeout
  else .peerNotReady

def intentBackoff (i : Nat) : Time := 500 * (i + 1) * millisecond

def intentMissed (i : Nat) (text : List Char) : Progress MeetPC Unit :=
  if i = punchIntentRetries then .failed (classifyServerRefusal text) else .at (.retry i text)

/-- A responder goes on without an address of its own. -/
def discovered (plan : Plan) (found : Bool) : Progress MeetPC Unit :=
  match plan.role with
  | .initiator => if found then .at .setIntent else .failed .localNoPunchAddr
  | .responder => .at .invited

/-- `discover`, and then for an initiator `sendIntentWithRetry` and the wait for
the `punch-peer` push. -/
def meetControl (plan : Plan) (choice : Choice) :
    MeetPC → Option (Request StageOp (Progress MeetPC Unit))
  | .discoverGate =>
    some ⟨.look, fun seen =>
      gated seen plan.tuning.stun (fun due => .at (.discover due)) (discovered plan false)⟩
  | .discover _ =>
    match choice with
    | .go => some ⟨.pass, fun _ => discovered plan true⟩
    | .fails => some ⟨.pass, fun _ => discovered plan false⟩
    | _ => none
  | .setIntent => some ⟨.setState .intent, fun _ => .at .cert⟩
  | .cert =>
    match choice with
    | .go => some ⟨.pass, fun _ => .at (.trip 0 .lock)⟩
    | .fails => some ⟨.pass, fun _ => .failed .directHandshakeFailed⟩
    | _ => none
  | .trip i .lock =>
    match choice with
    | .go => some ⟨.look, fun seen => .at (.trip i (.away (seen.1 + signalTripTimeout)))⟩
    | .refused text => some ⟨.pass, fun _ => intentMissed i text⟩
    | _ => none
  | .trip i (.away _) =>
    match choice with
    | .go => some ⟨.pass, fun _ => .at .readyGate⟩
    | .refused text => some ⟨.pass, fun _ => intentMissed i text⟩
    | _ => none
  | .retry i text =>
    some ⟨.look, fun seen =>
      if canRetry seen.2 (punchQueryTimeout + intentBackoff i) then
        .at (.pause i (seen.1 + intentBackoff i))
      else .failed (classifyServerRefusal text)⟩
  | .pause i due =>
    match choice with
    | .timer => some ⟨.timer due, fun _ => .at (.trip (i + 1) .lock)⟩
    | .done => some ⟨.ctxDone none, fun _ => .failed .cancelled⟩
    | _ => none
  | .readyGate =>
    some ⟨.look, fun seen =>
      gated seen plan.tuning.readyWait (fun due => .at (.waitPeer due))
        (.failed .attemptTimeout)⟩
  | .waitPeer due =>
    match choice with
    | .go =>
      some ⟨.recvPeer, fun ready =>
        if ready.valid then .done () else .failed .peerNoPunchAddr⟩
    | .timer => some ⟨.timer due, fun _ => .failed .attemptTimeout⟩
    | .done => some ⟨.ctxDone none, fun _ => .failed .cancelled⟩
    | _ => none
  | .invited => some ⟨.setState .punching, fun _ => .done ()⟩

/-! ## Punching -/

inductive HolePC
  | gate
  | setState
  | window
  | punch (due : Time)
deriving DecidableEq

def punchControl (plan : Plan) (choice : Choice) :
    HolePC → Option (Request StageOp (Progress HolePC Unit))
  | .gate =>
    some ⟨.look, fun seen =>
      if seen.2 < plan.window + plan.handshakeNeed then .failed .attemptTimeout
      else .at .setState⟩
  | .setState =>
    some ⟨.setState .punching, fun _ =>
      if plan.seedValid then .at .window else .failed .sessionExpired⟩
  | .window =>
    some ⟨.look, fun seen =>
      .at (.punch (contextEnd seen (min plan.window (seen.2 - plan.handshakeNeed))))⟩
  | .punch _ =>
    match choice with
    | .go => some ⟨.pass, fun _ => .done ()⟩
    | .fails => some ⟨.pass, fun _ => .failed .punchTimeout⟩
    | _ => none

/-! ## The handshake -/

/-- `timeout` is the length and `due` the end of the stage's context; `todo` are
resources that are given up. -/
inductive HandshakePC
  | gate
  | setState (timeout : Time)
  | cert (timeout : Time)
  | newTransport (timeout : Time)
  | context (timeout : Time)
  | listen (due : Time)
  | accept (due : Time)
  | loadSocket (due : Time)
  | listenGate (due : Time)
  | waitListening (due ready : Time)
  | dial (due : Time) (again : Bool)
  | dialPause (due pause : Time)
  | dialCheck (due : Time)
  | store (rs : List Resource)
  | abandon (todo : List Resource) (reason : Reason)
deriving DecidableEq

def handshakeControl (plan : Plan) (choice : Choice) :
    HandshakePC → Option (Request RunOp (Progress HandshakePC Unit))
  | .gate =>
    some ⟨.stage .look, fun seen =>
      match stageTimeout seen.2 plan.tuning.handshake with
      | some timeout => .at (.setState timeout)
      | none => .failed .attemptTimeout⟩
  | .setState timeout =>
    some ⟨.stage (.setState .handshaking), fun _ => .at (.cert timeout)⟩
  | .cert timeout =>
    match choice with
    | .go => some ⟨.stage .pass, fun _ => .at (.newTransport timeout)⟩
    | .fails => some ⟨.stage .pass, fun _ => .failed .directHandshakeFailed⟩
    | _ => none
  | .newTransport timeout =>
    some ⟨.resource (.create .transport), fun _ => .at (.context timeout)⟩
  | .context timeout =>
    some ⟨.stage .look, fun seen => .at
      (match plan.role with
      | .initiator => .listen (contextEnd seen timeout)
      | .responder => .loadSocket (contextEnd seen timeout))⟩
  -- the initiator listens
  | .listen due =>
    match choice with
    | .go => some ⟨.resource (.create .listener), fun _ => .at (.accept due)⟩
    | .fails =>
      some ⟨.stage .pass, fun _ => .at (.abandon [.transport] .directHandshakeFailed)⟩
    | _ => none
  | .accept due =>
    match choice with
    | .go =>
      some ⟨.resource (.create .conn), fun _ => .at (.store [.transport, .listener, .conn])⟩
    | .stranger =>
      some ⟨.resource (.create .conn), fun _ =>
        .at (.abandon [.conn, .listener, .transport] .directHandshakeFailed)⟩
    | .fails =>
      some ⟨.stage (.ctxErr (some due)), fun elapsed => .at
        (if elapsed then .abandon [.listener, .transport] .directHandshakeFailed
        else .accept due)⟩
    | _ => none
  -- the responder waits for the listener and dials, twice at most
  | .loadSocket due =>
    some ⟨.stage (.loadField .socket), fun present => .at
      (if present then .listenGate due else .abandon [.transport] .directHandshakeFailed)⟩
  | .listenGate due =>
    some ⟨.stage .look, fun seen =>
      .at (.waitListening due (seen.1 + punchDialWait + 10 * millisecond))⟩
  | .waitListening due _ => some ⟨.stage .pass, fun _ => .at (.dial due false)⟩
  | .dial due again =>
    match choice with
    | .go => some ⟨.resource (.create .conn), fun _ => .at (.store [.transport, .conn])⟩
    | .forged =>
      some ⟨.stage .pass, fun _ => .at (.abandon [.transport] .fingerprintMismatch)⟩
    | .fails =>
      some ⟨.stage .look, fun seen => .at
        (if again then .abandon [.transport] .directHandshakeFailed
        else .dialPause due (seen.1 + 300 * millisecond))⟩
    | _ => none
  | .dialPause due pause =>
    match choice with
    | .timer => some ⟨.stage (.timer pause), fun _ => .at (.dialCheck due)⟩
    | .done => some ⟨.stage (.ctxDone (some due)), fun _ => .at (.dialCheck due)⟩
    | _ => none
  | .dialCheck due =>
    some ⟨.stage (.ctxErr (some due)), fun elapsed => .at
      (if elapsed then .abandon [.transport] .directHandshakeFailed else .dial due true)⟩
  | .store rs => some ⟨.resource (.store rs), fun _ => .done ()⟩
  | .abandon (r :: rest) reason =>
    some ⟨.resource (.close r), fun _ => .at (.abandon rest reason)⟩
  | .abandon [] reason => some ⟨.stage .pass, fun _ => .failed reason⟩

/-! ## The probes -/

/-- `pause` and `limit` are the ends of single waits within the stage. -/
inductive ProbePC
  | setState
  | loadConn
  | gate
  | acceptStream (due : Time)
  | read (due : Time)
  | echo (due : Time)
  | openStream (due : Time)
  | roundGate (due : Time) (i : Nat) (got : Bool)
  | roundPause (due : Time) (i : Nat) (got : Bool) (pause : Time)
  | write (due : Time) (i : Nat) (got : Bool)
  | readEcho (due : Time) (i : Nat) (got : Bool) (limit : Time)
deriving DecidableEq

def nextRound (due : Time) (i : Nat) (got : Bool) : Progress ProbePC (Option Time) :=
  if i + 1 < punchProbeRounds then .at (.roundGate due (i + 1) got)
  else if got then .done none
  else .failed .probeTimeout

/-- `serveProbe` up to its first echo, and `runProbe`.  The result is the end of
the stage for an initiator, whose echo loop goes on. -/
def probeControl (plan : Plan) (choice : Choice) :
    ProbePC → Option (Request StageOp (Progress ProbePC (Option Time)))
  | .setState => some ⟨.setState .probing, fun _ => .at .loadConn⟩
  | .loadConn =>
    some ⟨.loadField .conn, fun present =>
      if present then .at .gate else .failed .probeTimeout⟩
  | .gate =>
    some ⟨.look, fun seen =>
      gated seen plan.tuning.probe
        (fun due => .at
          (match plan.role with
          | .initiator => .acceptStream due
          | .responder => .openStream due))
        (.failed .attemptTimeout)⟩
  | .acceptStream due =>
    match choice with
    | .go => some ⟨.pass, fun _ => .at (.read due)⟩
    | .fails => some ⟨.pass, fun _ => .failed .probeTimeout⟩
    | _ => none
  | .read due =>
    match choice with
    | .go => some ⟨.pass, fun _ => .at (.echo due)⟩
    | .empty => some ⟨.pass, fun _ => .at (.read due)⟩
    | .fails => some ⟨.pass, fun _ => .failed .probeTimeout⟩
    | _ => none
  | .echo due =>
    match choice with
    | .go => some ⟨.pass, fun _ => .done (some due)⟩
    | .fails => some ⟨.pass, fun _ => .failed .probeTimeout⟩
    | _ => none
  | .openStream due =>
    match choice with
    | .go => some ⟨.pass, fun _ => .at (.write due 0 false)⟩
    | .fails => some ⟨.pass, fun _ => .failed .probeTimeout⟩
    | _ => none
  | .roundGate due i got =>
    some ⟨.look, fun seen => .at (.roundPause due i got (seen.1 + punchProbeInterval))⟩
  | .roundPause due i got pause =>
    match choice with
    | .timer => some ⟨.timer pause, fun _ => .at (.write due i got)⟩
    | .done => some ⟨.ctxDone (some due), fun _ => .at (.write due i got)⟩
    | _ => none
  | .write due i got =>
    match choice with
    | .go => some ⟨.look, fun seen => .at (.readEcho due i got (seen.1 + 500 * millisecond))⟩
    | .fails => some ⟨.pass, fun _ => nextRound due i got⟩
    | _ => none
  | .readEcho due i got _ =>
    match choice with
    | .go => some ⟨.pass, fun _ => nextRound due i true⟩
    | .fails => some ⟨.pass, fun _ => nextRound due i got⟩
    | _ => none

/-! ## The session's goroutine -/

inductive Stage
  | query (pc : QueryPC)
  | socket (pc : SocketPC)
  | meet (pc : MeetPC)
  | hole (pc : HolePC)
  | handshake (pc : HandshakePC)
  | probe (pc : ProbePC)
deriving DecidableEq

/-- The echo loop goes on after the session has succeeded. -/
inductive ServePC
  | check | read | echo
deriving DecidableEq

/-- `tail` tells whether `runCommonTail` is to return, and `resume` is the end
of the probe stage of an initiator.  With `deferred` the run function has
returned. -/
inductive OwnPC
  | stage (st : Stage)
  | failing (reason : Reason) (pc : FailPC) (tail : Bool)
  | succeeding (pc : SucceedPC) (resume : Option Time)
  | serving (due : Time) (pc : ServePC)
  | readyReport
  | awaitReport (due : Time)
  | returning
  | deferred
  | ended
deriving DecidableEq

/-- A responder waits for its `punch-ready` report when `runCommonTail` is over. -/
def Plan.leave (plan : Plan) (tail : Bool) : OwnPC :=
  if tail && plan.role = .responder then .readyReport else .returning

def Progress.enter {PC α : Type} (here : PC → Stage) (tail : Bool) (next : α → OwnPC) :
    Progress PC α → OwnPC
  | .at pc => .stage (here pc)
  | .done a => next a
  | .failed reason => .failing reason .begin tail

def stageControl (plan : Plan) (choice : Choice) : Stage → Option (Request SessionOp OwnPC)
  | .query pc =>
    (queryControl choice pc).map fun request =>
      (request.lift .stage).map (Progress.enter .query false fun _ => .stage (.socket .setState))
  | .socket pc =>
    (openSocketControl choice pc).map fun request =>
      (request.lift RunOp.toSession).map
        (Progress.enter .socket false fun _ => .stage (.meet .discoverGate))
  | .meet pc =>
    (meetControl plan choice pc).map fun request =>
      (request.lift .stage).map (Progress.enter .meet false fun _ => .stage (.hole .gate))
  | .hole pc =>
    (punchControl plan choice pc).map fun request =>
      (request.lift .stage).map (Progress.enter .hole true fun _ => .stage (.handshake .gate))
  | .handshake pc =>
    (handshakeControl plan choice pc).map fun request =>
      (request.lift RunOp.toSession).map
        (Progress.enter .handshake true fun _ => .stage (.probe .setState))
  | .probe pc =>
    (probeControl plan choice pc).map fun request =>
      (request.lift .stage).map
        (Progress.enter .probe true fun resume => .succeeding .begin resume)

def serveControl (plan : Plan) (choice : Choice) (due : Time) :
    ServePC → Option (Request StageOp OwnPC)
  | .check =>
    some ⟨.ctxErr (some due), fun elapsed =>
      if elapsed then plan.leave true else .serving due .read⟩
  | .read =>
    match choice with
    | .go => some ⟨.pass, fun _ => .serving due .echo⟩
    | .empty => some ⟨.pass, fun _ => .serving due .read⟩
    | .fails => some ⟨.pass, fun _ => plan.leave true⟩
    | _ => none
  | .echo =>
    match choice with
    | .go => some ⟨.pass, fun _ => .serving due .check⟩
    | .fails => some ⟨.pass, fun _ => plan.leave true⟩
    | _ => none

def Plan.failing (plan : Plan) (reason : Reason) (tail : Bool) : Option FailPC → OwnPC
  | some pc => .failing reason pc tail
  | none => plan.leave tail

def Plan.succeeding (plan : Plan) (resume : Option Time) : Option SucceedPC → OwnPC
  | some pc => .succeeding pc resume
  | none => resume.elim (plan.leave true) fun due => .serving due .check

def ownControl (plan : Plan) (choice : Choice) : OwnPC → Option (Request SessionOp OwnPC)
  | .stage st => stageControl plan choice st
  | .failing reason pc tail => some ((failControl reason pc).map (plan.failing reason tail))
  | .succeeding pc resume =>
    (succeedControl plan choice pc).map fun request => request.map (plan.succeeding resume)
  | .serving due pc => (serveControl plan choice due pc).map fun request => request.lift .stage
  | .readyReport => some ⟨.stage .look, fun seen => .awaitReport (seen.1 + second)⟩
  | .awaitReport due =>
    match choice with
    | .go => some ⟨.stage .pass, fun _ => .returning⟩
    | .timer => some ⟨.stage (.timer due), fun _ => .returning⟩
    | _ => none
  | .returning => some ⟨.manager .cancel, fun _ => .deferred⟩
  | .deferred => some ⟨.manager .endRun, fun _ => .ended⟩
  | .ended => none

section

variable (plan : Plan) (s : Shared) (choice : Choice)

inductive OwnStep : OwnPC → Shared → OwnPC → Prop
  | stage (hcontrol : stageControl plan choice st = some request)
      (hexec : exec plan s request.op = some (s', result)) :
      OwnStep (.stage st) s' (request.resume result)
  | failing {reason : Reason} {pc : FailPC} {tail : Bool} {s' : Shared} {next : Option FailPC}
      (hstep : FailStep reason s pc s' next) :
      OwnStep (.failing reason pc tail) s' (plan.failing reason tail next)
  | succeeding {pc : SucceedPC} {resume : Option Time} {s' : Shared} {next : Option SucceedPC}
      (hstep : SucceedStep plan s choice pc s' next) :
      OwnStep (.succeeding pc resume) s' (plan.succeeding resume next)
  | serving {due : Time} {pc pc' : ServePC} (hopen : pc = .check → s.ctxErr (some due) = false) :
      OwnStep (.serving due pc) s (.serving due pc')
  | served : OwnStep (.serving due pc) s (plan.leave true)
  | readyReport : OwnStep .readyReport s (.awaitReport (s.clock + second))
  | reported : OwnStep (.awaitReport due) s .returning
  | returning : OwnStep .returning { s with cancelled := true } .deferred
  | deferred : OwnStep .deferred { s with manager := plan.endRun s } .ended

end

theorem serveStep_of_exec (hcontrol : serveControl plan choice due pc = some request)
    (hexec : exec plan s (.stage request.op) = some (s', result)) :
    OwnStep plan s choice (.serving due pc) s' (request.resume result) := by
  cases pc with
  | check =>
    cases hcontrol
    cases hexec
    dsimp only
    split
    next => exact .served
    next hopen => exact .serving fun _ => by simpa using hopen
  | read | echo =>
    simp only [serveControl] at hcontrol
    split at hcontrol <;> cases hcontrol <;> cases hexec <;>
      first | exact .served | exact .serving nofun

/-- Everything that a step of the goroutine of a session can do. -/
theorem ownStep_of_exec (hcontrol : ownControl plan choice pc = some request)
    (hexec : exec plan s request.op = some (s', result)) :
    OwnStep plan s choice pc s' (request.resume result) := by
  cases pc with
  | stage st => exact .stage hcontrol hexec
  | failing reason pc tail =>
    cases hcontrol
    exact .failing (failStep_of_exec hexec)
  | succeeding pc resume =>
    obtain ⟨request, hrequest, rfl⟩ := Option.map_eq_some_iff.1 hcontrol
    exact .succeeding (succeedStep_of_exec hrequest hexec)
  | serving due pc =>
    obtain ⟨request, hrequest, rfl⟩ := Option.map_eq_some_iff.1 hcontrol
    exact serveStep_of_exec hrequest hexec
  | readyReport =>
    cases hcontrol
    cases hexec
    exact .readyReport
  | awaitReport due =>
    simp only [ownControl] at hcontrol
    split at hcontrol <;> cases hcontrol
    · cases hexec
      exact .reported
    · simp only [exec, execStage, Option.ite_none_right_eq_some] at hexec
      obtain ⟨-, hexec⟩ := hexec
      cases hexec
      exact .reported
  | returning =>
    cases hcontrol
    cases hexec
    exact .returning
  | deferred =>
    cases hcontrol
    cases hexec
    exact .deferred
  | ended => cases hcontrol

end Hy2Link.Client.Punch
