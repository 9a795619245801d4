import Hy2Link.EndpointText
import Hy2Link.Interleaving.System
import Hy2Link.Client.BackoffLaws
import Hy2Link.Client.PeerTable

/-! # Attempts that traffic asks for

A trigger goes through `handleTrigger` in the scheduler's loop and then, as a
goroutine of its own, through `attemptFor`: the signal gate, the delay by which
the larger address lets the smaller one go first, one of two places, a look at
the address of the client, and the start of a punch session.

A peer that could not be reached lately is tried once more while its record
lasts.  That chance is offered in the scheduler and used up right before
`punchWithTrigger`.

Every section of a mutex and every access to an atomic is one operation.  The
clock, the answers of the server, the ends of the waits and the random numbers
are choices.  Sessions, the switch and the tables of the path manager change on
their own between the steps.  The managers live as long as one connection; the
quality table is older.
-/

namespace Hy2Link.Client.Attempt

open Interleaving Punch Quality

def pathMaxAttempts : Nat := 2

def gatePositiveTTL : Time := 120 * second

def gateNegativeTTL : Time := 60 * second

def gateFailBackoff : Time := 30 * second

def gateGlobalPerMin : Nat := 30

def pathLocalNotReadyDelay : Time := 5 * second

/-! ## What the attempts share -/

structure GateEntry where
  pass : Bool
  «until» : Time
deriving DecidableEq

/-- `connected` says that the client still has its punch manager, `selfInfo` that
it knows its own address, and `usable` is the answer of `HasUsablePath`. -/
structure Shared where
  punch : PunchManager
  nextSession : SessionId
  connected : Bool
  quality : PeerTable
  backoff : Path.Backoff
  evictAfter : Table IPv4 Time
  pending : Finset IPv4
  gate : Table IPv4 GateEntry
  gateBudget : List Time
  peerAddrSeen : Table IPv4 String
  attempts : Nat
  natStale : Bool
  p2pServerEnabled : Bool
  p2pLocalEnabled : Bool
  selfInfo : Bool
  myVIP : Option IPv4
  usable : IPv4 → Bool

def Shared.initial (quality : PeerTable) : Shared where
  punch := newPunchManager
  nextSession := 0
  connected := true
  quality := quality
  backoff := ∅
  evictAfter := ∅
  pending := ∅
  gate := ∅
  gateBudget := []
  peerAddrSeen := ∅
  attempts := 0
  natStale := false
  p2pServerEnabled := false
  p2pLocalEnabled := false
  selfInfo := false
  myVIP := none
  usable := fun _ => false

/-- The answer of the section at the head of `gateCheck`. -/
inductive GateAnswer
  | cached (pass : Bool)
  | exhausted
  | query
deriving DecidableEq

/-- `claim` is the section of `handleTrigger`.  `tryConsumeForcedRetry` answers
also whether it has set the flag of a record, which the code does not ask.
`startSession` is the section of `PunchWithTrigger`. -/
inductive AttemptOp : Type → Type
  | skip : AttemptOp Unit
  | p2pEnabled : AttemptOp Bool
  | myVIP : AttemptOp (Option IPv4)
  | selfInfo : AttemptOp Bool
  | delayRetry (now : Time) (dst : IPv4) : AttemptOp Unit
  | claim (now : Time) (dst : IPv4) : AttemptOp Bool
  | unpunchable (now : Time) (dst : IPv4) : AttemptOp (Option PeerQuality)
  | unclaim (dst : IPv4) : AttemptOp Unit
  | gateCache (now : Time) (dst : IPv4) : AttemptOp GateAnswer
  | notePeerPublicAddr (dst : IPv4) (addr : String) : AttemptOp Bool
  | resetBackoffFor (dst : IPv4) : AttemptOp Unit
  | putGate (now : Time) (dst : IPv4) (pass : Bool) (ttl : Time) : AttemptOp Unit
  | acquire : AttemptOp Unit
  | release : AttemptOp Unit
  | takeNATStale : AttemptOp Bool
  | refreshNAT (found : Bool) : AttemptOp Unit
  | resetAllBackoff : AttemptOp Unit
  | tryConsumeForcedRetry (now : Time) (dst : IPv4) : AttemptOp (Bool × Bool)
  | punchMgr : AttemptOp Bool
  | hasUsablePath (dst : IPv4) : AttemptOp Bool
  | startSession (now : Time) (dst : IPv4) (fresh : Option AttemptId) :
      AttemptOp (Except PunchManager.PunchError AttemptId)
  | setBackoffTransient (now : Time) (dst : IPv4) (err : String) : AttemptOp Unit

namespace Shared

variable (s : Shared) (now : Time) (dst : IPv4)

def p2pEffective : Bool := s.p2pServerEnabled && s.p2pLocalEnabled

/-- A peer that was evicted or rests, or that is being tried, is left alone. -/
def claimable : Bool :=
  !(s.evictAfter.lookup dst).any (now < ·) && !(s.backoff.lookup dst).any (now < ·.until) &&
    !decide (dst ∈ s.pending)

def gateCache : Shared × GateAnswer :=
  match (s.gate.lookup dst).filter (now < ·.until) with
  | some e => (s, .cached e.pass)
  | none =>
    let kept := s.gateBudget.filter fun t => now ≤ t + minute
    if gateGlobalPerMin ≤ kept.length then ({ s with gateBudget := kept }, .exhausted)
    else ({ s with gateBudget := kept ++ [now] }, .query)

/-- Whether the address of the peer has changed. -/
def notePeerPublicAddr (addr : String) : Shared × Bool :=
  if addr = "" then (s, false)
  else
    ({ s with peerAddrSeen := s.peerAddrSeen.insert dst addr },
      (s.peerAddrSeen.lookup dst).any (· ≠ addr))

/-- `tryConsumeForcedRetry` sets the flag of a record. -/
def spends : Bool :=
  (s.quality.m.lookup dst).any (!·.forcedRetryUsed) &&
    ((s.quality.tryConsumeForcedRetry now dst).1.m.lookup dst).any (·.forcedRetryUsed)

/-- What `PunchWithTrigger` has learned when it comes to its section. -/
def allowed (fresh : Option AttemptId) : PunchManager.Surroundings where
  usable := fun _ => false
  p2pEnabled := true
  selfInfo := true
  fresh := fresh

def ip4ToString (dst : IPv4) : VIP := Text.dotted dst

def startSession (fresh : Option AttemptId) :
    Shared × Except PunchManager.PunchError AttemptId :=
  match s.punch.punchWithTrigger (allowed fresh) now s.nextSession (ip4ToString dst) .traffic with
  | .error e => (s, .error e)
  | .ok (id, punch) => ({ s with punch := punch, nextSession := s.nextSession + 1 }, .ok id)

end Shared

def exec {Result : Type} (_ : Nat) (s : Shared) : AttemptOp Result → Option (Shared × Result)
  | .skip => some (s, ())
  | .p2pEnabled => some (s, s.p2pEffective)
  | .myVIP => some (s, s.myVIP)
  | .selfInfo => some (s, s.selfInfo)
  | .delayRetry now dst =>
    some ({ s with backoff := s.backoff.delayRetry now dst pathLocalNotReadyDelay }, ())
  | .claim now dst =>
    if s.claimable now dst then some ({ s with pending := insert dst s.pending }, true)
    else some (s, false)
  | .unpunchable now dst =>
    let (quality, q) := s.quality.unpunchable now dst
    some ({ s with quality := quality }, q)
  | .unclaim dst => some ({ s with pending := s.pending.erase dst }, ())
  | .gateCache now dst => some (s.gateCache now dst)
  | .notePeerPublicAddr dst addr => some (s.notePeerPublicAddr dst addr)
  | .resetBackoffFor dst => some ({ s with backoff := s.backoff.resetBackoffFor dst }, ())
  | .putGate now dst pass ttl =>
    some ({ s with gate := s.gate.insert dst ⟨pass, now + ttl⟩ }, ())
  | .acquire =>
    if s.attempts < pathMaxAttempts then some ({ s with attempts := s.attempts + 1 }, ())
    else none
  | .release => some ({ s with attempts := s.attempts - 1 }, ())
  | .takeNATStale => some ({ s with natStale := false }, s.natStale)
  | .refreshNAT found => some ({ s with selfInfo := found }, ())
  | .resetAllBackoff => some ({ s with backoff := s.backoff.resetAllBackoff }, ())
  | .tryConsumeForcedRetry now dst =>
    let (quality, won) := s.quality.tryConsumeForcedRetry now dst
    some ({ s with quality := quality }, won, s.spends now dst)
  | .punchMgr => some (s, s.connected)
  | .hasUsablePath dst => some (s, s.usable dst)
  | .startSession now dst fresh => some (s.startSession now dst fresh)
  | .setBackoffTransient now dst err =>
    some ({ s with backoff := s.backoff.setBackoffTransient now dst err }, ())

/-! ## The program -/

/-- What the server knows about the peer. -/
structure SignalPeer where
  publicAddr : String
  online : Bool
  signalReady : Bool
deriving DecidableEq

/-- How the larger address stops waiting. -/
inductive Wait
  | invited | elapsed | stopped
deriving DecidableEq

/-- `refreshed` says whether the client has found its address again, and `err` is
the text of an error. -/
structure Choice where
  now : Time
  reply : Option SignalPeer
  wait : Wait
  refreshed : Bool
  fresh : Option AttemptId
  err : String
deriving DecidableEq

structure Job where
  dst : IPv4
  myVIP : IPv4
  forcedOffer : Bool
deriving DecidableEq

inductive Refusal
  | unavailable
  | punch (err : PunchManager.PunchError)
deriving DecidableEq

/-- How the attempt has ended: `punchWithTrigger` was not called, or it has
answered.  `spent` says that the attempt has set the flag of a record. -/
inductive Ending
  | idle
  | called (spent : Bool) (result : Except Refusal AttemptId)

inductive PC
  -- handleTrigger
  | trigger (dst : IPv4)
  | own (dst : IPv4)
  | ready (dst myVIP : IPv4)
  | notReady (dst : IPv4)
  | claim (dst myVIP : IPv4)
  | offer (dst myVIP : IPv4)
  -- attemptFor
  | gate (job : Job)
  | query (job : Job)
  | addr (job : Job) (peer : SignalPeer)
  | moved (job : Job) (peer : SignalPeer)
  | put (job : Job) (pass : Bool) (ttl : Time)
  | tiebreak (job : Job)
  | acquire (job : Job)
  | stale (job : Job)
  | refresh (job : Job)
  | reprobed (job : Job)
  | consume (job : Job)
  -- punchWithTrigger
  | manager (job : Job) (spent : Bool)
  | usable (job : Job) (spent : Bool)
  | enabled (job : Job) (spent : Bool)
  | self (job : Job) (spent : Bool)
  | start (job : Job) (spent : Bool)
  -- the rest of attemptFor
  | release (job : Job) (ending : Ending)
  | transient (job : Job) (ending : Ending)
  | unclaim (dst : IPv4) (ending : Ending)
  | done (ending : Ending)

/-- Broadcast, multicast and the address of nobody. -/
def isBroadcastOrMulticast4 (ip : IPv4) : Bool :=
  let first := ip.toNat / 2 ^ 24
  (0xe0 ≤ first && first ≤ 0xef) || ip = 0xffffffff#32 || ip = 0#32 || ip.toNat % 256 = 0xff

namespace PC

def passed (job : Job) : PC :=
  if job.dst < job.myVIP then .tiebreak job else .acquire job

def gated (job : Job) (pass : Bool) : PC :=
  if pass then passed job else .unclaim job.dst .idle

/-- The answer of the server is noted, and stored for a time. -/
def judged (job : Job) (peer : SignalPeer) : PC :=
  if peer.online && peer.signalReady then .put job true gatePositiveTTL
  else .put job false gateNegativeTTL

def commit (job : Job) : PC := if job.forcedOffer then .consume job else .manager job false

def refused (job : Job) (spent : Bool) (why : Refusal) : PC :=
  .release job (.called spent (.error why))

/-- A session that could not be started is tried again after a while, but not
when there is a path already or when the punch manager has set a time itself. -/
def settled (job : Job) : Ending → PC
  | .called spent (.error (.punch .dupPath)) =>
    .unclaim job.dst (.called spent (.error (.punch .dupPath)))
  | .called spent (.error (.punch .cooldown)) =>
    .unclaim job.dst (.called spent (.error (.punch .cooldown)))
  | .called spent (.error why) => .transient job (.called spent (.error why))
  | ending => .unclaim job.dst ending

end PC

open PC in
def control (_ : Nat) (pc : PC) (choice : Choice) : Option (Request AttemptOp PC) :=
  match pc with
  | .trigger dst => some ⟨.p2pEnabled, fun on => if on then .own dst else .done .idle⟩
  | .own dst => some ⟨.myVIP, fun vip =>
    match vip with
    | none => .done .idle
    | some myVIP =>
      if myVIP = dst || isBroadcastOrMulticast4 dst then .done .idle else .ready dst myVIP⟩
  | .ready dst myVIP =>
    some ⟨.selfInfo, fun known => if known then .claim dst myVIP else .notReady dst⟩
  | .notReady dst => some ⟨.delayRetry choice.now dst, fun _ => .done .idle⟩
  | .claim dst myVIP =>
    some ⟨.claim choice.now dst, fun won => if won then .offer dst myVIP else .done .idle⟩
  | .offer dst myVIP => some ⟨.unpunchable choice.now dst, fun q =>
    match q with
    | none => .gate ⟨dst, myVIP, false⟩
    | some q => if q.forcedRetryUsed then .unclaim dst .idle else .gate ⟨dst, myVIP, true⟩⟩
  | .gate job => some ⟨.gateCache choice.now job.dst, fun answer =>
    match answer with
    | .cached pass => gated job pass
    | .exhausted => .unclaim job.dst .idle
    | .query => .query job⟩
  | .query job => some ⟨.skip, fun _ =>
    match choice.reply with
    | none => .put job false gateFailBackoff
    | some peer => .addr job peer⟩
  | .addr job peer => some ⟨.notePeerPublicAddr job.dst peer.publicAddr, fun changed =>
    if changed then .moved job peer else judged job peer⟩
  | .moved job peer => some ⟨.resetBackoffFor job.dst, fun _ => judged job peer⟩
  | .put job pass ttl => some ⟨.putGate choice.now job.dst pass ttl, fun _ => gated job pass⟩
  | .tiebreak job => some ⟨.skip, fun _ =>
    match choice.wait with
    | .elapsed => .acquire job
    | _ => .unclaim job.dst .idle⟩
  | .acquire job =>
    match choice.wait with
    | .stopped => some ⟨.skip, fun _ => .unclaim job.dst .idle⟩
    | _ => some ⟨.acquire, fun _ => .stale job⟩
  | .stale job => some ⟨.takeNATStale, fun stale => if stale then .refresh job else commit job⟩
  | .refresh job => some ⟨.refreshNAT choice.refreshed, fun _ =>
    if choice.refreshed then .reprobed job else commit job⟩
  | .reprobed job => some ⟨.resetAllBackoff, fun _ => commit job⟩
  | .consume job => some ⟨.tryConsumeForcedRetry choice.now job.dst, fun (won, spent) =>
    if won then .manager job spent else .release job .idle⟩
  | .manager job spent => some ⟨.punchMgr, fun there =>
    if there then .usable job spent else refused job spent .unavailable⟩
  | .usable job spent => some ⟨.hasUsablePath job.dst, fun usable =>
    if usable then refused job spent (.punch .dupPath) else .enabled job spent⟩
  | .enabled job spent => some ⟨.p2pEnabled, fun on =>
    if on then .self job spent else refused job spent (.punch .disabled)⟩
  | .self job spent => some ⟨.selfInfo, fun known =>
    if known then .start job spent else refused job spent (.punch .noSelfInfo)⟩
  | .start job spent => some ⟨.startSession choice.now job.dst choice.fresh, fun result =>
    .release job (.called spent (result.mapError .punch))⟩
  | .release job ending => some ⟨.release, fun _ => settled job ending⟩
  | .transient job ending => some ⟨.setBackoffTransient choice.now job.dst choice.err, fun _ =>
    .unclaim job.dst ending⟩
  | .unclaim dst ending => some ⟨.unclaim dst, fun _ => .done ending⟩
  | .done _ => none

/-! ## The system -/

/-- What happens beside the attempts.  `punchTo` stands for a session that the
user or the configuration asks for; `sessionEnds` is the section at the end of a
session, and `record` what is noted of it afterwards. -/
inductive Event
  | punchTo (now : Time) (peerVIP : VIP) (trigger : Trigger) (fresh : Option AttemptId)
  | sessionEnds (now later : Time) (id : AttemptId) (peerVIP : VIP) (outcome : Outcome)
  | record (now : Time) (order : Iteration) (dst : IPv4) (o : PeerOutcome)
  | retry (now : Time) (event : Path.RetryEvent)
  | evicted (dst : IPv4) (ends : Time)
  | switched (server here : Bool)
  | probed (found : Bool)
  | assigned (vip : Option IPv4)
  | natStale
  | paths (usable : IPv4 → Bool)
  | disconnected

def environment (s : Shared) : Event → Option Shared
  | .punchTo now peerVIP trigger fresh =>
    match s.punch.punchWithTrigger ⟨s.usable, s.p2pEffective, s.selfInfo, fresh⟩ now
        s.nextSession peerVIP trigger with
    | .error _ => some s
    | .ok (_, punch) => some { s with punch := punch, nextSession := s.nextSession + 1 }
  | .sessionEnds now later id peerVIP outcome =>
    if (s.punch.sessions.lookup id).isSome &&
        s.punch.byPeer.lookup peerVIP = s.punch.sessions.lookup id then
      some { s with punch := (s.punch.endSession now later id peerVIP outcome).1 }
    else none
  | .record now order dst o => some { s with quality := s.quality.record now order dst o }
  | .retry now event => some { s with backoff := s.backoff.handle now event }
  | .evicted dst ends => some { s with evictAfter := s.evictAfter.insert dst ends }
  | .switched server here =>
    some { s with p2pServerEnabled := server, p2pLocalEnabled := here }
  | .probed found => some { s with selfInfo := found }
  | .assigned vip => some { s with myVIP := vip }
  | .natStale => some { s with natStale := true }
  | .paths usable => some { s with usable := usable }
  | .disconnected => some { s with connected := false }

def PC.scheduling : PC → Bool
  | .trigger _ | .own _ | .ready _ _ | .notReady _ | .claim _ _ | .offer _ _ => true
  | _ => false

def spawnable (cfg : Config Nat Shared PC) (_ : Nat) : PC → Bool
  | .trigger _ => !cfg.threads.hasEntry fun _ pc => pc.scheduling
  | _ => false

def system : System Nat Shared PC Choice Event AttemptOp where
  exec := exec
  control := control
  spawnable := spawnable
  environment := environment

abbrev AttemptConfig := Config Nat Shared PC

abbrev AttemptAction := Action Nat PC Choice Event

def initial (quality : PeerTable) : AttemptConfig := ⟨.initial quality, ∅⟩

end Hy2Link.Client.Attempt
