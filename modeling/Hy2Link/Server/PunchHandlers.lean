import Hy2Link.Server.PunchExpiry
import Hy2Link.Server.PunchRequests
import Hy2Link.Server.System

/-! # The punch handlers

`handlePunchIntent` turns the request of an initiator into an invitation of the
responder, and `handlePunchReady` turns the answer of the responder into a
message to the initiator.  Here a call runs alone: what it learns from the rest
of the server does not change while it runs.
-/

namespace Hy2Link.Server

open Interleaving Text PunchTable

/-- The frame of a push; the fields that a type does not use are empty. -/
structure PushMessage where
  type : MsgType
  attemptID : List Char
  peerVIP : List Char
  punchAddr : List Char
  punchAddrs : List (List Char)
  natType : String
  metadata : String
  directFingerprint : List Char
  windowMs : Int
deriving DecidableEq

def busyMessage (peerVIP : List Char) (msg : PunchMessage) : PushMessage :=
  ⟨.punchBusy, msg.attemptID, peerVIP, [], [], "", "", [], 0⟩

def inviteMessage (a : PunchAttempt) (vip : List Char) (msg : PunchMessage) : PushMessage :=
  ⟨.punchInvite, a.id, vip, msg.punchAddr, msg.punchAddrs, msg.natType, msg.metadata,
    msg.directFingerprint, clampPunchWindowMs msg.windowMs⟩

def peerMessage (a : PunchAttempt) (vip : List Char) (msg : PunchMessage) : PushMessage :=
  ⟨.punchPeer, a.id, vip, msg.punchAddr, msg.punchAddrs, msg.natType, "",
    msg.directFingerprint, a.windowMs⟩

/-- What a call learns from the rest of the server: the switch and the
registry, `lookupVIP`, whether the sink of an address takes a frame, and what
the registry knows about it. -/
structure Surroundings where
  p2pOn : Bool
  registry : Bool
  online : List Char → Bool
  delivers : List Char → Bool
  peerInfo : List Char → Option PeerInfo
  signalReady : List Char → Bool

inductive PunchReply
  | refused (error : PunchError)
  | answered (reply : SignalReply)
deriving DecidableEq

def PunchReply.isError : PunchReply → Bool
  | .refused _ => true
  | .answered (.error _) => true
  | .answered _ => false

/-- `pushed` are the frames that sinks have taken. -/
structure PunchOutcome where
  table : PunchTable
  pushed : List (List Char × PushMessage)
  reply : PunchReply

namespace Surroundings

variable (env : Surroundings)

def pushSignal (vip : List Char) (push : PushMessage) : Bool :=
  env.p2pOn && push.type ∉ signalRequestTypes ++ signalResponseTypes && env.registry &&
    env.delivers vip

def signalReply (msg : PunchMessage) : SignalReply :=
  if !env.p2pOn || !env.registry then .error .signalingDisabled
  else
    match validateReport msg.publicAddr msg.natType msg.metadata with
    | .error e => .error (.report e)
    | .ok _ =>
      let peer := trimSpace msg.peerVIP
      if peer = [] then .registered
      else .peer (if env.online peer then env.peerInfo peer else none) (env.signalReady peer)

def send (vip : List Char) (push : PushMessage) : List (List Char × PushMessage) :=
  if env.pushSignal vip push then [(vip, push)] else []

def handlePunchIntent (t : PunchTable) (now : Time) (vip : List Char) (msg : PunchMessage) :
    PunchOutcome :=
  match checkIntent env.p2pOn vip msg with
  | .error e => ⟨t, [], .refused (.request e)⟩
  | .ok () =>
    let peer := trimSpace msg.peerVIP
    if !env.online peer then ⟨t, [], .refused .peerUnreachable⟩
    else if relayMaxResponderInvites ≤ t.activeResponderCount now peer then
      ⟨t, env.send vip (busyMessage peer msg), .refused .peerBusy⟩
    else
      match t.start now vip peer msg.attemptID (clampPunchWindowMs msg.windowMs) with
      | (t', .error e) => ⟨t', [], .refused (.start e)⟩
      | (t', .ok (a, _)) =>
        if env.pushSignal peer (inviteMessage a vip msg) then
          ⟨t', [(peer, inviteMessage a vip msg)], .answered (env.signalReply msg)⟩
        else ⟨t'.drop a.id, [], .refused .peerNotReady⟩

def handlePunchReady (t : PunchTable) (now : Time) (vip : List Char) (msg : PunchMessage) :
    PunchOutcome :=
  match checkReady env.p2pOn vip msg with
  | .error e => ⟨t, [], .refused (.request e)⟩
  | .ok () =>
    let initiator := trimSpace msg.peerVIP
    match t.markReady now msg.attemptID initiator vip with
    | (t', none) => ⟨t', [], .refused .unknownAttempt⟩
    | (t', some (a, first)) =>
      ⟨t', if first then env.send initiator (peerMessage a vip msg) else [],
        .answered (env.signalReply msg)⟩

end Surroundings

/-! ## What a call can do -/

namespace Surroundings

/-- The checks of `handlePunchIntent` before it turns to `start`. -/
def admits (env : Surroundings) (t : PunchTable) (now : Time) (vip : List Char)
    (msg : PunchMessage) : Bool :=
  (checkIntent env.p2pOn vip msg).isOk && env.online (trimSpace msg.peerVIP) &&
    t.activeResponderCount now (trimSpace msg.peerVIP) < relayMaxResponderInvites

variable {env : Surroundings}

theorem signalReply_of_push (hvalid : checkIntent env.p2pOn vip msg = .ok ())
    (hpush : env.pushSignal peer push = true) :
    ∃ info ready, env.signalReply msg = .peer info ready := by
  obtain ⟨-, hon, hpeer, -, -, -, -, metadata, hreport⟩ := checkIntent_eq_ok.1 hvalid
  have hregistry : env.registry = true := by
    simp only [pushSignal, Bool.and_eq_true] at hpush
    exact hpush.1.2
  refine ⟨if env.online (trimSpace msg.peerVIP) then env.peerInfo (trimSpace msg.peerVIP)
    else none, env.signalReady (trimSpace msg.peerVIP), ?_⟩
  simp [signalReply, hon, hregistry, hreport, hpeer]

end Surroundings

section

variable (env : Surroundings) (t : PunchTable) (now : Time) (vip : List Char) (msg : PunchMessage)

inductive IntentHandled : PunchOutcome → Prop
  | refused
      (hadmits : env.admits t now vip msg = false) :
      IntentHandled ⟨t, pushed, .refused e⟩
  | failed (hadmits : env.admits t now vip msg = true)
      (hstart : t.start now vip (trimSpace msg.peerVIP) msg.attemptID
        (clampPunchWindowMs msg.windowMs) = (t', .error e)) :
      IntentHandled ⟨t', [], .refused (.start e)⟩
  | undelivered
      (hadmits : env.admits t now vip msg = true)
      (hstart : t.start now vip (trimSpace msg.peerVIP) msg.attemptID
        (clampPunchWindowMs msg.windowMs) = (t', .ok (a, existing))) :
      IntentHandled ⟨t'.drop a.id, [], .refused .peerNotReady⟩
  | invited : IntentHandled ⟨t', pushed, .answered (.peer info ready)⟩

end

open Surroundings

theorem intentHandled (env : Surroundings) (t : PunchTable) (now : Time) (vip : List Char)
    (msg : PunchMessage) :
    IntentHandled env t now vip msg (env.handlePunchIntent t now vip msg) := by
  unfold handlePunchIntent
  split
  next e hinvalid =>
    exact .refused (by simp [admits, hinvalid, Except.isOk, Except.toBool])
  next hvalid =>
    dsimp only
    split
    next hoffline => exact .refused (by simp_all [admits])
    next honline =>
      split
      next hbusy => exact .refused (by simp [admits, hbusy])
      next hroom =>
        have hadmits : env.admits t now vip msg = true := by
          simp_all [admits, Except.isOk, Except.toBool]
        split
        next t' e hstart => exact .failed hadmits hstart
        next t' a existing hstart =>
          split
          next hpush =>
            obtain ⟨info, ready, hreply⟩ := signalReply_of_push hvalid hpush
            rw [hreply]
            exact .invited
          next => exact .undelivered hadmits hstart

/-! ## Repeating an intent -/

/-- The repeated intent is answered with a peer message, invites the peer again
and leaves the table as it is. -/
structure Repeated (t : PunchTable) (id peer : List Char) (outcome : PunchOutcome) : Prop where
  answered : ∃ info ready, outcome.reply = .answered (.peer info ready)
  invited : ∃ invite, outcome.pushed = [(peer, invite)] ∧ invite.type = .punchInvite ∧
    invite.attemptID = id
  attempts : outcome.table.attempts = t.attempts
  byPair : outcome.table.byPair = t.byPair
  rate : outcome.table.rate = t.rate

/-- A stored attempt can be repeated exactly while its responder is below the
limit: the handler counts before it looks for the attempt. -/
theorem intent_retry (env : Surroundings) (calls : List (Time × PunchCall)) (now : Time)
    (vip : List Char) (msg : PunchMessage) (a : PunchAttempt)
    (hstored : (after calls).attempts.lookup msg.attemptID = some a)
    (hlive : a.live now = true) (hinitiator : a.initiator = vip)
    (hresponder : a.responder = trimSpace msg.peerVIP)
    (hon : env.p2pOn = true) (hregistry : env.registry = true)
    (honline : env.online a.responder = true) (hsink : env.delivers a.responder = true)
    (hvalid : checkIntent true vip msg = .ok ()) :
    Repeated (.after calls) msg.attemptID a.responder
        (env.handlePunchIntent (.after calls) now vip msg) ↔
      (after calls).activeResponderCount now a.responder <
        relayMaxResponderInvites := by
  rw [hresponder] at honline hsink ⊢
  unfold handlePunchIntent
  simp only [hon, hvalid, honline, Bool.not_true, if_neg Bool.false_ne_true]
  by_cases hbusy : relayMaxResponderInvites ≤
      (after calls).activeResponderCount now (trimSpace msg.peerVIP)
  · simp only [if_pos hbusy]
    refine ⟨fun h => ?_, fun hlt => absurd hbusy (Nat.not_le.2 hlt)⟩
    obtain ⟨info, ready, hreply⟩ := h.answered
    cases hreply
  · have hpush : env.pushSignal (trimSpace msg.peerVIP) (inviteMessage a vip msg) = true := by
      simp [pushSignal, hon, hregistry, hsink, inviteMessage, signalRequestTypes,
        signalResponseTypes]
    have hjoins : a.joins vip (trimSpace msg.peerVIP) = true :=
      PunchAttempt.joins_iff.2 ⟨hinitiator, hresponder⟩
    obtain ⟨info, ready, hreply⟩ := signalReply_of_push (hon ▸ hvalid) hpush
    simp only [if_neg hbusy, start_of_live hstored hlive, if_pos hjoins, if_pos hpush]
    have hid : a.id = msg.attemptID := (sound_after calls).keyed _ a hstored
    refine ⟨fun _ => Nat.not_le.1 hbusy, fun _ => ?_⟩
    exact ⟨⟨info, ready, by rw [hreply]⟩, ⟨_, rfl, rfl, hid⟩, rfl, rfl, rfl⟩

/-! ### A responder with two attempts -/

def aliceText : List Char := "10.0.0.2".toList

def bobText : List Char := "10.0.0.3".toList

def carolText : List Char := "10.0.0.4".toList

def intentToBob (attemptID : String) : PunchMessage where
  attemptID := attemptID.toList
  peerVIP := bobText
  publicAddr := "203.0.113.7:5000"
  natType := "full-cone"
  metadata := ""
  punchAddr := "203.0.113.7:4000".toList
  punchAddrs := ["203.0.113.7:4000".toList]
  directFingerprint := List.replicate 64 'a'
  windowMs := 10000

def everybodyOnline : Surroundings := ⟨true, true, fun _ => true, fun _ => true, fun _ => none,
  fun _ => true⟩

def aliceInvitesBob : List (Time × PunchCall) :=
  [(0, .start aliceText bobText "0123456789abcdef".toList 10000)]

def carolInvitesBobToo : List (Time × PunchCall) :=
  aliceInvitesBob ++ [(0, .start carolText bobText "fedcba9876543210".toList 10000)]

theorem intentToBob_valid :
    checkIntent true aliceText (intentToBob "0123456789abcdef") = .ok () := by
  decide +kernel

/-- With a second attempt for the same responder alice's retry is refused. -/
theorem retry_refused_at_limit :
    ¬ ∀ (env : Surroundings) (calls : List (Time × PunchCall)) (now : Time) (vip : List Char)
      (msg : PunchMessage) (a : PunchAttempt),
      (after calls).attempts.lookup msg.attemptID = some a → a.live now = true →
      a.initiator = vip → a.responder = trimSpace msg.peerVIP →
      env.p2pOn = true → env.registry = true → env.online a.responder = true →
      env.delivers a.responder = true → checkIntent true vip msg = .ok () →
      Repeated (.after calls) msg.attemptID a.responder
        (env.handlePunchIntent (.after calls) now vip msg) := by
  intro h
  have hstored : (after carolInvitesBobToo).attempts.lookup
      (intentToBob "0123456789abcdef").attemptID =
        some ⟨0, "0123456789abcdef".toList, aliceText, bobText, 10000, 0, false, false⟩ := by
    decide +kernel
  have hretry := h everybodyOnline carolInvitesBobToo second aliceText
    (intentToBob "0123456789abcdef") _ hstored (by decide +kernel) rfl (by decide +kernel) rfl rfl
    rfl rfl intentToBob_valid
  have hbusy : (everybodyOnline.handlePunchIntent (.after carolInvitesBobToo) second aliceText
      (intentToBob "0123456789abcdef")).reply = .refused .peerBusy := by
    decide +kernel
  obtain ⟨info, ready, hreply⟩ := hretry.answered
  simp [hbusy] at hreply

theorem intent_retry_alice :
    (after aliceInvitesBob).activeResponderCount second bobText <
        relayMaxResponderInvites ∧
      Repeated (.after aliceInvitesBob) "0123456789abcdef".toList bobText
        (everybodyOnline.handlePunchIntent (.after aliceInvitesBob) second aliceText
          (intentToBob "0123456789abcdef")) := by
  have hcount : (after aliceInvitesBob).activeResponderCount second bobText <
      relayMaxResponderInvites := by
    decide +kernel
  have hstored : (after aliceInvitesBob).attempts.lookup
      (intentToBob "0123456789abcdef").attemptID =
        some ⟨0, "0123456789abcdef".toList, aliceText, bobText, 10000, 0, false, false⟩ := by
    decide +kernel
  exact ⟨hcount, (intent_retry everybodyOnline aliceInvitesBob second aliceText
    (intentToBob "0123456789abcdef") _ hstored (by decide +kernel) rfl (by decide +kernel) rfl rfl
    rfl rfl intentToBob_valid).2 hcount⟩

end Hy2Link.Server
