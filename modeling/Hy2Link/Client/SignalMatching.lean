import Hy2Link.Client.SignalStream

/-! # Matching of requests and replies on the signalling stream

Nothing in a message tells which request it answers; a reply belongs to a
request only because no other reply can reach the waiting slot.  The outline
below carries this through every interleaving, from the installation of a
slot in a quiet state on: all that is on its way to the slot is the reply to
the frame its owner writes.

The wake-up frame of a fresh stream and a request abandoned by its caller
leave an unanswered frame behind.  A slot installed meanwhile is not quiet,
and it takes the wrong reply.
-/

namespace Hy2Link.Client.SignalStream

open Interleaving List Local

/-- The message a call hands back, as its result or inside a refusal. -/
def replyOf : Outcome → Option Message
  | .ok m => some m
  | .error (.refused m) => some m
  | .error _ => none

/-- Every message a finished call returned answers the request frame of that
very call. -/
def RepliesMatched (cfg : Config) : Prop :=
  ∀ n r m, cfg.threads.lookup (.call n) = some (.returned r) → replyOf r = some m →
    m.answers = some (.request n)

def Local.dispatches : Local → Bool
  | .holding m => m.isResponseType
  | _ => false

/-- No frame written so far can still put a response into a waiting slot: on
every stream that can be read all frames are answered and all responses are
read, and no reader holds a response that it has yet to dispatch. -/
def Quiet (cfg : Config) : Prop :=
  (∀ k stream, cfg.shared.streams.lookup k = some stream → stream.readable = true →
    stream.toServer = [] ∧ ∀ m ∈ stream.toClient, m.isResponseType = false) ∧
  ∀ t l, cfg.threads.lookup t = some l → l.dispatches = false

/-- The condition on a step: a call installs its slot in a quiet state only. -/
def InstallsQuietly (cfg : Config) : Action → Prop
  | .step (.call n) _ => cfg.threads.lookup (.call n) = some .install → Quiet cfg
  | _ => True

instance (cfg : Config) : Decidable (Quiet cfg) := inferInstanceAs (Decidable (_ ∧ _))

instance (cfg : Config) : (action : Action) → Decidable (InstallsQuietly cfg action)
  | .step (.call _) _ => inferInstanceAs (Decidable (_ → _))
  | .step (.reader _) _ | .step (.closer _) _ | .spawn _ _ | .env _ => .isTrue trivial

def Shared.Awaiting (s : Shared) (frame : Frame) : Prop :=
  ∃ k stream, s.streams.lookup k = some stream ∧ stream.readable = true ∧
    frame ∈ stream.toServer

def Shared.Arriving (s : Shared) (m : Message) : Prop :=
  ∃ k stream, s.streams.lookup k = some stream ∧ stream.readable = true ∧ m ∈ stream.toClient

variable {s s' : Shared} {n : CallId} {cfg : Config}

theorem awaiting_setStream (h : (s.setStream k stream).Awaiting frame) :
    s.Awaiting frame ∨ stream.readable = true ∧ frame ∈ stream.toServer := by
  obtain ⟨j, stream', hlookup, hr, hframe⟩ := h
  rcases lookup_insert_eq_some.1 hlookup with ⟨-, rfl⟩ | ⟨-, hlookup⟩
  · exact .inr ⟨hr, hframe⟩
  · exact .inl ⟨j, stream', hlookup, hr, hframe⟩

theorem arriving_setStream (h : (s.setStream k stream).Arriving m) :
    s.Arriving m ∨ stream.readable = true ∧ m ∈ stream.toClient := by
  obtain ⟨j, stream', hlookup, hr, hm⟩ := h
  rcases lookup_insert_eq_some.1 hlookup with ⟨-, rfl⟩ | ⟨-, hlookup⟩
  · exact .inr ⟨hr, hm⟩
  · exact .inl ⟨j, stream', hlookup, hr, hm⟩

def Local.holdsReq : Local → Bool
  | .lockReq | .returned _ => false
  | _ => true

/-- The control points between the installation of a call's slot and the
deferred step that gives it back. -/
def Local.ownsSlot : Local → Bool
  | .write _ | .wait _ | .resetLock _ | .resetUnlock _ | .clearSlot _ => true
  | .detach (.exchange _) | .cancelRead _ (.exchange _) | .awaitReader _ (.exchange _)
  | .clearCooldown (.exchange _) => true
  | _ => false

def Local.reply : Local → Option Message
  | .clearSlot r | .unlockReq r | .returned r => replyOf r
  | .unlockOpen (some e) | .resetLock e | .resetUnlock e => replyOf (.error e)
  | .detach back | .cancelRead _ back | .awaitReader _ back | .clearCooldown back =>
    match back with
    | .exchange e => replyOf (.error e)
    | _ => none
  | _ => none

structure SlotInvariant (s : Shared) : Prop where
  lock : ∀ n, s.signalPending = some n → s.signalReqMu = some (.call n)
  awaiting : ∀ n frame, s.signalPending = some n → s.Awaiting frame → frame = .request n
  arriving : ∀ n m, s.signalPending = some n → s.Arriving m → m.isResponseType = true →
    m.answers = some (.request n)
  delivered : ∀ n m, s.slots.lookup n = some m → m.answers = some (.request n)

structure CallAssertion (n : CallId) (l : Local) (s : Shared) : Prop where
  lock : l.holdsReq = true → s.signalReqMu = some (.call n)
  slot : l.holdsReq = true → l.ownsSlot = false → s.signalPending ≠ some n
  reply : ∀ m, l.reply = some m → m.answers = some (.request n)

structure ReaderAssertion (l : Local) (s : Shared) : Prop where
  holding : ∀ n m, l = .holding m → m.isResponseType = true → s.signalPending = some n →
    m.answers = some (.request n)
  delivering : ∀ n m, l = .delivering n m → m.answers = some (.request n)

def assertion : Thread → Local → Shared → Prop
  | .call n, l, s => CallAssertion n l s
  | .reader _, l, s => ReaderAssertion l s
  | .closer _, _, _ => True

/-- A change that moves nothing towards a waiting slot. -/
structure Shrinks (s s' : Shared) : Prop where
  lock : s'.signalReqMu = s.signalReqMu
  pending : ∀ n, s'.signalPending = some n → s.signalPending = some n
  awaiting : ∀ frame, s'.Awaiting frame → s.Awaiting frame
  arriving : ∀ m, s'.Arriving m → s.Arriving m
  slots : ∀ n m, s'.slots.lookup n = some m → s.slots.lookup n = some m

/-- The operations that neither take a lock of the calls nor move a frame, a
message or a slot forward. -/
def Op.shrinking {Result : Type} : Op Result → Bool
  | .lockReq | .unlockReq | .write _ _ | .writeFails _ _ _ | .install _ | .deliver _ _ => false
  | _ => true

theorem Shrinks.refl (s : Shared) : Shrinks s s :=
  ⟨rfl, fun _ h => h, fun _ h => h, fun _ h => h, fun _ _ h => h⟩

theorem Shrinks.setStream (hstream : s.streams.lookup k = some stream)
    (hreadable : stream'.readable = true → stream.readable = true)
    (hserver : stream'.toServer ⊆ stream.toServer) (hclient : stream'.toClient ⊆ stream.toClient) :
    Shrinks s (s.setStream k stream') := by
  refine ⟨rfl, fun _ h => h, fun frame h => ?_, fun m h => ?_, fun _ _ h => h⟩
  · rcases awaiting_setStream h with h | ⟨hr, hframe⟩
    · exact h
    · exact ⟨k, stream, hstream, hreadable hr, hserver hframe⟩
  · rcases arriving_setStream h with h | ⟨hr, hm⟩
    · exact h
    · exact ⟨k, stream, hstream, hreadable hr, hclient hm⟩

theorem exec_shrinks {op : Op Result} {r : Result} (hop : op.shrinking = true)
    (hexec : exec t s op = some (s', r)) : Shrinks s s' := by
  cases op with
  | lockReq | unlockReq | write | writeFails | install | deliver => cases hop
  | lockOpen | awaitCtrlDone =>
    simp only [exec, Option.ite_none_right_eq_some, Option.some.injEq, Prod.mk.injEq] at hexec
    obtain ⟨-, rfl, -⟩ := hexec
    exact { Shrinks.refl s with }
  | openStream =>
    cases hexec
    refine { Shrinks.refl s with awaiting := fun frame h => ?_, arriving := fun m h => ?_ }
    · rcases awaiting_setStream h with h | ⟨-, hframe⟩
      · exact h
      · cases hframe
    · rcases arriving_setStream h with h | ⟨-, hm⟩
      · exact h
      · cases hm
  | publish k =>
    obtain ⟨stream, hstream, h⟩ := Option.map_eq_some_iff.1 hexec
    cases h
    have hpublish : Shrinks s (s.setStream k { stream with published := true }) :=
      .setStream hstream (fun h => h) (fun _ h => h) (fun _ h => h)
    exact { hpublish with }
  | receive n =>
    obtain ⟨m, hm, h⟩ := Option.map_eq_some_iff.1 hexec
    cases h
    exact { Shrinks.refl s with slots := fun _ _ h => (lookup_erase_eq_some.1 h).2 }
  | awaitGen k =>
    obtain ⟨stream, -, h⟩ := Option.bind_eq_some_iff.1 hexec
    simp only [Option.ite_none_right_eq_some, Option.some.injEq, Prod.mk.injEq] at h
    obtain ⟨-, rfl, -⟩ := h
    exact .refl s
  | clearSlot | detach | takeSlot =>
    cases hexec
    exact { Shrinks.refl s with pending := by simp }
  | cancelRead k | readFails k | closeGen k =>
    obtain ⟨stream, hstream, h⟩ := Option.map_eq_some_iff.1 hexec
    cases h
    exact .setStream hstream (by simp) (fun _ h => h) (fun _ h => h)
  | readFrame k =>
    obtain ⟨stream, hstream, h⟩ := Option.bind_eq_some_iff.1 hexec
    split at h <;> cases h
    next hm =>
      refine .setStream hstream (fun h => h) (fun _ h => h) ?_
      rw [hm]
      exact subset_cons_self _ _
  | retire k =>
    obtain ⟨stream, hstream, h⟩ := Option.map_eq_some_iff.1 hexec
    have hclose : Shrinks s (s.setStream k { stream with writable := false }) :=
      .setStream hstream (fun h => h) (fun _ h => h) (fun _ h => h)
    simp only at h
    split at h <;> cases h
    · exact { hclose with }
    · exact hclose
  | _ =>
    cases hexec
    exact { Shrinks.refl s with }

section

variable (hs : SlotInvariant s)
include hs

theorem SlotInvariant.of_shrinks (h : Shrinks s s') :
    SlotInvariant s' where
  lock n hn := by
    rw [h.lock]
    exact hs.lock n (h.pending n hn)
  awaiting n frame hn hframe := hs.awaiting n frame (h.pending n hn) (h.awaiting frame hframe)
  arriving n m hn hm := hs.arriving n m (h.pending n hn) (h.arriving m hm)
  delivered n m hm := hs.delivered n m (h.slots n m hm)

theorem SlotInvariant.setStream (hstream : s.streams.lookup k = some stream)
    (hreadable : stream'.readable = stream.readable)
    (hserver : ∀ n f, s.signalPending = some n → f ∈ stream'.toServer →
      f ∈ stream.toServer ∨ f = .request n)
    (hclient : ∀ n m, s.signalPending = some n → stream.readable = true → m ∈ stream'.toClient →
      m.isResponseType = true → m ∈ stream.toClient ∨ m.answers = some (.request n)) :
    SlotInvariant (s.setStream k stream') := by
  refine { hs with awaiting := fun n f hn hf => ?_, arriving := fun n m hn hm hresponse => ?_ }
  · rcases awaiting_setStream hf with hf | ⟨hr, hf⟩
    · exact hs.awaiting n f hn hf
    · rcases hserver n f hn hf with hf | hf
      · exact hs.awaiting n f hn ⟨k, stream, hstream, hreadable ▸ hr, hf⟩
      · exact hf
  · rcases arriving_setStream hm with hm | ⟨hr, hm⟩
    · exact hs.arriving n m hn hm hresponse
    · rcases hclient n m hn (hreadable ▸ hr) hm hresponse with hm | hm
      · exact hs.arriving n m hn ⟨k, stream, hstream, hreadable ▸ hr, hm⟩ hresponse
      · exact hm

theorem SlotInvariant.write (hstream : s.streams.lookup k = some stream)
    (hframe : ∀ n, s.signalPending = some n → frame = .request n) :
    SlotInvariant (s.setStream k { stream with toServer := stream.toServer ++ [frame] }) :=
  hs.setStream hstream rfl
    (fun n _ hn hf => (mem_append.1 hf).imp_right fun hf =>
      (mem_singleton.1 hf).trans (hframe n hn))
    fun _ _ _ _ hm _ => .inl hm

theorem SlotInvariant.deliver (hm : m.answers = some (.request n)) :
    SlotInvariant { s with slots := s.slots.insert n m } := by
  refine { hs with delivered := fun n' m' h => ?_ }
  rcases lookup_insert_eq_some.1 h with ⟨rfl, rfl⟩ | ⟨-, h⟩
  · exact hm
  · exact hs.delivered n' m' h

end

theorem SlotInvariant.install (hs : SlotInvariant cfg.shared) (hquiet : Quiet cfg)
    (hlock : cfg.shared.signalReqMu = some (.call n)) :
    SlotInvariant { cfg.shared with signalPending := some n } where
  lock n' hn := by
    obtain rfl : n = n' := Option.some.inj hn
    exact hlock
  awaiting _ frame _ hframe := by
    obtain ⟨k, stream, hstream, hr, hframe⟩ := hframe
    simp [(hquiet.1 k stream hstream hr).1] at hframe
  arriving _ m _ hm hresponse := by
    obtain ⟨k, stream, hstream, hr, hm⟩ := hm
    simp [(hquiet.1 k stream hstream hr).2 m hm] at hresponse
  delivered := hs.delivered

theorem assertion_of_eq (ht : assertion t l s) (hlock : s'.signalReqMu = s.signalReqMu)
    (hpending : ∀ n, s'.signalPending = some n → s.signalPending = some n) : assertion t l s' := by
  cases t with
  | call n =>
    exact ⟨fun hl => hlock.trans (ht.lock hl), fun hl ho hn => ht.slot hl ho (hpending n hn),
      ht.reply⟩
  | reader k =>
    exact ⟨fun n m hl hm hn => ht.holding n m hl hm (hpending n hn), ht.delivering⟩
  | closer n => trivial

/-- A step between two control points of a call that acquires neither the
request lock nor a reply, and does not give the slot back. -/
structure Moves (l l' : Local) : Prop where
  holds : l'.holdsReq = true → l.holdsReq = true
  owns : l'.ownsSlot = false → l.ownsSlot = false
  settles : l'.reply = none ∨ l'.reply = l.reply

theorem signalRoundTripCtx_moves (hrequest : signalRoundTripCtx n l choice = some request)
    (hop : request.op.shrinking = true) :
    (∃ k, l = .wait k ∧ request = ⟨.receive n, fun m => .clearSlot (outcomeOf m)⟩) ∨
    (∃ o, l = .clearSlot o ∧ request = ⟨.clearSlot n, fun _ => .unlockReq o⟩) ∨
    ∀ r, Moves l (request.resume r) := by
  cases l <;> cases choice <;> cases hrequest <;> try cases hop
  case wait.proceed k => exact .inl ⟨k, rfl, rfl⟩
  case clearSlot.proceed o => exact .inr (.inl ⟨o, rfl, rfl⟩)
  all_goals refine .inr (.inr fun r => ?_)
  case selfInfo.proceed | p2pEffective.proceed | loadCtrlConn.proceed =>
      cases r <;> exact ⟨fun _ => rfl, fun _ => rfl, .inl rfl⟩
  case loadStream.proceed =>
      obtain ⟨alive, deadUntil⟩ := r
      cases alive <;> exact ⟨fun _ => rfl, fun _ => rfl, .inl rfl⟩
  case cooldown.proceed deadUntil =>
      dsimp only
      split <;> exact ⟨fun _ => rfl, fun _ => rfl, .inl rfl⟩
  case unlockOpen.proceed failed =>
      cases failed <;> exact ⟨fun _ => rfl, fun _ => rfl, .inr rfl⟩
  case detach.proceed back =>
    cases r <;> cases back <;> constructor <;>
      simp [reply, holdsReq, ownsSlot, Return.resume, replyOf]
  case cancelRead.proceed back | awaitReader.genClosed back | awaitReader.timeout back |
      clearCooldown.proceed back =>
      cases back <;> constructor <;>
        simp [reply, holdsReq, ownsSlot, Return.resume, replyOf]
  all_goals constructor <;> simp [reply, holdsReq, ownsSlot, replyOf]

theorem CallAssertion.of_moves (h : CallAssertion n l s) (hmoves : Moves l l')
    (hlock : s'.signalReqMu = s.signalReqMu)
    (hpending : ∀ n, s'.signalPending = some n → s.signalPending = some n) :
    CallAssertion n l' s' where
  lock hl := hlock.trans (h.lock (hmoves.holds hl))
  slot hl ho hn := h.slot (hmoves.holds hl) (hmoves.owns ho) (hpending n hn)
  reply m hm := by
    rcases hmoves.settles with hnone | hsame
    · rw [hnone] at hm; cases hm
    · exact h.reply m (hsame ▸ hm)

theorem replyOf_outcomeOf (m : Message) : replyOf (outcomeOf m) = some m := by
  unfold outcomeOf
  split <;> rfl

theorem signalRoundTripCtx_own {r : request.Result} (hs : SlotInvariant s)
    (hown : CallAssertion n l s) (hrequest : signalRoundTripCtx n l choice = some request)
    (hop : request.op.shrinking = true) (hexec : exec (.call n) s request.op = some (s', r)) :
    CallAssertion n (request.resume r) s' := by
  have hshrinks := exec_shrinks hop hexec
  obtain ⟨k, rfl, rfl⟩ | ⟨o, rfl, rfl⟩ | hmoves := signalRoundTripCtx_moves hrequest hop
  · obtain ⟨m, hm, h⟩ := Option.map_eq_some_iff.1 hexec
    obtain ⟨rfl, rfl⟩ := Prod.mk.inj h
    refine ⟨fun _ => hown.lock rfl, fun _ h => (by cases h), fun m' hm' => ?_⟩
    obtain rfl : m = m' := Option.some.inj ((replyOf_outcomeOf m).symm.trans hm')
    exact hs.delivered n m hm
  · cases hexec
    refine ⟨fun _ => hown.lock rfl, fun _ _ hn => ?_, hown.reply⟩
    simp only at hn
    split at hn
    · cases hn
    next hne => exact hne hn
  · exact hown.of_moves (hmoves r) hshrinks.lock hshrinks.pending

/-- What a step has to re-establish; the conclusion asked for by
`Interleaving.next_outline`. -/
def Keeps (cfg : Config) (t : Thread) (l' : Local) (s' : Shared) : Prop :=
  SlotInvariant s' ∧ assertion t l' s' ∧
    ∀ other l, other ≠ t → cfg.threads.lookup other = some l → assertion other l s'

theorem keeps_of_eq (hcfg : Outline SlotInvariant assertion cfg) (hs : SlotInvariant s')
    (hlock : s'.signalReqMu = cfg.shared.signalReqMu)
    (hpending : ∀ n, s'.signalPending = some n → cfg.shared.signalPending = some n)
    (hown : assertion t l' s') : Keeps cfg t l' s' :=
  ⟨hs, hown, fun other l _ hl => assertion_of_eq (hcfg.thread other l hl) hlock hpending⟩

theorem keeps_of_shrinks (hcfg : Outline SlotInvariant assertion cfg) (h : Shrinks cfg.shared s')
    (hown : assertion t l' s') : Keeps cfg t l' s' :=
  keeps_of_eq hcfg (hcfg.shared.of_shrinks h) h.lock h.pending hown

theorem SlotInvariant.pending_eq (hs : SlotInvariant s) (hlock : s.signalReqMu = some (.call n))
    (hn : s.signalPending = some n') : n' = n := by
  have h := (hs.lock n' hn).symm.trans hlock
  simpa using h

theorem CallAssertion.pending_eq_none (h : CallAssertion n l s) (hs : SlotInvariant s)
    (hholds : l.holdsReq = true) (howns : l.ownsSlot = false) : s.signalPending = none := by
  cases hn : s.signalPending with
  | none => rfl
  | some n' =>
    obtain rfl := hs.pending_eq (h.lock hholds) hn
    exact absurd hn (h.slot hholds howns)

section

variable (hcfg : Outline SlotInvariant assertion cfg)
include hcfg

theorem lockReq_keeps
    (hown : CallAssertion n .lockReq cfg.shared) (hfree : cfg.shared.signalReqMu = none) :
    Keeps cfg (.call n) .selfInfo { cfg.shared with signalReqMu := some (.call n) } := by
  have hnone : ∀ n', cfg.shared.signalPending ≠ some n' := by
    intro n' hn
    have h := hcfg.shared.lock n' hn
    simp [hfree] at h
  refine ⟨{ hcfg.shared with lock := fun n' hn => absurd hn (hnone n') },
    ⟨fun _ => rfl, fun _ _ => hnone n, hown.reply⟩, fun other l hne hl => ?_⟩
  have ht := hcfg.thread other l hl
  cases other with
  | call n' =>
    refine ⟨fun hholds => ?_, ht.slot, ht.reply⟩
    have h := ht.lock hholds
    simp [hfree] at h
  | reader k => exact ⟨ht.holding, ht.delivering⟩
  | closer j => trivial

theorem unlockReq_keeps
    (hown : CallAssertion n (.unlockReq r) cfg.shared) :
    Keeps cfg (.call n) (.returned r) { cfg.shared with signalReqMu := none } := by
  have hlock := hown.lock rfl
  have hnone := hown.pending_eq_none hcfg.shared rfl rfl
  refine ⟨{ hcfg.shared with lock := fun n' hn => absurd hn (by simp [hnone]) },
    ⟨nofun, nofun, hown.reply⟩, fun other l hne hl => ?_⟩
  have ht := hcfg.thread other l hl
  cases other with
  | call n' =>
    refine ⟨fun hholds => ?_, ht.slot, ht.reply⟩
    exact absurd ((ht.lock hholds).symm.trans hlock) (by simpa using hne)
  | reader k => exact ⟨ht.holding, ht.delivering⟩
  | closer j => trivial

theorem install_keeps
    (hown : CallAssertion n .install cfg.shared) (hquiet : Quiet cfg) :
    Keeps cfg (.call n) (.write k) { cfg.shared with signalPending := some n } := by
  have hlock := hown.lock rfl
  refine ⟨hcfg.shared.install hquiet hlock,
    ⟨fun _ => hlock, fun _ h => (by cases h), fun m hm => (by cases hm)⟩, fun other l hne hl => ?_⟩
  have ht := hcfg.thread other l hl
  cases other with
  | call n' =>
    refine ⟨ht.lock, fun _ _ hn => ?_, ht.reply⟩
    exact hne (congrArg Thread.call (Option.some.inj hn).symm)
  | reader j =>
    refine ⟨fun _ m hm hresponse _ => ?_, ht.delivering⟩
    subst hm
    have hquiet := hquiet.2 (.reader j) _ hl
    simp only [dispatches] at hquiet
    simp [hquiet] at hresponse
  | closer j => trivial

theorem write_keeps
    (hown : CallAssertion n l cfg.shared) (hmoves : Moves l l')
    (hframe : ∀ n', cfg.shared.signalPending = some n' → frame = .request n')
    (hexec : exec t cfg.shared (.write k frame) = some (s', r)) : Keeps cfg (.call n) l' s' := by
  obtain ⟨stream, hstream, h⟩ := Option.bind_eq_some_iff.1 hexec
  simp only [Option.ite_none_right_eq_some, Option.some.injEq, Prod.mk.injEq] at h
  obtain ⟨-, rfl, -⟩ := h
  exact keeps_of_eq hcfg (hcfg.shared.write hstream hframe) rfl (fun _ h => h)
    (hown.of_moves hmoves rfl fun _ h => h)

theorem writeFails_keeps
    (hown : CallAssertion n l cfg.shared) (hmoves : Moves l l')
    (hframe : ∀ n', cfg.shared.signalPending = some n' → frame = .request n')
    (hexec : exec t cfg.shared (.writeFails k frame sent) = some (s', r)) :
    Keeps cfg (.call n) l' s' := by
  obtain ⟨stream, hstream, h⟩ := Option.map_eq_some_iff.1 hexec
  split at h <;> cases h
  · exact keeps_of_eq hcfg (hcfg.shared.write hstream hframe) rfl (fun _ h => h)
      (hown.of_moves hmoves rfl fun _ h => h)
  · exact keeps_of_shrinks hcfg (.refl _) (hown.of_moves hmoves rfl fun _ h => h)

theorem call_keeps_of_not_shrinking
    (hok : InstallsQuietly cfg (.step (.call n) choice))
    (hl : cfg.threads.lookup (.call n) = some l) (hown : CallAssertion n l cfg.shared)
    (hrequest : signalRoundTripCtx n l choice = some request) (hop : request.op.shrinking = false)
    (hexec : exec (.call n) cfg.shared request.op = some (s', r)) :
    Keeps cfg (.call n) (request.resume r) s' := by
  cases l <;> cases choice <;> cases hrequest <;> try cases hop
  case lockReq.proceed =>
      simp only [exec, Option.ite_none_right_eq_some, Option.some.injEq, Prod.mk.injEq] at hexec
      obtain ⟨hfree, rfl, -⟩ := hexec
      exact lockReq_keeps hcfg hown hfree
  case unlockReq.proceed =>
      cases hexec
      exact unlockReq_keeps hcfg hown
  case install.proceed =>
      simp only [exec] at hexec
      split at hexec <;> cases hexec
      · exact keeps_of_shrinks hcfg (.refl _)
          (hown.of_moves ⟨fun _ => rfl, fun _ => rfl, .inl rfl⟩ rfl fun _ h => h)
      · exact install_keeps hcfg hown (hok hl)
  case wakeUp.proceed k =>
      have hnone := hown.pending_eq_none hcfg.shared rfl rfl
      exact write_keeps hcfg hown ⟨fun _ => rfl, fun _ => rfl, .inl rfl⟩ (by simp [hnone]) hexec
  case wakeUp.fail k sent =>
      have hnone := hown.pending_eq_none hcfg.shared rfl rfl
      exact writeFails_keeps hcfg hown ⟨fun _ => rfl, fun _ => rfl, .inl rfl⟩ (by simp [hnone])
        hexec
  case write.proceed k =>
      exact write_keeps hcfg hown ⟨fun _ => rfl, fun h => (by cases h), .inl rfl⟩
        (fun n' hn => congrArg Frame.request (hcfg.shared.pending_eq (hown.lock rfl) hn).symm) hexec
  case write.fail k sent =>
      exact writeFails_keeps hcfg hown ⟨fun _ => rfl, fun h => (by cases h), .inl rfl⟩
        (fun n' hn => congrArg Frame.request (hcfg.shared.pending_eq (hown.lock rfl) hn).symm) hexec

theorem call_keeps {r : request.Result}
    (hok : InstallsQuietly cfg (.step (.call n) choice))
    (hl : cfg.threads.lookup (.call n) = some l)
    (hrequest : signalRoundTripCtx n l choice = some request)
    (hexec : exec (.call n) cfg.shared request.op = some (s', r)) :
    Keeps cfg (.call n) (request.resume r) s' := by
  have hown : CallAssertion n l cfg.shared := hcfg.thread _ l hl
  cases hop : request.op.shrinking with
  | true =>
    exact keeps_of_shrinks hcfg (exec_shrinks hop hexec)
      (signalRoundTripCtx_own hcfg.shared hown hrequest hop hexec)
  | false => exact call_keeps_of_not_shrinking hcfg hok hl hown hrequest hop hexec

theorem reader_keeps {r : request.Result}
    (hl : cfg.threads.lookup (.reader k) = some l)
    (hrequest : signalReadLoop k l choice = some request)
    (hexec : exec (.reader k) cfg.shared request.op = some (s', r)) :
    Keeps cfg (.reader k) (request.resume r) s' := by
  have hown : ReaderAssertion l cfg.shared := hcfg.thread _ l hl
  have hidle : ∀ l' s, (∀ m, l' ≠ .holding m) → (∀ n m, l' ≠ .delivering n m) →
      ReaderAssertion l' s := fun l' s hh hd =>
    ⟨fun n m hm => absurd hm (hh m), fun n m hm => absurd hm (hd n m)⟩
  cases l <;> cases choice <;> try cases hrequest
  case reading.proceed =>
      have hshrinks := exec_shrinks rfl hexec
      refine keeps_of_shrinks hcfg hshrinks
        ⟨fun n m hm hresponse hn => ?_, fun n m hm => (by cases hm)⟩
      cases hm
      obtain ⟨stream, hstream, h⟩ := Option.bind_eq_some_iff.1 hexec
      split at h <;> cases h
      next hr hm =>
        exact hcfg.shared.arriving n r hn
          ⟨k, stream, hstream, hr, hm ▸ mem_cons_self⟩ hresponse
  case reading.fail | retiring.proceed | closingGen.proceed =>
      exact keeps_of_shrinks hcfg (exec_shrinks rfl hexec) (hidle _ _ (by simp) (by simp))
  case holding.proceed m =>
      simp only [signalReadLoop] at hrequest
      split at hrequest <;> cases hrequest
      next hresponse =>
        have hshrinks := exec_shrinks rfl hexec
        cases hexec
        refine keeps_of_shrinks hcfg hshrinks ?_
        cases hpending : cfg.shared.signalPending with
        | none => exact hidle _ _ (by simp) (by simp)
        | some n =>
          refine ⟨fun _ _ hm => (by cases hm), fun n' m' hm => ?_⟩
          cases hm
          exact hown.holding n m rfl hresponse hpending
      · exact keeps_of_shrinks hcfg (exec_shrinks rfl hexec) (hidle _ _ (by simp) (by simp))
  case delivering.proceed n m =>
      simp only [exec] at hexec
      split at hexec <;> cases hexec
      · exact keeps_of_shrinks hcfg (.refl _) (hidle _ _ (by simp) (by simp))
      · exact keeps_of_eq hcfg (hcfg.shared.deliver (hown.delivering n m rfl)) rfl
          (fun _ h => h) (hidle _ _ (by simp) (by simp))

end

theorem closeSignalStream_shrinking (hrequest : closeSignalStream l choice = some request) :
    request.op.shrinking = true := by
  cases l <;> cases choice <;> cases hrequest <;> rfl

/-- The server's answer turns the oldest unanswered frame of a stream into a
message that answers it. -/
theorem SlotInvariant.reply (hs : SlotInvariant s) (hstream : s.streams.lookup k = some stream)
    (hframes : stream.toServer = frame :: rest) (type : MsgType) (error : String) :
    SlotInvariant (s.setStream k { stream with
      toServer := rest
      toClient := stream.toClient ++ [⟨type, error, some frame⟩] }) := by
  refine hs.setStream hstream rfl (fun n f _ hf => .inl ?_) fun n m hn hr hm _ => ?_
  · rw [hframes]
    exact mem_cons_of_mem frame hf
  · refine (mem_append.1 hm).imp_right fun hm => ?_
    have hframe := hs.awaiting n frame hn ⟨k, stream, hstream, hr, hframes ▸ mem_cons_self⟩
    rw [mem_singleton.1 hm, hframe]

theorem SlotInvariant.push (hs : SlotInvariant s) (hstream : s.streams.lookup k = some stream)
    (hpush : m.isResponseType = false) :
    SlotInvariant (s.setStream k { stream with toClient := stream.toClient ++ [m] }) := by
  refine hs.setStream hstream rfl (fun _ _ _ hf => .inl hf) fun n m' _ _ hm hresponse => ?_
  refine (mem_append.1 hm).imp_right fun hm => ?_
  simp [mem_singleton.1 hm, hpush] at hresponse

/-- What the environment can do to the streams: answer the oldest frame of
one, or push a message that is not a response. -/
theorem environment_cases (henv : environment s e = some s') :
    (∃ now selfInfo p2pEffective ctrlConn ctrlDone, s' = { s with
      now := now, selfInfo := selfInfo, p2pEffective := p2pEffective, ctrlConn := ctrlConn
      ctrlDone := ctrlDone }) ∨
    (∃ k stream frame rest type error, s.streams.lookup k = some stream ∧
      stream.toServer = frame :: rest ∧ s' = s.setStream k { stream with
        toServer := rest
        toClient := stream.toClient ++ [⟨type, error, some frame⟩] }) ∨
    ∃ k stream m, s.streams.lookup k = some stream ∧ m.isResponseType = false ∧
      s' = s.setStream k { stream with toClient := stream.toClient ++ [m] } := by
  cases e with
  | tick | setSelfInfo | setP2PEffective | setCtrlConn | ctrlDone =>
    cases henv
    exact .inl ⟨_, _, _, _, _, rfl⟩
  | reply k type error =>
    obtain ⟨stream, hstream, h⟩ := Option.bind_eq_some_iff.1 henv
    split at h
    · cases h
    next frame rest hframes =>
      simp only [Option.ite_none_right_eq_some, Option.some.injEq] at h
      exact .inr (.inl ⟨k, stream, frame, rest, type, error, hstream, hframes, h.2.symm⟩)
  | push k type =>
    obtain ⟨stream, hstream, h⟩ := Option.bind_eq_some_iff.1 henv
    simp only [Option.ite_none_left_eq_some, Option.some.injEq] at h
    refine .inr (.inr ⟨k, stream, _, hstream, ?_, h.2.symm⟩)
    simpa [Message.isResponseType] using h.1

theorem environment_keeps (hcfg : Outline SlotInvariant assertion cfg)
    (henv : environment cfg.shared e = some s') :
    SlotInvariant s' ∧ ∀ t l, cfg.threads.lookup t = some l → assertion t l s' := by
  have hs := hcfg.shared
  obtain ⟨_, _, _, _, _, rfl⟩ | ⟨k, stream, frame, rest, type, error, hstream, hframes, rfl⟩ |
    ⟨k, stream, m, hstream, hpush, rfl⟩ := environment_cases henv
  · exact ⟨{ hs with }, fun t l hl => assertion_of_eq (hcfg.thread t l hl) rfl fun _ h => h⟩
  · exact ⟨hs.reply hstream hframes type error,
      fun t l hl => assertion_of_eq (hcfg.thread t l hl) rfl fun _ h => h⟩
  · exact ⟨hs.push hstream hpush,
      fun t l hl => assertion_of_eq (hcfg.thread t l hl) rfl fun _ h => h⟩

theorem spawnable_assertion (s : Shared) (h : spawnable cfg t l = true) : assertion t l s := by
  cases t with
  | call n =>
    cases l <;> cases h
    exact ⟨nofun, nofun, nofun⟩
  | reader k =>
    cases l <;> try cases h
    exact ⟨nofun, nofun⟩
  | closer n => trivial

theorem next_slotInvariant (cfg : Config) (action : Action) (cfg' : Config)
    (hcfg : Outline SlotInvariant assertion cfg) (hok : InstallsQuietly cfg action)
    (hnext : system.next cfg action = some cfg') : Outline SlotInvariant assertion cfg' := by
  refine next_outline ?_ ?_ ?_ cfg action cfg' hcfg hok hnext
  · intro cfg t l _ _ hspawn
    exact spawnable_assertion cfg.shared hspawn
  · intro cfg t choice l request s' r hcfg hok hl hrequest hexec
    cases t with
    | call n => exact call_keeps hcfg hok hl hrequest hexec
    | reader k => exact reader_keeps hcfg hl hrequest hexec
    | closer n =>
      have hshrinks := exec_shrinks (closeSignalStream_shrinking hrequest) hexec
      exact keeps_of_shrinks hcfg hshrinks trivial
  · intro cfg e s' hcfg _ henv
    exact environment_keeps hcfg henv

theorem initial_outline : Outline SlotInvariant assertion initial := by
  refine ⟨⟨nofun, nofun, nofun, ?_⟩, ?_⟩
  · intro n m h
    simp [initial] at h
  · intro t l h
    simp [initial] at h

/-- In every run in which each call installs its slot in a quiet state, every
message a call returns answers that call's own request frame. -/
theorem replies_matched_of_quiet_installs (actions : List Action) (cfg : Config)
    (hquiet : Along system.next InstallsQuietly initial actions)
    (hrun : run system.next initial actions = some cfg) : RepliesMatched cfg := by
  have hcfg := run_invariant next_slotInvariant initial_outline hquiet hrun
  intro n r m hl hm
  exact (hcfg.thread (.call n) _ hl).reply m hm

/-- A first request on a fresh stream, up to the end of `ensureSignalStream`. -/
def openStreamRun : List Action :=
  [.env (.setSelfInfo true), .env (.setP2PEffective true), .env (.setCtrlConn true),
    .spawn (.call 0) .lockReq] ++ replicate 10 (.step (.call 0) .proceed) ++
    [.spawn (.reader 0) .reading, .step (.call 0) .proceed]

/-- The server answers the oldest frame of the stream and the reader takes the
answer as far as the look at the waiting slot. -/
def replyRun (type : MsgType) : List Action :=
  .env (.reply 0 type "") :: replicate 2 (.step (.reader 0) .proceed)

def finishRun : List Action :=
  .step (.reader 0) .proceed :: replicate 3 (.step (.call 0) .proceed)

/-- The first request waits while the reply to the wake-up frame is still on
its way. -/
def wakeUpReplyRun : List Action :=
  openStreamRun ++ replicate 2 (.step (.call 0) .proceed) ++ replyRun .registered ++ finishRun

/-- The reply to the wake-up frame is dispatched before the slot is installed. -/
def inTurnRun : List Action :=
  openStreamRun ++ replyRun .registered ++ replicate 2 (.step (.call 0) .proceed) ++
    replyRun .peer ++ finishRun

/-- The very first request on a stream is handed the `registered` reply to the
wake-up frame. -/
theorem wake_up_reply_returned :
    ¬ ∀ actions cfg, run system.next initial actions = some cfg → RepliesMatched cfg := by
  intro h
  obtain ⟨cfg, hcfg, hreturned⟩ : ∃ cfg, run system.next initial wakeUpReplyRun = some cfg ∧
      cfg.threads.lookup (.call 0) =
        some (.returned (.ok ⟨.registered, "", some (.wakeUp 0)⟩)) := by
    decide +kernel
  have hmatched := h wakeUpReplyRun cfg hcfg 0 _ _ hreturned rfl
  cases hmatched

theorem replies_matched_in_turn :
    ∃ cfg, run system.next initial inTurnRun = some cfg ∧ RepliesMatched cfg ∧
      cfg.threads.lookup (.call 0) =
        some (.returned (.ok ⟨.peer, "", some (.request 0)⟩)) := by
  obtain ⟨cfg, hcfg, hreturned⟩ : ∃ cfg, run system.next initial inTurnRun = some cfg ∧
      cfg.threads.lookup (.call 0) =
        some (.returned (.ok ⟨.peer, "", some (.request 0)⟩)) := by
    decide +kernel
  exact ⟨cfg, hcfg, replies_matched_of_quiet_installs inTurnRun cfg (by decide +kernel) hcfg,
    hreturned⟩

end Hy2Link.Client.SignalStream
