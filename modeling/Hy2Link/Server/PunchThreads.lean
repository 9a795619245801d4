import Hy2Link.Server.PunchHandlers

/-! # Punch handlers side by side

Each handler runs in the goroutine of its client's signalling stream.  Between
two sections of the table's lock anything may happen, and a method reads the
clock before it waits for the lock.  The connection handlers drop the records
of a client that has gone, and a ticker cleans up.
-/

namespace Hy2Link.Server.Punch

open Interleaving Text

structure Caller where
  vip : List Char
  msg : PunchMessage
deriving DecidableEq

def Caller.peer (c : Caller) : List Char := trimSpace c.msg.peerVIP

/-- A call of `PushSignal` by the handler of `sender`, on account of a record. -/
structure Push where
  sender : List Char
  record : Option Nat
  target : List Char
  message : PushMessage
  delivered : Bool
deriving DecidableEq

/-- A `punch-ready` that `markReady` has accepted, and the thread that handles
it. -/
structure Accepted where
  record : Nat
  thread : Nat
  caller : Caller
deriving DecidableEq

/-- `records`, `accepted` and `pushes` are histories: the records that were
made, the accepted readies and the pushes, the oldest first. -/
structure Shared where
  clock : Time
  table : PunchTable
  records : List PunchAttempt
  accepted : List Accepted
  pushes : List Push

/-- The program points of the two handlers, of a disconnect and of the ticker.
A handler that has ended shows its own error, if there was one. -/
inductive PC
  | intent (c : Caller)
  | countClock (c : Caller)
  | count (c : Caller) (now : Time)
  | busy (c : Caller)
  | startClock (c : Caller)
  | start (c : Caller) (now : Time)
  | invite (c : Caller) (a : PunchAttempt)
  | rollback (id : List Char)
  | ready (c : Caller)
  | readyClock (c : Caller)
  | markReady (c : Caller) (now : Time)
  | notify (c : Caller) (a : PunchAttempt)
  | disconnect (vip : List Char)
  | tick
  | cleanup (now : Time)
  | ended (error : Option PunchError)
deriving DecidableEq

inductive PunchOp : Type → Type
  | clock : PunchOp Time
  | activeResponderCount (now : Time) (responder : List Char) : PunchOp Nat
  | start (now : Time) (initiator responder id : List Char) (windowMs : Int) :
      PunchOp (Except StartError (PunchAttempt × Bool))
  | markReady (now : Time) (c : Caller) : PunchOp (Option (PunchAttempt × Bool))
  | drop (id : List Char) : PunchOp Unit
  | dropByVIP (vip : List Char) : PunchOp Unit
  | cleanup (now : Time) : PunchOp Unit
  | push (p : Push) : PunchOp Bool
  | ask (answer : Bool) : PunchOp Bool

def exec (t : Nat) (s : Shared) {Result : Type} : PunchOp Result → Option (Shared × Result)
  | .clock => some (s, s.clock)
  | .activeResponderCount now responder => some (s, s.table.activeResponderCount now responder)
  | .start now initiator responder id windowMs =>
    match s.table.start now initiator responder id windowMs with
    | (table, .ok (a, false)) =>
      some ({ s with table := table, records := s.records ++ [a] }, .ok (a, false))
    | (table, answer) => some ({ s with table := table }, answer)
  | .markReady now c =>
    match s.table.markReady now c.msg.attemptID c.peer c.vip with
    | (table, none) => some ({ s with table := table }, none)
    | (table, some (a, first)) =>
      some ({ s with table := table, accepted := s.accepted ++ [⟨a.serial, t, c⟩] },
        some (a, first))
  | .drop id => some ({ s with table := s.table.drop id }, ())
  | .dropByVIP vip => some ({ s with table := s.table.dropByVIP vip }, ())
  | .cleanup now => some ({ s with table := s.table.cleanup now }, ())
  | .push p => some ({ s with pushes := s.pushes ++ [p] }, p.delivered)
  | .ask answer => some (s, answer)

def afterStart (c : Caller) : Except StartError (PunchAttempt × Bool) → PC
  | .error e => .ended (some (.start e))
  | .ok (a, _) => .invite c a

/-- What follows on `markReady`: only the first ready is passed on. -/
def afterReady (c : Caller) : Option (PunchAttempt × Bool) → PC
  | none => .ended (some .unknownAttempt)
  | some (a, true) => .notify c a
  | some (_, false) => .ended none

/-- `choice` is what the rest of the server answers: whether the peer is
online, and whether a sink takes the frame. -/
def control (choice : Bool) : PC → Option (Request PunchOp PC)
  | .intent c =>
    match checkIntent true c.vip c.msg with
    | .error e => some ⟨.ask choice, fun _ => .ended (some (.request e))⟩
    | .ok () =>
      some ⟨.ask choice, fun online =>
        if online then .countClock c else .ended (some .peerUnreachable)⟩
  | .countClock c => some ⟨.clock, fun now => .count c now⟩
  | .count c now =>
    some ⟨.activeResponderCount now c.peer, fun n =>
      if relayMaxResponderInvites ≤ n then .busy c else .startClock c⟩
  | .busy c =>
    some ⟨.push ⟨c.vip, none, c.vip, busyMessage c.peer c.msg, choice⟩,
      fun _ => .ended (some .peerBusy)⟩
  | .startClock c => some ⟨.clock, fun now => .start c now⟩
  | .start c now =>
    some ⟨.start now c.vip c.peer c.msg.attemptID (clampPunchWindowMs c.msg.windowMs),
      afterStart c⟩
  | .invite c a =>
    some ⟨.push ⟨c.vip, some a.serial, c.peer, inviteMessage a c.vip c.msg, choice⟩,
      fun delivered => if delivered then .ended none else .rollback a.id⟩
  | .rollback id => some ⟨.drop id, fun _ => .ended (some .peerNotReady)⟩
  | .ready c =>
    match checkReady true c.vip c.msg with
    | .error e => some ⟨.ask choice, fun _ => .ended (some (.request e))⟩
    | .ok () => some ⟨.ask choice, fun _ => .readyClock c⟩
  | .readyClock c => some ⟨.clock, fun now => .markReady c now⟩
  | .markReady c now => some ⟨.markReady now c, afterReady c⟩
  | .notify c a =>
    some ⟨.push ⟨c.vip, some a.serial, c.peer, peerMessage a c.vip c.msg, choice⟩,
      fun _ => .ended none⟩
  | .disconnect vip => some ⟨.dropByVIP vip, fun _ => .ended none⟩
  | .tick => some ⟨.clock, fun now => .cleanup now⟩
  | .cleanup now => some ⟨.cleanup now, fun _ => .ended none⟩
  | .ended _ => none

abbrev PunchConfig := Config Nat Shared PC

def spawnable (_ : PunchConfig) (_ : Nat) : PC → Bool
  | .intent _ | .ready _ | .disconnect _ | .tick => true
  | _ => false

def environment (s : Shared) (elapsed : Time) : Option Shared :=
  some { s with clock := s.clock + elapsed }

def system : System Nat Shared PC Bool Time PunchOp where
  exec := fun t s op => exec t s op
  control := fun _ pc choice => control choice pc
  spawnable := spawnable
  environment := environment

abbrev PunchAction := Action Nat PC Bool Time

def initial : PunchConfig := ⟨⟨0, .empty, [], [], []⟩, ∅⟩

/-! ## What a step does -/

section

variable (t : Nat) (s : Shared)

inductive Moved : PC → Shared → PC → Prop
  | refused : Moved (.intent c) s (.ended (some e))
  | intent : Moved (.intent c) s (.countClock c)
  | countClock : Moved (.countClock c) s (.count c s.clock)
  | full : Moved (.count c now) s (.busy c)
  | room {c : Caller} {now : Time}
      (hroom : s.table.activeResponderCount now c.peer < relayMaxResponderInvites) :
      Moved (.count c now) s (.startClock c)
  | busy (hpush : p.message.type ≠ .punchPeer) :
      Moved (.busy c) { s with pushes := s.pushes ++ [p] } (.ended (some .peerBusy))
  | startClock : Moved (.startClock c) s (.start c s.clock)
  | failed {c : Caller} {now : Time} {table : PunchTable} {e : StartError}
      (hstart : s.table.start now c.vip c.peer c.msg.attemptID
        (clampPunchWindowMs c.msg.windowMs) = (table, .error e)) :
      Moved (.start c now) { s with table := table } (.ended (some (.start e)))
  | existing
      (hstart : s.table.start now c.vip c.peer c.msg.attemptID
        (clampPunchWindowMs c.msg.windowMs) = (table, .ok (a, true))) :
      Moved (.start c now) { s with table := table } (.invite c a)
  | created {c : Caller} {now : Time} {table : PunchTable} {a : PunchAttempt}
      (hstart : s.table.start now c.vip c.peer c.msg.attemptID
        (clampPunchWindowMs c.msg.windowMs) = (table, .ok (a, false))) :
      Moved (.start c now) { s with table := table, records := s.records ++ [a] }
        (.invite c a)
  | invited
      (hpush : p.message.type ≠ .punchPeer) (hnext : pc = .ended none ∨ pc = .rollback a.id) :
      Moved (.invite c a) { s with pushes := s.pushes ++ [p] } pc
  | rollback {id : List Char} :
      Moved (.rollback id) { s with table := s.table.drop id } (.ended (some .peerNotReady))
  | refusedReady : Moved (.ready c) s (.ended (some e))
  | ready : Moved (.ready c) s (.readyClock c)
  | readyClock : Moved (.readyClock c) s (.markReady c s.clock)
  | unknown {c : Caller} {now : Time} {table : PunchTable}
      (hready : s.table.markReady now c.msg.attemptID c.peer c.vip = (table, none)) :
      Moved (.markReady c now) { s with table := table } (.ended (some .unknownAttempt))
  | accepted {c : Caller} {now : Time} {table : PunchTable} {a : PunchAttempt} {first : Bool}
      (hready : s.table.markReady now c.msg.attemptID c.peer c.vip = (table, some (a, first))) :
      Moved (.markReady c now)
        { s with table := table, accepted := s.accepted ++ [⟨a.serial, t, c⟩] }
        (if first then .notify c a else .ended none)
  | notify : Moved (.notify c a)
        { s with pushes := s.pushes ++
            [⟨c.vip, some a.serial, c.peer, peerMessage a c.vip c.msg, delivered⟩] }
        (.ended none)
  | disconnect : Moved (.disconnect vip) { s with table := s.table.dropByVIP vip } (.ended none)
  | tick : Moved .tick s (.cleanup s.clock)
  | cleanup : Moved (.cleanup now) { s with table := s.table.cleanup now } (.ended none)

end

variable {c : Caller}

theorem moved_start
    (hexec : exec t s (.start now c.vip c.peer c.msg.attemptID
      (clampPunchWindowMs c.msg.windowMs)) = some (s', answer)) :
    Moved t s (.start c now) s' (afterStart c answer) := by
  simp only [exec] at hexec
  split at hexec <;> cases hexec
  next table a hstart =>
    exact .created hstart
  next table answer' hnew hstart =>
    cases answer with
    | error e => exact .failed hstart
    | ok found =>
      obtain ⟨a, existing⟩ := found
      cases existing with
      | false => exact (hnew a rfl).elim
      | true => exact .existing hstart

theorem moved_markReady (hexec : exec t s (.markReady now c) = some (s', answer)) :
    Moved t s (.markReady c now) s' (afterReady c answer) := by
  simp only [exec] at hexec
  split at hexec <;> cases hexec
  next table hready =>
    exact .unknown hready
  next table a first hready =>
    have hmoved := Moved.accepted (t := t) hready
    cases first <;> exact hmoved

/-- A step of a handler is one of the moves above. -/
theorem moved_of_exec (hcontrol : control choice pc = some request)
    (hexec : exec t s request.op = some (s', result)) :
    Moved t s pc s' (request.resume result) := by
  cases pc with
  | intent c =>
    simp only [control] at hcontrol
    split at hcontrol <;> cases hcontrol
    · cases hexec
      exact .refused
    · cases hexec
      dsimp only
      split
      · exact .intent
      · exact .refused
  | countClock c =>
    cases hcontrol
    cases hexec
    exact .countClock
  | count c now =>
    cases hcontrol
    cases hexec
    dsimp only
    split
    next => exact .full
    next hroom => exact .room (Nat.not_le.1 hroom)
  | busy c =>
    cases hcontrol
    cases hexec
    exact .busy nofun
  | startClock c =>
    cases hcontrol
    cases hexec
    exact .startClock
  | start c now =>
    cases hcontrol
    exact moved_start hexec
  | invite c a =>
    cases hcontrol
    cases hexec
    dsimp only
    split
    · exact .invited nofun (.inl rfl)
    · exact .invited nofun (.inr rfl)
  | rollback id =>
    cases hcontrol
    cases hexec
    exact .rollback
  | ready c =>
    simp only [control] at hcontrol
    split at hcontrol <;> cases hcontrol
    · cases hexec
      exact .refusedReady
    · cases hexec
      exact .ready
  | readyClock c =>
    cases hcontrol
    cases hexec
    exact .readyClock
  | markReady c now =>
    cases hcontrol
    exact moved_markReady hexec
  | notify c a =>
    cases hcontrol
    cases hexec
    exact .notify
  | disconnect vip =>
    cases hcontrol
    cases hexec
    exact .disconnect
  | tick =>
    cases hcontrol
    cases hexec
    exact .tick
  | cleanup now =>
    cases hcontrol
    cases hexec
    exact .cleanup
  | ended error => cases hcontrol

theorem next_moved (hnext : system.next cfg (.step t choice) = some cfg') :
    ∃ pc s' pc', cfg.threads.lookup t = some pc ∧ Moved t cfg.shared pc s' pc' ∧
      cfg' = { shared := s', threads := cfg.threads.insert t pc' } := by
  obtain ⟨pc, request, s', result, hpc, hcontrol, hexec, rfl⟩ := next_step.1 hnext
  exact ⟨pc, s', request.resume result, hpc, moved_of_exec hcontrol hexec, rfl⟩

theorem punch_outline (hspawn : ∀ t pc s, spawnable ⟨s, ∅⟩ t pc = true → assertion t pc s)
    (hstep : ∀ cfg t pc s' pc', Outline invariant assertion cfg →
      cfg.threads.lookup t = some pc → Moved t cfg.shared pc s' pc' →
      invariant s' ∧ assertion t pc' s' ∧
        ∀ other pc'', other ≠ t → cfg.threads.lookup other = some pc'' → assertion other pc'' s')
    (helapse : ∀ cfg elapsed, Outline invariant assertion cfg →
      Outline invariant assertion
        { cfg with shared := { cfg.shared with clock := cfg.shared.clock + elapsed } })
    (cfg : PunchConfig) (action : PunchAction) (cfg' : PunchConfig)
    (hcfg : Outline invariant assertion cfg) (hnext : system.next cfg action = some cfg') :
    Outline invariant assertion cfg' := by
  let always : PunchConfig → PunchAction → Prop := fun _ _ => True
  have halways : always cfg action := trivial
  refine next_outline ?_ ?_ ?_ cfg action cfg' hcfg halways hnext
  · intro cfg t pc _ _ hspawnable
    exact hspawn t pc cfg.shared hspawnable
  · intro cfg t choice pc request s' result hcfg _ hpc hcontrol hexec
    exact hstep cfg t pc s' (request.resume result) hcfg hpc (moved_of_exec hcontrol hexec)
  · intro cfg elapsed s' hcfg _ henv
    cases henv
    have h := helapse cfg elapsed hcfg
    exact ⟨h.shared, h.thread⟩

/-! ## The table under all threads -/

inductive Touched (s : Shared) : PC → PunchTable → Prop
  | quiet
      (hquiet : PunchTable.Quiet now s.table table) : Touched s pc table
  | created {c : Caller} {now : Time}
      (hrefusal : (s.table.drop c.msg.attemptID).refusal now c.vip c.peer = none) :
      Touched s (.start c now) ((s.table.drop c.msg.attemptID).create now c.vip c.peer
        c.msg.attemptID (clampPunchWindowMs c.msg.windowMs))

theorem touched_start
    (hstart : s.table.start now c.vip c.peer c.msg.attemptID
      (clampPunchWindowMs c.msg.windowMs) = (table, answer)) : Touched s (.start c now) table := by
  have hcalled := s.table.called now (.start c.vip c.peer c.msg.attemptID
    (clampPunchWindowMs c.msg.windowMs))
  simp only [PunchTable.call, hstart] at hcalled
  cases hcalled with
  | quiet hquiet => exact .quiet hquiet
  | created hfree hrefusal => exact .created hrefusal

theorem touched_markReady
    (hready : s.table.markReady now c.msg.attemptID c.peer c.vip = (table, answer)) :
    Touched s pc table := by
  have hquiet : PunchTable.Quiet now s.table
      (s.table.markReady now c.msg.attemptID c.peer c.vip).1 := PunchTable.quiet_markReady
  rw [hready] at hquiet
  exact .quiet hquiet

theorem Moved.touched (h : Moved t s pc s' pc') : Touched s pc s'.table := by
  cases h with
  | failed hstart | existing hstart | created hstart => exact touched_start hstart
  | unknown hready | accepted hready => exact touched_markReady hready
  | rollback => exact .quiet (@PunchTable.quiet_drop s.table s.clock _)
  | disconnect => exact .quiet (@PunchTable.quiet_dropByVIP s.table s.clock _)
  | cleanup => exact .quiet PunchTable.quiet_cleanup
  | _ => exact .quiet (.refl s.clock s.table)

/-! ## A handler by itself

When nobody else moves, a thread does what the handler does as one call. -/

def Shared.delivered (s : Shared) : List (List Char × PushMessage) :=
  (s.pushes.filter (·.delivered)).map fun p => (p.target, p.message)

/-- What the surroundings of the call answer at a program point. -/
def answer (env : Surroundings) : PC → Bool
  | .intent c => env.online c.peer
  | .busy c => env.pushSignal c.vip (busyMessage c.peer c.msg)
  | .invite c a => env.pushSignal c.peer (inviteMessage a c.vip c.msg)
  | .notify c a => env.pushSignal c.peer (peerMessage a c.vip c.msg)
  | _ => true

/-- Only the thread `t` moves, and it is answered by `env`. -/
def Solo (env : Surroundings) (t : Nat) (cfg : PunchConfig) (action : PunchAction) : Prop :=
  ∃ pc, cfg.threads.lookup t = some pc ∧ action = .step t (answer env pc)

def replyOf (env : Surroundings) (c : Caller) : Option PunchError → PunchReply
  | some e => .refused e
  | none => .answered (env.signalReply c.msg)

/-- A thread at `pc` comes to its end with the table, the frames and the answer
of `last`. -/
inductive Ends (env : Surroundings) (t : Nat) (c : Caller) (last : PunchOutcome) :
    Shared → PC → Prop
  | ended (htable : s.table = last.table) (hpushed : s.delivered = last.pushed)
      (hreply : replyOf env c error = last.reply) : Ends env t c last s (.ended error)
  | step (hcontrol : control (answer env pc) pc = some request)
      (hexec : exec t s request.op = some (s', result))
      (hrest : Ends env t c last s' (request.resume result)) : Ends env t c last s pc

theorem Ends.run (h : Ends env t c last s pc) (cfg : PunchConfig) (hs : cfg.shared = s)
    (hpc : cfg.threads.lookup t = some pc) :
    ∃ actions cfg' error, run system.next cfg actions = some cfg' ∧
      Along system.next (Solo env t) cfg actions ∧ cfg'.threads.lookup t = some (.ended error) ∧
      cfg'.shared.table = last.table ∧ cfg'.shared.delivered = last.pushed ∧
      replyOf env c error = last.reply := by
  induction h generalizing cfg with
  | ended htable hpushed hreply =>
    subst hs
    exact ⟨[], cfg, _, rfl, trivial, hpc, htable, hpushed, hreply⟩
  | @step pc request s s' result hcontrol hexec hrest ih =>
    have hnext : system.next cfg (.step t (answer env pc)) = some
        { shared := s', threads := cfg.threads.insert t (request.resume result) } :=
      next_step.2 ⟨pc, request, s', result, hpc, hcontrol, hs ▸ hexec, rfl⟩
    obtain ⟨actions, cfg', error, hrun, hsolo, hend⟩ :=
      ih ⟨s', _⟩ rfl (Finmap.lookup_insert cfg.threads)
    refine ⟨_ :: actions, cfg', error, run_cons_eq_some.2 ⟨_, hnext, hrun⟩,
      ⟨⟨pc, hpc, rfl⟩, fun next h => ?_⟩, hend⟩
    cases hnext.symm.trans h
    exact hsolo

theorem delivered_append (s : Shared) (p : Push) :
    { s with pushes := s.pushes ++ [p] }.delivered =
      s.delivered ++ if p.delivered then [(p.target, p.message)] else [] := by
  cases h : p.delivered <;> simp [Shared.delivered, h]

/-- The outcome of a call that begins in `s`, with all frames delivered so far. -/
def since (s : Shared) (outcome : PunchOutcome) : PunchOutcome :=
  { outcome with pushed := s.delivered ++ outcome.pushed }

theorem invite_ends (env : Surroundings) (t : Nat) (s : Shared) (c : Caller)
    (a : PunchAttempt) :
    Ends env t c (since s
      (if env.pushSignal c.peer (inviteMessage a c.vip c.msg) then
        ⟨s.table, [(c.peer, inviteMessage a c.vip c.msg)], .answered (env.signalReply c.msg)⟩
      else ⟨s.table.drop a.id, [], .refused .peerNotReady⟩)) s (.invite c a) := by
  refine .step rfl rfl ?_
  cases hpush : env.pushSignal c.peer (inviteMessage a c.vip c.msg) with
  | true =>
    simp only [answer, hpush]
    exact .ended rfl (delivered_append s _) rfl
  | false =>
    simp only [answer, hpush]
    exact .step rfl rfl (.ended rfl (delivered_append s _) rfl)

theorem start_ends (s : Shared) (c : Caller)
    (hstart : s.table.start s.clock c.vip c.peer c.msg.attemptID
      (clampPunchWindowMs c.msg.windowMs) = (table, result))
    (hrest : ∀ s', s'.table = table → s'.delivered = s.delivered →
      Ends env t c last s' (afterStart c result)) :
    Ends env t c last s (.startClock c) := by
  refine .step rfl rfl ?_
  have hexec : ∃ s', exec t s (.start s.clock c.vip c.peer c.msg.attemptID
        (clampPunchWindowMs c.msg.windowMs)) = some (s', result) ∧
      s'.table = table ∧ s'.delivered = s.delivered := by
    simp only [exec, hstart]
    rcases result with e | ⟨a, _ | _⟩ <;> exact ⟨_, rfl, rfl, rfl⟩
  obtain ⟨s', hexec, htable, hpushed⟩ := hexec
  exact .step rfl hexec (hrest s' htable hpushed)

/-- By itself, the thread of a `punch-intent` does what the handler does. -/
theorem intent_ends (env : Surroundings) (t : Nat) (s : Shared) (c : Caller)
    (hon : env.p2pOn = true) :
    Ends env t c (since s (env.handlePunchIntent s.table s.clock c.vip c.msg)) s (.intent c) := by
  unfold Surroundings.handlePunchIntent
  rw [hon]
  cases hcheck : checkIntent true c.vip c.msg with
  | error e =>
    have hcontrol : control (answer env (.intent c)) (.intent c) =
        some ⟨.ask (answer env (.intent c)), fun _ => .ended (some (.request e))⟩ := by
      simp [control, hcheck]
    exact .step hcontrol rfl (.ended rfl (List.append_nil _).symm rfl)
  | ok _ =>
    have hcontrol : control (answer env (.intent c)) (.intent c) =
        some ⟨.ask (answer env (.intent c)), fun online =>
          if online then .countClock c else .ended (some .peerUnreachable)⟩ := by
      simp [control, hcheck]
    refine .step hcontrol rfl ?_
    dsimp only [answer, Caller.peer]
    cases env.online (trimSpace c.msg.peerVIP) with
    | false => exact .ended rfl (List.append_nil _).symm rfl
    | true =>
      refine .step rfl rfl (.step rfl rfl ?_)
      dsimp only [Caller.peer]
      simp only [Bool.not_true, Bool.false_eq_true, if_false]
      split
      next => exact .step rfl rfl (.ended rfl (delivered_append s _) rfl)
      next =>
        split
        next table e hstart =>
          refine start_ends s c hstart fun s' htable hpushed => ?_
          exact .ended htable (hpushed.trans (List.append_nil _).symm) rfl
        next table a existing hstart =>
          refine start_ends s c hstart fun s' htable hpushed => ?_
          have hends := invite_ends env t s' c a
          rwa [since, htable, hpushed] at hends

theorem ready_ends (env : Surroundings) (t : Nat) (s : Shared) (c : Caller)
    (hon : env.p2pOn = true) :
    Ends env t c (since s (env.handlePunchReady s.table s.clock c.vip c.msg)) s (.ready c) := by
  unfold Surroundings.handlePunchReady
  rw [hon]
  cases hcheck : checkReady true c.vip c.msg with
  | error e =>
    have hcontrol : control (answer env (.ready c)) (.ready c) =
        some ⟨.ask (answer env (.ready c)), fun _ => .ended (some (.request e))⟩ := by
      simp [control, hcheck]
    exact .step hcontrol rfl (.ended rfl (List.append_nil _).symm rfl)
  | ok _ =>
    have hcontrol : control (answer env (.ready c)) (.ready c) =
        some ⟨.ask (answer env (.ready c)), fun _ => .readyClock c⟩ := by
      simp [control, hcheck]
    refine .step hcontrol rfl (.step rfl rfl ?_)
    dsimp only
    split
    next table hready =>
      have hexec : exec t s (.markReady s.clock c) = some ({ s with table := table }, none) := by
        simp only [exec, Caller.peer, hready]
      exact .step rfl hexec (.ended rfl (List.append_nil _).symm rfl)
    next table a first hready =>
      have hexec : exec t s (.markReady s.clock c) = some
          ({ s with table := table, accepted := s.accepted ++ [⟨a.serial, t, c⟩] },
            some (a, first)) := by
        simp only [exec, Caller.peer, hready]
      refine .step rfl hexec ?_
      cases first with
      | true => exact .step rfl rfl (.ended rfl (delivered_append s _) rfl)
      | false => exact .ended rfl (List.append_nil _).symm rfl

/-- Each handler as one call and as a thread: from any configuration the thread
of a request, running alone and answered by `env`, ends with the table and the
answer of the call, and sinks have taken the frames of the call. -/
theorem handlers_refined (env : Surroundings) (cfg : PunchConfig) (t : Nat) (c : Caller)
    (hon : env.p2pOn = true) (pc : PC) (outcome : PunchOutcome)
    (hcall : pc = .intent c ∧
        outcome = env.handlePunchIntent cfg.shared.table cfg.shared.clock c.vip c.msg ∨
      pc = .ready c ∧ outcome = env.handlePunchReady cfg.shared.table cfg.shared.clock c.vip c.msg)
    (hpc : cfg.threads.lookup t = some pc) :
    ∃ actions cfg' error, run system.next cfg actions = some cfg' ∧
      Along system.next (Solo env t) cfg actions ∧ cfg'.threads.lookup t = some (.ended error) ∧
      cfg'.shared.table = outcome.table ∧
      cfg'.shared.delivered = cfg.shared.delivered ++ outcome.pushed ∧
      replyOf env c error = outcome.reply := by
  have hends : Ends env t c (since cfg.shared outcome) cfg.shared pc := by
    rcases hcall with ⟨rfl, rfl⟩ | ⟨rfl, rfl⟩
    · exact intent_ends env t cfg.shared c hon
    · exact ready_ends env t cfg.shared c hon
  exact hends.run cfg rfl hpc

def readyForAlice (punchAddr : String) : PunchMessage :=
  { intentToBob "0123456789abcdef" with
    peerVIP := aliceText
    punchAddr := punchAddr.toList
    punchAddrs := [punchAddr.toList] }

/-- bob has alice's invitation; carol invites him too, and he answers alice. -/
def bobInvited : PunchConfig where
  shared := { initial.shared with table := .after aliceInvitesBob }
  threads := (Finmap.singleton 0 (.intent ⟨carolText, intentToBob "fedcba9876543210"⟩)).insert 1
    (.ready ⟨bobText, readyForAlice "203.0.113.8:4000"⟩)

theorem handlers_refined_bob :
    (∃ actions cfg', run system.next bobInvited actions = some cfg' ∧
      Along system.next (Solo everybodyOnline 0) bobInvited actions ∧
      cfg'.shared.delivered.map (fun p => (p.1, p.2.type)) = [(bobText, .punchInvite)]) ∧
    ∃ actions cfg', run system.next bobInvited actions = some cfg' ∧
      Along system.next (Solo everybodyOnline 1) bobInvited actions ∧
      cfg'.shared.delivered.map (fun p => (p.1, p.2.type)) = [(aliceText, .punchPeer)] := by
  constructor
  · obtain ⟨actions, cfg', error, hrun, hsolo, -, -, hpushed, -⟩ := handlers_refined
      everybodyOnline bobInvited 0 _ rfl _ _ (.inl ⟨rfl, rfl⟩) rfl
    exact ⟨actions, cfg', hrun, hsolo, by rw [hpushed]; decide +kernel⟩
  · obtain ⟨actions, cfg', error, hrun, hsolo, -, -, hpushed, -⟩ := handlers_refined
      everybodyOnline bobInvited 1 _ rfl _ _ (.inr ⟨rfl, rfl⟩) rfl
    exact ⟨actions, cfg', hrun, hsolo, by rw [hpushed]; decide +kernel⟩

end Hy2Link.Server.Punch
