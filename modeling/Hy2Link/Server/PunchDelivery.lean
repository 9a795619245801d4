import Hy2Link.Server.PunchThreads

/-! # The delivery of `punch-peer`

`markReady` tells the first ready of a record apart in one section of the lock,
and the push follows outside it, when the record may be gone and its id in use
again.  The records are told apart by their serials, and the history of the
accepted readies says which thread was the first for a record.
-/

namespace Hy2Link.Server.Punch

open Interleaving PunchTable List

def Shared.firstReady (s : Shared) (record : Nat) : Option Accepted :=
  s.accepted.find? fun r => r.record = record

def Shared.peerPushes (s : Shared) : List Push :=
  s.pushes.filter fun p => p.message.type = .punchPeer

/-- The push is about the record `a`: it goes to its initiator on behalf of its
responder, with what the first accepted ready said. -/
structure Answers (s : Shared) (p : Push) (a : PunchAttempt) : Prop where
  record : p.record = some a.serial
  id : p.message.attemptID = a.id
  target : p.target = a.initiator
  sender : p.sender = a.responder
  first : ∃ r, s.firstReady a.serial = some r ∧ r.caller.vip = a.responder ∧
    p.message.punchAddr = r.caller.msg.punchAddr ∧
    p.message.punchAddrs = r.caller.msg.punchAddrs

structure Traced (s : Shared) : Prop where
  sound : s.table.Sound
  stored : ∀ id a, s.table.attempts.lookup id = some a →
    ∃ made ∈ s.records, PunchTable.Inherits a made
  made : ∀ a ∈ s.records, a.serial < s.table.allocated
  distinct : s.records.Pairwise fun a b => a.serial ≠ b.serial
  unanswered : ∀ id a, s.table.attempts.lookup id = some a → a.peerPushed = false →
    s.firstReady a.serial = none
  known : ∀ r ∈ s.accepted, r.record < s.table.allocated
  answers : ∀ p ∈ s.peerPushes, ∃ a ∈ s.records, Answers s p a
  once : s.peerPushes.Pairwise fun p q => p.record ≠ q.record

/-- A handler that is about to push has the first ready of the record in hand,
and nothing has been pushed for the record yet. -/
def Notifies (t : Nat) (pc : PC) (s : Shared) : Prop :=
  ∀ c a, pc = .notify c a →
    (∃ made ∈ s.records, PunchTable.Inherits a made) ∧ a.initiator = c.peer ∧
      a.responder = c.vip ∧ s.firstReady a.serial = some ⟨a.serial, t, c⟩ ∧
      ∀ p ∈ s.peerPushes, p.record ≠ some a.serial

/-! ## What grows -/

variable {s s' : Shared} {cfg : PunchConfig}

theorem firstReady_append (h : s.firstReady record = some r) :
    (s.accepted ++ more).find? (fun r => r.record = record) = some r := by
  rw [find?_append]
  rw [Shared.firstReady] at h
  rw [h]
  rfl

structure Extends (s s' : Shared) : Prop where
  records : ∀ a ∈ s.records, a ∈ s'.records
  firstReady : ∀ record r, s.firstReady record = some r → s'.firstReady record = some r

theorem Extends.of_eq (hrecords : s'.records = s.records) (haccepted : s'.accepted = s.accepted) :
    Extends s s' := by
  refine ⟨fun a ha => hrecords ▸ ha, fun record r hr => ?_⟩
  rwa [Shared.firstReady, haccepted]

theorem Answers.mono (h : Answers s p a) (hext : Extends s s') : Answers s' p a := by
  obtain ⟨r, hr, hrest⟩ := h.first
  exact ⟨h.record, h.id, h.target, h.sender, r, hext.firstReady _ r hr, hrest⟩

theorem Traced.answers_mono (h : Traced s) (hext : Extends s s') :
    ∀ p ∈ s.peerPushes, ∃ a ∈ s'.records, Answers s' p a := by
  intro p hp
  obtain ⟨a, ha, hanswers⟩ := h.answers p hp
  exact ⟨a, hext.records a ha, hanswers.mono hext⟩

/-- A thread that does not move keeps its assertion, unless someone else pushes
for its record. -/
theorem Notifies.mono (h : Notifies t pc s) (hext : Extends s s')
    (hpushes : ∀ c a, pc = .notify c a → ∀ p ∈ s'.peerPushes, p ∉ s.peerPushes →
      p.record ≠ some a.serial) : Notifies t pc s' := by
  intro c a hpc
  obtain ⟨⟨made, hmade, hinherits⟩, hinitiator, hresponder, hfirst, hnone⟩ := h c a hpc
  refine ⟨⟨made, hext.records made hmade, hinherits⟩, hinitiator, hresponder,
    hext.firstReady _ _ hfirst, fun p hp => ?_⟩
  by_cases hold : p ∈ s.peerPushes
  · exact hnone p hold
  · exact hpushes c a hpc p hp hold

/-! ## One step -/

theorem Traced.quiet (h : Traced s) (hquiet : PunchTable.Quiet now s.table table) :
    Traced { s with table := table } where
  sound := h.sound.quiet hquiet
  stored := fun id a ha => by
    obtain ⟨old, hold, hinherits⟩ := hquiet.attempts id a ha
    obtain ⟨made, hmade, hinherits'⟩ := h.stored id old hold
    exact ⟨made, hmade, hinherits.trans hinherits'⟩
  made := fun a ha => hquiet.allocated ▸ h.made a ha
  distinct := h.distinct
  unanswered := fun id a ha hpushed => by
    obtain ⟨old, hold, hinherits⟩ := hquiet.attempts id a ha
    have hfresh : old.peerPushed = false := by
      rw [Bool.eq_false_iff]
      intro hold
      simp [hinherits.pushed hold] at hpushed
    exact hinherits.serial ▸ h.unanswered id old hold hfresh
  known := fun r hr => hquiet.allocated ▸ h.known r hr
  answers := h.answers_mono (.of_eq rfl rfl)
  once := h.once

theorem Traced.created {initiator responder id : List Char} (h : Traced s)
    (hstart : s.table.start now initiator responder id windowMs = (table, .ok (a, false))) :
    Traced { s with table := table, records := s.records ++ [a] } := by
  obtain ⟨rfl, hrefusal, rfl⟩ := start_eq_created hstart
  have hunknown : s.firstReady s.table.allocated = none := by
    rw [Shared.firstReady, find?_eq_none]
    intro r hr
    simpa using (h.known r hr).ne
  refine ⟨?_, ?_, ?_, ?_, ?_, ?_, ?_, h.once⟩
  · exact (h.sound.quiet (@PunchTable.quiet_drop s.table now _)).create hrefusal
  · intro id' a ha
    rcases lookup_insert_eq_some.1 ha with ⟨rfl, rfl⟩ | ⟨-, hold⟩
    · exact ⟨_, mem_append_right _ (mem_singleton_self _), .refl _⟩
    · obtain ⟨made, hmade, hinherits⟩ := h.stored id' a (lookup_drop.1 hold).2
      exact ⟨made, mem_append_left _ hmade, hinherits⟩
  · intro a ha
    rcases mem_append.1 ha with ha | ha
    · exact (h.made a ha).trans (Nat.lt_succ_self _)
    · rw [mem_singleton.1 ha]
      exact Nat.lt_succ_self _
  · refine pairwise_append.2 ⟨h.distinct, pairwise_singleton _ _, ?_⟩
    intro a ha b hb
    rw [mem_singleton.1 hb]
    exact (h.made a ha).ne
  · intro id' a ha hpushed
    rcases lookup_insert_eq_some.1 ha with ⟨rfl, rfl⟩ | ⟨-, hold⟩
    · exact hunknown
    · exact h.unanswered id' a (lookup_drop.1 hold).2 hpushed
  · exact fun r hr => (h.known r hr).trans (Nat.lt_succ_self _)
  · exact h.answers_mono ⟨fun a ha => mem_append_left _ ha, fun _ _ hr => hr⟩

theorem extends_accepted : Extends s { s with table := table, accepted := s.accepted ++ [r] } :=
  ⟨fun _ ha => ha, fun _ _ hr => firstReady_append hr⟩

theorem Traced.accepted (h : Traced s)
    (hready : s.table.markReady now c.msg.attemptID c.peer c.vip = (table, some (a, first))) :
    Traced { s with table := table, accepted := s.accepted ++ [⟨a.serial, t, c⟩] } := by
  have hquiet : PunchTable.Quiet now s.table table := by
    have hmark := @PunchTable.quiet_markReady s.table now c.peer c.vip c.msg.attemptID
    rwa [hready] at hmark
  have htraced := h.quiet hquiet
  obtain ⟨old, hold, -, -, rfl, -, rfl⟩ := markReady_eq_some hready
  refine ⟨htraced.sound, htraced.stored, htraced.made, h.distinct, ?_, ?_, ?_, h.once⟩
  · intro id b hb hpushed
    have hnone := htraced.unanswered id b hb hpushed
    rcases lookup_insert_eq_some.1 hb with ⟨rfl, rfl⟩ | ⟨hne, hb⟩
    · cases hpushed
    · have hserial : old.serial ≠ b.serial := fun heq =>
        hne (h.sound.serial_inj id b _ old hb hold heq.symm)
      rw [Shared.firstReady] at hnone ⊢
      rw [find?_append, hnone]
      simpa using hserial
  · intro r hr
    rcases mem_append.1 hr with hr | hr
    · exact h.known r hr
    · rw [mem_singleton.1 hr]
      exact h.sound.serial_lt _ old hold
  · exact h.answers_mono extends_accepted

theorem notifies_of_first (h : Traced s)
    (hready : s.table.markReady now c.msg.attemptID c.peer c.vip = (table, some (a, true))) :
    Notifies t (.notify c a)
      { s with table := table, accepted := s.accepted ++ [⟨a.serial, t, c⟩] } := by
  obtain ⟨old, hold, hinitiator, hresponder, rfl, hfirst, rfl⟩ :=
    markReady_eq_some hready
  have hfresh : old.peerPushed = false := by simpa using hfirst.symm
  have hnone : s.firstReady old.serial = none := h.unanswered _ old hold hfresh
  obtain ⟨made, hmade, hinherits⟩ := h.stored _ old hold
  intro c' a' hpc
  cases hpc
  refine ⟨⟨made, hmade, ?_⟩, hinitiator, hresponder, ?_, ?_⟩
  · exact ⟨hinherits.serial, hinherits.id, hinherits.initiator, hinherits.responder,
      hinherits.windowMs, hinherits.createdAt, fun _ => rfl⟩
  · rw [Shared.firstReady] at hnone ⊢
    rw [find?_append, hnone]
    simp
  · intro p hp hrecord
    obtain ⟨b, -, hanswers⟩ := h.answers p hp
    obtain ⟨r, hr, -⟩ := hanswers.first
    rw [hanswers.record] at hrecord
    simp [Option.some.inj hrecord, hnone] at hr

theorem peerPushes_append_of_ne (hp : p.message.type ≠ .punchPeer) :
    Shared.peerPushes { s with pushes := s.pushes ++ [p] } = s.peerPushes := by
  simp [Shared.peerPushes, hp]

theorem Traced.pushed (h : Traced s) (hp : p.message.type ≠ .punchPeer) :
    Traced { s with pushes := s.pushes ++ [p] } where
  sound := h.sound
  stored := h.stored
  made := h.made
  distinct := h.distinct
  unanswered := h.unanswered
  known := h.known
  answers := by
    rw [peerPushes_append_of_ne hp]
    exact h.answers_mono (.of_eq rfl rfl)
  once := by
    rw [peerPushes_append_of_ne hp]
    exact h.once

theorem peerPushes_append (hp : p.message.type = .punchPeer) :
    Shared.peerPushes { s with pushes := s.pushes ++ [p] } = s.peerPushes ++ [p] := by
  simp [Shared.peerPushes, hp]

theorem Traced.notified (h : Traced s) (hnotifies : Notifies t (.notify c a) s) :
    Traced { s with pushes := s.pushes ++
      [⟨c.vip, some a.serial, c.peer, peerMessage a c.vip c.msg, delivered⟩] } := by
  obtain ⟨⟨made, hmade, hinherits⟩, hinitiator, hresponder, hfirst, hnone⟩ :=
    hnotifies c a rfl
  refine ⟨h.sound, h.stored, h.made, h.distinct, h.unanswered, h.known, ?_, ?_⟩
  · intro q hq
    rw [peerPushes_append rfl] at hq
    rcases mem_append.1 hq with hq | hq
    · obtain ⟨b, hb, hanswers⟩ := h.answers q hq
      exact ⟨b, hb, hanswers.mono (.of_eq rfl rfl)⟩
    · rw [mem_singleton.1 hq]
      refine ⟨made, hmade, ?_, hinherits.id, ?_, ?_, ⟨a.serial, t, c⟩, ?_, ?_, rfl, rfl⟩
      · rw [hinherits.serial]
      · rw [← hinherits.initiator, hinitiator]
      · rw [← hinherits.responder, hresponder]
      · rw [← hinherits.serial]
        exact hfirst
      · rw [← hinherits.responder, hresponder]
  · rw [peerPushes_append rfl]
    refine pairwise_append.2 ⟨h.once, pairwise_singleton _ _, ?_⟩
    intro q hq q' hq'
    rw [mem_singleton.1 hq']
    exact hnone q hq

section

variable (hcfg : Outline Traced Notifies cfg)
include hcfg

theorem traced_of_quiet
    (hquiet : PunchTable.Quiet now cfg.shared.table table) (hpc' : ∀ c a, pc' ≠ .notify c a) :
    Traced { cfg.shared with table := table } ∧
      Notifies t pc' { cfg.shared with table := table } ∧
      ∀ other pc, other ≠ t → cfg.threads.lookup other = some pc →
        Notifies other pc { cfg.shared with table := table } := by
  refine ⟨hcfg.shared.quiet hquiet, fun c a heq => absurd heq (hpc' c a), ?_⟩
  intro other pc _ hpc
  exact (hcfg.thread other pc hpc).mono (.of_eq rfl rfl) fun _ _ _ p hp hnew => absurd hp hnew

theorem traced_of_push (hp : p.message.type ≠ .punchPeer)
    (hpc' : ∀ c a, pc' ≠ .notify c a) :
    Traced { cfg.shared with pushes := cfg.shared.pushes ++ [p] } ∧
      Notifies t pc' { cfg.shared with pushes := cfg.shared.pushes ++ [p] } ∧
      ∀ other pc, other ≠ t → cfg.threads.lookup other = some pc →
        Notifies other pc { cfg.shared with pushes := cfg.shared.pushes ++ [p] } := by
  refine ⟨hcfg.shared.pushed hp, fun c a heq => absurd heq (hpc' c a), ?_⟩
  intro other pc _ hpc
  refine (hcfg.thread other pc hpc).mono (.of_eq rfl rfl) fun _ _ _ q hq hnew => ?_
  rw [peerPushes_append_of_ne hp] at hq
  exact absurd hq hnew

/-- Only one thread pushes for a record: the one whose ready was the first. -/
theorem traced_of_notify
    (hpc : cfg.threads.lookup t = some (.notify c a))
    (hs' : s' = { cfg.shared with pushes := cfg.shared.pushes ++
      [⟨c.vip, some a.serial, c.peer, peerMessage a c.vip c.msg, delivered⟩] }) :
    Traced s' ∧ ∀ other pc, other ≠ t → cfg.threads.lookup other = some pc →
      Notifies other pc s' := by
  subst hs'
  have hnotifies := hcfg.thread t _ hpc
  refine ⟨hcfg.shared.notified hnotifies, fun other pc hne hother => ?_⟩
  refine (hcfg.thread other pc hother).mono (.of_eq rfl rfl) fun c' a' heq q hq hnew hrecord => ?_
  obtain ⟨-, -, -, hfirst, -⟩ := hnotifies c a rfl
  obtain ⟨-, -, -, hfirst', -⟩ := hcfg.thread other pc hother c' a' heq
  rw [peerPushes_append rfl] at hq
  rcases mem_append.1 hq with hq | hq
  · exact hnew hq
  · rw [mem_singleton.1 hq] at hrecord
    rw [← Option.some.inj hrecord, hfirst] at hfirst'
    cases hfirst'
    exact hne rfl

theorem traced_moved (hpc : cfg.threads.lookup t = some pc)
    (hmoved : Moved t cfg.shared pc s' pc') :
    Traced s' ∧ Notifies t pc' s' ∧
      ∀ other pc, other ≠ t → cfg.threads.lookup other = some pc → Notifies other pc s' := by
  cases hmoved with
  | failed hstart | existing hstart =>
    exact traced_of_quiet hcfg (quiet_start hstart nofun) nofun
  | created hstart =>
    refine ⟨hcfg.shared.created hstart, nofun, fun other pc _ hother => ?_⟩
    refine (hcfg.thread other pc hother).mono ?_ fun _ _ _ p hp hnew => absurd hp hnew
    exact ⟨fun a ha => mem_append_left _ ha, fun _ _ hr => hr⟩
  | busy hpush => exact traced_of_push hcfg hpush nofun
  | invited hpush hnext =>
    refine traced_of_push hcfg hpush ?_
    rcases hnext with rfl | rfl <;> nofun
  | @unknown c now table hready =>
    have hquiet := @PunchTable.quiet_markReady cfg.shared.table now c.peer c.vip c.msg.attemptID
    rw [hready] at hquiet
    exact traced_of_quiet hcfg hquiet nofun
  | @accepted c now table a first hready =>
    refine ⟨hcfg.shared.accepted hready, ?_, fun other pc _ hother => ?_⟩
    · cases first with
      | true => exact notifies_of_first hcfg.shared hready
      | false => nofun
    · exact (hcfg.thread other pc hother).mono extends_accepted
        fun _ _ _ p hp hnew => absurd hp hnew
  | notify =>
    obtain ⟨htraced, hothers⟩ := traced_of_notify hcfg hpc rfl
    exact ⟨htraced, nofun, hothers⟩
  | rollback => exact traced_of_quiet hcfg (@PunchTable.quiet_drop _ cfg.shared.clock _) nofun
  | disconnect =>
    exact traced_of_quiet hcfg (@PunchTable.quiet_dropByVIP _ cfg.shared.clock _) nofun
  | cleanup => exact traced_of_quiet hcfg quiet_cleanup nofun
  | _ => exact traced_of_quiet hcfg (.refl cfg.shared.clock _) nofun

end

/-! ## Every run -/

theorem traced_initial : Outline Traced Notifies initial := by
  have hnone : ∀ {α : Type} {motive : α → Prop}, ∀ a ∈ ([] : List α), motive a :=
    fun a ha => absurd ha not_mem_nil
  refine ⟨⟨sound_empty, ?_, hnone, .nil, ?_, hnone, hnone, .nil⟩, ?_⟩
  · intro id a ha
    cases ha
  · intro id a ha
    cases ha
  · intro t pc hpc
    cases hpc

/-- A step keeps the pushes in line with the records and the accepted readies. -/
theorem traced_next (cfg : PunchConfig) (action : PunchAction) (cfg' : PunchConfig)
    (hcfg : Outline Traced Notifies cfg) (hnext : system.next cfg action = some cfg') :
    Outline Traced Notifies cfg' := by
  refine punch_outline ?_ ?_ ?_ cfg action cfg' hcfg hnext
  · intro t pc s hspawn c a hpc
    subst hpc
    cases hspawn
  · intro cfg t pc s' pc' hcfg hpc hmoved
    exact traced_moved hcfg hpc hmoved
  · intro cfg elapsed hcfg
    have h := hcfg.shared
    refine ⟨⟨h.sound, h.stored, h.made, h.distinct, h.unanswered, h.known,
      h.answers_mono (.of_eq rfl rfl), h.once⟩, fun t pc hpc => ?_⟩
    exact (hcfg.thread t pc hpc).mono (.of_eq rfl rfl) fun _ _ _ p hp hnew => absurd hp hnew

/-- Whatever the clients send and however the handlers interleave: records are
told apart by their serials, at most one `punch-peer` is pushed for each, and
every one goes from the responder to the initiator of its record with the
addresses of the first accepted ready. -/
theorem punch_peer_delivery (actions : List PunchAction) (cfg : PunchConfig)
    (hrun : run system.next initial actions = some cfg) :
    (cfg.shared.records.Pairwise fun a b => a.serial ≠ b.serial) ∧
      (cfg.shared.peerPushes.Pairwise fun p q => p.record ≠ q.record) ∧
      ∀ p ∈ cfg.shared.peerPushes, ∃ a ∈ cfg.shared.records, Answers cfg.shared p a := by
  have h := (run_stable traced_next traced_initial hrun).shared
  exact ⟨h.distinct, h.once, h.answers⟩

/-! ### Fixed inputs -/

/-- Alice invites bob; carol, who has guessed the id, answers first, and bob
answers twice. -/
def guessedAndRepeated : List PunchAction :=
  [.spawn 0 (.intent ⟨aliceText, intentToBob "0123456789abcdef"⟩),
    .spawn 1 (.ready ⟨carolText, readyForAlice "203.0.113.9:4000"⟩),
    .spawn 2 (.ready ⟨bobText, readyForAlice "203.0.113.8:4000"⟩),
    .spawn 3 (.ready ⟨bobText, readyForAlice "203.0.113.8:4001"⟩)] ++
  replicate 6 (.step 0 true) ++ replicate 3 (.step 1 true) ++
  replicate 3 (.step 2 true) ++ replicate 3 (.step 3 true) ++ [.step 2 true]

theorem punch_peer_delivery_alice :
    ∃ cfg, run system.next initial guessedAndRepeated = some cfg ∧
      cfg.shared.peerPushes.map (fun p => (p.target, p.message.punchAddr)) =
        [(aliceText, "203.0.113.8:4000".toList)] ∧
      (cfg.shared.records.Pairwise fun a b => a.serial ≠ b.serial) ∧
      (cfg.shared.peerPushes.Pairwise fun p q => p.record ≠ q.record) ∧
      ∀ p ∈ cfg.shared.peerPushes, ∃ a ∈ cfg.shared.records, Answers cfg.shared p a := by
  obtain ⟨cfg, hrun, hpushes⟩ : ∃ cfg, run system.next initial guessedAndRepeated = some cfg ∧
      cfg.shared.peerPushes.map (fun p => (p.target, p.message.punchAddr)) =
        [(aliceText, "203.0.113.8:4000".toList)] := by
    decide +kernel
  exact ⟨cfg, hrun, hpushes, punch_peer_delivery guessedAndRepeated cfg hrun⟩

end Hy2Link.Server.Punch
