import Hy2Link.Server.PunchThreads

/-! # The capacity of a responder

`handlePunchIntent` counts the live attempts of the responder in one section of
the lock and makes the new attempt in another.  Handlers that have all counted
before the first of them starts go past the limit together.  Where no handler
counts while another one for the same responder is on its way from its count to
its start, the limit holds in every run.
-/

namespace Hy2Link.Server

open Interleaving

/-! ## Counting -/

namespace PunchTable

variable {t t' : PunchTable} {initiator responder id : List Char}

theorem live_mono {a : PunchAttempt} (hle : now ≤ later) (h : a.live later = true) :
    a.live now = true := by
  simp only [PunchAttempt.live, decide_eq_true_eq] at h ⊢
  exact (Nat.sub_le_sub_right hle _).trans h

theorem activeResponderCount_anti (hle : now ≤ later) :
    t.activeResponderCount later responder ≤ t.activeResponderCount now responder := by
  refine countEntries_le fun id a ha hp => ⟨a, ha, ?_⟩
  rw [Bool.and_eq_true] at hp ⊢
  exact ⟨hp.1, live_mono hle hp.2⟩

theorem Quiet.activeResponderCount_le (h : Quiet at_ t t') :
    t'.activeResponderCount now responder ≤ t.activeResponderCount now responder := by
  refine countEntries_le fun id a ha hp => ?_
  obtain ⟨old, hold, hinherits⟩ := h.attempts id a ha
  refine ⟨old, hold, ?_⟩
  rwa [PunchAttempt.live, hinherits.responder, hinherits.createdAt] at hp

theorem activeResponderCount_create :
    (t.create at_ initiator responder id windowMs).activeResponderCount now responder ≤
      t.activeResponderCount now responder + 1 :=
  countEntries_insert_le

theorem activeResponderCount_create_of_ne (hne : other ≠ responder) :
    (t.create at_ initiator responder id windowMs).activeResponderCount now other ≤
      t.activeResponderCount now other := by
  refine countEntries_le fun id' a ha hp => ?_
  rcases lookup_insert_eq_some.1 ha with ⟨-, rfl⟩ | ⟨-, hold⟩
  · rw [Bool.and_eq_true, decide_eq_true_eq] at hp
    exact absurd hp.1.symm hne
  · exact ⟨a, hold, hp⟩

end PunchTable

namespace Punch

/-! ## The invariant -/

def PC.starting : PC → Option (List Char)
  | .startClock c => some c.peer
  | .start c _ => some c.peer
  | _ => none

def PC.counting : PC → Option (List Char)
  | .count c _ => some c.peer
  | _ => none

def PC.read : PC → Option Time
  | .count _ now => some now
  | .start _ now => some now
  | _ => none

/-- No handler counts for a responder while another one is on its way from its
count to its start. -/
def CountsAlone (cfg : PunchConfig) : PunchAction → Prop
  | .step t _ =>
    ∀ pc ∈ cfg.threads.lookup t, ∀ responder ∈ pc.counting,
      ∀ other pc', cfg.threads.lookup other = some pc' → pc'.starting ≠ some responder
  | _ => True

structure Capacity (cfg : PunchConfig) : Prop where
  bound : ∀ responder,
    cfg.shared.table.activeResponderCount cfg.shared.clock responder ≤ relayMaxResponderInvites
  room : ∀ t pc responder, cfg.threads.lookup t = some pc → pc.starting = some responder →
    cfg.shared.table.activeResponderCount cfg.shared.clock responder < relayMaxResponderInvites
  alone : ∀ t pc other pc' responder, cfg.threads.lookup t = some pc →
    cfg.threads.lookup other = some pc' → pc.starting = some responder →
    pc'.starting = some responder → t = other
  read : ∀ t pc now, cfg.threads.lookup t = some pc → pc.read = some now →
    now ≤ cfg.shared.clock

theorem capacity_initial : Capacity initial := by
  refine ⟨fun _ => Nat.zero_le _, ?_, ?_, ?_⟩ <;> intro t pc <;> simp [initial]

theorem Capacity.spawn (h : Capacity cfg) (hspawn : spawnable cfg t pc = true) :
    Capacity { cfg with threads := cfg.threads.insert t pc } := by
  have hstarting : pc.starting = none ∧ pc.read = none := by
    cases pc <;> first | exact ⟨rfl, rfl⟩ | cases hspawn
  refine ⟨h.bound, ?_, ?_, ?_⟩
  · intro t' pc' responder hpc' hr
    rcases lookup_insert_eq_some.1 hpc' with ⟨-, rfl⟩ | ⟨-, hold⟩
    · simp [hstarting.1] at hr
    · exact h.room t' pc' responder hold hr
  · intro t₁ pc₁ t₂ pc₂ responder h₁ h₂ hr₁ hr₂
    rcases lookup_insert_eq_some.1 h₁ with ⟨-, rfl⟩ | ⟨-, hold₁⟩
    · simp [hstarting.1] at hr₁
    rcases lookup_insert_eq_some.1 h₂ with ⟨-, rfl⟩ | ⟨-, hold₂⟩
    · simp [hstarting.1] at hr₂
    exact h.alone t₁ pc₁ t₂ pc₂ responder hold₁ hold₂ hr₁ hr₂
  · intro t' pc' now hpc' hr
    rcases lookup_insert_eq_some.1 hpc' with ⟨-, rfl⟩ | ⟨-, hold⟩
    · simp [hstarting.2] at hr
    · exact h.read t' pc' now hold hr

theorem Capacity.elapse (h : Capacity cfg) (elapsed : Time) :
    Capacity { cfg with shared := { cfg.shared with clock := cfg.shared.clock + elapsed } } := by
  have hle : cfg.shared.clock ≤ cfg.shared.clock + elapsed := Nat.le_add_right _ _
  refine ⟨fun responder => ?_, fun t pc responder hpc hr => ?_, h.alone, fun t pc now hpc hr => ?_⟩
  · exact (PunchTable.activeResponderCount_anti hle).trans (h.bound responder)
  · exact (PunchTable.activeResponderCount_anti hle).trans_lt (h.room t pc responder hpc hr)
  · exact (h.read t pc now hpc hr).trans hle

/-! ## One step -/

theorem Moved.clock_eq (h : Moved t s pc s' pc') : s'.clock = s.clock := by
  cases h with
  | _ => rfl

theorem Moved.read_eq (h : Moved t s pc s' pc') (hread : pc'.read = some now) : now = s.clock := by
  cases h with
  | countClock | startClock => exact (Option.some.inj hread).symm
  | invited hpush hnext => rcases hnext with rfl | rfl <;> cases hread
  | @accepted c now' table a first hready => cases first <;> cases hread
  | _ => cases hread

theorem Moved.starting_eq (h : Moved t s pc s' pc') (hstarting : pc'.starting = some responder) :
    s'.table = s.table ∧ (pc.starting = some responder ∨
      ∃ now, pc.counting = some responder ∧ pc.read = some now ∧
        s.table.activeResponderCount now responder < relayMaxResponderInvites) := by
  cases h with
  | @room c now hroom =>
    cases hstarting
    exact ⟨rfl, .inr ⟨now, rfl, rfl, hroom⟩⟩
  | startClock => exact ⟨rfl, .inl hstarting⟩
  | invited hpush hnext => rcases hnext with rfl | rfl <;> cases hstarting
  | @accepted c now table a first hready => cases first <;> cases hstarting
  | _ => cases hstarting

/-- What the moving thread may do to the counts: nothing is added, or one
attempt for the responder it was on its way to. -/
theorem Touched.count_le (h : Touched s pc table) (responder : List Char) :
    table.activeResponderCount s.clock responder ≤
        s.table.activeResponderCount s.clock responder ∨
      pc.starting = some responder ∧ table.activeResponderCount s.clock responder ≤
        s.table.activeResponderCount s.clock responder + 1 := by
  cases h with
  | quiet hquiet => exact .inl hquiet.activeResponderCount_le
  | @created c now hrefusal =>
    have hdrop : (s.table.drop c.msg.attemptID).activeResponderCount s.clock responder ≤
        s.table.activeResponderCount s.clock responder :=
      (@PunchTable.quiet_drop s.table now _).activeResponderCount_le
    by_cases hne : responder = c.peer
    · subst hne
      have hcreate := Nat.add_le_add_right hdrop 1
      exact .inr ⟨rfl, PunchTable.activeResponderCount_create.trans hcreate⟩
    · exact .inl ((PunchTable.activeResponderCount_create_of_ne hne).trans hdrop)

theorem Capacity.step (h : Capacity cfg) (hpc : cfg.threads.lookup t = some pc)
    (hmoved : Moved t cfg.shared pc s' pc')
    (halone : ∀ responder ∈ pc.counting, ∀ other pc', cfg.threads.lookup other = some pc' →
      pc'.starting ≠ some responder) :
    Capacity { shared := s', threads := cfg.threads.insert t pc' } := by
  have hclock := hmoved.clock_eq
  have hcount := hmoved.touched.count_le
  refine ⟨?_, ?_, ?_, ?_⟩
  · intro responder
    simp only [hclock]
    rcases hcount responder with hle | ⟨hstarting, hle⟩
    · exact hle.trans (h.bound responder)
    · exact hle.trans (h.room t pc responder hpc hstarting)
  · intro t' pc'' responder hpc'' hr
    simp only [hclock]
    rcases lookup_insert_eq_some.1 hpc'' with ⟨rfl, rfl⟩ | ⟨hne, hold⟩
    · obtain ⟨htable, hstarting | ⟨now, -, hread, hroom⟩⟩ := hmoved.starting_eq hr
      · rw [htable]
        exact h.room t' pc responder hpc hstarting
      · rw [htable]
        exact (PunchTable.activeResponderCount_anti (h.read t' pc now hpc hread)).trans_lt hroom
    · rcases hcount responder with hle | ⟨hstarting, -⟩
      · exact hle.trans_lt (h.room t' pc'' responder hold hr)
      · exact absurd (h.alone t' pc'' t pc responder hold hpc hr hstarting) hne
  · -- a thread that has just counted is the only one on the way
    have hother : ∀ other pc'' responder, cfg.threads.lookup other = some pc'' →
        pc''.starting = some responder → pc'.starting = some responder → other = t := by
      intro other pc'' responder hold hr hr'
      obtain ⟨-, hstarting | ⟨now, hcounting, -, -⟩⟩ := hmoved.starting_eq hr'
      · exact h.alone other pc'' t pc responder hold hpc hr hstarting
      · exact absurd hr (halone responder hcounting other pc'' hold)
    intro t₁ pc₁ t₂ pc₂ responder h₁ h₂ hr₁ hr₂
    rcases lookup_insert_eq_some.1 h₁ with ⟨rfl, rfl⟩ | ⟨-, hold₁⟩ <;>
      rcases lookup_insert_eq_some.1 h₂ with ⟨rfl, rfl⟩ | ⟨-, hold₂⟩
    · rfl
    · exact (hother t₂ pc₂ responder hold₂ hr₂ hr₁).symm
    · exact hother t₁ pc₁ responder hold₁ hr₁ hr₂
    · exact h.alone t₁ pc₁ t₂ pc₂ responder hold₁ hold₂ hr₁ hr₂
  · intro t' pc'' now hpc'' hr
    simp only [hclock]
    rcases lookup_insert_eq_some.1 hpc'' with ⟨rfl, rfl⟩ | ⟨-, hold⟩
    · exact (hmoved.read_eq hr).le
    · exact h.read t' pc'' now hold hr

/-- A step keeps the attempts and the handlers on their way within the limit. -/
theorem Capacity.next (cfg : PunchConfig) (action : PunchAction) (cfg' : PunchConfig)
    (h : Capacity cfg) (hok : CountsAlone cfg action) (hnext : system.next cfg action = some cfg') :
    Capacity cfg' := by
  cases action with
  | spawn t pc =>
    obtain ⟨-, hspawn, rfl⟩ := next_spawn.1 hnext
    exact h.spawn hspawn
  | step t choice =>
    obtain ⟨pc, s', pc', hpc, hmoved, rfl⟩ := next_moved hnext
    exact h.step hpc hmoved (hok pc hpc)
  | env elapsed =>
    obtain ⟨s', henv, rfl⟩ := next_env.1 hnext
    cases henv
    exact h.elapse elapsed

/-! ## Every run -/

/-- Where no handler counts while another one for the same responder is on its
way to its start, no responder ever has more than two live attempts. -/
theorem responder_capacity (actions : List PunchAction) (cfg : PunchConfig)
    (hrun : run system.next initial actions = some cfg)
    (halone : Along system.next CountsAlone initial actions) (responder : List Char) :
    cfg.shared.table.activeResponderCount cfg.shared.clock responder ≤
      relayMaxResponderInvites :=
  (run_invariant Capacity.next capacity_initial halone hrun).bound responder

instance (cfg : PunchConfig) (action : PunchAction) : Decidable (CountsAlone cfg action) :=
  match action with
  | .spawn _ _ => .isTrue trivial
  | .env _ => .isTrue trivial
  | .step t _ =>
    inferInstanceAs (Decidable (∀ pc ∈ cfg.threads.lookup t, ∀ responder ∈ pc.counting,
      ∀ other pc', cfg.threads.lookup other = some pc' → pc'.starting ≠ some responder))

/-! ### Fixed inputs -/

def daveText : List Char := "10.0.0.5".toList

/-- The intent of a client for bob, and the steps up to its start. -/
def spawnIntent (t : Nat) (vip : List Char) (attemptID : String) : PunchAction :=
  .spawn t (.intent ⟨vip, intentToBob attemptID⟩)

def steps (t n : Nat) : List PunchAction := List.replicate n (.step t true)

def threeAtOnce : List PunchAction :=
  [spawnIntent 0 aliceText "0123456789abcdef", spawnIntent 1 carolText "fedcba9876543210",
    spawnIntent 2 daveText "00112233445566aa"] ++
  steps 0 3 ++ steps 1 3 ++ steps 2 3 ++ steps 0 2 ++ steps 1 2 ++ steps 2 2

/-- Three handlers count before any of them starts its attempt. -/
theorem three_attempts_at_once :
    ¬ ∀ (actions : List PunchAction) (cfg : PunchConfig),
      run system.next initial actions = some cfg →
      ∀ responder, cfg.shared.table.activeResponderCount cfg.shared.clock responder ≤
        relayMaxResponderInvites := by
  intro h
  obtain ⟨cfg, hrun, hthree⟩ : ∃ cfg, run system.next initial threeAtOnce = some cfg ∧
      cfg.shared.table.activeResponderCount cfg.shared.clock bobText = 3 := by
    decide +kernel
  have hbound := h threeAtOnce cfg hrun bobText
  rw [hthree] at hbound
  exact absurd hbound (by decide)

/-- The same clients, one after the other; the third one finds bob busy. -/
def threeInTurn : List PunchAction :=
  [spawnIntent 0 aliceText "0123456789abcdef", spawnIntent 1 carolText "fedcba9876543210",
    spawnIntent 2 daveText "00112233445566aa"] ++
  steps 0 6 ++ steps 1 6 ++ steps 2 4

theorem responder_capacity_bob :
    ∃ cfg, run system.next initial threeInTurn = some cfg ∧
      cfg.threads.lookup 2 = some (.ended (some .peerBusy)) ∧
      cfg.shared.table.activeResponderCount cfg.shared.clock bobText ≤
        relayMaxResponderInvites := by
  obtain ⟨cfg, hrun, hbusy⟩ : ∃ cfg, run system.next initial threeInTurn = some cfg ∧
      cfg.threads.lookup 2 = some (.ended (some .peerBusy)) := by
    decide +kernel
  exact ⟨cfg, hrun, hbusy, responder_capacity threeInTurn cfg hrun (by decide +kernel) bobText⟩

end Punch

end Hy2Link.Server
