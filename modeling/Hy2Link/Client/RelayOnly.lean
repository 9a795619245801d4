import Hy2Link.Client.PathDrain

/-! # The local switch

With the local switch off, traffic goes through the relay.  `ApplyP2PLocal`
clears all paths when it turns the switch off, but `handleEstablished` does
not look at the switch: a punch session that was past its own check hands its
connection over afterwards, the trial passes, and the path is installed.  A
second call that finds the switch off returns while the first one is still
clearing.

`switched_off_relay_only` holds for the runs in which nothing is handed over
while the switch is off and the calls that turn it off do not overlap.
-/

namespace Hy2Link.Client.Path

open Interleaving

def turnsOn (cfg : PathConfig) : PathAction → Bool
  | .step t _ =>
    match cfg.threads.lookup t with
    | some ⟨.apply (.set true), none⟩ => true
    | _ => false
  | _ => false

def applied (cfg : PathConfig) (n : Nat) : Bool :=
  match cfg.threads.lookup (.apply n) with
  | some ⟨.apply .returned, _⟩ => true
  | some ⟨.apply (.clear .finished), _⟩ => true
  | _ => false

/-- No destination has a direct path: the route table is loaded now, the state
of a path that is found in it now or later while the switch is off. -/
def RelayOnly (cfg : PathConfig) : Prop :=
  ∀ later cfg' dst plane,
    Along system.next (fun cfg action => turnsOn cfg action = false) cfg later →
    run system.next cfg later = some cfg' →
    sinkFor cfg.shared cfg'.shared dst plane = none ∧
      directDatagramPath cfg.shared cfg'.shared dst = none

/-! ## Runs in which the switch is respected -/

def Local.clearing (l : Local) : Bool :=
  match l.main with
  | .apply (.clear pc) => pc != .finished
  | _ => false

/-- Nothing is registered while the switch is off, and it is turned off when no
earlier call is still clearing. -/
def respected (cfg : PathConfig) : PathAction → Bool
  | .step t _ =>
    match cfg.threads.lookup t with
    | some ⟨.handover (.register _), none⟩ => cfg.shared.p2pLocalEnabled
    | some ⟨.apply (.set false), none⟩ =>
      decide (∀ d l, cfg.threads.lookup d = some l → l.clearing = false)
    | _ => true
  | _ => true

/-- Every path is closed and out of the route table for good. -/
def Cleared (cfg : PathConfig) : Prop :=
  ∀ p, (∃ path, cfg.shared.paths.lookup p = some path) →
    cfg.shared.closed p = true ∧ Unrouted p cfg

/-- The call `n` of `ApplyP2PLocal` is closing all paths, or has done so. -/
structure ClearedBy (n : Nat) (cfg : PathConfig) : Prop where
  clear : ∃ pc call, cfg.threads.lookup (.apply n) = some ⟨.apply (.clear pc), call⟩
  drained : ∀ p, (∃ path, cfg.shared.paths.lookup p = some path) → Drained (.apply n) p cfg

def NoNew (cfg cfg' : PathConfig) : Prop :=
  ∀ p path', cfg'.shared.paths.lookup p = some path' →
    ∃ path, cfg.shared.paths.lookup p = some path

variable {n : Nat}

section Step

variable {cfg cfg' : PathConfig} {action : PathAction}

theorem Cleared.step (h : Cleared cfg) (hledger : Ledger cfg) (hstep : PathStep cfg action cfg')
    (hnew : NoNew cfg cfg') : Cleared cfg' := by
  rintro p ⟨path', hp'⟩
  obtain ⟨hclosed, hunrouted⟩ := h p (hnew p path' hp')
  cases hstep with
  | spawn hfresh hspawn => exact ⟨hclosed, hunrouted.spawn hspawn⟩
  | call hlocal hexec =>
    exact ⟨exec_closed hledger.valid hexec hclosed, hunrouted.call_step hlocal hexec _⟩
  | main hlocal hmain hexec =>
    exact ⟨exec_closed hledger.valid hexec hclosed,
      hunrouted.main_step hledger hlocal hmain hexec (.inl hclosed)⟩

theorem clear_step (hstep : PathStep cfg action cfg')
    (hl : cfg.threads.lookup (.apply n) = some ⟨.apply (.clear pc), call⟩) :
    ∃ pc' call', cfg'.threads.lookup (.apply n) = some ⟨.apply (.clear pc'), call'⟩ := by
  cases hstep with
  | @spawn t l' hfresh hspawn =>
    have hne : Thread.apply n ≠ t := by
      rintro rfl
      simp [hl] at hfresh
    exact ⟨pc, call, (Finmap.lookup_insert_of_ne _ hne).trans hl⟩
  | @call t choice main q epc shared result hlocal hexec =>
    by_cases ht : Thread.apply n = t
    · subst ht
      rw [hlocal] at hl
      cases hl
      exact ⟨pc, _, Finmap.lookup_insert _⟩
    · exact ⟨pc, call, (Finmap.lookup_insert_of_ne _ ht).trans hl⟩
  | @main t choice main request shared result hlocal hmain hexec =>
    by_cases ht : Thread.apply n = t
    · subst ht
      rw [hlocal] at hl
      cases hl
      cases hmain with
      | apply hcontrol =>
        obtain ⟨inner, -, rfl⟩ := Option.map_eq_some_iff.1 hcontrol
        exact ⟨_, _, Finmap.lookup_insert _⟩
    · exact ⟨pc, call, (Finmap.lookup_insert_of_ne _ ht).trans hl⟩

theorem ClearedBy.step (h : ClearedBy n cfg) (hok : orderly cfg action = true)
    (hstep : PathStep cfg action cfg') (hnew : NoNew cfg cfg') : ClearedBy n cfg' := by
  obtain ⟨pc, call, hl⟩ := h.clear
  exact ⟨clear_step hstep hl, fun p ⟨path', hp'⟩ => (h.drained p (hnew p path' hp')).step hok hstep⟩

theorem ClearedBy.cleared (h : ClearedBy n cfg)
    (hl : cfg.threads.lookup (.apply n) = some ⟨.apply (.clear .finished), call⟩) :
    Cleared cfg := by
  intro p hp
  have hdrained := h.drained p hp
  exact ⟨(hdrained.covers _ _ hl rfl).resolve_right id, hdrained.unrouted _ _ hl rfl rfl⟩

/-! ## What changes the switch and the number of paths -/

theorem MainOp.switches {op : PathOp Result} (hop : MainOp t main op)
    (hswitches : op.switches = true) :
    ∃ n enabled, t = .apply n ∧ main = .apply (.set enabled) := by
  cases hop with
  | quiet hquiet =>
    simp [PathOp.switches_of_quiet hquiet] at hswitches
  | @setLocal n enabled => exact ⟨n, enabled, rfl, rfl⟩
  | _ => cases hswitches

def setSwitch (cfg : PathConfig) (n : Nat) (enabled : Bool) : PathConfig where
  shared := { cfg.shared with p2pLocalEnabled := enabled }
  threads := cfg.threads.insert (.apply n) ⟨.apply
    (if (cfg.shared.p2pLocalEnabled != enabled) && !enabled then .clear .snapshot
      else .returned), none⟩

theorem set_of_step {enabled : Bool} (hstep : PathStep cfg (.step (.apply n) choice) cfg')
    (hset : cfg.threads.lookup (.apply n) = some ⟨.apply (.set enabled), none⟩) :
    cfg' = setSwitch cfg n enabled := by
  cases hstep with
  | call hlocal hexec =>
    simp [hset] at hlocal
  | main hlocal hmain hexec =>
    rw [hset] at hlocal
    cases hlocal
    cases hmain with
    | apply hcontrol =>
      cases hcontrol
      cases hexec
      rfl

/-- A step that is not one of the two that `respected` speaks of changes
neither the switch nor the number of paths. -/
theorem step_cases (hstep : PathStep cfg action cfg') :
    (∃ t choice req, action = .step t choice ∧
        cfg.threads.lookup t = some ⟨.handover (.register req), none⟩ ∧
        cfg'.shared.p2pLocalEnabled = cfg.shared.p2pLocalEnabled) ∨
      (∃ n choice enabled, action = .step (.apply n) choice ∧
        cfg.threads.lookup (.apply n) = some ⟨.apply (.set enabled), none⟩ ∧
        cfg' = setSwitch cfg n enabled) ∨
      cfg'.shared.p2pLocalEnabled = cfg.shared.p2pLocalEnabled ∧ NoNew cfg cfg' := by
  cases hstep with
  | spawn hfresh hspawn => exact .inr (.inr ⟨rfl, fun p path' hp => ⟨path', hp⟩⟩)
  | @call t choice main q pc shared result hlocal hexec =>
    obtain ⟨hregisters, hswitches⟩ := end_registers q pc
    exact .inr (.inr ⟨exec_p2pLocalEnabled hexec hswitches,
      fun p path' hp => registered_of_exec hexec hregisters hp⟩)
  | @main t choice main request shared result hlocal hmain hexec =>
    have hop := main_op hmain
    cases hswitches : request.op.switches with
    | true =>
      obtain ⟨n, enabled, rfl, rfl⟩ := hop.switches hswitches
      exact .inr (.inl ⟨n, choice, enabled, rfl, hlocal,
        set_of_step (.main hlocal hmain hexec) hlocal⟩)
    | false =>
      have hsame := exec_p2pLocalEnabled hexec hswitches
      cases hregisters : request.op.registers with
      | true =>
        obtain ⟨n, req, rfl, rfl⟩ := hop.registers hregisters
        exact .inl ⟨.handover n, choice, req, rfl, hlocal, hsame⟩
      | false =>
        exact .inr (.inr ⟨hsame, fun p path' hp => registered_of_exec hexec hregisters hp⟩)

/-! ## The invariant -/

/-- While the switch is off, all paths are cleared or a call is about it. -/
structure Switched (cfg : PathConfig) : Prop where
  ledger : Ledger cfg
  off : cfg.shared.p2pLocalEnabled = false → Cleared cfg ∨ ∃ n, ClearedBy n cfg

/-- The same after the call `n` has turned the switch off: it is about it
itself. -/
structure SwitchedOff (n : Nat) (cfg : PathConfig) : Prop where
  ledger : Ledger cfg
  off : cfg.shared.p2pLocalEnabled = false
  cleared : Cleared cfg ∨ ClearedBy n cfg

theorem Switched.set_step (h : Switched cfg)
    (hidle : ∀ d l, cfg.threads.lookup d = some l → l.clearing = false)
    (hstep : PathStep cfg action (setSwitch cfg n false)) :
    SwitchedOff n (setSwitch cfg n false) := by
  have hledger := h.ledger.step hstep
  refine ⟨hledger, rfl, ?_⟩
  cases hflag : cfg.shared.p2pLocalEnabled with
  | true =>
    have hlocal : (setSwitch cfg n false).threads.lookup (.apply n) =
        some ⟨.apply (.clear .snapshot), none⟩ := by
      simp only [setSwitch, hflag, Finmap.lookup_insert]
      rfl
    refine .inr ⟨⟨_, _, hlocal⟩, fun p ⟨path, hp⟩ => drained_of_pending hledger ?_ ?_⟩
    · rw [Tables.stateOf, hp]
      rfl
    · rw [pending, drainOf_eq_some.2 ⟨_, hlocal, rfl, rfl⟩]
      rfl
  | false =>
    have hcleared : Cleared cfg := by
      rcases h.off hflag with hcleared | ⟨m, hby⟩
      · exact hcleared
      · obtain ⟨pc, call, hm⟩ := hby.clear
        obtain rfl : pc = .finished := by simpa [Local.clearing] using hidle _ _ hm
        exact hby.cleared hm
    exact .inl (hcleared.step h.ledger hstep fun p path hp => ⟨path, hp⟩)

theorem Switched.step (h : Switched cfg) (hok : orderly cfg action = true)
    (hrespected : respected cfg action = true) (hstep : PathStep cfg action cfg') :
    Switched cfg' := by
  refine ⟨h.ledger.step hstep, fun hoff => ?_⟩
  rcases step_cases hstep with
    ⟨t, choice, req, rfl, hlocal, hsame⟩ | ⟨n, choice, enabled, rfl, hlocal, rfl⟩ | ⟨hsame, hnew⟩
  · rw [hsame] at hoff
    simp only [respected, hlocal, hoff, Bool.false_eq_true] at hrespected
  · obtain rfl : enabled = false := hoff
    simp only [respected, hlocal, decide_eq_true_eq] at hrespected
    exact (h.set_step hrespected hstep).cleared.imp_right fun hby => ⟨n, hby⟩
  · rw [hsame] at hoff
    rcases h.off hoff with hcleared | ⟨n, hby⟩
    · exact .inl (hcleared.step h.ledger hstep hnew)
    · exact .inr ⟨n, hby.step hok hstep hnew⟩

/-- The switch stays off, and every path cleared or ahead of the call. -/
theorem SwitchedOff.step (h : SwitchedOff n cfg) (hok : orderly cfg action = true)
    (hrespected : respected cfg action = true) (hoff : turnsOn cfg action = false)
    (hstep : PathStep cfg action cfg') : SwitchedOff n cfg' := by
  have hkeeps : cfg'.shared.p2pLocalEnabled = false ∧ NoNew cfg cfg' := by
    rcases step_cases hstep with
      ⟨t, choice, req, rfl, hlocal, -⟩ | ⟨m, choice, enabled, rfl, hlocal, rfl⟩ | ⟨hsame, hnew⟩
    · simp only [respected, hlocal, h.off, Bool.false_eq_true] at hrespected
    · cases enabled with
      | true => simp only [turnsOn, hlocal, Bool.true_eq_false] at hoff
      | false => exact ⟨rfl, fun p path hp => ⟨path, hp⟩⟩
    · exact ⟨hsame.trans h.off, hnew⟩
  refine ⟨h.ledger.step hstep, hkeeps.1, ?_⟩
  rcases h.cleared with hcleared | hby
  · exact .inl (hcleared.step h.ledger hstep hkeeps.2)
  · exact .inr (hby.step hok hstep hkeeps.2)

end Step

theorem initial_switched (enabled : Bool) : Switched (initial enabled) := by
  refine ⟨initial_ledger enabled, fun _ => .inl fun p ⟨path, hp⟩ => ?_⟩
  simp [initial, Tables.initial] at hp

theorem Cleared.relayOnly (h : Cleared cfg) (hvalid : cfg.shared.Valid) : RelayOnly cfg := by
  intro later cfg' dst plane _ _
  have hroute : cfg.shared.routes.lookup dst = none := by
    cases hlookup : cfg.shared.routes.lookup dst with
    | none => rfl
    | some p =>
      obtain ⟨path, hp, -⟩ := hvalid.routes dst p hlookup
      exact absurd hlookup ((h p ⟨path, hp⟩).2.table dst)
  have hup : upRoute cfg.shared cfg'.shared dst = none := by
    rw [upRoute, hroute, Option.filter_none]
  constructor
  · rw [sinkFor, hup, Option.map_none]
  · rw [directDatagramPath, hup, ite_self]

/-- In every run in which no path is handed over while the switch is off, the
calls that turn it off do not overlap, and no path is on its way while one of
them closes all paths: once a call has turned the switch off and returned, no
destination has a direct path until the switch is turned on again. -/
theorem switched_off_relay_only (enabled : Bool) (front rest : List PathAction) (n : Nat)
    (choice : Choice) (cfg cfg' : PathConfig)
    (hrespected : Along system.next
      (fun cfg action => orderly cfg action = true ∧ respected cfg action = true)
      (initial enabled) (front ++ .step (.apply n) choice :: rest))
    (hfront : run system.next (initial enabled) front = some cfg)
    (hcalled : cfg.threads.lookup (.apply n) = some ⟨.apply (.set false), none⟩)
    (hrest : run system.next cfg (.step (.apply n) choice :: rest) = some cfg')
    (hoff : Along system.next (fun cfg action => turnsOn cfg action = false) cfg
      (.step (.apply n) choice :: rest))
    (hreturned : applied cfg' n = true) : RelayOnly cfg' := by
  obtain ⟨hfrontOk, hrestOk⟩ := along_append.1 hrespected
  have hswitched : Switched cfg := by
    refine run_invariant ?_ (initial_switched enabled) hfrontOk hfront
    intro s action next hs hok hnext
    exact hs.step hok.1 hok.2 (pathStep_of_next hnext)
  obtain ⟨after, hset, hlater⟩ := run_cons_eq_some.1 hrest
  have hok := (hrestOk cfg hfront).1.2
  have hafter : SwitchedOff n after := by
    have hstep := pathStep_of_next hset
    obtain rfl := set_of_step hstep hcalled
    simp only [respected, hcalled, decide_eq_true_eq] at hok
    exact hswitched.set_step hok hstep
  have hend : SwitchedOff n cfg' := by
    have hboth := ((hrestOk cfg hfront).2 after hset).and (hoff.2 after hset)
    refine run_invariant ?_ hafter hboth hlater
    intro s action next hs hok hnext
    exact hs.step hok.1.1 hok.1.2 hok.2 (pathStep_of_next hnext)
  have hcleared : Cleared cfg' := by
    rcases hend.cleared with hcleared | hby
    · exact hcleared
    · obtain ⟨pc, call, hlocal⟩ := hby.clear
      cases pc with
      | finished => exact hby.cleared hlocal
      | _ => simp [applied, hlocal] at hreturned
  exact hcleared.relayOnly hend.ledger.valid

/-! ## A session that finishes late -/

def sessionInFlight : List PathAction :=
  [.spawn (.handover 0) ⟨.handover (.start peerReq), none⟩,
    .spawn (.apply 0) ⟨.apply (.set false), none⟩]

def finishLate : List PathAction :=
  goes (.handover 0) 3 ++ .spawn (.setup 0) ⟨.setup .openStreams, none⟩ :: goes (.setup 0) 3 ++
    passRun 0 ++ goes (.watch 0) 8

/-- The session hands over after `ApplyP2PLocal` has returned. -/
theorem session_installs_after_switch_off :
    ¬ ∀ enabled front rest n choice cfg cfg',
      run system.next (initial enabled) front = some cfg →
      cfg.threads.lookup (.apply n) = some ⟨.apply (.set false), none⟩ →
      run system.next cfg (.step (.apply n) choice :: rest) = some cfg' →
      Along system.next (fun cfg action => turnsOn cfg action = false) cfg
        (.step (.apply n) choice :: rest) →
      applied cfg' n = true → RelayOnly cfg' := by
  intro h
  obtain ⟨cfg, hcfg, hcalled, hoff, cfg', hcfg', happlied, hsink⟩ : ∃ cfg,
      run system.next (initial true) sessionInFlight = some cfg ∧
      cfg.threads.lookup (.apply 0) = some ⟨.apply (.set false), none⟩ ∧
      Along system.next (fun cfg action => turnsOn cfg action = false) cfg
        (.step (.apply 0) .go :: (goes (.apply 0) 3 ++ finishLate)) ∧
      ∃ cfg', run system.next cfg (.step (.apply 0) .go :: (goes (.apply 0) 3 ++ finishLate)) =
          some cfg' ∧
        applied cfg' 0 = true ∧
        sinkFor cfg'.shared cfg'.shared peerReq.peer 0 = some (0, .bulk) := by
    decide +kernel
  have hnone := (h true _ _ 0 .go cfg cfg' hcfg hcalled hcfg' hoff happlied [] cfg' peerReq.peer 0
    trivial rfl).1
  simp [hsink] at hnone

theorem resting_paths_switched_off :
    ∃ cfg', run system.next (initial true) (restingRun ++ switchOffRun 16) = some cfg' ∧
      applied cfg' 0 = true ∧ RelayOnly cfg' := by
  have hsplit : restingRun ++ switchOffRun 16 =
      (restingRun ++ [.spawn (.apply 0) ⟨.apply (.set false), none⟩]) ++
        (.step (.apply 0) .go :: goes (.apply 0) 15) := by
    simp [switchOffRun, goes, List.replicate_succ]
  have hrespected : Along system.next
      (fun cfg action => orderly cfg action = true ∧ respected cfg action = true) (initial true)
      ((restingRun ++ [.spawn (.apply 0) ⟨.apply (.set false), none⟩]) ++
        (.step (.apply 0) .go :: goes (.apply 0) 15)) := by
    decide +kernel
  obtain ⟨cfg, hcfg, hcalled, hoff, cfg', hcfg', happlied⟩ : ∃ cfg,
      run system.next (initial true)
        (restingRun ++ [.spawn (.apply 0) ⟨.apply (.set false), none⟩]) = some cfg ∧
      cfg.threads.lookup (.apply 0) = some ⟨.apply (.set false), none⟩ ∧
      Along system.next (fun cfg action => turnsOn cfg action = false) cfg
        (.step (.apply 0) .go :: goes (.apply 0) 15) ∧
      ∃ cfg', run system.next cfg (.step (.apply 0) .go :: goes (.apply 0) 15) = some cfg' ∧
        applied cfg' 0 = true := by
    decide +kernel
  refine ⟨cfg', ?_, happlied, ?_⟩
  · rw [hsplit, run_append, hcfg, Option.bind_some]
    exact hcfg'
  · exact switched_off_relay_only true _ _ 0 .go cfg cfg' hrespected hcfg hcalled hcfg' hoff
      happlied

end Hy2Link.Client.Path
