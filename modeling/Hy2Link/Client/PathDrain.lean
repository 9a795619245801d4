import Hy2Link.Client.PathLedger

/-! # Closing all paths

`ClearAll` and the shutdown look at the route table, empty it, close what they
have seen there, and then look at the trial registry and close what is in it.
A path that has passed its trial leaves the registry before it comes into the
route table, and nothing makes the shutdown wait for a path on its way: it can
be missed by both looks and installed after the table was emptied.  A
responder's path also survives when it is handed over after the shutdown,
since the streams that the peer has already opened are accepted under a
cancelled context.

`drains_complete` holds for the runs in which no path is on its way.
-/

namespace Hy2Link.Client.Path

open Interleaving

def DrainPC.active : DrainPC → Bool
  | .snapshot => false
  | .finished => false
  | _ => true

def Local.draining (l : Local) : Bool :=
  match l.main.drain with
  | none => false
  | some pc => pc.active

def drainOf (cfg : PathConfig) (d : Thread) : Option (DrainPC × Call) :=
  (cfg.threads.lookup d).bind fun l => l.main.drain.map fun pc => (pc, l.call)

/-- The call has not looked at the tables yet. -/
def pending (cfg : PathConfig) (d : Thread) : Bool :=
  match drainOf cfg d with
  | none => true
  | some (pc, _) => pc = .snapshot

def returned (cfg : PathConfig) (d : Thread) : Bool :=
  match drainOf cfg d with
  | some (.finished, _) => true
  | _ => false

def setUpOver (cfg : PathConfig) (p : PathId) : Bool :=
  match cfg.threads.lookup (.setup p) with
  | some ⟨.setup (.done _), none⟩ => true
  | _ => false

structure Complete (cfg cfg' : PathConfig) : Prop where
  closed : ∀ d p, (cfg.shared.stateOf p).isSome = true → pending cfg d = true →
    returned cfg' d = true → cfg'.shared.closed p = true
  unrouted : ∀ d p, (cfg.shared.stateOf p).isSome = true → pending cfg d = true →
    returned cfg' d = true → ∀ dst, cfg'.shared.routes.lookup dst ≠ some p
  late : ∀ p, returned cfg .close = true → cfg.shared.stateOf p = none →
    setUpOver cfg' p = true → cfg'.shared.closed p = true

/-! ## Runs in which no path is on its way -/

/-- Every path is closed or in one of the two tables. -/
def Tables.accounted (s : Tables) : Bool :=
  (List.range s.nextPath).all fun p => s.closed p || s.routed p || s.trialPaths.contains p

def undrained (cfg : PathConfig) (t : Thread) : Bool :=
  decide (∀ d l, cfg.threads.lookup d = some l → d ≠ t → l.draining = false)

def Main.inSection : Main → Bool
  | .watch pc => pc.locked
  | _ => false

/-- A call of `ClearAll` or of the shutdown looks at the tables when every open
path is in one of them; until it returns no other goroutine is inside the
section of `installAfterTrial` or takes a path out of the trial registry. -/
def orderly (cfg : PathConfig) : PathAction → Bool
  | .step t choice =>
    match cfg.threads.lookup t with
    | none => true
    | some l =>
      match control t l choice with
      | none => true
      | some request =>
        (l.main.drain != some .snapshot || cfg.shared.accounted) &&
          (undrained cfg t ||
            !l.main.inSection &&
              cfg.shared.trialPaths.all fun p => !request.op.detaches cfg.shared p)
  | _ => true

/-- Once the shutdown has begun, the peer of a responder's path does not open
its streams. -/
def refusesLate (cfg : PathConfig) : PathAction → Bool
  | .step (.setup p) choice =>
    match cfg.threads.lookup (.setup p), cfg.shared.paths.lookup p with
    | some ⟨.setup .openStreams, none⟩, some path =>
      !(cfg.shared.cancelled && path.role = .responder && choice = .go)
    | _, _ => true
  | _ => true

variable {main : Main}

theorem orderly_step (horderly : orderly cfg (.step t choice) = true)
    (hlocal : cfg.threads.lookup t = some l) (hcontrol : control t l choice = some request) :
    (l.main.drain = some .snapshot → cfg.shared.accounted = true) ∧
      ∀ d l', cfg.threads.lookup d = some l' → d ≠ t → l'.draining = true →
        l.main.inSection = false ∧
          ∀ p ∈ cfg.shared.trialPaths, request.op.detaches cfg.shared p = false := by
  simp only [orderly, hlocal, hcontrol, Bool.and_eq_true, Bool.or_eq_true, bne_iff_ne,
    Bool.not_eq_true', List.all_eq_true, undrained, decide_eq_true_eq] at horderly
  obtain ⟨haccounted, halone⟩ := horderly
  refine ⟨fun hdrain => haccounted.resolve_left fun hne => hne hdrain, ?_⟩
  intro d l' hd hne hdraining
  refine halone.resolve_left fun hnone => ?_
  simp [hnone d l' hd hne] at hdraining

theorem control_of_mainStep (hmain : MainStep choice t main request) :
    control t ⟨main, none⟩ choice = some request := by
  cases hmain with
  | setup hcontrol | watch hcontrol | worker hcontrol | prune hcontrol | handover hcontrol
  | close hcontrol | apply hcontrol => simp only [control, mainControl, hcontrol, Option.map_some]

/-! ## Out of the route table -/

/-- The path is not in the route table and its watch loop is not about to put
it there. -/
structure Unrouted (p : PathId) (cfg : PathConfig) : Prop where
  table : ∀ dst, cfg.shared.routes.lookup dst ≠ some p
  watch : ∀ pc call, cfg.threads.lookup (.watch p) = some ⟨.watch pc, call⟩ →
    pc.locked = true → pc.committed = false

theorem MainOp.installs {op : PathOp Result} (hop : MainOp t main op)
    (hinstalls : op.installs p = true) :
    t = .watch p ∧ ∃ existing, main = .watch (.install existing) := by
  cases hop with
  | quiet hquiet =>
    simp [PathOp.installs_of_quiet hquiet] at hinstalls
  | @install q existing =>
    obtain rfl := of_decide_eq_true hinstalls
    exact ⟨rfl, existing, rfl⟩
  | _ => cases hinstalls

theorem end_installs (q p : PathId) (pc : EndPC) : (endControl q pc).op.installs p = false := by
  cases pc <;> rfl

theorem end_registers (q : PathId) (pc : EndPC) :
    (endControl q pc).op.registers = false ∧ (endControl q pc).op.switches = false := by
  cases pc <;> exact ⟨rfl, rfl⟩

theorem MainOp.registers (hop : MainOp t main op) (hregisters : op.registers = true) :
    ∃ n req, t = .handover n ∧ main = .handover (.register req) := by
  cases hop with
  | quiet hquiet =>
    simp [PathOp.registers_of_quiet hquiet] at hregisters
  | @register n req => exact ⟨n, req, rfl, rfl⟩
  | _ => cases hregisters

theorem watch_past_check {result : request.Result}
    (hcontrol : watchControl p choice pc = some request)
    (hexec : exec t s request.op = some (shared, result))
    (hlocked : (request.resume result).1.locked = true)
    (hcommitted : (request.resume result).1.committed = true) :
    pc.locked = true ∧ (pc.committed = true ∨ s.stateOf p = some .trial) := by
  refine ⟨?_, watch_commits hcontrol hexec hcommitted⟩
  rcases watch_locked hcontrol hexec hlocked with rfl | ⟨hpc, -⟩
  · cases hcontrol
    cases hcommitted
  · exact hpc

theorem Unrouted.spawn (h : Unrouted p cfg) (hspawn : spawnable cfg t l = true) :
    Unrouted p { cfg with threads := cfg.threads.insert t l } := by
  refine ⟨h.table, fun pc call hlookup hlocked => ?_⟩
  rcases lookup_insert_eq_some.1 hlookup with ⟨rfl, rfl⟩ | ⟨-, hold⟩
  · cases pc with
    | ready => rfl
    | _ => simp [spawnable] at hspawn
  · exact h.watch pc call hold hlocked

theorem Unrouted.call_step (h : Unrouted p cfg) {result : (endControl q pc).Result}
    (hlocal : cfg.threads.lookup t = some ⟨main, some (q, pc)⟩)
    (hexec : exec t cfg.shared (endControl q pc).op = some (shared, result)) (call : Call) :
    Unrouted p ⟨shared, cfg.threads.insert t ⟨main, call⟩⟩ := by
  refine ⟨fun dst hroute => ?_, fun wpc call' hlookup hlocked => ?_⟩
  · rcases exec_routes hexec hroute with hold | ⟨hinstalls, -⟩
    · exact h.table dst hold
    · simp [end_installs] at hinstalls
  · rcases lookup_insert_eq_some.1 hlookup with ⟨rfl, heq⟩ | ⟨-, hold⟩
    · cases heq
      exact h.watch wpc _ hlocal hlocked
    · exact h.watch wpc call' hold hlocked

/-- A closed path is not installed, and no path is by a step outside the
section. -/
theorem Unrouted.main_step (h : Unrouted p cfg) (hledger : Ledger cfg) {result : request.Result}
    (hlocal : cfg.threads.lookup t = some ⟨main, none⟩) (hmain : MainStep choice t main request)
    (hexec : exec t cfg.shared request.op = some (shared, result))
    (hsafe : cfg.shared.closed p = true ∨ main.inSection = false) :
    Unrouted p ⟨shared, cfg.threads.insert t (request.resume result)⟩ := by
  refine ⟨fun dst hroute => ?_, fun wpc call hlookup hlocked => ?_⟩
  · rcases exec_routes hexec hroute with hold | ⟨hinstalls, -⟩
    · exact h.table dst hold
    · obtain ⟨rfl, existing, rfl⟩ := (main_op hmain).installs hinstalls
      cases h.watch _ _ hlocal rfl
  · rcases lookup_insert_eq_some.1 hlookup with ⟨rfl, heq⟩ | ⟨-, hold⟩
    · cases hmain with
      | @watch _ pc inner hcontrol =>
        obtain rfl : wpc = (inner.resume result).1 := Main.watch.inj (congrArg Local.main heq)
        refine Bool.eq_false_iff.2 fun hcommitted => ?_
        obtain ⟨hpc, hcause⟩ := watch_past_check hcontrol hexec hlocked hcommitted
        rcases hsafe with hclosed | houtside
        · rcases hcause with hbefore | htrial
          · simp [h.watch pc none hlocal hpc] at hbefore
          · obtain ⟨state, hstate, hne⟩ := hledger.closed p hclosed
            rw [htrial] at hstate
            exact hne (Option.some.inj hstate).symm
        · simp [Main.inSection, hpc] at houtside
    · exact h.watch wpc call hold hlocked

/-! ## What is still ahead -/

def calling (call : Call) (p : PathId) : Prop := ∃ pc, call = some (p, pc)

def DrainPC.Ahead (s : Tables) (p : PathId) (call : Call) : DrainPC → Prop
  | .snapshot => True
  | .replace ps => calling call p ∨ p ∈ ps ∨ p ∈ s.trialPaths
  | .closePaths rest => calling call p ∨ p ∈ rest ∨ p ∈ s.trialPaths
  | .readTrial => calling call p ∨ p ∈ s.trialPaths
  | .closeTrial rest => calling call p ∨ p ∈ rest
  | .finished => False

def DrainPC.emptied : DrainPC → Bool
  | .snapshot => false
  | .replace _ => false
  | _ => true

section Ahead

variable {pc : DrainPC}

theorem DrainPC.Ahead.mono (h : pc.Ahead s p call)
    (htrial : pc.active = true → p ∈ s.trialPaths → p ∈ s'.trialPaths) : pc.Ahead s' p call := by
  cases pc with
  | snapshot => trivial
  | replace | closePaths => exact h.imp_right (Or.imp_right (htrial rfl))
  | readTrial => exact h.imp_right (htrial rfl)
  | closeTrial | finished => exact h

theorem DrainPC.Ahead.of_call (h : pc.Ahead s p (some (q, e))) (hne : q ≠ p) :
    pc.Ahead s p call := by
  have hcalling : ¬ calling (some (q, e)) p := by
    rintro ⟨e', heq⟩
    cases heq
    exact hne rfl
  cases pc with
  | snapshot => trivial
  | replace | closePaths | readTrial | closeTrial => exact .inr (h.resolve_left hcalling)
  | finished => exact h

theorem DrainPC.Ahead.calling_of_ne (hpc : pc ≠ .finished) (h : calling call p) :
    pc.Ahead s p call := by
  cases pc with
  | snapshot => trivial
  | finished => exact absurd rfl hpc
  | _ => exact .inl h

theorem closeNext_ahead (h : p ∈ ps ∨ p ∈ s.trialPaths) :
    (DrainPC.closeNext ps).1.Ahead s p (DrainPC.closeNext ps).2 := by
  cases ps with
  | nil => exact .inr (h.resolve_left List.not_mem_nil)
  | cons q rest =>
    rcases h with hmem | htrial
    · rcases List.mem_cons.1 hmem with rfl | hrest
      · exact .inl ⟨_, rfl⟩
      · exact .inr (.inl hrest)
    · exact .inr (.inr htrial)

theorem closeTrialNext_ahead (h : p ∈ ps) :
    (DrainPC.closeTrialNext ps).1.Ahead s p (DrainPC.closeTrialNext ps).2 := by
  cases ps with
  | nil => cases h
  | cons q rest =>
    rcases List.mem_cons.1 h with rfl | hrest
    · exact .inl ⟨_, rfl⟩
    · exact .inr hrest

theorem not_calling_none : ¬ calling none p := by
  rintro ⟨e, heq⟩
  cases heq

theorem ahead_main {result : request.Result} (hcontrol : drainControl pc = some request)
    (hexec : exec t s request.op = some (s', result))
    (haccounted : pc = .snapshot → s.closed p = true ∨ s.routed p = true ∨ p ∈ s.trialPaths)
    (hbounded : p < s.nextPath) (h : pc.Ahead s p none) :
    s.closed p = true ∨ (request.resume result).1.Ahead s' p (request.resume result).2 := by
  cases pc with
  | snapshot =>
    cases hcontrol
    cases hexec
    rcases haccounted rfl with hclosed | hrouted | htrial
    · exact .inl hclosed
    · exact .inr (.inr (.inl (List.mem_filter.2 ⟨List.mem_range.2 hbounded, hrouted⟩)))
    · exact .inr (.inr (.inr htrial))
  | replace ps =>
    cases hcontrol
    obtain ⟨-, hrest⟩ := Tables.locked_eq_some.1 hexec
    cases hrest
    exact .inr (closeNext_ahead (h.resolve_left not_calling_none))
  | closePaths rest =>
    cases hcontrol
    cases hexec
    exact .inr (closeNext_ahead (h.resolve_left not_calling_none))
  | readTrial =>
    cases hcontrol
    obtain ⟨-, hrest⟩ := Tables.locked_eq_some.1 hexec
    cases hrest
    exact .inr (closeTrialNext_ahead (h.resolve_left not_calling_none))
  | closeTrial rest =>
    cases hcontrol
    cases hexec
    exact .inr (closeTrialNext_ahead (h.resolve_left not_calling_none))
  | finished => cases hcontrol

end Ahead

/-! ## The call as a whole -/

/-- Once the call `d` has looked at the tables, the path is closed or still
ahead of it; once it has emptied the route table, the path is out of it. -/
structure Drained (d : Thread) (p : PathId) (cfg : PathConfig) : Prop where
  ledger : Ledger cfg
  registered : ∃ path, cfg.shared.paths.lookup p = some path
  covers : ∀ l pc, cfg.threads.lookup d = some l → l.main.drain = some pc →
    cfg.shared.closed p = true ∨ pc.Ahead cfg.shared p l.call
  unrouted : ∀ l pc, cfg.threads.lookup d = some l → l.main.drain = some pc →
    pc.emptied = true → Unrouted p cfg

theorem spawn_drain (hspawn : spawnable cfg t ⟨main, call⟩ = true) : main.drain = none := by
  cases main with
  | close pc =>
    cases pc with
    | cancel => rfl
    | drain pc => simp [spawnable] at hspawn
  | apply pc =>
    cases pc with
    | clear pc => simp [spawnable] at hspawn
    | _ => rfl
  | _ => rfl

theorem main_drain (hmain : MainStep choice t main request)
    (hexec : exec t s request.op = some (s', result))
    (hdrain : (request.resume result).main.drain = some pc') :
    pc' = .snapshot ∨
      ∃ (pc : DrainPC) (inner : Request PathOp (DrainPC × Call)) (r : inner.Result),
        main.drain = some pc ∧ drainControl pc = some inner ∧
          exec t s inner.op = some (s', r) ∧
          inner.resume r = (pc', (request.resume result).call) := by
  cases hmain with
  | @close pc request hcontrol =>
    cases pc with
    | cancel =>
      cases hcontrol
      exact .inl (Option.some.inj hdrain).symm
    | drain pc =>
      obtain ⟨inner, hinner, rfl⟩ := Option.map_eq_some_iff.1 hcontrol
      refine .inr ⟨pc, inner, result, rfl, hinner, hexec, Prod.ext ?_ rfl⟩
      exact Option.some.inj hdrain
  | @apply n pc request hcontrol =>
    cases pc with
    | set enabled =>
      cases hcontrol
      change (Main.apply (if _ then _ else _)).drain = some pc' at hdrain
      split at hdrain
      · exact .inl (Option.some.inj hdrain).symm
      · cases hdrain
    | clear pc =>
      obtain ⟨inner, hinner, rfl⟩ := Option.map_eq_some_iff.1 hcontrol
      refine .inr ⟨pc, inner, result, rfl, hinner, hexec, Prod.ext ?_ rfl⟩
      exact Option.some.inj hdrain
    | returned => cases hcontrol
  | _ => cases hdrain

theorem end_detaches (hne : q ≠ p) : (endControl q pc).op.detaches s p = false := by
  cases pc with
  | demoteUntrack | closeUntrack d => exact decide_eq_false hne
  | _ => rfl

theorem registered_exec {op : PathOp Result} {result : Result} (hvalid : s.Valid)
    (hexec : exec t s op = some (s', result)) (h : ∃ path, s.paths.lookup p = some path) :
    ∃ path, s'.paths.lookup p = some path := by
  obtain ⟨path, hp⟩ := h
  exact ⟨_, exec_update hvalid hexec hp⟩

theorem Drained.covers_other (h : Drained d p cfg) {op : PathOp Result} {result : Result}
    (hexec : exec t cfg.shared op = some (shared, result)) (hd : cfg.threads.lookup d = some l)
    (hdrain : l.main.drain = some pc)
    (hkeeps : l.draining = true → ∀ q ∈ cfg.shared.trialPaths, op.detaches cfg.shared q = false) :
    shared.closed p = true ∨ pc.Ahead shared p l.call := by
  rcases h.covers l pc hd hdrain with hclosed | hahead
  · exact .inl (exec_closed h.ledger.valid hexec hclosed)
  · refine .inr (hahead.mono fun hactive hp => exec_trialPaths hexec hp (hkeeps ?_ p hp))
    simp only [Local.draining, hdrain, hactive]

theorem Drained.call_step (h : Drained d p cfg) (hok : orderly cfg (.step t choice) = true)
    {epc : EndPC} {result : (endControl q epc).Result}
    (hlocal : cfg.threads.lookup t = some ⟨main, some (q, epc)⟩)
    (hexec : exec t cfg.shared (endControl q epc).op = some (shared, result)) :
    Drained d p ⟨shared, cfg.threads.insert t
      ⟨main, ((endControl q epc).resume result).map fun pc => (q, pc)⟩⟩ := by
  obtain ⟨-, hquiet⟩ := orderly_step hok hlocal rfl
  have hstep : PathStep cfg (.step t choice) _ := .call hlocal hexec
  refine ⟨h.ledger.step hstep, registered_exec h.ledger.valid hexec h.registered, ?_, ?_⟩
  · intro l pc hlookup hdrain
    rcases lookup_insert_eq_some.1 hlookup with ⟨rfl, rfl⟩ | ⟨hne, hold⟩
    · rcases h.covers _ pc hlocal hdrain with hclosed | hahead
      · exact .inl (exec_closed h.ledger.valid hexec hclosed)
      · by_cases hq : q = p
        · subst hq
          cases hresume : (endControl q epc).resume result with
          | none =>
            exact .inl (end_returns h.ledger.valid h.ledger.terminated (h.ledger.call _ _ hlocal)
              hexec hresume)
          | some next =>
            refine .inr (.calling_of_ne ?_ ⟨next, rfl⟩)
            rintro rfl
            exact hahead
        · exact .inr ((hahead.of_call hq).mono
            fun _ hp => exec_trialPaths hexec hp (end_detaches hq))
    · exact h.covers_other hexec hold hdrain fun hdraining => (hquiet d l hold hne hdraining).2
  · intro l pc hlookup hdrain hemptied
    rcases lookup_insert_eq_some.1 hlookup with ⟨rfl, rfl⟩ | ⟨-, hold⟩
    · exact (h.unrouted _ pc hlocal hdrain hemptied).call_step hlocal hexec _
    · exact (h.unrouted l pc hold hdrain hemptied).call_step hlocal hexec _

theorem unrouted_replace (hledger : Ledger cfg)
    (hexec : exec t cfg.shared .replaceRoutes = some (shared, u)) (ht : ∀ pc, l.main ≠ .watch pc) :
    Unrouted p ⟨shared, cfg.threads.insert t l⟩ := by
  obtain ⟨hmu, hrest⟩ := Tables.locked_eq_some.1 hexec
  cases hrest
  refine ⟨fun dst hroute => ?_, fun pc call hlookup hlocked => ?_⟩
  · simp at hroute
  · rcases lookup_insert_eq_some.1 hlookup with ⟨-, rfl⟩ | ⟨-, hold⟩
    · exact absurd rfl (ht pc)
    · have hheld : cfg.shared.routeMu = some (.watch p) := hledger.main _ _ hold hlocked
      simp [hmu] at hheld

theorem inSection_of_drain (hdrain : main.drain = some pc) : main.inSection = false := by
  cases main with
  | watch wpc => cases hdrain
  | _ => rfl

theorem Drained.unrouted_own (h : Drained t p cfg)
    (hlocal : cfg.threads.lookup t = some ⟨main, none⟩) (hmain : MainStep choice t main request)
    (hexec : exec t cfg.shared request.op = some (shared, result))
    (hdrain : (request.resume result).main.drain = some pc') (hemptied : pc'.emptied = true) :
    Unrouted p ⟨shared, cfg.threads.insert t (request.resume result)⟩ := by
  rcases main_drain hmain hexec hdrain with rfl | ⟨pc, inner, r, hpc, hinner, hexec', hresume⟩
  · cases hemptied
  · cases pc with
    | snapshot =>
      cases hinner
      obtain rfl := congrArg Prod.fst hresume
      cases hemptied
    | replace ps =>
      cases hinner
      refine unrouted_replace h.ledger hexec' fun wpc hwatch => ?_
      rw [hwatch] at hdrain
      cases hdrain
    | _ =>
      exact (h.unrouted _ _ hlocal hpc rfl).main_step h.ledger hlocal hmain hexec
        (.inr (inSection_of_drain hpc))

theorem Drained.main_step (h : Drained d p cfg) (hok : orderly cfg (.step t choice) = true)
    {result : request.Result} (hlocal : cfg.threads.lookup t = some ⟨main, none⟩)
    (hmain : MainStep choice t main request)
    (hexec : exec t cfg.shared request.op = some (shared, result)) :
    Drained d p ⟨shared, cfg.threads.insert t (request.resume result)⟩ := by
  obtain ⟨haccounted, hquiet⟩ := orderly_step hok hlocal (control_of_mainStep hmain)
  have hstep : PathStep cfg (.step t choice) _ := .main hlocal hmain hexec
  refine ⟨h.ledger.step hstep, registered_exec h.ledger.valid hexec h.registered, ?_, ?_⟩
  · intro l pc' hlookup hdrain
    rcases lookup_insert_eq_some.1 hlookup with ⟨rfl, rfl⟩ | ⟨hne, hold⟩
    · rcases main_drain hmain hexec hdrain with rfl | ⟨pc, inner, r, hpc, hinner, hexec', hresume⟩
      · exact .inr trivial
      · rcases h.covers _ pc hlocal hpc with hclosed | hahead
        · exact .inl (exec_closed h.ledger.valid hexec hclosed)
        · obtain ⟨path, hp⟩ := h.registered
          have hbounded := h.ledger.valid.bounded p path hp
          have hseen : pc = .snapshot → cfg.shared.closed p = true ∨ cfg.shared.routed p = true ∨
              p ∈ cfg.shared.trialPaths := by
            rintro rfl
            have hall := List.all_eq_true.1 (haccounted hpc) p (List.mem_range.2 hbounded)
            simpa [Bool.or_eq_true, or_assoc] using hall
          have hnext := ahead_main hinner hexec' hseen hbounded hahead
          rw [hresume] at hnext
          exact hnext.imp_left (exec_closed h.ledger.valid hexec)
    · exact h.covers_other hexec hold hdrain fun hdraining => (hquiet d l hold hne hdraining).2
  · intro l pc' hlookup hdrain hemptied
    rcases lookup_insert_eq_some.1 hlookup with ⟨rfl, rfl⟩ | ⟨hne, hold⟩
    · exact h.unrouted_own hlocal hmain hexec hdrain hemptied
    · refine (h.unrouted l pc' hold hdrain hemptied).main_step h.ledger hlocal hmain hexec ?_
      cases hactive : pc'.active with
      | true =>
        exact .inr (hquiet d l hold hne (by simp only [Local.draining, hdrain, hactive])).1
      | false =>
        cases pc' with
        | finished => exact .inl ((h.covers l _ hold hdrain).resolve_right id)
        | snapshot => cases hemptied
        | _ => cases hactive

/-- A path that the call has covered stays covered. -/
theorem Drained.step {action : PathAction} (h : Drained d p cfg) (hok : orderly cfg action = true)
    (hstep : PathStep cfg action cfg') : Drained d p cfg' := by
  cases hstep with
  | @spawn t l hfresh hspawn =>
    refine ⟨h.ledger.step (.spawn hfresh hspawn), h.registered, ?_, ?_⟩
    · intro l' pc hlookup hdrain
      rcases lookup_insert_eq_some.1 hlookup with ⟨rfl, rfl⟩ | ⟨-, hold⟩
      · simp [spawn_drain hspawn] at hdrain
      · exact h.covers l' pc hold hdrain
    · intro l' pc hlookup hdrain hemptied
      rcases lookup_insert_eq_some.1 hlookup with ⟨rfl, rfl⟩ | ⟨-, hold⟩
      · simp [spawn_drain hspawn] at hdrain
      · exact (h.unrouted l' pc hold hdrain hemptied).spawn hspawn
  | call hlocal hexec => exact h.call_step hok hlocal hexec
  | main hlocal hmain hexec => exact h.main_step hok hlocal hmain hexec

/-! ## After the shutdown -/

/-- The set-up of a path that was registered after the shutdown does not
succeed. -/
structure Late (p : PathId) (cfg : PathConfig) : Prop where
  ledger : Ledger cfg
  cancelled : cfg.shared.cancelled = true
  setup : ∀ pc call, cfg.threads.lookup (.setup p) = some ⟨.setup pc, call⟩ →
    pc = .openStreams ∨ pc = .failed ∨ pc = .done false

theorem openStreams_fails
    (hlocal : cfg.threads.lookup (.setup p) = some ⟨.setup .openStreams, none⟩)
    (hexec : exec (.setup p) cfg.shared (.openStreams p (choice = .go)) = some (shared, ok))
    (hcancelled : cfg.shared.cancelled = true)
    (hrefuses : refusesLate cfg (.step (.setup p) choice) = true) : ok = false := by
  obtain ⟨path, hp, hrest⟩ := Tables.onPath_eq_some.1 hexec
  cases hrest
  simp only [refusesLate, hlocal, hp, hcancelled, Bool.true_and, Bool.not_eq_true'] at hrefuses
  rw [hcancelled, Bool.true_and]
  cases hrole : path.role with
  | initiator => exact Bool.and_false _
  | responder =>
    simp only [hrole, decide_true, Bool.true_and] at hrefuses
    rw [hrefuses, Bool.false_and]

theorem Late.step (h : Late p cfg) (hrefuses : refusesLate cfg action = true)
    (hstep : PathStep cfg action cfg') : Late p cfg' := by
  have hledger := h.ledger.step hstep
  cases hstep with
  | @spawn t l hfresh hspawn =>
    refine ⟨hledger, h.cancelled, fun pc call hlookup => ?_⟩
    rcases lookup_insert_eq_some.1 hlookup with ⟨rfl, rfl⟩ | ⟨-, hold⟩
    · cases pc with
      | openStreams => exact .inl rfl
      | _ => simp [spawnable] at hspawn
    · exact h.setup pc call hold
  | @call t choice main q epc shared result hlocal hexec =>
    refine ⟨hledger, exec_cancelled hexec h.cancelled, fun pc call hlookup => ?_⟩
    rcases lookup_insert_eq_some.1 hlookup with ⟨rfl, heq⟩ | ⟨-, hold⟩
    · cases heq
      exact h.setup pc _ hlocal
    · exact h.setup pc call hold
  | @main t choice main request shared result hlocal hmain hexec =>
    refine ⟨hledger, exec_cancelled hexec h.cancelled, fun pc call hlookup => ?_⟩
    rcases lookup_insert_eq_some.1 hlookup with ⟨rfl, heq⟩ | ⟨-, hold⟩
    · cases hmain with
      | @setup _ pc' inner hcontrol =>
        obtain rfl : pc = (inner.resume result).1 := Main.setup.inj (congrArg Local.main heq)
        rcases h.setup pc' none hlocal with rfl | rfl | rfl
        · cases hcontrol
          obtain rfl := openStreams_fails hlocal hexec h.cancelled hrefuses
          exact .inr (.inl rfl)
        · cases hcontrol
          exact .inr (.inr rfl)
        · cases hcontrol
    · exact h.setup pc call hold

/-! ## Whole runs -/

theorem drainOf_eq_some :
    drainOf cfg d = some (pc, call) ↔
      ∃ l, cfg.threads.lookup d = some l ∧ l.main.drain = some pc ∧ l.call = call := by
  simp only [drainOf, Option.bind_eq_some_iff, Option.map_eq_some_iff, Prod.mk.injEq]
  constructor
  · rintro ⟨l, hl, pc', hpc, rfl, rfl⟩
    exact ⟨l, hl, hpc, rfl⟩
  · rintro ⟨l, hl, hpc, rfl⟩
    exact ⟨l, hl, pc, hpc, rfl, rfl⟩

theorem returned_eq_true (hreturned : returned cfg d = true) :
    ∃ l, cfg.threads.lookup d = some l ∧ l.main.drain = some .finished := by
  unfold returned at hreturned
  split at hreturned
  next call hdrain =>
    obtain ⟨l, hl, hpc, -⟩ := drainOf_eq_some.1 hdrain
    exact ⟨l, hl, hpc⟩
  · cases hreturned

theorem drained_of_pending (hledger : Ledger cfg)
    (hregistered : (cfg.shared.stateOf p).isSome = true) (hpending : pending cfg d = true) :
    Drained d p cfg := by
  have hsnapshot : ∀ l pc, cfg.threads.lookup d = some l → l.main.drain = some pc →
      pc = .snapshot := by
    intro l pc hl hpc
    have hdrain := drainOf_eq_some.2 ⟨l, hl, hpc, rfl⟩
    rw [pending, hdrain] at hpending
    exact of_decide_eq_true hpending
  refine ⟨hledger, ?_, fun l pc hl hpc => ?_, fun l pc hl hpc hemptied => ?_⟩
  · rw [Tables.stateOf, Option.isSome_map] at hregistered
    exact Option.isSome_iff_exists.1 hregistered
  · obtain rfl := hsnapshot l pc hl hpc
    exact .inr trivial
  · obtain rfl := hsnapshot l pc hl hpc
    cases hemptied

theorem late_of_returned (hledger : Ledger cfg) (hreturned : returned cfg .close = true)
    (hfresh : cfg.shared.stateOf p = none) : Late p cfg := by
  refine ⟨hledger, ?_, fun pc call hlookup => ?_⟩
  · obtain ⟨⟨main, call⟩, hl, hdrain⟩ := returned_eq_true hreturned
    have hmain := hledger.main _ _ hl
    cases main with
    | close cpc =>
      cases cpc with
      | cancel => cases hdrain
      | drain pc => exact hmain
    | apply apc => exact hmain.elim
    | _ => cases hdrain
  · obtain ⟨⟨state, hstate⟩, -⟩ := hledger.main _ _ hlookup
    simp [hfresh] at hstate

/-- In every run in which no path is on its way between the tables while a
call of `ClearAll` or of the shutdown is under way, the call closes every path
that was registered before it and takes it out of the route table for good;
and no path that is handed over after the shutdown stays open. -/
theorem drains_complete (enabled : Bool) (front rest : List PathAction) (cfg cfg' : PathConfig)
    (horderly : Along system.next
      (fun cfg action => orderly cfg action = true ∧ refusesLate cfg action = true)
      (initial enabled) (front ++ rest))
    (hfront : run system.next (initial enabled) front = some cfg)
    (hrest : run system.next cfg rest = some cfg') : Complete cfg cfg' := by
  obtain ⟨horderly, horderly'⟩ := along_append.1 horderly
  have hledger : Ledger cfg := by
    refine run_invariant ?_ (initial_ledger enabled) horderly hfront
    intro s action next hs hok hnext
    exact hs.step (pathStep_of_next hnext)
  have hdrained : ∀ d p, (cfg.shared.stateOf p).isSome = true → pending cfg d = true →
      returned cfg' d = true → cfg'.shared.closed p = true ∧ Unrouted p cfg' := by
    intro d p hregistered hpending hreturned
    have hlater : Drained d p cfg' := by
      refine run_invariant ?_ (drained_of_pending hledger hregistered hpending)
        (horderly' cfg hfront) hrest
      intro s action next hs hok hnext
      exact hs.step hok.1 (pathStep_of_next hnext)
    obtain ⟨l, hl, hpc⟩ := returned_eq_true hreturned
    exact ⟨(hlater.covers l _ hl hpc).resolve_right id, hlater.unrouted l _ hl hpc rfl⟩
  refine ⟨fun d p hregistered hpending hreturned => ?_,
    fun d p hregistered hpending hreturned => ?_,
    fun p hreturned hfresh hover => ?_⟩
  · exact (hdrained d p hregistered hpending hreturned).1
  · exact (hdrained d p hregistered hpending hreturned).2.table
  · have hlater : Late p cfg' := by
      refine run_invariant ?_ (late_of_returned hledger hreturned hfresh)
        (horderly' cfg hfront) hrest
      intro s action next hs hok hnext
      exact hs.step hok.2 (pathStep_of_next hnext)
    unfold setUpOver at hover
    split at hover
    next ok hlookup =>
      obtain ⟨-, -, hclosed⟩ := hlater.ledger.main _ _ hlookup
      rcases hlater.setup _ _ hlookup with heq | heq | heq <;> cases heq
      exact hclosed rfl rfl
    · cases hover

/-! ## A path that is on its way -/

/-- A path has left the trial registry and is not yet in the route table. -/
def passingRun : List PathAction :=
  handoverRun 0 0 peerReq ++ passRun 0 ++ goes (.watch 0) 3

/-- One path is in the route table, another one on trial. -/
def restingRun : List PathAction :=
  handoverRun 0 0 peerReq ++ passRun 0 ++ goes (.watch 0) 9 ++
    handoverRun 1 1 { peerReq with peer := 0x0a000066 }

/-- The switch is turned off, with so many steps of the call. -/
def switchOffRun (n : Nat) : List PathAction :=
  .spawn (.apply 0) ⟨.apply (.set false), none⟩ :: goes (.apply 0) n

/-- `ClearAll` sees the path in neither table, and the path is installed
after it has returned. -/
theorem path_missed_by_both :
    ¬ ∀ enabled front rest cfg cfg', run system.next (initial enabled) front = some cfg →
      run system.next cfg rest = some cfg' → Complete cfg cfg' := by
  intro h
  obtain ⟨cfg, hcfg, hregistered, hpending, cfg', hcfg', hreturned, hopen, -⟩ : ∃ cfg,
      run system.next (initial true) passingRun = some cfg ∧
      (cfg.shared.stateOf 0).isSome = true ∧ pending cfg (.apply 0) = true ∧
      ∃ cfg', run system.next cfg (switchOffRun 4 ++ goes (.watch 0) 6) = some cfg' ∧
        returned cfg' (.apply 0) = true ∧ cfg'.shared.closed 0 = false ∧
        cfg'.shared.routes.lookup peerReq.peer = some 0 := by
    decide +kernel
  have hclosed := (h true _ _ cfg cfg' hcfg hcfg').closed _ 0 hregistered hpending hreturned
  simp [hopen] at hclosed

theorem resting_paths_closed :
    ∃ cfg cfg', run system.next (initial true) restingRun = some cfg ∧
      run system.next cfg (switchOffRun 16) = some cfg' ∧ returned cfg' (.apply 0) = true ∧
      cfg'.shared.closed 0 = true ∧ cfg'.shared.closed 1 = true := by
  obtain ⟨cfg, hcfg, hzero, hone, hpending, cfg', hcfg', hreturned⟩ : ∃ cfg,
      run system.next (initial true) restingRun = some cfg ∧
      (cfg.shared.stateOf 0).isSome = true ∧ (cfg.shared.stateOf 1).isSome = true ∧
      pending cfg (.apply 0) = true ∧
      ∃ cfg', run system.next cfg (switchOffRun 16) = some cfg' ∧
        returned cfg' (.apply 0) = true := by
    decide +kernel
  have hcomplete : Complete cfg cfg' :=
    drains_complete true restingRun (switchOffRun 16) cfg cfg' (by decide +kernel) hcfg hcfg'
  exact ⟨cfg, cfg', hcfg, hcfg', hreturned, hcomplete.closed _ 0 hzero hpending hreturned,
    hcomplete.closed _ 1 hone hpending hreturned⟩

end Hy2Link.Client.Path
