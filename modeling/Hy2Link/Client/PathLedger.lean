import Hy2Link.Client.PathDown

/-! # Bookkeeping of the path manager

What holds in every run, whatever the goroutines do: a closed path is no
longer on trial, a finished `terminateDown` has closed its path, and the watch
loop that is inside the section of `installAfterTrial` holds `routeMu`.
-/

namespace Hy2Link.Client.Path

open Interleaving Tables

def Tables.offTrial (s : Tables) (p : PathId) : Prop :=
  ∃ state, s.stateOf p = some state ∧ state ≠ .trial

def CallFact (s : Tables) : Call → Prop
  | some (p, .closeConn _) => s.offTrial p
  | some (p, .demoted) => s.closed p = true
  | _ => True

def MainFact (s : Tables) (t : Thread) (l : Local) : Prop :=
  match t, l.main with
  | .watch _, .watch pc => pc.locked = true → s.routeMu = some t
  | .setup p, .setup pc =>
    (∃ state, s.stateOf p = some state) ∧
      (∀ q e, l.call = some (q, e) → q = p) ∧
      (pc = .done false → l.call = none → s.closed p = true)
  | .close, .close (.drain _) => s.cancelled = true
  | .close, .apply _ => False
  | _, _ => True

structure Ledger (cfg : PathConfig) : Prop where
  valid : cfg.shared.Valid
  closed : ∀ p, cfg.shared.closed p = true → cfg.shared.offTrial p
  terminated : ∀ p, cfg.shared.terminated p = true → cfg.shared.closed p = true
  call : ∀ t l, cfg.threads.lookup t = some l → CallFact cfg.shared l.call
  main : ∀ t l, cfg.threads.lookup t = some l → MainFact cfg.shared t l

/-! ## What an operation keeps -/

section Keep

variable {Result : Type}

theorem offTrial_exec (hvalid : s.Valid) (hexec : exec t s op = some (s', result))
    (hwrites : ∀ old, op.writes p ≠ some (old, .trial)) (h : s.offTrial p) : s'.offTrial p := by
  obtain ⟨state, hstate, hne⟩ := h
  refine ⟨_, exec_stateOf hvalid hexec hstate, ?_⟩
  cases hop : op.writes p with
  | none => exact hne
  | some write =>
    obtain ⟨old, new⟩ := write
    have hnew : new ≠ .trial := fun heq => hwrites old (heq ▸ hop)
    cases old with
    | none => exact hnew
    | some old =>
      dsimp only
      split
      · exact hnew
      · exact hne

theorem stateOf_exec (hvalid : s.Valid) (hexec : exec t s op = some (s', result))
    (h : ∃ state, s.stateOf p = some state) : ∃ state, s'.stateOf p = some state := by
  obtain ⟨state, hstate⟩ := h
  exact ⟨_, exec_stateOf hvalid hexec hstate⟩

theorem callFact_exec (hvalid : s.Valid) (hexec : exec t s op = some (s', result))
    (hwrites : ∀ p old, op.writes p ≠ some (old, .trial)) (h : CallFact s call) :
    CallFact s' call := by
  cases call with
  | none => trivial
  | some frame =>
    obtain ⟨p, pc⟩ := frame
    cases pc with
    | closeConn d => exact offTrial_exec hvalid hexec (hwrites p) h
    | demoted => exact exec_closed hvalid hexec h
    | _ => trivial

/-- The other threads keep what they know: nobody but its holder gives the
mutex back. -/
theorem mainFact_exec (hvalid : s.Valid) (hexec : exec t s op = some (s', result))
    (hunlocks : op.unlocks = true → s.routeMu = some t) (hne : t' ≠ t) (h : MainFact s t' l) :
    MainFact s' t' l := by
  obtain ⟨main, call⟩ := l
  cases t' with
  | watch p =>
    cases main with
    | watch pc =>
      intro hlocked
      have hmu : s.routeMu = some (.watch p) := h hlocked
      refine exec_routeMu hexec hmu (Bool.eq_false_iff.2 fun hop => ?_)
      rw [hunlocks hop] at hmu
      exact hne (Option.some.inj hmu).symm
    | _ => trivial
  | setup p =>
    cases main with
    | setup pc =>
      obtain ⟨hstate, hcall, hdone⟩ := h
      exact ⟨stateOf_exec hvalid hexec hstate, hcall,
        fun hpc hnone => exec_closed hvalid hexec (hdone hpc hnone)⟩
    | _ => trivial
  | close =>
    cases main with
    | close pc =>
      cases pc with
      | cancel => trivial
      | drain pc => exact exec_cancelled hexec h
    | apply pc => exact h
    | _ => trivial
  | _ => trivial

end Keep

theorem end_writes_trial (q p : PathId) (pc : EndPC) (old : Option PathState) :
    (endControl q pc).op.writes p ≠ some (old, .trial) := by
  rcases end_writes q p pc with hnone | ⟨-, -, hdown⟩
  · rw [hnone]
    nofun
  · rw [hdown]
    nofun

section Main

variable {Result : Type}

theorem MainOp.writes_trial (hop : MainOp t main op) (p : PathId) (old : Option PathState) :
    op.writes p ≠ some (old, .trial) := by
  rcases hop.writes p with
    hnone | ⟨-, -, state, hjudged, hwrites⟩ | ⟨expected, new, -, hjudged, hwrites⟩
  · rw [hnone]
    nofun
  · rw [hwrites]
    intro heq
    cases heq
    cases hjudged
  · rw [hwrites]
    intro heq
    cases heq
    cases hjudged

theorem MainOp.unlocks (hop : MainOp t main op) (hunlocks : op.unlocks = true) :
    ∃ p pc, t = .watch p ∧ main = .watch pc ∧ pc.locked = true := by
  cases hop with
  | quiet hquiet =>
    simp [PathOp.unlocks_of_quiet hquiet] at hunlocks
  | @unlock p pc hpc => exact ⟨p, pc, rfl, rfl, hpc⟩
  | _ => cases hunlocks

theorem MainOp.ends (hop : MainOp t main op) (p : PathId) :
    op.closes p = false ∧ op.terminates p = false := by
  cases hop with
  | quiet hquiet => exact PathOp.ends_of_quiet hquiet p
  | _ => exact ⟨rfl, rfl⟩

end Main

/-! ## The calls -/

theorem end_unlocks (q : PathId) (pc : EndPC) : (endControl q pc).op.unlocks = false := by
  cases pc <;> rfl

theorem end_closes (hcloses : (endControl q pc).op.closes p = true) :
    q = p ∧ ∃ d, pc = .closeConn d := by
  cases pc with
  | closeConn d => exact ⟨of_decide_eq_true hcloses, d, rfl⟩
  | _ => cases hcloses

theorem end_terminates (hterminates : (endControl q pc).op.terminates p = true) :
    q = p ∧ pc = .demoted := by
  cases pc with
  | demoted => exact ⟨of_decide_eq_true hterminates, rfl⟩
  | _ => cases hterminates

theorem exec_finishClose (hvalid : s.Valid) (hexec : exec t s (.finishClose q) = some (s', u)) :
    s'.closed q = true := by
  obtain ⟨path, hq, -⟩ := onPath_eq_some.1 hexec
  refine closed_eq_true.2 ⟨_, exec_update hvalid hexec hq, ?_⟩
  simp only [PathOp.update, if_true]

theorem exec_enterClose (hexec : exec t s (.enterClose q) = some (s', false)) :
    s'.closed q = true := by
  obtain ⟨path, hq, hrest⟩ := onPath_eq_some.1 hexec
  rcases enterOnce_eq_some.1 hrest with ⟨-, -, hmine⟩ | ⟨hdone, rfl, -⟩
  · cases hmine
  · exact closed_eq_true.2 ⟨path, hq, hdone⟩

theorem exec_enterTerminate (hexec : exec t s (.enterTerminate q) = some (s', false)) :
    s' = s ∧ s.terminated q = true := by
  obtain ⟨path, hq, hrest⟩ := onPath_eq_some.1 hexec
  rcases enterOnce_eq_some.1 hrest with ⟨-, -, hmine⟩ | ⟨hdone, rfl, -⟩
  · cases hmine
  · exact ⟨rfl, terminated_eq_true.2 ⟨path, hq, hdone⟩⟩

theorem exec_setState (hvalid : s.Valid) (hexec : exec t s (.setState q state) = some (s', u)) :
    s'.stateOf q = some state := by
  obtain ⟨path, hq, -⟩ := onPath_eq_some.1 hexec
  have hstate : s.stateOf q = some path.state := by rw [stateOf, hq, Option.map_some]
  rw [exec_stateOf hvalid hexec hstate]
  simp only [PathOp.writes, if_true]

theorem end_returns (hvalid : s.Valid)
    (hterminated : ∀ p, s.terminated p = true → s.closed p = true)
    (hfact : CallFact s (some (q, pc)))
    (hexec : exec t s (endControl q pc).op = some (s', result))
    (hnone : (endControl q pc).resume result = none) : s'.closed q = true := by
  cases pc with
  | demote =>
    cases hmine : (result : Bool) with
    | true =>
      rw [hmine] at hnone
      cases hnone
    | false =>
      rw [hmine] at hexec
      obtain ⟨rfl, hdone⟩ := exec_enterTerminate hexec
      exact hterminated q hdone
  | close d =>
    cases hmine : (result : Bool) with
    | true =>
      rw [hmine] at hnone
      cases hnone
    | false =>
      rw [hmine] at hexec
      exact exec_enterClose hexec
  | closeConn d => exact exec_finishClose hvalid hexec
  | demoted => exact exec_closed hvalid hexec hfact
  | _ => cases hnone

theorem callFact_call (hvalid : s.Valid)
    (hexec : exec t s (endControl q pc).op = some (s', result)) :
    CallFact s' (((endControl q pc).resume result).map fun pc => (q, pc)) := by
  cases pc with
  | demote => cases hmine : (result : Bool) <;> trivial
  | close d =>
    cases hmine : (result : Bool) with
    | true => trivial
    | false =>
      rw [hmine] at hexec
      cases d with
      | true => exact exec_enterClose hexec
      | false => trivial
  | closeDown d => exact ⟨.down, exec_setState hvalid hexec, nofun⟩
  | closeConn d =>
    cases d with
    | true => exact exec_finishClose hvalid hexec
    | false => trivial
  | _ => trivial

/-! ## The main programs -/

def starts : Call → Bool
  | none => true
  | some (_, .close false) => true
  | some (_, .demote) => true
  | _ => false

theorem callFact_of_starts (h : starts call = true) : CallFact s call := by
  unfold starts at h
  split at h
  · trivial
  · trivial
  · trivial
  · cases h

theorem drain_starts (hcontrol : drainControl pc = some request) (result : request.Result) :
    starts (request.resume result).2 = true := by
  cases pc with
  | replace ps =>
    cases hcontrol
    cases ps <;> rfl
  | closePaths rest | closeTrial rest =>
    cases hcontrol
    cases rest <;> rfl
  | readTrial =>
    cases hcontrol
    cases result <;> rfl
  | snapshot =>
    cases hcontrol
    rfl
  | finished => cases hcontrol

theorem watch_starts (hcontrol : watchControl p choice pc = some request)
    (result : request.Result) : starts (request.resume result).2 = true := by
  cases pc with
  | select =>
    cases choice <;> cases hcontrol <;> dsimp only <;>
      first
      | rfl
      | (split <;> rfl)
  | failDone =>
    cases hcontrol
    dsimp only
    repeat' split
    all_goals rfl
  | echo =>
    cases hcontrol
    dsimp only
    split <;> rfl
  | unlock existing =>
    cases hcontrol
    cases existing <;> rfl
  | done => cases hcontrol
  | _ =>
    cases hcontrol
    rfl

theorem main_starts (hmain : MainStep choice t main request) (result : request.Result) :
    starts (request.resume result).call = true := by
  cases hmain with
  | @setup _ pc _ hcontrol | @handover _ pc _ hcontrol => cases pc <;> cases hcontrol <;> rfl
  | @watch p pc request hcontrol => exact watch_starts hcontrol result
  | @worker p n pc request hcontrol =>
    cases pc with
    | running => cases choice <;> cases hcontrol <;> rfl
    | readFailed =>
      cases hcontrol
      change starts (if PathState.alive _ then _ else _ : WorkerPC × Call).2 = true
      split <;> rfl
    | _ => cases hcontrol <;> rfl
  | @prune pc request hcontrol =>
    cases pc with
    | start => cases choice <;> cases hcontrol <;> rfl
    | evict p rest =>
      cases hcontrol
      change starts (if choice = .idle then _ else _ : PrunePC × Call).2 = true
      split <;> rfl
    | _ => cases hcontrol <;> rfl
  | @close pc request hcontrol =>
    cases pc with
    | cancel =>
      cases hcontrol
      rfl
    | drain pc =>
      obtain ⟨inner, hinner, rfl⟩ := Option.map_eq_some_iff.1 hcontrol
      exact drain_starts hinner result
  | @apply n pc request hcontrol =>
    cases pc with
    | set enabled =>
      cases hcontrol
      rfl
    | clear pc =>
      obtain ⟨inner, hinner, rfl⟩ := Option.map_eq_some_iff.1 hcontrol
      exact drain_starts hinner result
    | returned => cases hcontrol

theorem watch_locked (hcontrol : watchControl p choice pc = some request)
    (hexec : exec t s request.op = some (shared, result))
    (hlocked : (request.resume result).1.locked = true) :
    pc = .lock ∨ pc.locked = true ∧ request.op.unlocks = false := by
  have hedge := watch_edge hcontrol hexec
  generalize (request.resume result).1 = next at hedge hlocked
  cases hedge with
  | leave hnext => cases next <;> cases hnext <;> cases hlocked
  | check => exact .inl rfl
  | abandon | arbitrate | refuse | install | setUp | unlock =>
    cases hcontrol
    exact .inr ⟨rfl, rfl⟩
  | _ => cases hlocked

theorem setup_resume (hcontrol : setupControl p choice pc = some request) (result : request.Result)
    :
    (∀ q e, (request.resume result).2 = some (q, e) → q = p) ∧
      ((request.resume result).1 = .done false → (request.resume result).2 ≠ none) := by
  cases pc with
  | openStreams =>
    cases hcontrol
    refine ⟨nofun, fun hdone => ?_⟩
    cases hok : (result : Bool) <;> rw [hok] at hdone <;> cases hdone
  | hello =>
    cases hcontrol
    refine ⟨nofun, fun hdone => ?_⟩
    dsimp only [goto] at hdone
    split at hdone <;> cases hdone
  | ready =>
    cases hcontrol
    exact ⟨nofun, nofun⟩
  | failed =>
    cases hcontrol
    refine ⟨fun q e hcall => ?_, nofun⟩
    cases hcall
    rfl
  | done ok => cases hcontrol

theorem mainFact_main (hvalid : s.Valid) (hmain : MainStep choice t main request)
    (hexec : exec t s request.op = some (s', result)) (h : MainFact s t ⟨main, none⟩) :
    MainFact s' t (request.resume result) := by
  cases hmain with
  | @setup p pc request hcontrol =>
    obtain ⟨hcall, hdone⟩ := setup_resume hcontrol result
    exact ⟨stateOf_exec hvalid hexec h.1, hcall, fun hpc hnone => absurd hnone (hdone hpc)⟩
  | @watch p pc request hcontrol =>
    intro hlocked
    rcases watch_locked hcontrol hexec hlocked with rfl | ⟨hpc, hop⟩
    · cases hcontrol
      obtain ⟨-, hrest⟩ := locked_eq_some.1 hexec
      cases hrest
      rfl
    · exact exec_routeMu hexec (h hpc) hop
  | @close pc request hcontrol =>
    cases pc with
    | cancel =>
      cases hcontrol
      cases hexec
      rfl
    | drain pc =>
      obtain ⟨inner, hinner, rfl⟩ := Option.map_eq_some_iff.1 hcontrol
      exact exec_cancelled hexec h
  | _ => trivial

theorem mainFact_call (hvalid : s.Valid)
    (hterminated : ∀ p, s.terminated p = true → s.closed p = true)
    (hfact : CallFact s (some (q, pc))) (hexec : exec t s (endControl q pc).op = some (s', result))
    (h : MainFact s t ⟨main, some (q, pc)⟩) :
    MainFact s' t ⟨main, ((endControl q pc).resume result).map fun pc => (q, pc)⟩ := by
  cases t with
  | watch p =>
    cases main with
    | watch wpc =>
      intro hlocked
      exact exec_routeMu hexec (h hlocked) (end_unlocks q pc)
    | _ => trivial
  | setup p =>
    cases main with
    | setup spc =>
      obtain ⟨hstate, hcall, -⟩ := h
      obtain rfl := hcall q pc rfl
      refine ⟨stateOf_exec hvalid hexec hstate, fun r e hmap => ?_, fun _ hnone => ?_⟩
      · obtain ⟨e', -, heq⟩ := Option.map_eq_some_iff.1 hmap
        cases heq
        rfl
      · exact end_returns hvalid hterminated hfact hexec (Option.map_eq_none_iff.1 hnone)
    | _ => trivial
  | close =>
    cases main with
    | close cpc =>
      cases cpc with
      | cancel => trivial
      | drain dpc => exact exec_cancelled hexec h
    | apply apc => exact h
    | _ => trivial
  | _ => trivial

/-! ## The invariant -/

theorem mainFact_spawn (hspawn : spawnable cfg t l = true) :
    l.call = none ∧ MainFact cfg.shared t l := by
  obtain ⟨main, call⟩ := l
  simp only [spawnable, Bool.and_eq_true, Option.isNone_iff_eq_none] at hspawn
  obtain ⟨rfl, hspawn⟩ := hspawn
  refine ⟨rfl, ?_⟩
  split at hspawn
  · obtain ⟨path, hp⟩ := Option.isSome_iff_exists.1 hspawn
    refine ⟨⟨path.state, ?_⟩, fun q e hcall => ?_, fun hdone => ?_⟩
    · rw [stateOf, hp, Option.map_some]
    · cases hcall
    · cases hdone
  · intro hlocked
    cases hlocked
  · trivial
  · trivial
  · trivial
  · trivial
  · trivial
  · cases hspawn

/-- The facts that all goroutines rely on are kept by each of them. -/
theorem Ledger.step (h : Ledger cfg) (hstep : PathStep cfg action cfg') : Ledger cfg' := by
  cases hstep with
  | @spawn t l hfresh hspawn =>
    obtain ⟨hcall, hmain⟩ := mainFact_spawn hspawn
    refine ⟨h.valid, h.closed, h.terminated,
      forall_lookup_insert ?_ fun t' l' _ hold => h.call t' l' hold,
      forall_lookup_insert hmain fun t' l' _ hold => h.main t' l' hold⟩
    rw [hcall]
    trivial
  | @call t choice main q pc shared result hlocal hexec =>
    have hwrites := fun p old => end_writes_trial q p pc old
    have hfact := h.call t _ hlocal
    refine ⟨h.valid.exec hexec, fun p hclosed => ?_, fun p hterminated => ?_,
      forall_lookup_insert ?_ fun t' l' _ hold => ?_,
      forall_lookup_insert ?_ fun t' l' hne hold => ?_⟩
    · refine offTrial_exec h.valid hexec (hwrites p) ?_
      rcases closed_of_exec h.valid hexec hclosed with hold | hcloses
      · exact h.closed p hold
      · obtain ⟨rfl, d, rfl⟩ := end_closes hcloses
        exact hfact
    · refine exec_closed h.valid hexec ?_
      rcases terminated_of_exec h.valid hexec hterminated with hold | hterminates
      · exact h.terminated p hold
      · obtain ⟨rfl, rfl⟩ := end_terminates hterminates
        exact hfact
    · exact callFact_call h.valid hexec
    · exact callFact_exec h.valid hexec hwrites (h.call t' l' hold)
    · exact mainFact_call h.valid h.terminated hfact hexec (h.main _ _ hlocal)
    · refine mainFact_exec h.valid hexec (fun hunlocks => ?_) hne (h.main t' l' hold)
      simp [end_unlocks] at hunlocks
  | @main t choice main request shared result hlocal hmain hexec =>
    have hop := main_op hmain
    refine ⟨h.valid.exec hexec, fun p hclosed => ?_, fun p hterminated => ?_,
      forall_lookup_insert ?_ fun t' l' _ hold => ?_,
      forall_lookup_insert ?_ fun t' l' hne hold => ?_⟩
    · refine offTrial_exec h.valid hexec (hop.writes_trial p) (h.closed p ?_)
      rcases closed_of_exec h.valid hexec hclosed with hold | hcloses
      · exact hold
      · simp [(hop.ends p).1] at hcloses
    · refine exec_closed h.valid hexec (h.terminated p ?_)
      rcases terminated_of_exec h.valid hexec hterminated with hold | hterminates
      · exact hold
      · simp [(hop.ends p).2] at hterminates
    · exact callFact_of_starts (main_starts hmain result)
    · exact callFact_exec h.valid hexec hop.writes_trial (h.call t' l' hold)
    · exact mainFact_main h.valid hmain hexec (h.main _ _ hlocal)
    · refine mainFact_exec h.valid hexec (fun hunlocks => ?_) hne (h.main t' l' hold)
      obtain ⟨p, pc, rfl, rfl, hpc⟩ := hop.unlocks hunlocks
      exact h.main _ _ hlocal hpc

theorem initial_ledger (enabled : Bool) : Ledger (initial enabled) := by
  refine ⟨initial_valid enabled, fun p hclosed => ?_, fun p hterminated => ?_, ?_, ?_⟩
  · cases hclosed
  · cases hterminated
  · intro t l hlookup
    simp [initial] at hlookup
  · intro t l hlookup
    simp [initial] at hlookup

end Hy2Link.Client.Path
