import Hy2Link.Client.PathPlaces

/-! # Where every path is

As long as nobody clears all paths at once, no path is lost: it is on trial, in
the route table, rejected or closed, or some goroutine is on its way to close
or to reject it.  When all goroutines are at rest only the first four are left.
-/

namespace Hy2Link.Client.Path

open Interleaving Finmap

/-- The shutdown and the switch clear all paths at once. -/
def Thread.clears : Thread → Bool
  | .close => true
  | .apply _ => true
  | _ => false

def undisturbed : PathAction → Bool
  | .spawn t _ => !t.clears
  | _ => true

def Local.aims (p : PathId) (l : Local) : Prop :=
  (∃ pc, l.call = some (p, pc)) ∨ l.main = .watch (.setUp (some p)) ∨
    l.main = .watch (.unlock (some p))

inductive Account (cfg : PathConfig) (p : PathId) : Prop
  | trial (hstate : cfg.shared.stateOf p = some .trial)
  | routed (hroute : cfg.shared.routes.lookup dst = some p)
  | rejected (hstate : cfg.shared.stateOf p = some state)
      (hrejected : state = .rejected ∨ state = .rejectedSettling)
  | closed (hclosed : cfg.shared.closed p = true)
  | aimed (hlocal : cfg.threads.lookup t = some l) (haims : l.aims p)
  | rejecting
      (hlocal : cfg.threads.lookup (.watch p) = some ⟨.watch .setRejected, call⟩)

/-- What the watch loop knows of the route table inside its section, and the
pruning loop of the path that it evicts. -/
def RouteFact (s : Tables) (t : Thread) (l : Local) : Prop :=
  match t, l.main with
  | .watch p, .watch (.install existing) =>
    ∃ path, s.paths.lookup p = some path ∧
      ∀ q, s.routes.lookup path.peer = some q → q ≠ p → existing = some q
  | .watch p, .watch (.setUp _) => ∃ dst, s.routes.lookup dst = some p
  | .prune, .prune (.remove p _) =>
    (l.call = none → s.closed p = true) ∧ ∀ q pc, l.call = some (q, pc) → q = p
  | _, _ => True

structure Accounted (cfg : PathConfig) : Prop where
  threads : ∀ t l, cfg.threads.lookup t = some l → t.clears = false
  facts : ∀ t l, cfg.threads.lookup t = some l → RouteFact cfg.shared t l
  account : ∀ p path, cfg.shared.paths.lookup p = some path → Account cfg p

/-! ## The route table -/

variable {l : Local}

section Routes

variable {Result : Type}

def PathOp.withdraws {Result : Type} (p : PathId) : PathOp Result → Bool
  | .removeRoute q => q = p
  | .replaceRoutes => true
  | _ => false

def PathOp.reroutes {Result : Type} : PathOp Result → Bool
  | .removeRoute _ => true
  | .replaceRoutes => true
  | .installRoute _ => true
  | _ => false

theorem exec_routes_eq (hexec : exec t s op = some (s', result)) (hop : op.reroutes = false) :
    s'.routes = s.routes := by
  cases exec_effect hexec with
  | removeRoute | replaceRoutes | installRoute => cases hop
  | _ => rfl

theorem exec_routes_keep (hexec : exec t s op = some (s', result))
    (hroute : s.routes.lookup dst = some p) :
    s'.routes.lookup dst = some p ∨ op.withdraws p = true ∨
      ∃ q path, op.installs q = true ∧ q ≠ p ∧ s.paths.lookup q = some path ∧ path.peer = dst := by
  cases op with
  | removeRoute q =>
    obtain ⟨path, -, hrest⟩ := Tables.onPath_eq_some.1 hexec
    obtain ⟨-, hrest⟩ := Tables.locked_eq_some.1 hrest
    split at hrest <;> cases hrest
    next hq =>
      by_cases hp : q = p
      · exact .inr (.inl (decide_eq_true hp))
      · refine .inl (lookup_erase_eq_some.2 ⟨?_, hroute⟩)
        rintro rfl
        rw [hroute] at hq
        cases hq
        exact hp rfl
    next => exact .inl hroute
  | installRoute q =>
    obtain ⟨path, hq, hrest⟩ := Tables.onPath_eq_some.1 hexec
    cases hrest
    by_cases hp : q = p ∨ path.peer ≠ dst
    · refine .inl (lookup_insert_eq_some.2 ?_)
      rcases hp with rfl | hne
      · by_cases hpeer : path.peer = dst
        · exact .inl ⟨hpeer.symm, rfl⟩
        · exact .inr ⟨Ne.symm hpeer, hroute⟩
      · exact .inr ⟨Ne.symm hne, hroute⟩
    · rw [not_or, not_not] at hp
      exact .inr (.inr ⟨q, path, decide_eq_true rfl, hp.1, hq, hp.2⟩)
  | replaceRoutes => exact .inr (.inl rfl)
  | _ => exact .inl ((exec_routes_eq hexec rfl).symm ▸ hroute)

theorem exec_routes_held (hexec : exec t s op = some (s', result)) (hmu : s.routeMu = some holder)
    (hinstalls : ∀ q, op.installs q = false) : s'.routes = s.routes := by
  cases op with
  | removeRoute q =>
    obtain ⟨path, -, hrest⟩ := Tables.onPath_eq_some.1 hexec
    obtain ⟨hfree, -⟩ := Tables.locked_eq_some.1 hrest
    simp [hmu] at hfree
  | installRoute q =>
    have hq := hinstalls q
    simp [PathOp.installs] at hq
  | replaceRoutes =>
    obtain ⟨hfree, -⟩ := Tables.locked_eq_some.1 hexec
    simp [hmu] at hfree
  | _ => exact exec_routes_eq hexec rfl

end Routes

/-! ## What the threads know -/

section Facts

variable {s s' : Tables}

/-- A fact stays while its thread does not move and nobody installs a path
behind its back. -/
theorem routeFact_exec {op : PathOp Result} {result : Result} (hvalid : s.Valid)
    (hexec : exec t s op = some (s', result)) (hmain : MainFact s t' l)
    (hinstalls : s.routeMu = some t' → ∀ q, op.installs q = false) (h : RouteFact s t' l) :
    RouteFact s' t' l := by
  obtain ⟨main, call⟩ := l
  cases t' with
  | watch p =>
    cases main with
    | watch pc =>
      cases pc with
      | install existing =>
        have hmu : s.routeMu = some (.watch p) := hmain rfl
        obtain ⟨path, hp, hroute⟩ := h
        refine ⟨op.update p path, exec_update hvalid hexec hp, fun q hq hne => ?_⟩
        rw [exec_routes_held hexec hmu (hinstalls hmu), op.update_peer] at hq
        exact hroute q hq hne
      | setUp existing =>
        have hmu : s.routeMu = some (.watch p) := hmain rfl
        obtain ⟨dst, hroute⟩ := h
        exact ⟨dst, (exec_routes_held hexec hmu (hinstalls hmu)).symm ▸ hroute⟩
      | _ => trivial
    | _ => trivial
  | prune =>
    cases main with
    | prune pc =>
      cases pc with
      | remove p rest => exact ⟨fun hnone => exec_closed hvalid hexec (h.1 hnone), h.2⟩
      | _ => trivial
    | _ => trivial
  | _ => trivial

theorem routeFact_call (hvalid : s.Valid)
    (hterminated : ∀ p, s.terminated p = true → s.closed p = true)
    (hcall : CallFact s (some (q, pc))) (hexec : exec t s (endControl q pc).op = some (s', result))
    (hmain : MainFact s t ⟨main, some (q, pc)⟩) (h : RouteFact s t ⟨main, some (q, pc)⟩) :
    RouteFact s' t ⟨main, ((endControl q pc).resume result).map fun pc => (q, pc)⟩ := by
  have hkeep := routeFact_exec hvalid hexec hmain (fun _ r => end_installs q r pc) h
  cases t with
  | watch p =>
    cases main with
    | watch wpc => cases wpc with
      | _ => exact hkeep
    | _ => trivial
  | prune =>
    cases main with
    | prune ppc =>
      cases ppc with
      | remove p rest =>
        obtain rfl := h.2 q pc rfl
        refine ⟨fun hnone => ?_, fun r e hsome => ?_⟩
        · exact end_returns hvalid hterminated hcall hexec (Option.map_eq_none_iff.1 hnone)
        · obtain ⟨next, -, heq⟩ := Option.map_eq_some_iff.1 hsome
          cases heq
          rfl
      | _ => trivial
    | _ => trivial
  | _ => trivial

def WatchPC.decided : WatchPC → Bool
  | .refuse => true
  | .install _ => true
  | .setUp _ => true
  | .unlock _ => true
  | _ => false

theorem watch_decided {result : request.Result} (hcontrol : watchControl p choice pc = some request)
    (hexec : exec t s request.op = some (s', result))
    (hdecided : (request.resume result).1.decided = true) :
    pc = .arbitrate ∨ (∃ existing, pc = .install existing) ∨ ∃ existing, pc = .setUp existing := by
  have hedge := watch_edge hcontrol hexec
  generalize (request.resume result).1 = next at hedge hdecided
  cases hedge with
  | leave hnext => cases next <;> cases hnext <;> cases hdecided
  | refuse | install => exact .inl rfl
  | setUp existing => exact .inr (.inl ⟨existing, rfl⟩)
  | unlock existing => exact .inr (.inr ⟨existing, rfl⟩)
  | _ => cases hdecided

theorem existing_eq_none (hvalid : s.Valid) (h : s.existing p path = none)
    (hroute : s.routes.lookup path.peer = some q) : q = p := by
  obtain ⟨other, hother, -⟩ := hvalid.routes _ _ hroute
  simp only [Tables.existing, hroute, hother] at h
  by_contra hne
  simp [hne] at h

theorem routeFact_watch {result : request.Result} (hvalid : s.Valid)
    (hcontrol : watchControl p choice pc = some request)
    (hexec : exec (.watch p) s request.op = some (s', result)) :
    RouteFact s' (.watch p) (.of .watch (request.resume result)) := by
  by_cases hdecided : (request.resume result).1.decided = true
  · rcases watch_decided hcontrol hexec hdecided with rfl | ⟨existing, rfl⟩ | ⟨existing, rfl⟩
    · -- the decision: what `existing` does not answer is not in the table
      cases hcontrol
      obtain ⟨path, hp, hrest⟩ := Tables.onPath_eq_some.1 hexec
      cases hrest
      cases hexisting : s.existing p path with
      | none =>
        refine ⟨path, hp, fun q hroute hne => ?_⟩
        exact absurd (existing_eq_none hvalid hexisting hroute) hne
      | some other =>
        obtain ⟨q, keeps⟩ := other
        cases keeps with
        | true => trivial
        | false =>
          refine ⟨path, hp, fun r hroute _ => ?_⟩
          rw [← hroute]
          exact (existing_eq_some hexisting).1.symm
    · cases hcontrol
      obtain ⟨path, hp, hrest⟩ := Tables.onPath_eq_some.1 hexec
      cases hrest
      exact ⟨path.peer, lookup_insert _⟩
    · cases hcontrol
      trivial
  · generalize request.resume result = frame at hdecided
    obtain ⟨pc', call⟩ := frame
    cases pc' with
    | install existing | setUp existing => exact absurd rfl hdecided
    | _ => trivial

theorem evictNext_ne (ps : List PathId) (p : PathId) (rest : List PathId) :
    PrunePC.evictNext ps ≠ .remove p rest := by
  cases ps with
  | nil | cons => nofun

theorem inspectNext_ne (ps : List PathId) (p : PathId) (rest : List PathId) :
    PrunePC.inspectNext ps ≠ .remove p rest := by
  cases ps with
  | nil | cons => nofun

/-- The pruning loop closes a path before it takes its route away. -/
theorem prune_removes {result : request.Result} (hcontrol : pruneControl choice pc = some request)
    (h : (request.resume result).1 = .remove p rest) :
    (request.resume result).2 = some (p, .close false) := by
  cases pc with
  | start =>
    cases choice <;> cases hcontrol <;>
      first
      | exact absurd h (evictNext_ne _ p rest)
      | (dsimp only [goto] at h; split at h <;> cases h)
  | evict q todo =>
    cases hcontrol
    dsimp only [closing, goto] at h ⊢
    split at h
    next hidle =>
      cases h
      rw [if_pos hidle]
    next => exact absurd h (evictNext_ne todo p rest)
  | remove q todo =>
    cases hcontrol
    exact absurd h (evictNext_ne todo p rest)
  | trial =>
    cases hcontrol
    exact absurd h (inspectNext_ne _ p rest)
  | inspected todo =>
    cases hcontrol
    exact absurd h (inspectNext_ne todo p rest)
  | inspect q todo | release q todo | settle q todo =>
    cases hcontrol
    dsimp only [goto] at h
    split at h
    · cases h
    · exact absurd h (inspectNext_ne todo p rest)
  | done => cases hcontrol
  | _ =>
    cases hcontrol
    cases h

theorem routeFact_main {result : request.Result} (hvalid : s.Valid)
    (hmain : MainStep choice t main request) (hexec : exec t s request.op = some (s', result)) :
    RouteFact s' t (request.resume result) := by
  cases hmain with
  | watch hcontrol => exact routeFact_watch hvalid hcontrol hexec
  | @prune pc request hcontrol =>
    have hremoves := fun p rest (h : (request.resume result).1 = .remove p rest) =>
      prune_removes hcontrol h
    dsimp only [Request.map, Local.of]
    generalize request.resume result = frame at hremoves
    obtain ⟨pc', call⟩ := frame
    cases pc' with
    | remove p rest =>
      obtain rfl := hremoves p rest rfl
      refine ⟨nofun, fun q pc hcall => ?_⟩
      cases hcall
      rfl
    | _ => trivial
  | _ => trivial

theorem routeFact_spawn (hspawn : spawnable cfg t l = true) : RouteFact cfg.shared t l := by
  obtain ⟨main, call⟩ := l
  simp only [spawnable, Bool.and_eq_true] at hspawn
  obtain ⟨-, hspawn⟩ := hspawn
  split at hspawn
  all_goals trivial

end Facts

/-! ## What one step does to a path -/

inductive Withdrawal (p : PathId) : Thread → Main → Prop
  | reject : Withdrawal p (.watch p) (.watch .rejectRoute)
  | evict : Withdrawal p .prune (.prune (.remove p rest))
  | makeRoom :
      Withdrawal p (.handover n) (.handover (.removeVictim req p))
  | clear (hclears : t.clears = true) : Withdrawal p t main

theorem main_withdraws (hmain : MainStep choice t main request)
    (hop : request.op.withdraws p = true) : Withdrawal p t main := by
  cases hmain with
  | @watch q pc request hcontrol =>
    cases pc with
    | rejectRoute =>
      cases hcontrol
      obtain rfl : q = p := of_decide_eq_true hop
      exact .reject
    | select => cases choice <;> cases hcontrol <;> cases hop
    | done => cases hcontrol
    | _ =>
      cases hcontrol
      cases hop
  | @prune pc request hcontrol =>
    cases pc with
    | remove q rest =>
      cases hcontrol
      obtain rfl : q = p := of_decide_eq_true hop
      exact .evict
    | start => cases choice <;> cases hcontrol <;> cases hop
    | done => cases hcontrol
    | _ =>
      cases hcontrol
      cases hop
  | @handover n pc request hcontrol =>
    cases pc with
    | removeVictim req q =>
      cases hcontrol
      obtain rfl : q = p := of_decide_eq_true hop
      exact .makeRoom
    | done q => cases hcontrol
    | _ =>
      cases hcontrol
      cases hop
  | @setup q pc request hcontrol => cases pc <;> cases hcontrol <;> cases hop
  | @worker q n pc request hcontrol =>
    cases pc with
    | running => cases choice <;> cases hcontrol <;> cases hop
    | _ => cases hcontrol <;> cases hop
  | close | apply => exact .clear rfl

theorem end_withdraws (hne : q ≠ p) (pc : EndPC) : (endControl q pc).op.withdraws p = false := by
  cases pc with
  | demoteRoute => exact decide_eq_false hne
  | _ => rfl

section Step

variable {cfg : PathConfig}

theorem Account.spawn (h : Account cfg p) (hfresh : cfg.threads.lookup t = none) :
    Account { cfg with threads := cfg.threads.insert t l } p := by
  have hkeep : ∀ {t' : Thread} {l' : Local}, cfg.threads.lookup t' = some l' →
      (cfg.threads.insert t l).lookup t' = some l' := by
    intro t' l' hlookup
    refine (lookup_insert_of_ne _ ?_).trans hlookup
    rintro rfl
    simp [hfresh] at hlookup
  cases h with
  | trial hstate => exact .trial hstate
  | routed hroute => exact .routed hroute
  | rejected hstate hrejected => exact .rejected hstate hrejected
  | closed hclosed => exact .closed hclosed
  | aimed hlocal haims => exact .aimed (hkeep hlocal) haims
  | rejecting hlocal => exact .rejecting (hkeep hlocal)

theorem account_called (hledger : Ledger cfg)
    (hlocal : cfg.threads.lookup t = some ⟨main, some (p, pc)⟩)
    (hexec : exec t cfg.shared (endControl p pc).op = some (shared, result)) :
    Account ⟨shared, cfg.threads.insert t
      ⟨main, ((endControl p pc).resume result).map fun pc => (p, pc)⟩⟩ p := by
  cases hnext : (endControl p pc).resume result with
  | none =>
    have hcall := hledger.call _ _ hlocal
    exact .closed (end_returns hledger.valid hledger.terminated hcall hexec hnext)
  | some pc' => exact .aimed (lookup_insert _) (.inl ⟨pc', rfl⟩)

theorem Account.called_other (hvalid : cfg.shared.Valid) (h : Account cfg p) (hne : q ≠ p)
    (hlocal : cfg.threads.lookup t = some ⟨main, some (q, pc)⟩)
    (hexec : exec t cfg.shared (endControl q pc).op = some (shared, result)) (call : Call) :
    Account ⟨shared, cfg.threads.insert t ⟨main, call⟩⟩ p := by
  have hwrites : (endControl q pc).op.writes p = none :=
    (end_writes q p pc).resolve_right fun h => hne h.1
  have hstates : ∀ {state}, cfg.shared.stateOf p = some state → shared.stateOf p = some state := by
    intro state hstate
    rw [exec_stateOf hvalid hexec hstate, hwrites]
  cases h with
  | trial hstate => exact .trial (hstates hstate)
  | rejected hstate hrejected => exact .rejected (hstates hstate) hrejected
  | closed hclosed => exact .closed (exec_closed hvalid hexec hclosed)
  | routed hroute =>
    rcases exec_routes_keep hexec hroute with hroute | hwithdraws | ⟨r, -, hinstalls, -⟩
    · exact .routed hroute
    · simp [end_withdraws hne] at hwithdraws
    · simp [end_installs] at hinstalls
  | @aimed t' l hlookup haims =>
    by_cases ht : t' = t
    · subst ht
      rw [hlocal] at hlookup
      cases hlookup
      rcases haims with ⟨pc', hcall⟩ | hmain
      · cases hcall
        exact absurd rfl hne
      · exact .aimed (lookup_insert _) (.inr hmain)
    · exact .aimed ((lookup_insert_of_ne _ ht).trans hlookup) haims
  | rejecting hlookup =>
    by_cases ht : Thread.watch p = t
    · subst ht
      rw [hlocal] at hlookup
      cases hlookup
      exact .rejecting (lookup_insert _)
    · exact .rejecting ((lookup_insert_of_ne _ ht).trans hlookup)

theorem account_up (hfact : RouteFact cfg.shared (.watch p) ⟨.watch (.setUp existing), none⟩)
    (hmain : MainStep choice (.watch p) (.watch (.setUp existing)) request)
    (hexec : exec (.watch p) cfg.shared request.op = some (shared, result))
    (threads : Table Thread Local) : Account ⟨shared, threads⟩ p := by
  obtain ⟨dst, hroute⟩ := hfact
  cases hmain with
  | watch hcontrol =>
    cases hcontrol
    exact .routed ((exec_routes_eq hexec rfl).symm ▸ hroute)

theorem account_rejected (hvalid : cfg.shared.Valid)
    (hmain : MainStep choice (.watch p) (.watch .setRejected) request)
    (hexec : exec (.watch p) cfg.shared request.op = some (shared, result))
    (threads : Table Thread Local) : Account ⟨shared, threads⟩ p := by
  cases hmain with
  | watch hcontrol =>
    cases hcontrol
    exact .rejected (exec_setState hvalid hexec) (.inl rfl)

theorem account_state (hvalid : cfg.shared.Valid) (hfact : RouteFact cfg.shared t ⟨main, none⟩)
    (hmain : MainStep choice t main request)
    (hexec : exec t cfg.shared request.op = some (shared, result))
    (hstate : cfg.shared.stateOf p = some state)
    (hwaits : state = .trial ∨ state = .rejected ∨ state = .rejectedSettling)
    (threads : Table Thread Local) : Account ⟨shared, threads⟩ p := by
  have hafter := exec_stateOf hvalid hexec hstate
  have hkept : shared.stateOf p = some state → Account ⟨shared, threads⟩ p := by
    intro hsame
    rcases hwaits with rfl | hrejected
    · exact .trial hsame
    · exact .rejected hsame hrejected
  generalize hwrite : request.op.writes p = write at hafter
  cases hwrite ▸ main_writes hmain p with
  | none => exact hkept hafter
  | up ht hpc =>
    subst ht hpc
    exact account_up hfact hmain hexec threads
  | rejected ht hpc => exact .rejected hafter (.inl rfl)
  | enterStandby | exitStandby =>
    -- these swaps expect `up` or `standby`, so they fail here
    refine hkept (hafter.trans ?_)
    rcases hwaits with rfl | rfl | rfl <;> rfl
  | settling =>
    rcases hwaits with rfl | rfl | rfl
    · exact hkept hafter
    · exact .rejected hafter (.inr rfl)
    · exact hkept hafter

theorem account_route (haccounted : Accounted cfg) (hvalid : cfg.shared.Valid)
    (hlocal : cfg.threads.lookup t = some ⟨main, none⟩) (hmain : MainStep choice t main request)
    (hexec : exec t cfg.shared request.op = some (shared, result))
    (hroute : cfg.shared.routes.lookup dst = some p) :
    Account ⟨shared, cfg.threads.insert t (request.resume result)⟩ p := by
  have hfact := haccounted.facts _ _ hlocal
  rcases exec_routes_keep hexec hroute with
    hroute' | hwithdraws | ⟨q, path, hinstalls, hne, hq, rfl⟩
  · exact .routed hroute'
  · cases main_withdraws hmain hwithdraws with
    | reject =>
      cases hmain with
      | watch hcontrol =>
        cases hcontrol
        exact .rejecting (lookup_insert _)
    -- `evictIdle` closes first and removes the route afterwards
    | evict => exact .closed (exec_closed hvalid hexec (hfact.1 rfl))
    | makeRoom =>
      cases hmain with
      | handover hcontrol =>
        cases hcontrol
        exact .aimed (lookup_insert _) (.inl ⟨.close false, rfl⟩)
    | clear hclears =>
      simp [haccounted.threads _ _ hlocal] at hclears
  · -- another path takes the place; its watch loop remembers whom it replaces
    obtain ⟨rfl, existing, rfl⟩ := (main_op hmain).installs hinstalls
    obtain ⟨path', hpath', hexisting⟩ := hfact
    rw [hq] at hpath'
    cases hpath'
    cases hmain with
    | watch hcontrol =>
      cases hcontrol
      refine .aimed (lookup_insert _) (.inr (.inl ?_))
      rw [hexisting p hroute (Ne.symm hne)]
      rfl

theorem account_aimed (haims : Local.aims p ⟨main, none⟩) (hmain : MainStep choice t main request)
    (result : request.Result) (threads : Table Thread Local) :
    Account ⟨shared, threads.insert t (request.resume result)⟩ p := by
  rcases haims with ⟨pc, hcall⟩ | rfl | rfl
  · cases hcall
  · cases hmain with
    | watch hcontrol =>
      cases hcontrol
      exact .aimed (lookup_insert _) (.inr (.inr rfl))
  · cases hmain with
    | watch hcontrol =>
      cases hcontrol
      exact .aimed (lookup_insert _) (.inl ⟨.close false, rfl⟩)

theorem Account.main_step (h : Account cfg p) (haccounted : Accounted cfg)
    (hvalid : cfg.shared.Valid) (hlocal : cfg.threads.lookup t = some ⟨main, none⟩)
    (hmain : MainStep choice t main request)
    (hexec : exec t cfg.shared request.op = some (shared, result)) :
    Account ⟨shared, cfg.threads.insert t (request.resume result)⟩ p := by
  have hfact := haccounted.facts _ _ hlocal
  cases h with
  | trial hstate => exact account_state hvalid hfact hmain hexec hstate (.inl rfl) _
  | rejected hstate hrejected =>
    exact account_state hvalid hfact hmain hexec hstate (.inr hrejected) _
  | closed hclosed => exact .closed (exec_closed hvalid hexec hclosed)
  | routed hroute => exact account_route haccounted hvalid hlocal hmain hexec hroute
  | @aimed t' l hlookup haims =>
    by_cases ht : t' = t
    · subst ht
      rw [hlocal] at hlookup
      cases hlookup
      exact account_aimed haims hmain result _
    · exact .aimed ((lookup_insert_of_ne _ ht).trans hlookup) haims
  | rejecting hlookup =>
    by_cases ht : Thread.watch p = t
    · subst ht
      rw [hlocal] at hlookup
      cases hlookup
      exact account_rejected hvalid hmain hexec _
    · exact .rejecting ((lookup_insert_of_ne _ ht).trans hlookup)

end Step

/-! ## The invariant -/

section Step

variable {cfg : PathConfig}

theorem Accounted.spawn (h : Accounted cfg) (hfresh : cfg.threads.lookup t = none)
    (hspawn : spawnable cfg t l = true) (hcalm : t.clears = false) :
    Accounted { cfg with threads := cfg.threads.insert t l } where
  threads := forall_lookup_insert hcalm fun t' l' _ hold => h.threads t' l' hold
  facts := forall_lookup_insert (routeFact_spawn hspawn) fun t' l' _ hold => h.facts t' l' hold
  account := fun p path hp => (h.account p path hp).spawn hfresh

theorem accounts_exec {op : PathOp Result} {result : Result}
    (hexec : exec t cfg.shared op = some (shared, result))
    (hkept : ∀ p path, cfg.shared.paths.lookup p = some path → Account ⟨shared, threads⟩ p)
    (p : PathId) (path : DirectPath) (hp : shared.paths.lookup p = some path) :
    Account ⟨shared, threads⟩ p := by
  rcases exec_paths hexec hp with ⟨old, hold⟩ | ⟨-, -, -, req, rfl⟩
  · exact hkept p old hold
  · exact .trial (by rw [Tables.stateOf, hp]; rfl)

theorem Accounted.call_step (h : Accounted cfg) (hledger : Ledger cfg)
    (hlocal : cfg.threads.lookup t = some ⟨main, some (q, pc)⟩)
    (hexec : exec t cfg.shared (endControl q pc).op = some (shared, result)) :
    Accounted ⟨shared, cfg.threads.insert t
      ⟨main, ((endControl q pc).resume result).map fun pc => (q, pc)⟩⟩ := by
  refine ⟨forall_lookup_insert (h.threads _ _ hlocal) fun t' l' _ hold => h.threads t' l' hold,
    forall_lookup_insert ?_ fun t' l' _ hold => ?_, accounts_exec hexec fun p path hp => ?_⟩
  · exact routeFact_call hledger.valid hledger.terminated (hledger.call _ _ hlocal) hexec
      (hledger.main _ _ hlocal) (h.facts _ _ hlocal)
  · exact routeFact_exec hledger.valid hexec (hledger.main _ _ hold)
      (fun _ r => end_installs q r pc) (h.facts _ _ hold)
  · by_cases hq : q = p
    · subst hq
      exact account_called hledger hlocal hexec
    · exact (h.account p path hp).called_other hledger.valid hq hlocal hexec _

theorem Accounted.main_step (h : Accounted cfg) (hledger : Ledger cfg)
    (hlocal : cfg.threads.lookup t = some ⟨main, none⟩) (hmain : MainStep choice t main request)
    (hexec : exec t cfg.shared request.op = some (shared, result)) :
    Accounted ⟨shared, cfg.threads.insert t (request.resume result)⟩ := by
  refine ⟨forall_lookup_insert (h.threads _ _ hlocal) fun t' l' _ hold => h.threads t' l' hold,
    forall_lookup_insert (routeFact_main hledger.valid hmain hexec) fun t' l' hne hold => ?_,
    accounts_exec hexec fun p path hp =>
      (h.account p path hp).main_step h hledger.valid hlocal hmain hexec⟩
  refine routeFact_exec hledger.valid hexec (hledger.main _ _ hold) (fun hmu q => ?_)
    (h.facts _ _ hold)
  -- whoever installs a path is inside the section
  rw [Bool.eq_false_iff]
  intro hinstalls
  obtain ⟨rfl, existing, rfl⟩ := (main_op hmain).installs hinstalls
  have hown : cfg.shared.routeMu = some (.watch q) := hledger.main _ _ hlocal rfl
  rw [hmu] at hown
  cases hown
  exact hne rfl

end Step

/-- A step leaves every path on trial, routed, given up or about to be. -/
theorem Accounted.step (h : Accounted cfg) (hledger : Ledger cfg)
    (hcalm : undisturbed action = true) (hstep : PathStep cfg action cfg') : Accounted cfg' := by
  cases hstep with
  | spawn hfresh hspawn => exact h.spawn hfresh hspawn (Bool.not_eq_true' _ ▸ hcalm)
  | call hlocal hexec => exact h.call_step hledger hlocal hexec
  | main hlocal hmain hexec => exact h.main_step hledger hlocal hmain hexec

theorem initial_accounted (enabled : Bool) : Accounted (initial enabled) := by
  refine ⟨fun t l hlookup => ?_, fun t l hlookup => ?_, fun p path hp => ?_⟩
  · simp [initial] at hlookup
  · simp [initial] at hlookup
  · simp [initial, Tables.initial] at hp

/-! ## At rest -/

/-- The goroutine has ended, or it waits for a timer, the network or the
context. -/
def Main.resting : Main → Bool
  | .setup (.done _) => true
  | .watch .select => true
  | .watch .done => true
  | .worker .running => true
  | .worker .done => true
  | .prune .start => true
  | .prune .done => true
  | .handover (.done _) => true
  | .close (.drain .finished) => true
  | .apply (.clear .finished) => true
  | .apply .returned => true
  | _ => false

def Resting (cfg : PathConfig) : Prop :=
  ∀ t l, cfg.threads.lookup t = some l → l.call = none ∧ l.main.resting = true

instance (cfg : PathConfig) : Decidable (Resting cfg) :=
  inferInstanceAs (Decidable (∀ _ _, _ → _))

theorem not_aims_of_resting (hcall : l.call = none) (hmain : l.main.resting = true) (p : PathId) :
    ¬ l.aims p := by
  rintro (⟨pc, hsome⟩ | hsetUp | hunlock)
  · rw [hcall] at hsome
    cases hsome
  · rw [hsetUp] at hmain
    cases hmain
  · rw [hunlock] at hmain
    cases hmain

/-- At rest a path whose trial is over is installed, rejected or closed. -/
theorem Account.at_rest (h : Account cfg p) (hrest : Resting cfg)
    (hjudged : cfg.shared.stateOf p ≠ some .trial) :
    (∃ dst, cfg.shared.routes.lookup dst = some p) ∨ cfg.shared.closed p = true ∨
      cfg.shared.stateOf p = some .rejected ∨ cfg.shared.stateOf p = some .rejectedSettling := by
  cases h with
  | trial hstate => exact absurd hstate hjudged
  | routed hroute => exact .inl ⟨_, hroute⟩
  | closed hclosed => exact .inr (.inl hclosed)
  | rejected hstate hrejected =>
    rcases hrejected with rfl | rfl
    · exact .inr (.inr (.inl hstate))
    · exact .inr (.inr (.inr hstate))
  | aimed hlocal haims =>
    obtain ⟨hcall, hmain⟩ := hrest _ _ hlocal
    exact absurd haims (not_aims_of_resting hcall hmain p)
  | rejecting hlocal => cases (hrest _ _ hlocal).2

end Hy2Link.Client.Path
