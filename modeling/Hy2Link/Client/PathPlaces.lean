import Hy2Link.Client.PathDrain

/-! # The states of installed paths

A path in the route table is up, standby or down, but for the moment in which
its watch loop has put it there and has not stored `up` yet.  The watch loop
that judges a trial never judges an installed path: what it has seen to be on
trial has never been in the table.
-/

namespace Hy2Link.Client.Path

open Interleaving

def WatchPC.judging : WatchPC → Bool
  | .pass => true
  | .passDone => true
  | .untrack => true
  | .lock => true
  | .installCheck => true
  | .arbitrate => true
  | .install _ => true
  | .fail => true
  | .failDone => true
  | .reject => true
  | .rejectRoute => true
  | .setRejected => true
  | _ => false

def PathState.installed : PathState → Bool
  | .up => true
  | .standby => true
  | .down => true
  | _ => false

/-- The watch loop of the path has put it into the table and is about to store
`up`. -/
def settingUp (cfg : PathConfig) (p : PathId) : Prop :=
  ∃ existing call, cfg.threads.lookup (.watch p) = some ⟨.watch (.setUp existing), call⟩

structure Placed (cfg : PathConfig) : Prop where
  routed : ∀ dst p, cfg.shared.routes.lookup dst = some p →
    (∃ state, cfg.shared.stateOf p = some state ∧ state.installed = true) ∨ settingUp cfg p
  judging : ∀ p pc call, cfg.threads.lookup (.watch p) = some ⟨.watch pc, call⟩ →
    pc.judging = true → ∀ dst, cfg.shared.routes.lookup dst ≠ some p

/-! ## What the watch loop does -/

theorem watch_judging (hcontrol : watchControl p choice pc = some request)
    (hexec : exec t s request.op = some (shared, result))
    (hjudging : (request.resume result).1.judging = true) :
    pc.judging = true ∧ (∀ e, pc ≠ .install e) ∨ pc = .evalTrial ∧ s.stateOf p = some .trial := by
  have hedge := watch_edge hcontrol hexec
  generalize (request.resume result).1 = next at hedge hjudging
  cases hedge with
  | leave hnext => cases next <;> cases hnext <;> cases hjudging
  | pass htrial | fail htrial => exact .inr ⟨rfl, htrial⟩
  | abandon | refuse | setUp | unlock => cases hjudging
  | _ => exact .inl ⟨rfl, nofun⟩

section

variable (t : Thread) (main : Main) (p : PathId)

inductive MainWrite : Option (Option PathState × PathState) → Prop
  | none : MainWrite none
  | up (ht : t = .watch p) (hmain : main = .watch (.setUp existing)) :
      MainWrite (some (Option.none, .up))
  | rejected (ht : t = .watch p) (hmain : main = .watch .setRejected) :
      MainWrite (some (Option.none, .rejected))
  | enterStandby : MainWrite (some (some .up, .standby))
  | exitStandby : MainWrite (some (some .standby, .up))
  | settling : MainWrite (some (some .rejected, .rejectedSettling))

end

theorem mainWrite_of_ite (h : q = p → MainWrite t main p (some write)) :
    MainWrite t main p (if q = p then some write else none) := by
  split
  next hq => exact h hq
  next => exact .none

theorem drain_writes (hcontrol : drainControl pc = some request) (p : PathId) :
    request.op.writes p = none := by
  cases pc with
  | finished => cases hcontrol
  | _ =>
    cases hcontrol
    rfl

theorem main_writes (hmain : MainStep choice t main request) (p : PathId) :
    MainWrite t main p (request.op.writes p) := by
  cases hmain with
  | @watch q pc request hcontrol =>
    cases pc with
    | enterStandby =>
      cases hcontrol
      exact mainWrite_of_ite fun _ => .enterStandby
    | exitStandby =>
      cases hcontrol
      exact mainWrite_of_ite fun _ => .exitStandby
    | setUp existing =>
      cases hcontrol
      exact mainWrite_of_ite fun hq => .up (congrArg Thread.watch hq) rfl
    | setRejected =>
      cases hcontrol
      exact mainWrite_of_ite fun hq => .rejected (congrArg Thread.watch hq) rfl
    | select => cases choice <;> cases hcontrol <;> exact .none
    | done => cases hcontrol
    | _ =>
      cases hcontrol
      exact .none
  | @prune pc request hcontrol =>
    cases pc with
    | settling q rest =>
      cases hcontrol
      exact mainWrite_of_ite fun _ => .settling
    | start => cases choice <;> cases hcontrol <;> exact .none
    | done => cases hcontrol
    | _ =>
      cases hcontrol
      exact .none
  | @setup _ pc _ hcontrol | @handover _ pc _ hcontrol =>
    cases pc <;> cases hcontrol <;> exact .none
  | @worker q n pc request hcontrol =>
    cases pc with
    | running => cases choice <;> cases hcontrol <;> exact .none
    | _ => cases hcontrol <;> exact .none
  | @close pc request hcontrol =>
    cases pc with
    | cancel =>
      cases hcontrol
      exact .none
    | drain pc =>
      obtain ⟨inner, hinner, rfl⟩ := Option.map_eq_some_iff.1 hcontrol
      exact (drain_writes hinner p) ▸ .none
  | @apply n pc request hcontrol =>
    cases pc with
    | set enabled =>
      cases hcontrol
      exact .none
    | clear pc =>
      obtain ⟨inner, hinner, rfl⟩ := Option.map_eq_some_iff.1 hcontrol
      exact (drain_writes hinner p) ▸ .none
    | returned => cases hcontrol

/-! ## The section of the watch loop -/

theorem existing_eq_some {s : Tables} (h : s.existing p path = some (q, keeps)) :
    s.routes.lookup path.peer = some q ∧ q ≠ p ∧
      ∃ other, s.paths.lookup q = some other ∧
        keeps = arbitrationKeeps other.peer other.myVIP other.role := by
  unfold Tables.existing at h
  split at h
  · cases h
  next r hroute =>
    split at h
    · cases h
    next hne =>
      obtain ⟨other, hother, heq⟩ := Option.map_eq_some_iff.1 h
      cases heq
      exact ⟨hroute, hne, other, hother, rfl⟩

theorem Ledger.section_unique (h : Ledger cfg) {call call' : Call}
    (hp : cfg.threads.lookup (.watch p) = some ⟨.watch pc, call⟩) (hpc : pc.locked = true)
    (hq : cfg.threads.lookup (.watch q) = some ⟨.watch pc', call'⟩) (hpc' : pc'.locked = true) :
    p = q := by
  have hmu : cfg.shared.routeMu = some (.watch p) := h.main _ _ hp hpc
  have hmu' : cfg.shared.routeMu = some (.watch q) := h.main _ _ hq hpc'
  rw [hmu] at hmu'
  cases hmu'
  rfl

/-! ## The invariant -/

theorem settingUp_insert_of_ne (hne : t ≠ .watch p) (h : settingUp cfg p) :
    settingUp ⟨shared, cfg.threads.insert t l⟩ p := by
  obtain ⟨existing, call, hlookup⟩ := h
  exact ⟨existing, call, (Finmap.lookup_insert_of_ne _ (Ne.symm hne)).trans hlookup⟩

section

variable (h : Placed cfg)
include h

theorem Placed.spawn (hfresh : cfg.threads.lookup t = none)
    (hspawn : spawnable cfg t l = true) :
    Placed { cfg with threads := cfg.threads.insert t l } := by
  refine ⟨fun dst p hroute => (h.routed dst p hroute).imp_right fun hsetting => ?_, ?_⟩
  · refine settingUp_insert_of_ne ?_ hsetting
    rintro rfl
    obtain ⟨existing, call, hlookup⟩ := hsetting
    simp [hfresh] at hlookup
  · intro p pc call hlookup hjudging
    rcases lookup_insert_eq_some.1 hlookup with ⟨rfl, rfl⟩ | ⟨-, hold⟩
    · cases pc with
      | ready => cases hjudging
      | _ => simp [spawnable] at hspawn
    · exact h.judging p pc call hold hjudging

theorem Placed.call_step (hvalid : cfg.shared.Valid)
    {result : (endControl q pc).Result} (hlocal : cfg.threads.lookup t = some ⟨main, some (q, pc)⟩)
    (hexec : exec t cfg.shared (endControl q pc).op = some (shared, result)) (call : Call) :
    Placed ⟨shared, cfg.threads.insert t ⟨main, call⟩⟩ := by
  have hroutes : ∀ dst p, shared.routes.lookup dst = some p →
      cfg.shared.routes.lookup dst = some p := by
    intro dst p hroute
    rcases exec_routes hexec hroute with hold | ⟨hinstalls, -⟩
    · exact hold
    · simp [end_installs] at hinstalls
  refine ⟨fun dst p hroute => ?_, fun p wpc call' hlookup hjudging dst hroute => ?_⟩
  · rcases h.routed dst p (hroutes dst p hroute) with ⟨state, hstate, hinstalled⟩ | hsetting
    · refine .inl ⟨_, exec_stateOf hvalid hexec hstate, ?_⟩
      rcases end_writes q p pc with hnone | ⟨-, -, hdown⟩
      · rw [hnone]
        exact hinstalled
      · rw [hdown]
        rfl
    · refine .inr ?_
      obtain ⟨existing, call', hlookup⟩ := hsetting
      by_cases ht : t = .watch p
      · subst ht
        rw [hlookup] at hlocal
        cases hlocal
        exact ⟨existing, call, Finmap.lookup_insert _⟩
      · exact settingUp_insert_of_ne ht ⟨existing, call', hlookup⟩
  · rcases lookup_insert_eq_some.1 hlookup with ⟨rfl, heq⟩ | ⟨-, hold⟩
    · cases heq
      exact h.judging p wpc _ hlocal hjudging dst (hroutes dst p hroute)
    · exact h.judging p wpc call' hold hjudging dst (hroutes dst p hroute)

theorem Placed.main_routed (hvalid : cfg.shared.Valid)
    (hlocal : cfg.threads.lookup t = some ⟨main, none⟩) (hmain : MainStep choice t main request)
    (hexec : exec t cfg.shared request.op = some (shared, result))
    (hroute : shared.routes.lookup dst = some p) :
    (∃ state, shared.stateOf p = some state ∧ state.installed = true) ∨
      settingUp ⟨shared, cfg.threads.insert t (request.resume result)⟩ p := by
  rcases exec_routes hexec hroute with hold | ⟨hinstalls, -⟩
  · rcases h.routed dst p hold with ⟨state, hstate, hinstalled⟩ | hsetting
    · refine .inl ⟨_, exec_stateOf hvalid hexec hstate, ?_⟩
      generalize hwrite : request.op.writes p = write
      cases hwrite ▸ main_writes hmain p with
      | none => exact hinstalled
      | up => rfl
      | rejected ht hpc =>
        subst ht hpc
        exact absurd hold (h.judging p _ _ hlocal rfl dst)
      | enterStandby | exitStandby =>
        dsimp only
        split
        · rfl
        · exact hinstalled
      | settling =>
        dsimp only
        split
        next heq =>
          rw [heq] at hinstalled
          cases hinstalled
        · exact hinstalled
    · by_cases ht : t = .watch p
      · obtain ⟨existing, call, hlookup⟩ := hsetting
        subst ht
        rw [hlookup] at hlocal
        cases hlocal
        cases hmain with
        | watch hcontrol =>
          cases hcontrol
          exact .inl ⟨.up, exec_setState hvalid hexec, rfl⟩
      · exact .inr (settingUp_insert_of_ne ht hsetting)
  · obtain ⟨rfl, existing, rfl⟩ := (main_op hmain).installs hinstalls
    cases hmain with
    | watch hcontrol =>
      cases hcontrol
      exact .inr ⟨existing, none, Finmap.lookup_insert _⟩

theorem Placed.main_judging (hlocal : cfg.threads.lookup t = some ⟨main, none⟩)
    (hmain : MainStep choice t main request)
    (hexec : exec t cfg.shared request.op = some (shared, result))
    (hlookup : (cfg.threads.insert t (request.resume result)).lookup (.watch p) =
      some ⟨.watch pc, call⟩) (hjudging : pc.judging = true) (dst : IPv4) :
    shared.routes.lookup dst ≠ some p := by
  intro hroute
  rcases lookup_insert_eq_some.1 hlookup with ⟨rfl, heq⟩ | ⟨hne, hold⟩
  · cases hmain with
    | @watch _ wpc inner hcontrol =>
      obtain rfl : pc = (inner.resume result).1 := Main.watch.inj (congrArg Local.main heq)
      rcases watch_judging hcontrol hexec hjudging with ⟨hwpc, hinstall⟩ | ⟨rfl, htrial⟩
      · rcases exec_routes hexec hroute with hold | ⟨hinstalls, -⟩
        · exact h.judging p wpc _ hlocal hwpc dst hold
        · obtain ⟨-, existing, heq⟩ := (main_op (.watch hcontrol)).installs hinstalls
          cases heq
          exact hinstall existing rfl
      · -- a verdict begins with a load that sees `trial`, which no installed path has
        cases hcontrol
        obtain ⟨rfl, -⟩ := exec_loadState hexec
        rcases h.routed dst p hroute with
          ⟨state, hstate, hinstalled⟩ | ⟨existing, call', hsetting⟩
        · rw [htrial] at hstate
          cases hstate
          cases hinstalled
        · simp [hlocal] at hsetting
  · rcases exec_routes hexec hroute with hbefore | ⟨hinstalls, -⟩
    · exact h.judging p pc call hold hjudging dst hbefore
    · exact hne ((main_op hmain).installs hinstalls).1.symm

/-- A step leaves every route with a path that is installed or being set up. -/
theorem Placed.step (hvalid : cfg.shared.Valid) (hstep : PathStep cfg action cfg') :
    Placed cfg' := by
  cases hstep with
  | spawn hfresh hspawn => exact h.spawn hfresh hspawn
  | call hlocal hexec => exact h.call_step hvalid hlocal hexec _
  | main hlocal hmain hexec =>
    exact ⟨fun dst p hroute => h.main_routed hvalid hlocal hmain hexec hroute,
      fun p pc call hlookup hjudging => h.main_judging hlocal hmain hexec hlookup hjudging⟩

end

theorem initial_placed (enabled : Bool) : Placed (initial enabled) := by
  refine ⟨fun dst p hroute => ?_, fun p pc call hlookup => ?_⟩
  · simp [initial, Tables.initial] at hroute
  · simp [initial] at hlookup

end Hy2Link.Client.Path
