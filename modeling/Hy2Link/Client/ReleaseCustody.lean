import Hy2Link.Client.ReleaseOrder

/-! # Everything is in somebody's hands

From the moment at which the fields of a session are taken, or at which it has
been handed over, no resource is left that nobody holds.  `settled_step` is the
step lemma, under the condition on the order of releases.
-/

namespace Hy2Link.Client.Punch

open Interleaving Local OwnPC

variable {l l' : Local}

/-! ## Where everything is in somebody's hands -/

def OwnPC.carrying : OwnPC → Bool
  | .stage (.probe _) => true
  | .succeeding .begin _ => true
  | .succeeding .storeReason _ => true
  | .succeeding .storeState _ => true
  | .succeeding .loadDetached _ => true
  | .succeeding .loadPathMgr _ => true
  | .succeeding .vip _ => true
  | .succeeding (.loadConn _) _ => true
  | _ => false

def OwnPC.emptied : OwnPC → Bool
  | .stage _ => false
  | .failing _ .begin _ => false
  | .failing _ .storeFailed _ => false
  | .failing _ (.closeAll .check) _ => false
  | .failing _ (.closeAll (.release .take)) _ => false
  | .failing _ _ _ => true
  | .succeeding .finish _ => true
  | .succeeding _ _ => false
  | _ => true

def PathPC.emptied : PathPC → Bool
  | .closeConn => false
  | .release .take => false
  | _ => true

/-- `carried`: a connection that is no longer in its field was taken, with all
the rest. -/
structure Settled (cfg : SessionConfig) : Prop where
  held : ∀ r ∈ cfg.shared.created, Kept cfg r ∨ r ∈ cfg.shared.fields
  carried : ∀ pc, cfg.threads.lookup .own = some (.own pc) → pc.carrying = true →
    .conn ∈ cfg.shared.fields ∨ AllKept cfg
  emptied : ∀ pc, cfg.threads.lookup .own = some (.own pc) → pc.emptied = true →
    cfg.shared.paths.length = 1 ∨ AllKept cfg
  taken : ∀ pc, cfg.threads.lookup .path = some (.path pc) → pc.emptied = true → AllKept cfg
  returned : Returned cfg → ∀ t l, cfg.threads.lookup t = some l → t ≠ .path → l.Outside

theorem Plan.leave_emptied (plan : Plan) (tail : Bool) :
    (plan.leave tail).emptied = true ∧ (plan.leave tail).carrying = false := by
  unfold Plan.leave
  split <;> exact ⟨rfl, rfl⟩

theorem OwnPC.making_of_carrying (h : pc.carrying = true) : (own pc).making = [] := by
  cases pc with
  | stage st =>
    cases st with
    | probe pc => rfl
    | _ => cases h
  | _ => rfl

theorem OwnPC.making_of_emptied (h : pc.emptied = true) : (own pc).making = [] := by
  cases pc with
  | stage st => cases h
  | _ => rfl

theorem Progress.enter_carrying {here : PC → Stage} {next : α → OwnPC} {progress : Progress PC α}
    (hhere : ∀ pc, (stage (here pc)).carrying = false)
    (h : (progress.enter here tail next).carrying = true) :
    ∃ a, progress = .done a ∧ (next a).carrying = true := by
  cases progress with
  | «at» pc => exact absurd h (by simp [Progress.enter, hhere])
  | done a => exact ⟨a, rfl, h⟩
  | failed reason => cases h

theorem Progress.enter_emptied {here : PC → Stage} {next : α → OwnPC}
    (hnext : ∀ a, (next a).emptied = false) (progress : Progress PC α) :
    (progress.enter here tail next).emptied = false := by
  cases progress with
  | «at» | failed => rfl
  | done a => exact hnext a

theorem handshake_done {result : request.Result}
    (hcontrol : handshakeControl plan choice pc = some request)
    (hexec : exec plan s request.op.toSession = some (s', result))
    (hs : (stage (.handshake pc)).Custody s) (hdone : request.resume result = .done a) :
    .conn ∈ s'.fields := by
  cases pc with
  | store rs =>
    cases hcontrol
    cases hexec
    exact Finset.mem_union_right _ (List.mem_toFinset.2 hs.1)
  | cert | dialPause | listen | accept | dial =>
    simp only [handshakeControl] at hcontrol
    split at hcontrol <;> cases hcontrol <;> cases hdone
  | gate =>
    cases hcontrol
    dsimp only at hdone
    split at hdone <;> cases hdone
  | abandon todo reason => cases todo <;> cases hcontrol <;> cases hdone
  | _ =>
    cases hcontrol
    cases hdone

theorem stage_carrying {st : Stage} {result : request.Result}
    (hcontrol : stageControl plan choice st = some request)
    (hexec : exec plan s request.op = some (s', result)) (hs : (stage st).Custody s)
    (h : (request.resume result).carrying = true) :
    (stage st).carrying = true ∨ .conn ∈ s'.fields := by
  cases st with
  | probe pc => exact .inl rfl
  | handshake pc =>
    obtain ⟨request, hrequest, rfl⟩ := Option.map_eq_some_iff.1 hcontrol
    obtain ⟨a, hdone, -⟩ := Progress.enter_carrying (fun _ => rfl) h
    exact .inr (handshake_done hrequest hexec hs hdone)
  | _ =>
    obtain ⟨request, hrequest, rfl⟩ := Option.map_eq_some_iff.1 hcontrol
    obtain ⟨a, -, ha⟩ := Progress.enter_carrying (fun _ => rfl) h
    cases ha

theorem stage_emptied (hcontrol : stageControl plan choice st = some request)
    (result : request.Result) : (request.resume result).emptied = false := by
  cases st with
  | _ =>
    obtain ⟨request, hrequest, rfl⟩ := Option.map_eq_some_iff.1 hcontrol
    exact Progress.enter_emptied (fun _ => rfl) _

theorem own_carrying (hstep : OwnStep plan s choice pc s' pc') (hs : pc.Custody s)
    (h : pc'.carrying = true) : pc.carrying = true ∨ .conn ∈ s'.fields := by
  have hleave : ∀ tail, (plan.leave tail).carrying ≠ true := by
    intro tail
    simp [(plan.leave_emptied tail).2]
  cases hstep with
  | stage hcontrol hexec => exact stage_carrying hcontrol hexec hs h
  | @failing _ _ tail _ next hstep =>
    cases next with
    | none => exact absurd h (hleave tail)
    | some pc => cases h
  | @succeeding _ resume _ _ hstep =>
    cases hstep with
    | finish =>
      cases resume with
      | none => exact absurd h (hleave true)
      | some due => cases h
    | detached | unmanaged | unknown | connected | released | detach | handle | evicted
    | establish => cases h
    | _ => exact .inl rfl
  | served => exact absurd h (hleave true)
  | _ => cases h

/-- A session comes to be empty by taking its fields, by establishing a path, or
because its connection has been taken. -/
theorem own_emptied (hstep : OwnStep plan cfg.shared choice pc s' pc')
    (hhandling : Handling cfg.shared (.own pc) s' (.own pc')) (hs : pc.Custody cfg.shared)
    (horder : OwnInOrder plan cfg choice (.own pc)) (h : pc'.emptied = true) :
    pc.emptied = true ∨ s'.paths.length = 1 ∨
      (pc.carrying = true ∧ .conn ∉ cfg.shared.fields) ∨
      Taken cfg.shared (.own pc) s' (.own pc') := by
  cases hstep with
  | stage hcontrol _ =>
    simp [stage_emptied hcontrol] at h
  | failing hstep =>
    cases hstep with
    | begin | storeFailed => cases h
    | closeAll hstep =>
      cases hstep with
      | detached hdetached =>
        simp [hs.1] at hdetached
      | attached => cases h
      | release hstep =>
        cases hstep with
        | take =>
          rcases hhandling.taken rfl with htaken | ⟨r, hrelease⟩
          · exact .inr (.inr (.inr htaken))
          · cases hrelease
        | close | once => exact .inl rfl
    | _ => exact .inl rfl
  | succeeding hstep =>
    cases hstep with
    | detached hdetached =>
      simp [hs.detached] at hdetached
    | unmanaged habsent =>
      simp [horder.manager rfl] at habsent
    | unknown hunknown =>
      obtain ⟨hsucceeds, hsome⟩ := horder.addresses rfl
      rcases hunknown with hfails | hnone
      · exact absurd hfails hsucceeds
      · simp [hnone] at hsome
    | released hconn => exact .inr (.inr (.inl ⟨rfl, hconn⟩))
    | establish => exact .inr (.inl (by simp [Promised.paths hs]))
    | finish => exact .inl rfl
    | _ => cases h
  | _ => exact .inl rfl

/-! ## Steps keep everything in somebody's hands -/

theorem Local.Custody.paths_of_making (hl : l.Custody s) (hmaking : l.making ≠ []) :
    s.paths = [] := by
  cases l with
  | own pc =>
    cases pc with
    | stage st =>
      cases st with
      | socket pc => exact Unopened.paths hl
      | handshake pc =>
        cases pc with
        | store rs => exact hl.2.paths
        | _ => exact Attached.paths hl
      | _ => exact absurd rfl hmaking
    | _ => exact absurd rfl hmaking
  | _ => exact absurd rfl hmaking

theorem path_emptied (hstep : LocalStep plan s choice l s' (.path pc'))
    (hhandling : Handling s l s' (.path pc')) (h : pc'.emptied = true) :
    Taken s l s' (.path pc') ∨ ∃ pc, l = .path pc ∧ pc.emptied = true := by
  cases hstep with
  | path hstep =>
    cases hstep with
    | closeConn => cases h
    | @release pc pc' _ hstep =>
      cases hstep with
      | take =>
        rcases hhandling.taken rfl with htaken | ⟨r, hrelease⟩
        · exact .inl htaken
        · cases hrelease
      | close => exact .inr ⟨_, rfl, rfl⟩
    | released hstep =>
      cases hstep with
      | once => exact .inr ⟨_, rfl, rfl⟩

theorem OwnPC.emptied_of_returned (h : (own pc).returned = true) : pc.emptied = true := by
  cases pc with
  | deferred | ended => rfl
  | _ => cases h

theorem Local.outside_of_returned (h : l.returned = true) : l.Outside := by
  apply outside_of_release
  cases l with
  | own pc =>
    cases pc with
    | deferred | ended => rfl
    | _ => cases h
  | _ => cases h

theorem own_returned (hstep : OwnStep plan s choice pc s' pc')
    (h : (own pc').returned = true) : pc = .returning ∨ pc = .deferred := by
  have hleave : ∀ tail, (own (plan.leave tail)).returned ≠ true := by
    intro tail
    unfold Plan.leave
    split <;> exact Bool.false_ne_true
  cases hstep with
  | stage hcontrol _ =>
    have hemptied := emptied_of_returned h
    simp [stage_emptied hcontrol] at hemptied
  | @failing _ _ tail _ next hstep =>
    cases next with
    | none => exact absurd h (hleave tail)
    | some pc => cases h
  | @succeeding _ resume _ next hstep =>
    cases next with
    | none =>
      cases resume with
      | none => exact absurd h (hleave true)
      | some due => cases h
    | some pc => cases h
  | served => exact absurd h (hleave true)
  | returning => exact .inl rfl
  | deferred => exact .inr rfl
  | _ => cases h

theorem paths_length_of_step (hstep : LocalStep plan s choice l s' l') :
    s.paths.length ≤ s'.paths.length := by
  by_cases hown : l.thread = .own
  · cases hstep with
    | own hstep =>
      rcases paths_of_own hstep with hpaths | ⟨-, path, hpaths⟩
      · rw [hpaths]
      · simp [hpaths]
    | _ => cases hown
  · rw [(sameHandover_of_other hstep hown).paths]

theorem moved_of_step (hcfg : InCustody cfg) (hl : cfg.threads.lookup t = some l)
    (hstep : LocalStep plan cfg.shared choice l s' l') :
    Moved cfg { shared := s', threads := cfg.threads.insert t l' } t l l' :=
  have hcustody := (hcfg.thread t l hl).2
  { lookup := hl
    threads := rfl
    handling := handling_of_step hstep hcustody.store_ne_nil
    once := hcfg.shared.once
    sees := hcustody.sees }

section

variable (hset : Settled cfg)
include hset

theorem Moved.carried (h : Moved cfg cfg' t l l') (hmaking : l.making = [])
    (hbefore : .conn ∈ cfg.shared.fields ∨ AllKept cfg) :
    .conn ∈ cfg'.shared.fields ∨ AllKept cfg' := by
  rcases hbefore with hconn | hkept
  · rcases h.handling.fields hconn with hconn | htaken
    · exact .inl hconn
    · exact .inr (h.allKept_of_taken htaken hset.held)
  · exact .inr (h.allKept hmaking hkept)

theorem Settled.outside_of_own_step
    (hl : cfg.threads.lookup .own = some (.own pc)) (hok : OwnInOrder plan cfg choice (.own pc))
    (hstep : OwnStep plan cfg.shared choice pc s' pc') (hreturned : (own pc').returned = true)
    (hm : cfg.threads.lookup t = some m) (hown : t ≠ .own) (hpath : t ≠ .path) : m.Outside := by
  rcases own_returned hstep hreturned with rfl | rfl
  · intro pc hpc
    have ht : t ∈ [Thread.events, .close] := by
      cases t with
      | own => exact absurd rfl hown
      | path => exact absurd rfl hpath
      | _ => simp
    exact hok.returns rfl t ht pc ((releaseOf_of_lookup hm).trans hpc)
  · exact hset.returned (returned_iff.2 ⟨_, hl, rfl⟩) t m hm hpath

theorem Settled.outside_of_other_step (hok : InOrder plan cfg (.step t choice))
    (hl : cfg.threads.lookup t = some l) (hhandling : Handling cfg.shared l s' l')
    (hreturned : Returned cfg) (hown : t ≠ .own) (hpath : t ≠ .path) : l'.Outside := by
  intro pc hpc
  cases pc with
  | take => rfl
  | closing todo sock =>
    rcases hhandling.taken hpc with htaken | ⟨r, hrelease⟩
    · have htake := (releaseOf_of_lookup hl).trans htaken.release
      cases t with
      | own => exact absurd rfl hown
      | path => exact absurd rfl hpath
      | events | close => exact absurd hreturned (hok htake).2
    · cases hset.returned hreturned t l hl hpath _ hrelease

theorem Settled.step (hcfg : InCustody cfg)
    (hok : InOrder plan cfg (.step t choice)) (hl : cfg.threads.lookup t = some l)
    (hstep : LocalStep plan cfg.shared choice l s' l')
    (hcfg' : InCustody { shared := s', threads := cfg.threads.insert t l' }) :
    Settled { shared := s', threads := cfg.threads.insert t l' } := by
  have hmoved := moved_of_step hcfg hl hstep
  obtain ⟨hthread, hcustody⟩ := hcfg.thread t l hl
  have hsingle : cfg.shared.paths.length = 1 → s'.paths.length = 1 := by
    intro hone
    have hle : s'.paths.length ≤ 1 := hcfg'.shared.single
    have hge := paths_length_of_step hstep
    omega
  refine ⟨hmoved.held hset.held, ?_, ?_, ?_, ?_⟩
  · intro pc hpc hcarrying
    rcases lookup_insert_eq_some.1 hpc with ⟨rfl, rfl⟩ | ⟨hne, hpc⟩
    · cases hstep with
      | own hstep =>
        rcases own_carrying hstep hcustody hcarrying with hbefore | hconn
        · exact hmoved.carried hset (making_of_carrying hbefore)
            (hset.carried _ hl hbefore)
        · exact .inl hconn
    · exact hmoved.carried hset (making_of_other (hthread ▸ hne.symm))
        (hset.carried pc hpc hcarrying)
  · intro pc hpc hemptied
    rcases lookup_insert_eq_some.1 hpc with ⟨rfl, rfl⟩ | ⟨hne, hpc⟩
    · cases hstep with
      | own hstep =>
        rcases own_emptied hstep hmoved.handling hcustody (hok _ hl) hemptied with
          hbefore | hone | ⟨hcarrying, hconn⟩ | htaken
        · exact (hset.emptied _ hl hbefore).imp hsingle
            (hmoved.allKept (making_of_emptied hbefore))
        · exact .inl hone
        · have hkept := (hset.carried _ hl hcarrying).resolve_left hconn
          exact .inr (hmoved.allKept (making_of_carrying hcarrying) hkept)
        · exact .inr (hmoved.allKept_of_taken htaken hset.held)
    · exact (hset.emptied pc hpc hemptied).imp hsingle
        (hmoved.allKept (making_of_other (hthread ▸ hne.symm)))
  · intro pc hpc hemptied
    rcases lookup_insert_eq_some.1 hpc with ⟨rfl, rfl⟩ | ⟨-, hpc⟩
    · rcases path_emptied hstep hmoved.handling hemptied with htaken | ⟨pc, rfl, hbefore⟩
      · exact hmoved.allKept_of_taken htaken hset.held
      · exact hmoved.allKept rfl (hset.taken pc hl hbefore)
    · -- a goroutine that still makes something has no path to be closed
      refine hmoved.allKept ?_ (hset.taken pc hpc hemptied)
      by_contra hmaking
      exact (hcfg.thread _ _ hpc).2.1 (hcustody.paths_of_making hmaking)
  · intro hreturned t' m hm hpath
    obtain ⟨own, hown, hown'⟩ := returned_iff.1 hreturned
    rcases lookup_insert_eq_some.1 hown with ⟨rfl, rfl⟩ | ⟨hne, hown⟩
    · rcases lookup_insert_eq_some.1 hm with ⟨rfl, rfl⟩ | ⟨hne, hm'⟩
      · exact outside_of_returned hown'
      · cases hstep with
        | own hstep => exact hset.outside_of_own_step hl (hok _ hl) hstep hown' hm' hne hpath
        | _ => cases hthread
    · have hbefore := returned_iff.2 ⟨own, hown, hown'⟩
      rcases lookup_insert_eq_some.1 hm with ⟨rfl, rfl⟩ | ⟨-, hm⟩
      · exact hset.outside_of_other_step hok hl hmoved.handling hbefore hne.symm hpath
      · exact hset.returned hbefore t' m hm hpath

theorem Settled.grown (hsame : SameResources cfg.shared s')
    (hpaths : s'.paths = cfg.shared.paths)
    (hold : ∀ t l, cfg.threads.lookup t = some l → threads'.lookup t = some l)
    (hnew : ∀ t l, threads'.lookup t = some l → cfg.threads.lookup t = some l ∨
      l = .close .cancel ∨ l = .path .closeConn) :
    Settled { shared := s', threads := threads' } := by
  have hkept : ∀ r, Kept cfg r → Kept { shared := s', threads := threads' } r := by
    rintro r (hr | ⟨t, l, hl, hr⟩)
    · exact .inl (hsame.closed ▸ hr)
    · exact .inr ⟨t, l, hold t l hl, hr⟩
  have hall : AllKept cfg → AllKept { shared := s', threads := threads' } :=
    fun h r hr => hkept r (h r (hsame.created ▸ hr))
  have hown : ∀ pc, threads'.lookup .own = some (.own pc) →
      cfg.threads.lookup .own = some (.own pc) := by
    intro pc hpc
    rcases hnew _ _ hpc with h | h | h
    · exact h
    · cases h
    · cases h
  refine ⟨fun r hr => ?_, fun pc hpc h => ?_, fun pc hpc h => ?_, fun pc hpc h => ?_,
    fun hreturned t l hl hpath => ?_⟩
  · exact (hset.held r (hsame.created ▸ hr)).imp (hkept r) fun h => hsame.fields ▸ h
  · exact (hset.carried pc (hown pc hpc) h).imp (fun h => hsame.fields ▸ h) hall
  · exact (hset.emptied pc (hown pc hpc) h).imp (fun h => hpaths ▸ h) hall
  · rcases hnew _ _ hpc with hpc | hpc | hpc
    · exact hall (hset.taken pc hpc h)
    · cases hpc
    · cases hpc
      cases h
  · rcases hnew _ _ hl with hl | rfl | rfl
    · refine hset.returned ?_ t l hl hpath
      obtain ⟨own, hown', hreturned⟩ := returned_iff.1 hreturned
      rcases hnew _ _ hown' with h | rfl | rfl
      · exact returned_iff.2 ⟨own, h, hreturned⟩
      · cases hreturned
      · cases hreturned
    · exact outside_of_release rfl
    · exact outside_of_release rfl

/-- A step in order leaves no resource that nobody holds. -/
theorem settled_step (hcfg : InCustody cfg) (hok : InOrder plan cfg action)
    (hnext : (system plan).next cfg action = some cfg') : Settled cfg' := by
  have hcfg' := inCustody_step hcfg hok hnext
  cases action with
  | spawn t l =>
    obtain ⟨hnone, hspawn, rfl⟩ := next_spawn.1 hnext
    refine hset.grown ⟨rfl, rfl, rfl, rfl⟩ rfl (fun t' l' hl' => ?_) fun t' l' hl' => ?_
    · refine lookup_insert_eq_some.2 (.inr ⟨?_, hl'⟩)
      rintro rfl
      simp [hnone] at hl'
    · rcases lookup_insert_eq_some.1 hl' with ⟨rfl, rfl⟩ | ⟨-, hl'⟩
      · simp only [system, spawnable] at hspawn
        split at hspawn
        · exact .inr (.inl rfl)
        · exact .inr (.inr rfl)
        · cases hspawn
      · exact .inl hl'
  | step t choice =>
    obtain ⟨l, s', l', hl, hstep, rfl⟩ := next_local hnext
    exact hset.step hcfg hok hl hstep hcfg'
  | env e =>
    obtain ⟨s', henv, rfl⟩ := next_env.1 hnext
    cases e with
    | elapse d | setPathMgr present =>
      cases henv
      exact hset.grown ⟨rfl, rfl, rfl, rfl⟩ rfl (fun _ _ h => h) fun _ _ h => .inl h

end

theorem Plan.initial_own (plan : Plan) (manager : PunchManager) (pathMgr : Bool) (clock : Time)
    (hl : (plan.initial manager pathMgr clock).threads.lookup .own = some l) :
    l = .own plan.entry := by
  rcases lookup_insert_eq_some.1 hl with ⟨h, -⟩ | ⟨-, hl⟩
  · cases h
  · rcases lookup_insert_eq_some.1 hl with ⟨-, h⟩ | ⟨-, h⟩
    · exact h
    · cases h

theorem Plan.initial_settled (plan : Plan) (manager : PunchManager) (pathMgr : Bool)
    (clock : Time) : Settled (plan.initial manager pathMgr clock) := by
  have hentry : plan.entry.carrying = false ∧ plan.entry.emptied = false := by
    unfold Plan.entry
    split <;> exact ⟨rfl, rfl⟩
  refine ⟨fun r hr => (by cases hr), fun pc h hc => ?_, fun pc h he => ?_, fun pc h => ?_,
    fun hreturned => ?_⟩
  · cases plan.initial_own manager pathMgr clock h
    simp [hentry.1] at hc
  · cases plan.initial_own manager pathMgr clock h
    simp [hentry.2] at he
  · rcases lookup_insert_eq_some.1 h with ⟨h, -⟩ | ⟨-, h⟩
    · cases h
    · rcases lookup_insert_eq_some.1 h with ⟨h, -⟩ | ⟨-, h⟩
      · cases h
      · cases h
  · obtain ⟨l, hl, hdone⟩ := returned_iff.1 hreturned
    cases plan.initial_own manager pathMgr clock hl
    have hemptied := emptied_of_returned hdone
    simp [hentry.2] at hemptied

end Hy2Link.Client.Punch
