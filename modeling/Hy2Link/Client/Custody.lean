import Hy2Link.Client.PunchSystem

/-! # Who holds the resources of a session

A resource of a session is in the hands of the goroutine that has just made
it, then in a field of the session, and then in the hands of the goroutine
that has taken it out in `releaseAll`, until it is closed.  The socket stays in
its field, and is closed by whoever comes first.

`Handling` says what a step of any goroutine does to the resources, and
`Moved.held` that none gets lost on the way.
-/

namespace Hy2Link.Client.Punch

open Interleaving Local Progress

/-! ## What a goroutine holds -/

/-- What is left to close.  The socket counts when it was seen. -/
def ReleasePC.hands : ReleasePC → List Resource
  | .take => []
  | .closing todo sock => if sock then .socket :: todo else todo

def CloseAllPC.release? : CloseAllPC → Option ReleasePC
  | .check => none
  | .release pc => some pc

def FailPC.release? : FailPC → Option ReleasePC
  | .closeAll pc => pc.release?
  | _ => none

def Local.release : Local → Option ReleasePC
  | .own (.failing _ pc _) => pc.release?
  | .events (.failing pc) => pc.release?
  | .close (.closeAll pc) => pc.release?
  | .path (.release pc) => some pc
  | _ => none

def SocketPC.hands : SocketPC → List Resource
  | .store => [.socket]
  | _ => []

def HandshakePC.hands : HandshakePC → List Resource
  | .context _ => [.transport]
  | .listen _ => [.transport]
  | .accept _ => [.listener, .transport]
  | .loadSocket _ => [.transport]
  | .listenGate _ => [.transport]
  | .waitListening _ _ => [.transport]
  | .dial _ _ => [.transport]
  | .dialPause _ _ => [.transport]
  | .dialCheck _ => [.transport]
  | .store rs => rs
  | .abandon todo _ => todo
  | _ => []

def Local.making : Local → List Resource
  | .own (.stage (.socket pc)) => pc.hands
  | .own (.stage (.handshake pc)) => pc.hands
  | _ => []

def Local.hands (l : Local) : List Resource :=
  l.making ++ l.release.elim [] ReleasePC.hands

/-! ## What a step does to the resources -/

structure SameResources (s s' : Shared) : Prop where
  fields : s'.fields = s.fields
  created : s'.created = s.created
  closed : s'.closed = s.closed
  sockClose : s'.sockClose = s.sockClose

def Local.Outside (l : Local) : Prop := ∀ pc, l.release = some pc → pc = .take

inductive Handling (s : Shared) (l : Local) (s' : Shared) (l' : Local) : Prop
  | quiet (hsame : SameResources s s') (hhands : ∀ r ∈ l.hands, r ∈ l'.hands)
      (houtside : l'.Outside)
  | make (r : Resource) (hs : s' = { s with created := insert r s.created })
      (hhands : ∀ x ∈ r :: l.hands, x ∈ l'.hands) (houtside : l'.Outside)
  | store (rs : List Resource) (hs : s' = { s with fields := s.fields ∪ rs.toFinset })
      (hmaking : l.making ≠ []) (hhands : ∀ x ∈ l.hands, x ∈ rs) (houtside : l'.Outside)
  | drop (r : Resource) (hs : s' = { s with closed := insert r s.closed })
      (hhands : ∀ x ∈ l.hands, x = r ∨ x ∈ l'.hands) (houtside : l'.Outside)
  | take (hs : s' = { s with fields := s.fields ∩ {.socket} }) (hempty : l.hands = [])
      (hrelease : l.release = some .take)
      (hrelease' : l'.release = some (.closing s.takeable (.socket ∈ s.fields)))
  | close (r : Resource) (rest : List Resource) (sock : Bool)
      (hs : s' = { s with closed := insert r s.closed }) (hmaking : l.making = [])
      (hrelease : l.release = some (.closing (r :: rest) sock))
      (hrelease' : l'.release = some (.closing rest sock))
  | once (sock : Bool) (hs : s' = (execResource s (.sockOnce sock)).1) (hmaking : l.making = [])
      (hrelease : l.release = some (.closing [] sock)) (hrelease' : l'.release = none)

variable {s s' : Shared} {l l' : Local}

theorem sameResources_of_stage {op : StageOp Result} {result : Result}
    (hexec : exec plan s (.stage op) = some (s', result)) : SameResources s s' := by
  cases stageEffect_of_exec hexec with
  | _ => exact ⟨rfl, rfl, rfl, rfl⟩

theorem sameResources_of_succeed (hstep : SucceedStep plan s choice pc s' next) :
    SameResources s s' := by
  cases hstep with
  | _ => exact ⟨rfl, rfl, rfl, rfl⟩

theorem mem_hands_of_take (hr : r ∈ s.fields) :
    r ∈ (ReleasePC.closing s.takeable (.socket ∈ s.fields)).hands := by
  by_cases hsocket : Resource.socket ∈ s.fields
  · cases r with
    | _ => simp [ReleasePC.hands, Shared.takeable, hsocket, hr]
  · have hne : r ≠ .socket := by
      rintro rfl
      exact hsocket hr
    cases r with
    | socket => exact absurd rfl hne
    | _ => simp [ReleasePC.hands, Shared.takeable, hsocket, hr]

theorem Local.outside_of_release (h : l.release = none) : l.Outside := by
  intro pc hpc
  simp [h] at hpc

theorem Local.hands_of_outside (hmaking : l.making = []) (h : l.Outside) : l.hands = [] := by
  unfold hands
  cases hl : l.release with
  | none => rw [hmaking, Option.elim_none, List.append_nil]
  | some pc =>
    rw [h pc hl, hmaking]
    rfl

theorem handling_of_release (hstep : ReleaseStep s pc s' next) (hl : l.release = some pc)
    (hl' : l'.release = next) (hmaking : l.making = []) : Handling s l s' l' := by
  cases hstep with
  | take =>
    refine .take rfl (hands_of_outside hmaking fun pc hpc => ?_) hl hl'
    rw [hl] at hpc
    exact (Option.some.inj hpc).symm
  | @close r rest sock => exact .close r rest sock rfl hmaking hl hl'
  | @once sock => exact .once sock rfl hmaking hl hl'

theorem handling_of_quiet (hsame : SameResources s s') (hmaking : l.making = [])
    (hl : l.Outside) (hl' : l'.Outside) : Handling s l s' l' := by
  refine .quiet hsame (fun r hr => ?_) hl'
  simp [hands_of_outside hmaking hl] at hr

theorem handling_of_closeAll (hstep : CloseAllStep s pc s' next) (hl : l.release = pc.release?)
    (hl' : l'.release = next.bind CloseAllPC.release?) (hmaking : l.making = []) :
    Handling s l s' l' := by
  cases hstep with
  | @release pc _ next hstep =>
    refine handling_of_release hstep hl (hl'.trans ?_) hmaking
    cases next <;> rfl
  | detached =>
    exact handling_of_quiet ⟨rfl, rfl, rfl, rfl⟩ hmaking (outside_of_release hl)
      (outside_of_release hl')
  | attached =>
    refine handling_of_quiet ⟨rfl, rfl, rfl, rfl⟩ hmaking (outside_of_release hl) ?_
    intro pc hpc
    rw [hl'] at hpc
    exact (Option.some.inj hpc).symm

theorem handling_of_fail (hstep : FailStep reason s pc s' next) (hl : l.release = pc.release?)
    (hl' : l'.release = next.bind FailPC.release?) (hmaking : l.making = []) :
    Handling s l s' l' := by
  cases hstep with
  | @closeAll pc _ next hstep =>
    refine handling_of_closeAll hstep hl (hl'.trans ?_) hmaking
    cases next <;> rfl
  | _ =>
    exact handling_of_quiet ⟨rfl, rfl, rfl, rfl⟩ hmaking (outside_of_release hl)
      (outside_of_release hl')

/-! ## The session's goroutine -/

theorem Progress.enter_outside (here : PC → Stage) (tail : Bool) {next : α → OwnPC}
    (hnext : ∀ a, (own (next a)).release = none) (progress : Progress PC α) :
    (own (progress.enter here tail next)).Outside := by
  apply outside_of_release
  cases progress with
  | «at» | failed => rfl
  | done a => exact hnext a

theorem handling_of_stage {here : PC → Stage} {next : α → OwnPC}
    {request : Request StageOp (Progress PC α)} {result : request.Result} {st : Stage}
    (hmaking : (own (.stage st)).making = [])
    (hnext : ∀ a, (own (next a)).release = none)
    (hexec : exec plan s (.stage request.op) = some (s', result)) :
    Handling s (.own (.stage st)) s' (.own ((request.resume result).enter here tail next)) :=
  handling_of_quiet (sameResources_of_stage hexec) hmaking (outside_of_release rfl)
    (enter_outside here tail hnext _)

theorem handling_of_socket {next : Unit → OwnPC}
    (hcontrol : openSocketControl choice pc = some request)
    (hnext : ∀ a, (own (next a)).release = none)
    (hexec : exec plan s request.op.toSession = some (s', result)) :
    Handling s (.own (.stage (.socket pc))) s'
      (.own ((request.resume result).enter .socket tail next)) := by
  have houtside := enter_outside Stage.socket tail hnext
  cases pc with
  | setState =>
    cases hcontrol
    cases hexec
    exact .quiet ⟨rfl, rfl, rfl, rfl⟩ (fun _ hr => hr) (houtside _)
  | make =>
    simp only [openSocketControl] at hcontrol
    split at hcontrol <;> cases hcontrol
    · cases hexec
      exact .make .socket rfl (fun _ hr => hr) (houtside _)
    · cases hexec
      exact .quiet ⟨rfl, rfl, rfl, rfl⟩ (fun _ hr => hr) (houtside _)
  | store =>
    cases hcontrol
    cases hexec
    exact .store [.socket] rfl (by simp [making, SocketPC.hands]) (fun _ hr => hr)
      (houtside _)

theorem handshake_hands (pc : HandshakePC) :
    (own (.stage (.handshake pc))).hands = pc.hands := List.append_nil _

/-- Every step of `handshake` keeps what it has made in its hands, stores it or
closes it. -/
theorem handling_of_handshake {request : Request RunOp (Progress HandshakePC Unit)}
    {result : request.Result} (hcontrol : handshakeControl plan choice pc = some request)
    (hnext : ∀ a, (own (next a)).release = none)
    (hexec : exec plan s request.op.toSession = some (s', result))
    (hstore : ∀ rs, pc = .store rs → rs ≠ []) :
    Handling s (.own (.stage (.handshake pc))) s'
      (.own ((request.resume result).enter .handshake tail next)) := by
  have houtside := enter_outside Stage.handshake tail hnext
  have hquiet : ∀ progress : Progress HandshakePC Unit, SameResources s s' →
      (∀ r ∈ pc.hands, r ∈ (own (progress.enter .handshake tail next)).hands) →
      Handling s (.own (.stage (.handshake pc))) s'
        (.own (progress.enter .handshake tail next)) :=
    fun progress hsame hhands => .quiet hsame (by rwa [handshake_hands]) (houtside _)
  cases pc with
  | gate | setState timeout =>
    cases hcontrol
    cases hexec
    exact hquiet _ ⟨rfl, rfl, rfl, rfl⟩ fun r hr => by cases hr
  | cert timeout =>
    simp only [handshakeControl] at hcontrol
    split at hcontrol <;> cases hcontrol <;> cases hexec <;>
      exact hquiet _ ⟨rfl, rfl, rfl, rfl⟩ fun r hr => by cases hr
  | newTransport timeout =>
    cases hcontrol
    cases hexec
    exact .make .transport rfl (fun _ hr => hr) (houtside _)
  | context timeout =>
    cases hcontrol
    cases hexec
    refine hquiet _ ⟨rfl, rfl, rfl, rfl⟩ fun r hr => ?_
    cases plan.role <;> exact hr
  | listen due =>
    simp only [handshakeControl] at hcontrol
    split at hcontrol <;> cases hcontrol
    · cases hexec
      exact .make .listener rfl (fun _ hr => hr) (houtside _)
    · cases hexec
      exact hquiet _ ⟨rfl, rfl, rfl, rfl⟩ fun r hr => hr
  | accept due =>
    simp only [handshakeControl] at hcontrol
    split at hcontrol <;> cases hcontrol
    · cases hexec
      refine .make .conn rfl (fun x hx => ?_) (houtside _)
      rw [handshake_hands] at hx
      simp only [enter, handshake_hands, HandshakePC.hands, List.mem_cons] at hx ⊢
      tauto
    · cases hexec
      exact .make .conn rfl (fun _ hr => hr) (houtside _)
    · cases hexec
      refine hquiet _ ⟨rfl, rfl, rfl, rfl⟩ fun r hr => ?_
      dsimp only
      split <;> exact hr
  | loadSocket due | dialCheck due =>
    cases hcontrol
    cases hexec
    refine hquiet _ ⟨rfl, rfl, rfl, rfl⟩ fun r hr => ?_
    dsimp only
    split <;> exact hr
  | listenGate due | waitListening due ready =>
    cases hcontrol
    cases hexec
    exact hquiet _ ⟨rfl, rfl, rfl, rfl⟩ fun r hr => hr
  | dial due again =>
    simp only [handshakeControl] at hcontrol
    split at hcontrol <;> cases hcontrol
    · cases hexec
      refine .make .conn rfl (fun x hx => ?_) (houtside _)
      rw [handshake_hands] at hx
      simp only [enter, handshake_hands, HandshakePC.hands, List.mem_cons] at hx ⊢
      tauto
    · cases hexec
      exact hquiet _ ⟨rfl, rfl, rfl, rfl⟩ fun r hr => hr
    · cases hexec
      refine hquiet _ ⟨rfl, rfl, rfl, rfl⟩ fun r hr => ?_
      dsimp only
      split <;> exact hr
  | dialPause due pause =>
    simp only [handshakeControl] at hcontrol
    split at hcontrol <;> cases hcontrol
    · exact hquiet _ (sameResources_of_stage hexec) fun r hr => hr
    · exact hquiet _ (sameResources_of_stage hexec) fun r hr => hr
  | store rs =>
    cases hcontrol
    cases hexec
    refine .store rs rfl (hstore rs rfl) (fun x hx => ?_) (houtside _)
    rwa [handshake_hands] at hx
  | abandon todo reason =>
    cases todo with
    | nil =>
      cases hcontrol
      cases hexec
      exact hquiet _ ⟨rfl, rfl, rfl, rfl⟩ fun r hr => by cases hr
    | cons r rest =>
      cases hcontrol
      cases hexec
      refine .drop r rfl (fun x hx => ?_) (houtside _)
      rw [handshake_hands] at hx
      rw [enter, handshake_hands]
      exact List.mem_cons.1 hx

theorem Plan.leave_release (plan : Plan) (tail : Bool) :
    (own (plan.leave tail)).release = none := by
  unfold Plan.leave
  split <;> rfl

theorem Plan.failing_release (plan : Plan) (reason : Reason) (tail : Bool)
    (next : Option FailPC) :
    (own (plan.failing reason tail next)).release = next.bind FailPC.release? := by
  cases next with
  | none => exact plan.leave_release tail
  | some pc => rfl

theorem Plan.succeeding_release (plan : Plan) (resume : Option Time)
    (next : Option SucceedPC) :
    (own (plan.succeeding resume next)).release = none := by
  cases next with
  | none =>
    cases resume with
    | none => exact plan.leave_release true
    | some due => rfl
  | some pc => rfl

theorem handling_of_idle (hsame : SameResources s s') (hmaking : l.making = [])
    (hl : l.release = none) (hl' : l'.release = none) : Handling s l s' l' :=
  handling_of_quiet hsame hmaking (outside_of_release hl) (outside_of_release hl')

theorem handling_of_own (hstep : OwnStep plan s choice pc s' pc')
    (hstore : ∀ rs, pc = .stage (.handshake (.store rs)) → rs ≠ []) :
    Handling s (.own pc) s' (.own pc') := by
  cases hstep with
  | @stage st _ _ _ hcontrol hexec =>
    cases st with
    | query pc | meet pc | hole pc | probe pc =>
      obtain ⟨request, -, rfl⟩ := Option.map_eq_some_iff.1 hcontrol
      exact handling_of_stage rfl (fun _ => rfl) hexec
    | socket pc =>
      obtain ⟨request, hrequest, rfl⟩ := Option.map_eq_some_iff.1 hcontrol
      exact handling_of_socket hrequest (fun _ => rfl) hexec
    | handshake pc =>
      obtain ⟨request, hrequest, rfl⟩ := Option.map_eq_some_iff.1 hcontrol
      exact handling_of_handshake hrequest (fun _ => rfl) hexec
        fun rs hpc => hstore rs (hpc ▸ rfl)
  | failing hstep => exact handling_of_fail hstep rfl (plan.failing_release _ _ _) rfl
  | succeeding hstep =>
    exact handling_of_idle (sameResources_of_succeed hstep) rfl rfl
      (plan.succeeding_release _ _)
  | served => exact handling_of_idle ⟨rfl, rfl, rfl, rfl⟩ rfl rfl (plan.leave_release true)
  | _ => exact handling_of_idle ⟨rfl, rfl, rfl, rfl⟩ rfl rfl rfl

/-! ## Every goroutine -/

theorem handling_of_events (hstep : EventsStep s pc s' pc') :
    Handling s (.events pc) s' (.events pc') := by
  cases hstep with
  | failing hstep | failed hstep => exact handling_of_fail hstep rfl rfl rfl
  | _ => exact handling_of_idle ⟨rfl, rfl, rfl, rfl⟩ rfl rfl rfl

theorem handling_of_close (hstep : CloseStep s pc s' pc') :
    Handling s (.close pc) s' (.close pc') := by
  cases hstep with
  | closeAll hstep | closed hstep => exact handling_of_closeAll hstep rfl rfl rfl
  | _ => exact handling_of_idle ⟨rfl, rfl, rfl, rfl⟩ rfl rfl rfl

theorem handling_of_path (hstep : PathStep s pc s' pc') : Handling s (.path pc) s' (.path pc') := by
  cases hstep with
  | closeConn =>
    refine .drop .conn rfl (fun x hx => by cases hx) fun pc hpc => ?_
    exact (Option.some.inj hpc).symm
  | release hstep | released hstep => exact handling_of_release hstep rfl rfl rfl

/-- A step of a goroutine passes on every resource that it has in hand. -/
theorem handling_of_step (hstep : LocalStep plan s choice l s' l')
    (hstore : ∀ rs, l = .own (.stage (.handshake (.store rs))) → rs ≠ []) : Handling s l s' l' := by
  cases hstep with
  | own hstep => exact handling_of_own hstep fun rs hpc => hstore rs (hpc ▸ rfl)
  | events hstep => exact handling_of_events hstep
  | close hstep => exact handling_of_close hstep
  | path hstep => exact handling_of_path hstep

/-! ## Nothing gets lost -/

/-- Once the socket is in its field, the one chance to close it is used on it. -/
def SocketOnce (s : Shared) : Prop :=
  .socket ∈ s.fields → s.sockClose = true → .socket ∈ s.closed

/-- What a call of `releaseAll` has seen of the socket is still so. -/
def ReleasePC.SeesSocket (s : Shared) : ReleasePC → Prop
  | .take => True
  | .closing _ sock => sock = true ↔ .socket ∈ s.fields

structure Taken (s : Shared) (l : Local) (s' : Shared) (l' : Local) : Prop where
  release : l.release = some .take
  empty : l.hands = []
  created : s'.created = s.created
  fields : ∀ r ∈ s.fields, r ∈ l'.hands

namespace Handling

section

variable (h : Handling s l s' l')
include h

theorem created (hr : r ∈ s'.created) : r ∈ s.created ∨ r ∈ l'.hands := by
  cases h with
  | quiet hsame => exact .inl (hsame.created ▸ hr)
  | make x hs hhands =>
    subst hs
    rcases Finset.mem_insert.1 hr with rfl | hr
    · exact .inr (hhands _ List.mem_cons_self)
    · exact .inl hr
  | store _ hs | drop _ hs | take hs | close _ _ _ hs | once _ hs =>
    subst hs
    exact .inl hr

theorem closed (hr : r ∈ s.closed) : r ∈ s'.closed := by
  cases h with
  | quiet hsame => exact hsame.closed ▸ hr
  | make _ hs | store _ hs | take hs =>
    subst hs
    exact hr
  | drop _ hs | close _ _ _ hs =>
    subst hs
    exact Finset.mem_insert_of_mem hr
  | once sock hs =>
    subst hs
    simp only [execResource]
    split
    · exact Finset.mem_insert_of_mem hr
    · exact hr

theorem socket (hr : .socket ∈ s.fields) : .socket ∈ s'.fields := by
  cases h with
  | quiet hsame => exact hsame.fields ▸ hr
  | make _ hs | drop _ hs | close _ _ _ hs | once _ hs =>
    subst hs
    exact hr
  | store _ hs =>
    subst hs
    exact Finset.mem_union_left _ hr
  | take hs =>
    subst hs
    simpa using hr

theorem fields_subset (hmaking : l.making = []) : s'.fields ⊆ s.fields := by
  cases h with
  | quiet hsame => exact hsame.fields.subset
  | make _ hs | drop _ hs | close _ _ _ hs | once _ hs =>
    subst hs
    exact Finset.Subset.refl _
  | store _ _ hne => exact absurd hmaking hne
  | take hs =>
    subst hs
    exact Finset.inter_subset_left

omit h in
theorem taken_of_release (hs : s' = { s with fields := s.fields ∩ {.socket} })
    (hempty : l.hands = []) (hrelease : l.release = some .take)
    (hrelease' : l'.release = some (.closing s.takeable (.socket ∈ s.fields))) :
    Taken s l s' l' where
  release := hrelease
  empty := hempty
  created := by rw [hs]
  fields := fun r hr => by
    simp only [hands, hrelease', Option.elim_some, List.mem_append]
    exact .inr (mem_hands_of_take hr)

theorem fields (hr : r ∈ s.fields) : r ∈ s'.fields ∨ Taken s l s' l' := by
  cases h with
  | quiet hsame => exact .inl (hsame.fields ▸ hr)
  | make _ hs | drop _ hs | close _ _ _ hs | once _ hs =>
    subst hs
    exact .inl hr
  | store _ hs =>
    subst hs
    exact .inl (Finset.mem_union_left _ hr)
  | take hs hempty hrelease hrelease' =>
    exact .inr (taken_of_release hs hempty hrelease hrelease')

theorem taken (hl' : l'.release = some (.closing todo sock)) :
    Taken s l s' l' ∨ ∃ r, l.release = some (.closing (r :: todo) sock) := by
  cases h with
  | quiet _ _ houtside | make _ _ _ houtside | store _ _ _ _ houtside | drop _ _ _ houtside =>
    cases houtside _ hl'
  | take hs hempty hrelease hrelease' =>
    exact .inl (taken_of_release hs hempty hrelease hrelease')
  | close r rest sock _ _ hrelease hrelease' =>
    rw [hrelease'] at hl'
    cases hl'
    exact .inr ⟨r, hrelease⟩
  | once _ _ _ _ hrelease' =>
    simp [hrelease'] at hl'

theorem hands (honce : SocketOnce s)
    (hsees : ∀ pc, l.release = some pc → pc.SeesSocket s) (hr : r ∈ l.hands) :
    r ∈ s'.closed ∨ r ∈ l'.hands ∨ l.making ≠ [] ∧ r ∈ s'.fields := by
  cases h with
  | quiet _ hhands => exact .inr (.inl (hhands r hr))
  | make _ _ hhands => exact .inr (.inl (hhands r (List.mem_cons_of_mem _ hr)))
  | store rs hs hmaking hhands =>
    subst hs
    exact .inr (.inr ⟨hmaking, Finset.mem_union_right _ (List.mem_toFinset.2 (hhands r hr))⟩)
  | drop x hs hhands =>
    subst hs
    rcases hhands r hr with rfl | hr
    · exact .inl (Finset.mem_insert_self _ _)
    · exact .inr (.inl hr)
  | take _ hempty =>
    simp [hempty] at hr
  | close x rest sock hs hmaking hrelease hrelease' =>
    subst hs
    simp only [hands, hmaking, hrelease, hrelease', ReleasePC.hands, List.nil_append,
      Option.elim_some, List.mem_append, Finset.mem_insert] at hr ⊢
    cases sock with
    | false =>
      rcases List.mem_cons.1 hr with rfl | hr
      · exact .inl (.inl rfl)
      · exact .inr (.inl (.inr hr))
    | true =>
      rcases List.mem_cons.1 hr with rfl | hr
      · exact .inr (.inl (.inr List.mem_cons_self))
      · rcases List.mem_cons.1 hr with rfl | hr
        · exact .inl (.inl rfl)
        · exact .inr (.inl (.inr (List.mem_cons_of_mem _ hr)))
  | once sock hs hmaking hrelease =>
    subst hs
    simp only [hands, hmaking, hrelease, ReleasePC.hands, List.nil_append, Option.elim_some] at hr
    cases sock with
    | false => cases hr
    | true =>
      obtain rfl : r = .socket := by simpa using hr
      have hsocket : .socket ∈ s.fields := (hsees _ hrelease).1 rfl
      -- another call may have closed the socket before
      by_cases hclosed : s.sockClose = true
      · exact .inl (by simp [execResource, hclosed, honce hsocket hclosed])
      · exact .inl (by simp [execResource, hclosed])

theorem socketOnce (honce : SocketOnce s)
    (hsees : ∀ pc, l.release = some pc → pc.SeesSocket s)
    (hfresh : l.making ≠ [] → .socket ∈ s.fields ∨ s.sockClose = false) : SocketOnce s' := by
  intro hfield hclosed
  cases h with
  | quiet hsame =>
    rw [hsame.fields] at hfield
    rw [hsame.sockClose] at hclosed
    exact hsame.closed ▸ honce hfield hclosed
  | make _ hs =>
    subst hs
    exact honce hfield hclosed
  | store rs hs hmaking =>
    subst hs
    rcases hfresh hmaking with hsocket | hopen
    · exact honce hsocket hclosed
    · simp [hopen] at hclosed
  | drop _ hs | close _ _ _ hs =>
    subst hs
    exact Finset.mem_insert_of_mem (honce hfield hclosed)
  | take hs =>
    subst hs
    exact honce (Finset.mem_inter.1 hfield).1 hclosed
  | once sock hs _ hrelease =>
    subst hs
    obtain rfl : sock = true := (hsees _ hrelease).2 hfield
    by_cases hclosed : s.sockClose = true
    · simp [execResource, hclosed, honce hfield hclosed]
    · simp [execResource, hclosed]

theorem sees (hsees : ∀ pc, l.release = some pc → pc.SeesSocket s) :
    ∀ pc, l'.release = some pc → pc.SeesSocket s' := by
  intro pc hpc
  cases h with
  | quiet _ _ houtside | make _ _ _ houtside | store _ _ _ _ houtside | drop _ _ _ houtside =>
    rw [houtside pc hpc]
    trivial
  | take hs _ _ hrelease' =>
    rw [hrelease'] at hpc
    cases hpc
    subst hs
    simp [ReleasePC.SeesSocket]
  | close r rest sock hs _ hrelease hrelease' =>
    rw [hrelease'] at hpc
    cases hpc
    subst hs
    exact hsees _ hrelease
  | once _ _ _ _ hrelease' =>
    simp [hrelease'] at hpc

theorem sockClose : s'.sockClose = s.sockClose ∨ ∃ sock, l.release = some (.closing [] sock) := by
  cases h with
  | quiet hsame => exact .inl hsame.sockClose
  | make _ hs | store _ hs | drop _ hs | take hs | close _ _ _ hs =>
    subst hs
    exact .inl rfl
  | once sock _ _ hrelease => exact .inr ⟨sock, hrelease⟩

end

end Handling

/-- Some goroutine has the resource in its hands. -/
def Held (cfg : SessionConfig) (r : Resource) : Prop :=
  ∃ t l, cfg.threads.lookup t = some l ∧ r ∈ l.hands

/-- The resource is closed, or some goroutine will see to it. -/
def Kept (cfg : SessionConfig) (r : Resource) : Prop := r ∈ cfg.shared.closed ∨ Held cfg r

def AllKept (cfg : SessionConfig) : Prop := ∀ r ∈ cfg.shared.created, Kept cfg r

structure Moved (cfg cfg' : SessionConfig) (t : Thread) (l l' : Local) : Prop where
  lookup : cfg.threads.lookup t = some l
  threads : cfg'.threads = cfg.threads.insert t l'
  handling : Handling cfg.shared l cfg'.shared l'
  once : SocketOnce cfg.shared
  sees : ∀ pc, l.release = some pc → pc.SeesSocket cfg.shared

namespace Moved

section

variable (h : Moved cfg cfg' t l l')
include h

theorem kept_of_hands (hr : r ∈ l'.hands) : Kept cfg' r :=
  .inr ⟨t, l', h.threads ▸ Finmap.lookup_insert _, hr⟩

theorem kept (hr : Kept cfg r) : Kept cfg' r ∨ l.making ≠ [] ∧ r ∈ cfg'.shared.fields := by
  rcases hr with hr | ⟨t', l'', hl, hr⟩
  · exact .inl (.inl (h.handling.closed hr))
  · by_cases ht : t' = t
    · subst ht
      rw [h.lookup] at hl
      cases hl
      rcases h.handling.hands h.once h.sees hr with hr | hr | hr
      · exact .inl (.inl hr)
      · exact .inl (h.kept_of_hands hr)
      · exact .inr hr
    · refine .inl (.inr ⟨t', l'', ?_, hr⟩)
      rw [h.threads, Finmap.lookup_insert_of_ne _ ht, hl]

theorem held
    (hheld : ∀ r ∈ cfg.shared.created, Kept cfg r ∨ r ∈ cfg.shared.fields) :
    ∀ r ∈ cfg'.shared.created, Kept cfg' r ∨ r ∈ cfg'.shared.fields := by
  intro r hr
  rcases h.handling.created hr with hr | hr
  · rcases hheld r hr with hr | hr
    · rcases h.kept hr with hr | ⟨-, hr⟩
      · exact .inl hr
      · exact .inr hr
    · rcases h.handling.fields hr with hr' | htaken
      · exact .inr hr'
      · exact .inl (h.kept_of_hands (htaken.fields r hr))
  · exact .inl (h.kept_of_hands hr)

theorem allKept (hmaking : l.making = []) (hkept : AllKept cfg) : AllKept cfg' := by
  intro r hr
  rcases h.handling.created hr with hr | hr
  · rcases h.kept (hkept r hr) with hr | ⟨hne, -⟩
    · exact hr
    · exact absurd hmaking hne
  · exact h.kept_of_hands hr

/-- After `releaseAll` has taken the fields, everything is in somebody's hands. -/
theorem allKept_of_taken
    (htaken : Taken cfg.shared l cfg'.shared l')
    (hheld : ∀ r ∈ cfg.shared.created, Kept cfg r ∨ r ∈ cfg.shared.fields) :
    AllKept cfg' := by
  intro r hr
  rcases hheld r (htaken.created ▸ hr) with hr | hr
  · rcases h.kept hr with hr | ⟨hne, -⟩
    · exact hr
    · exact absurd (List.append_eq_nil_iff.1 htaken.empty).1 hne
  · exact h.kept_of_hands (htaken.fields r hr)

end

end Moved

end Hy2Link.Client.Punch
