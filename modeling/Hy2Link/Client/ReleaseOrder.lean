import Hy2Link.Client.Custody

/-! # The order of releases

`releaseAll` closes the socket once, whether there is one yet or not, and takes
the other resources out of their fields once, whether all are there or not.
`InOrder` is the condition under which that is harmless: `handleBusyPush` and
`close` enter `releaseAll` only while the session has its socket and its goroutine
is still there to clean up, and a session that has succeeded is handed over.

`inCustody_step` gives what then holds at the program points of the goroutines.
-/

namespace Hy2Link.Client.Punch

open Interleaving

def Local.returned : Local → Bool
  | .own .deferred => true
  | .own .ended => true
  | _ => false

def Returned (cfg : SessionConfig) : Prop := (cfg.threads.lookup .own).any Local.returned = true

instance (cfg : SessionConfig) : Decidable (Returned cfg) := inferInstanceAs (Decidable (_ = _))

variable {l l' : Local} {pc pc' : OwnPC}

theorem returned_iff :
    Returned cfg ↔ ∃ l, cfg.threads.lookup .own = some l ∧ l.returned = true := by
  simp [Returned, Option.any_eq_true]

/-! ## The condition -/

def releaseOf (cfg : SessionConfig) (t : Thread) : Option ReleasePC :=
  (cfg.threads.lookup t).bind Local.release

theorem releaseOf_of_lookup (hl : cfg.threads.lookup t = some l) : releaseOf cfg t = l.release := by
  rw [releaseOf, hl, Option.bind_some]

/-- The fields are taken when the socket is among them and the session's
goroutine is there. -/
def TakesInTime (cfg : SessionConfig) (t : Thread) : Prop :=
  releaseOf cfg t = some .take → .socket ∈ cfg.shared.fields ∧ ¬ Returned cfg

def Local.asksManager : Local → Bool
  | .own (.succeeding .loadPathMgr _) => true
  | _ => false

def Local.asksAddresses : Local → Bool
  | .own (.succeeding .vip _) => true
  | _ => false

/-- The run function returns when no other goroutine is closing resources, and a
session that has succeeded finds the path manager and both addresses. -/
structure OwnInOrder (plan : Plan) (cfg : SessionConfig) (choice : Choice) (l : Local) :
    Prop where
  returns : l = .own .returning →
    ∀ t ∈ [Thread.events, .close], ∀ pc ∈ releaseOf cfg t, pc = .take
  manager : l.asksManager = true → cfg.shared.pathMgr = true
  addresses : l.asksAddresses = true →
    choice ≠ .fails ∧ ((Text.parseIP plan.peerVIP).bind Text.IP.to4).isSome = true

def InOrder (plan : Plan) (cfg : SessionConfig) : SessionAction → Prop
  | .step .own choice => ∀ l ∈ cfg.threads.lookup .own, OwnInOrder plan cfg choice l
  | .step .events _ => TakesInTime cfg .events
  | .step .close _ => TakesInTime cfg .close
  | _ => True

instance (cfg : SessionConfig) (t : Thread) : Decidable (TakesInTime cfg t) :=
  inferInstanceAs (Decidable (_ → _))

instance (plan : Plan) (cfg : SessionConfig) (choice : Choice) (l : Local) :
    Decidable (OwnInOrder plan cfg choice l) :=
  decidable_of_iff
    ((l = .own .returning →
        ∀ t ∈ [Thread.events, .close], ∀ pc ∈ releaseOf cfg t, pc = .take) ∧
      (l.asksManager = true → cfg.shared.pathMgr = true) ∧
      (l.asksAddresses = true →
        choice ≠ .fails ∧ ((Text.parseIP plan.peerVIP).bind Text.IP.to4).isSome = true))
    ⟨fun h => ⟨h.1, h.2.1, h.2.2⟩, fun h => ⟨h.returns, h.manager, h.addresses⟩⟩

instance (plan : Plan) (cfg : SessionConfig) :
    (action : SessionAction) → Decidable (InOrder plan cfg action)
  | .step .own choice =>
    inferInstanceAs (Decidable (∀ l ∈ cfg.threads.lookup .own, OwnInOrder plan cfg choice l))
  | .step .events _ => inferInstanceAs (Decidable (TakesInTime cfg .events))
  | .step .close _ => inferInstanceAs (Decidable (TakesInTime cfg .close))
  | .step .path _ => .isTrue trivial
  | .spawn _ _ => .isTrue trivial
  | .env _ => .isTrue trivial

/-! ## What holds at the points of the goroutines -/

structure Unopened (s : Shared) : Prop where
  fields : s.fields = ∅
  sockClose : s.sockClose = false
  detached : s.detached = false
  paths : s.paths = []

structure Attached (s : Shared) : Prop where
  socket : .socket ∈ s.fields
  detached : s.detached = false
  paths : s.paths = []

/-- The resources have been promised to a path that is not there yet. -/
structure Promised (s : Shared) : Prop where
  socket : .socket ∈ s.fields
  paths : s.paths = []

def OwnPC.Custody : OwnPC → Shared → Prop
  | .stage (.query _), s => Unopened s
  | .stage (.socket _), s => Unopened s
  | .stage (.handshake (.store rs)), s => .conn ∈ rs ∧ Attached s
  | .stage _, s => Attached s
  | .failing _ pc _, s => s.detached = false ∧ ∀ rpc, pc.release? = some rpc → rpc.SeesSocket s
  | .succeeding (.handle _) _, s => Promised s
  | .succeeding (.evicting _ _) _, s => Promised s
  | .succeeding (.establish _) _, s => Promised s
  | .succeeding .finish _, _ => True
  | .succeeding _ _, s => Attached s
  | _, _ => True

def Local.Closing (l : Local) (s : Shared) : Prop :=
  ∀ pc, l.release = some pc → pc.SeesSocket s ∧ (pc ≠ .take → .socket ∈ s.fields)

def Local.Custody : Local → Shared → Prop
  | .own pc, s => pc.Custody s
  | .path pc, s => s.paths ≠ [] ∧ (Local.path pc).Closing s
  | l, s => l.Closing s

structure Bookkeeping (s : Shared) : Prop where
  once : SocketOnce s
  path : s.paths ≠ [] → .socket ∈ s.fields
  single : s.paths.length ≤ 1

abbrev InCustody (cfg : SessionConfig) : Prop :=
  Outline Bookkeeping (fun t l s => l.thread = t ∧ l.Custody s) cfg

/-! ## The handover -/

structure SameHandover (s s' : Shared) : Prop where
  detached : s'.detached = s.detached
  paths : s'.paths = s.paths

theorem sameHandover_of_stage {op : StageOp Result} {result : Result}
    (hexec : exec plan s (.stage op) = some (s', result)) : SameHandover s s' := by
  cases stageEffect_of_exec hexec with
  | _ => exact ⟨rfl, rfl⟩

theorem sameHandover_of_resource {op : ResourceOp Result} {result : Result}
    (hexec : exec plan s (.resource op) = some (s', result)) : SameHandover s s' := by
  rw [(exec_resource hexec).1]
  cases op with
  | _ => exact ⟨rfl, rfl⟩

theorem sameHandover_of_run {op : RunOp Result} {result : Result}
    (hexec : exec plan s op.toSession = some (s', result)) : SameHandover s s' := by
  cases op with
  | stage op => exact sameHandover_of_stage hexec
  | resource op => exact sameHandover_of_resource hexec

theorem sameHandover_of_release {pc : ReleasePC} (hstep : ReleaseStep s pc s' next) :
    SameHandover s s' := by
  cases hstep with
  | _ => exact ⟨rfl, rfl⟩

theorem sameHandover_of_closeAll {pc : CloseAllPC} (hstep : CloseAllStep s pc s' next) :
    SameHandover s s' := by
  cases hstep with
  | release hstep => exact sameHandover_of_release hstep
  | _ => exact ⟨rfl, rfl⟩

theorem sameHandover_of_fail {pc : FailPC} (hstep : FailStep reason s pc s' next) :
    SameHandover s s' := by
  cases hstep with
  | closeAll hstep => exact sameHandover_of_closeAll hstep
  | _ => exact ⟨rfl, rfl⟩

theorem sameHandover_of_other (hstep : LocalStep plan s choice l s' l') (hl : l.thread ≠ .own) :
    SameHandover s s' := by
  cases hstep with
  | own => exact absurd rfl hl
  | events hstep =>
    cases hstep with
    | failing hstep | failed hstep => exact sameHandover_of_fail hstep
    | _ => exact ⟨rfl, rfl⟩
  | close hstep =>
    cases hstep with
    | closeAll hstep | closed hstep => exact sameHandover_of_closeAll hstep
    | _ => exact ⟨rfl, rfl⟩
  | path hstep =>
    cases hstep with
    | closeConn => exact ⟨rfl, rfl⟩
    | release hstep | released hstep => exact sameHandover_of_release hstep

/-! ## Steps of the other goroutines -/

structure Undisturbed (s s' : Shared) : Prop where
  handover : SameHandover s s'
  socket : .socket ∈ s'.fields ↔ .socket ∈ s.fields
  unopened : s.fields = ∅ → s'.fields = ∅ ∧ s'.sockClose = s.sockClose

theorem Handling.undisturbed (h : Handling s l s' l') (hmaking : l.making = [])
    (hclosing : l.Closing s) (hsame : SameHandover s s') : Undisturbed s s' where
  handover := hsame
  socket := ⟨fun hsocket => h.fields_subset hmaking hsocket, h.socket⟩
  unopened := fun hempty => by
    refine ⟨Finset.subset_empty.1 (hempty ▸ h.fields_subset hmaking), ?_⟩
    rcases h.sockClose with hsock | ⟨sock, hrelease⟩
    · exact hsock
    · have hsocket := (hclosing _ hrelease).2 (by simp)
      simp [hempty] at hsocket

theorem Unopened.undisturbed (hs : Unopened s) (h : Undisturbed s s') : Unopened s' where
  fields := (h.unopened hs.fields).1
  sockClose := (h.unopened hs.fields).2.trans hs.sockClose
  detached := h.handover.detached.trans hs.detached
  paths := h.handover.paths.trans hs.paths

theorem Attached.undisturbed (hs : Attached s) (h : Undisturbed s s') : Attached s' where
  socket := h.socket.2 hs.socket
  detached := h.handover.detached.trans hs.detached
  paths := h.handover.paths.trans hs.paths

theorem Promised.undisturbed (hs : Promised s) (h : Undisturbed s s') : Promised s' where
  socket := h.socket.2 hs.socket
  paths := h.handover.paths.trans hs.paths

theorem ReleasePC.SeesSocket.undisturbed {pc : ReleasePC} (hs : pc.SeesSocket s)
    (h : .socket ∈ s'.fields ↔ .socket ∈ s.fields) : pc.SeesSocket s' := by
  cases pc with
  | take => trivial
  | closing todo sock => exact Iff.trans hs h.symm

theorem OwnPC.Custody.undisturbed (hs : pc.Custody s) (h : Undisturbed s s') : pc.Custody s' := by
  cases pc with
  | stage st =>
    cases st with
    | query pc | socket pc => exact Unopened.undisturbed hs h
    | meet pc | hole pc | probe pc => exact Attached.undisturbed hs h
    | handshake pc =>
      cases pc with
      | store rs => exact ⟨hs.1, hs.2.undisturbed h⟩
      | _ => exact Attached.undisturbed hs h
  | failing reason pc tail =>
    exact ⟨h.handover.detached.trans hs.1, fun rpc hrpc => (hs.2 rpc hrpc).undisturbed h.socket⟩
  | succeeding pc resume =>
    cases pc with
    | handle | evicting | establish => exact Promised.undisturbed hs h
    | finish => trivial
    | _ => exact Attached.undisturbed hs h
  | _ => trivial

theorem Local.Closing.mono (hl : l.Closing s) (hsocket : .socket ∈ s.fields → .socket ∈ s'.fields) :
    l.Closing s' := by
  intro pc hpc
  obtain ⟨hsees, hfield⟩ := hl pc hpc
  refine ⟨?_, fun hne => hsocket (hfield hne)⟩
  cases pc with
  | take => trivial
  | closing todo sock =>
    -- the socket was seen, and stays
    have hseen := hfield (by simp)
    exact iff_of_true (hsees.2 hseen) (hsocket hseen)

theorem Handling.closing (h : Handling s l s' l') (hl : l.Closing s)
    (htake : l.release = some .take → .socket ∈ s.fields) : l'.Closing s' := by
  intro pc hpc
  refine ⟨h.sees (fun pc hpc => (hl pc hpc).1) pc hpc, fun hne => ?_⟩
  cases pc with
  | take => exact absurd rfl hne
  | closing todo sock =>
    rcases h.taken hpc with htaken | ⟨r, hrelease⟩
    · exact h.socket (htake htaken.release)
    · exact h.socket ((hl _ hrelease).2 (by simp))

/-! ## Steps of the session's goroutine -/

theorem Unopened.effect (hs : Unopened s) (h : StageEffect s s') : Unopened s' := by
  cases h with
  | _ => exact ⟨hs.fields, hs.sockClose, hs.detached, hs.paths⟩

theorem Attached.same (hs : Attached s) (h : SameHandover s s')
    (hsocket : .socket ∈ s.fields → .socket ∈ s'.fields) : Attached s' :=
  ⟨hsocket hs.socket, h.detached.trans hs.detached, h.paths.trans hs.paths⟩

theorem Progress.enter_custody {here : PC → Stage} {next : α → OwnPC} {progress : Progress PC α}
    (hdetached : s.detached = false)
    (hat : ∀ pc, progress = .at pc → (OwnPC.stage (here pc)).Custody s)
    (hdone : ∀ a, progress = .done a → (next a).Custody s) :
    (progress.enter here tail next).Custody s := by
  cases progress with
  | «at» pc => exact hat pc rfl
  | done a => exact hdone a rfl
  | failed reason => exact ⟨hdetached, fun rpc hrpc => by cases hrpc⟩

theorem socket_custody {pc : SocketPC} {result : request.Result}
    (hcontrol : openSocketControl choice pc = some request)
    (hexec : exec plan s request.op.toSession = some (s', result)) (hs : Unopened s) :
    ((request.resume result).enter .socket false
      fun _ => .stage (.meet .discoverGate)).Custody s' := by
  have hkept : Unopened { s with created := insert .socket s.created } :=
    ⟨hs.fields, hs.sockClose, hs.detached, hs.paths⟩
  cases pc with
  | setState =>
    cases hcontrol
    cases hexec
    exact ⟨hs.fields, hs.sockClose, hs.detached, hs.paths⟩
  | make =>
    simp only [openSocketControl] at hcontrol
    split at hcontrol <;> cases hcontrol
    · cases hexec
      exact hkept
    · cases hexec
      exact ⟨hs.detached, fun rpc hrpc => by cases hrpc⟩
  | store =>
    cases hcontrol
    cases hexec
    exact ⟨by simp, hs.detached, hs.paths⟩

theorem handshake_store {pc : HandshakePC} {result : request.Result}
    (hcontrol : handshakeControl plan choice pc = some request)
    (hrs : request.resume result = .at (.store rs)) : .conn ∈ rs := by
  cases pc with
  | cert | dialPause | listen =>
    simp only [handshakeControl] at hcontrol
    split at hcontrol <;> cases hcontrol <;> cases hrs
  | context | gate | loadSocket | dialCheck =>
    cases hcontrol
    dsimp only at hrs
    split at hrs <;> cases hrs
  | accept | dial =>
    simp only [handshakeControl] at hcontrol
    split at hcontrol <;> cases hcontrol
    · cases hrs
      simp
    · cases hrs
    · dsimp only at hrs
      split at hrs <;> cases hrs
  | abandon todo reason =>
    cases todo <;> cases hcontrol <;> cases hrs
  | _ =>
    cases hcontrol
    cases hrs

theorem succeed_custody {pc : SucceedPC} (hstep : SucceedStep plan s choice pc s' next)
    (hs : (OwnPC.succeeding pc resume).Custody s) : (plan.succeeding resume next).Custody s' := by
  cases hstep with
  | begin | storeReason | storeState => exact ⟨hs.socket, hs.detached, hs.paths⟩
  | detach => exact ⟨hs.socket, hs.paths⟩
  | detached | unmanaged | unknown | released | establish => trivial
  | finish =>
    cases resume with
    | none =>
      simp only [Plan.succeeding, Option.elim_none, Plan.leave]
      split <;> trivial
    | some due => trivial
  | _ => exact hs

theorem Plan.leave_custody (plan : Plan) (tail : Bool) (s : Shared) :
    (plan.leave tail).Custody s := by
  unfold Plan.leave
  split <;> trivial

theorem stage_custody {st : Stage} {result : request.Result}
    (hcontrol : stageControl plan choice st = some request)
    (hexec : exec plan s request.op = some (s', result))
    (hhandling : Handling s (.own (.stage st)) s' (.own (request.resume result)))
    (hs : (OwnPC.stage st).Custody s) : (request.resume result).Custody s' := by
  cases st with
  | query pc =>
    obtain ⟨request, -, rfl⟩ := Option.map_eq_some_iff.1 hcontrol
    have hs' := Unopened.effect hs (stageEffect_of_exec hexec)
    exact Progress.enter_custody hs'.detached (fun _ _ => hs') fun _ _ => hs'
  | socket pc =>
    obtain ⟨request, hrequest, rfl⟩ := Option.map_eq_some_iff.1 hcontrol
    exact socket_custody hrequest hexec hs
  | meet pc | hole pc | probe pc =>
    obtain ⟨request, -, rfl⟩ := Option.map_eq_some_iff.1 hcontrol
    have hs' := Attached.same hs (sameHandover_of_stage hexec) hhandling.socket
    exact Progress.enter_custody hs'.detached (fun _ _ => hs') fun _ _ => hs'
  | handshake pc =>
    obtain ⟨request, hrequest, rfl⟩ := Option.map_eq_some_iff.1 hcontrol
    have hattached : Attached s := by
      cases pc with
      | store rs => exact hs.2
      | _ => exact hs
    have hs' := hattached.same (sameHandover_of_run hexec) hhandling.socket
    refine Progress.enter_custody hs'.detached (fun pc' hpc' => ?_) fun _ _ => hs'
    cases pc' with
    | store rs => exact ⟨handshake_store hrequest hpc', hs'⟩
    | _ => exact hs'

theorem own_custody (hstep : OwnStep plan s choice pc s' pc')
    (hhandling : Handling s (.own pc) s' (.own pc')) (hs : pc.Custody s) : pc'.Custody s' := by
  cases hstep with
  | stage hcontrol hexec => exact stage_custody hcontrol hexec hhandling hs
  | @failing _ _ tail _ next hstep =>
    have hsees := hhandling.sees hs.2
    cases next with
    | none => exact plan.leave_custody tail s'
    | some pc' => exact ⟨(sameHandover_of_fail hstep).detached.trans hs.1, hsees⟩
  | succeeding hstep => exact succeed_custody hstep hs
  | served => exact plan.leave_custody true _
  | _ => trivial

theorem paths_of_stage {st : Stage} {result : request.Result}
    (hcontrol : stageControl plan choice st = some request)
    (hexec : exec plan s request.op = some (s', result)) : s'.paths = s.paths := by
  cases st with
  | socket pc | handshake pc =>
    obtain ⟨request, -, rfl⟩ := Option.map_eq_some_iff.1 hcontrol
    exact (sameHandover_of_run hexec).paths
  | _ =>
    obtain ⟨request, -, rfl⟩ := Option.map_eq_some_iff.1 hcontrol
    exact (sameHandover_of_stage hexec).paths

theorem paths_of_own (hstep : OwnStep plan s choice pc s' pc') :
    s'.paths = s.paths ∨
      (∃ req resume, pc = .succeeding (.establish req) resume) ∧
        ∃ path, s'.paths = s.paths ++ [path] := by
  cases hstep with
  | stage hcontrol hexec => exact .inl (paths_of_stage hcontrol hexec)
  | failing hstep => exact .inl (sameHandover_of_fail hstep).paths
  | @succeeding _ resume _ _ hstep =>
    cases hstep with
    | @establish req => exact .inr ⟨⟨req, resume, rfl⟩, _, rfl⟩
    | _ => exact .inl rfl
  | _ => exact .inl rfl

/-! ## Every step -/

theorem Local.Custody.closing (hl : l.Custody s) (hother : l.thread ≠ .own) : l.Closing s := by
  cases l with
  | own pc => exact absurd rfl hother
  | path pc => exact hl.2
  | _ => exact hl

theorem Local.making_of_other (hother : l.thread ≠ .own) : l.making = [] := by
  cases l with
  | own pc => exact absurd rfl hother
  | _ => rfl

theorem Local.Custody.sees (hl : l.Custody s) : ∀ pc, l.release = some pc → pc.SeesSocket s := by
  intro rpc hrpc
  cases l with
  | own pc =>
    cases pc with
    | failing reason pc tail => exact hl.2 rpc hrpc
    | _ => cases hrpc
  | path pc => exact (hl.2 rpc hrpc).1
  | _ => exact (hl rpc hrpc).1

/-- A goroutine that holds something new has its socket, or is about to store it. -/
theorem Local.Custody.fresh (hl : l.Custody s) (hmaking : l.making ≠ []) :
    .socket ∈ s.fields ∨ s.sockClose = false := by
  cases l with
  | own pc =>
    cases pc with
    | stage st =>
      cases st with
      | socket pc => exact .inr (Unopened.sockClose hl)
      | handshake pc =>
        cases pc with
        | store rs => exact .inl hl.2.socket
        | _ => exact .inl (Attached.socket hl)
      | _ => exact absurd rfl hmaking
    | _ => exact absurd rfl hmaking
  | _ => exact absurd rfl hmaking

theorem Local.Custody.store_ne_nil (hl : l.Custody s) :
    ∀ rs, l = .own (.stage (.handshake (.store rs))) → rs ≠ [] := by
  rintro rs rfl
  exact List.ne_nil_of_mem hl.1

theorem Local.Custody.mono (hl : l.Custody s) (hother : l.thread ≠ .own)
    (hsocket : .socket ∈ s.fields → .socket ∈ s'.fields) (hpaths : s.paths ≠ [] → s'.paths ≠ []) :
    l.Custody s' := by
  cases l with
  | own pc => exact absurd rfl hother
  | path pc => exact ⟨hpaths hl.1, hl.2.mono hsocket⟩
  | _ => exact Local.Closing.mono hl hsocket

theorem Bookkeeping.own (hs : Bookkeeping s) (hstep : OwnStep plan s choice pc s' pc')
    (hhandling : Handling s (.own pc) s' (.own pc')) (hpc : (Local.own pc).Custody s) :
    Bookkeeping s' := by
  refine ⟨hhandling.socketOnce hs.once hpc.sees hpc.fresh, ?_, ?_⟩
  · intro hne
    rcases paths_of_own hstep with hpaths | ⟨⟨req, resume, rfl⟩, -⟩
    · exact hhandling.socket (hs.path (hpaths ▸ hne))
    · exact hhandling.socket (Promised.socket hpc)
  · rcases paths_of_own hstep with hpaths | ⟨⟨req, resume, rfl⟩, path, hpaths⟩
    · exact hpaths ▸ hs.single
    · rw [hpaths, Promised.paths hpc]
      exact Nat.le_refl 1

theorem Bookkeeping.other (hs : Bookkeeping s) (hhandling : Handling s l s' l') (hl : l.Custody s)
    (hsame : SameHandover s s') : Bookkeeping s' where
  once := hhandling.socketOnce hs.once hl.sees hl.fresh
  path := fun hne => hhandling.socket (hs.path (hsame.paths ▸ hne))
  single := hsame.paths ▸ hs.single

theorem inCustody_of_own_step (hcfg : InCustody cfg) (hl : cfg.threads.lookup .own = some (.own pc))
    (hstep : OwnStep plan cfg.shared choice pc s' pc') :
    Bookkeeping s' ∧ pc'.Custody s' ∧
      ∀ other m, other ≠ .own → cfg.threads.lookup other = some m →
        m.thread = other ∧ m.Custody s' := by
  have hpc := (hcfg.thread _ _ hl).2
  have hhandling := handling_of_own hstep fun rs hrs => hpc.store_ne_nil rs (hrs ▸ rfl)
  refine ⟨hcfg.shared.own hstep hhandling hpc, own_custody hstep hhandling hpc,
    fun other m hne hm => ?_⟩
  obtain ⟨hthread, hcustody⟩ := hcfg.thread other m hm
  refine ⟨hthread, hcustody.mono (hthread ▸ hne) hhandling.socket fun hpaths => ?_⟩
  rcases paths_of_own hstep with hsame | ⟨-, path, happend⟩
  · exact hsame ▸ hpaths
  · rw [happend]
    simp

theorem inCustody_of_other_step (hcfg : InCustody cfg) (ht : t ≠ .own)
    (hl : cfg.threads.lookup t = some l)
    (htake : l.release = some .take → .socket ∈ cfg.shared.fields)
    (hstep : LocalStep plan cfg.shared choice l s' l') :
    Bookkeeping s' ∧ (l'.thread = t ∧ l'.Custody s') ∧
      ∀ other m, other ≠ t → cfg.threads.lookup other = some m →
        m.thread = other ∧ m.Custody s' := by
  obtain ⟨hthread, hcustody⟩ := hcfg.thread t l hl
  have hother : l.thread ≠ .own := hthread ▸ ht
  have hhandling := handling_of_step hstep hcustody.store_ne_nil
  have hsame := sameHandover_of_other hstep hother
  have hclosing := hcustody.closing hother
  have hundisturbed :=
    hhandling.undisturbed (Local.making_of_other hother) hclosing hsame
  refine ⟨hcfg.shared.other hhandling hcustody hsame, ⟨hstep.thread.trans hthread, ?_⟩,
    fun other m hne hm => ?_⟩
  · have hclosing' := hhandling.closing hclosing htake
    cases hstep with
    | own => exact absurd rfl hother
    | path => exact ⟨hsame.paths ▸ hcustody.1, hclosing'⟩
    | _ => exact hclosing'
  · obtain ⟨hthread', hcustody'⟩ := hcfg.thread other m hm
    refine ⟨hthread', ?_⟩
    cases m with
    | own pc => exact OwnPC.Custody.undisturbed hcustody' hundisturbed
    | _ =>
      exact hcustody'.mono (by simp [Local.thread]) hhandling.socket
        fun hpaths => hsame.paths ▸ hpaths

/-- A step in order keeps the custody of every goroutine. -/
theorem inCustody_step (hcfg : InCustody cfg) (hok : InOrder plan cfg action)
    (hnext : (system plan).next cfg action = some cfg') : InCustody cfg' := by
  refine session_outline ?_ ?_ ?_ cfg action cfg' hcfg hok hnext
  · intro cfg t l _ _ hspawn
    simp only [spawnable] at hspawn
    split at hspawn
    · exact ⟨rfl, fun pc hpc => by cases hpc⟩
    · exact ⟨rfl, by simpa using hspawn, fun pc hpc => by cases hpc⟩
    · cases hspawn
  · intro cfg t choice l s' l' hcfg hok hl hstep
    obtain ⟨rfl, hcustody⟩ := hcfg.thread t l hl
    cases l with
    | own pc =>
      cases hstep with
      | own hstep =>
        obtain ⟨hshared, hpc, hothers⟩ := inCustody_of_own_step hcfg hl hstep
        exact ⟨hshared, ⟨rfl, hpc⟩, hothers⟩
    | events pc | close pc =>
      refine inCustody_of_other_step hcfg (by simp [Local.thread]) hl (fun htake => ?_) hstep
      exact (hok ((releaseOf_of_lookup hl).trans htake)).1
    | path pc =>
      exact inCustody_of_other_step hcfg (by simp [Local.thread]) hl
        (fun _ => hcfg.shared.path hcustody.1) hstep
  · intro cfg e s' hcfg _ henv
    cases e with
    | elapse d | setPathMgr present =>
      cases henv
      refine ⟨⟨hcfg.shared.once, hcfg.shared.path, hcfg.shared.single⟩, fun t l hl => ?_⟩
      obtain ⟨hthread, hcustody⟩ := hcfg.thread t l hl
      refine ⟨hthread, ?_⟩
      cases l with
      | own pc =>
        exact OwnPC.Custody.undisturbed hcustody
          ⟨⟨rfl, rfl⟩, Iff.rfl, fun hempty => ⟨hempty, rfl⟩⟩
      | _ => exact hcustody

theorem Plan.initial_inCustody (plan : Plan) (manager : PunchManager) (pathMgr : Bool)
    (clock : Time) : InCustody (plan.initial manager pathMgr clock) := by
  refine ⟨⟨fun h => (by cases h), fun h => absurd rfl h, Nat.zero_le 1⟩, fun t l hl => ?_⟩
  rcases lookup_insert_eq_some.1 hl with ⟨rfl, rfl⟩ | ⟨-, hl⟩
  · exact ⟨rfl, fun pc hpc => by cases hpc⟩
  rcases lookup_insert_eq_some.1 hl with ⟨rfl, rfl⟩ | ⟨-, hl⟩
  · have hs : Unopened (plan.newSession manager pathMgr clock) := ⟨rfl, rfl, rfl, rfl⟩
    refine ⟨rfl, ?_⟩
    simp only [Plan.entry]
    split
    · exact hs
    · exact hs
  · cases hl

end Hy2Link.Client.Punch
