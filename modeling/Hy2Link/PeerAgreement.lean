import Hy2Link.Client.PathAccounts
import Hy2Link.Client.PathArbitration
import Hy2Link.Interleaving.Family
import Mathlib.Data.Fintype.Basic
import Mathlib.Tactic.MkIffOfInductiveProp

/-! # Two peers and their connections

Two clients have several connections to each other, each with one side as its
initiator.  Every side tries them and installs one as its route; which of two
connections it keeps depends on the addresses and the roles only, and both
sides give the same answer.

The answer does not settle everything.  Of two connections that both sides
would keep, each side keeps the one that passes its trial there first, and
closes the other one when that passes too, even if the peer uses it.  And each
side may have rejected the connection that the other one has installed.
-/

namespace Hy2Link.Client.Path

open Interleaving HandoverPC

/-! ## The couple -/

inductive Side
  | left | right
deriving DecidableEq

instance : Fintype Side where
  elems := {.left, .right}
  complete := by
    intro side
    cases side <;> simp

def Side.other : Side → Side
  | .left => .right
  | .right => .left

/-- Two peers with different addresses, and who has initiated each of their
connections. -/
structure Couple where
  vip : Side → IPv4
  distinct : vip .left ≠ vip .right
  count : Nat
  initiator : Nat → Side

namespace Couple

variable (couple : Couple)

def role (side : Side) (n : Nat) : Role :=
  if couple.initiator n = side then .initiator else .responder

def request (side : Side) (n : Nat) : EstablishedReq where
  peer := couple.vip side.other
  myVIP := couple.vip side
  role := couple.role side n

def allows (side : Side) : PathAction → Bool
  | .spawn (.handover n) l =>
    decide (n < couple.count ∧ l.main = .handover (.start (couple.request side n)))
  | _ => true

def step : (Side → PathConfig) → Move Side PathAction → Option (Side → PathConfig) :=
  family system.next couple.allows

end Couple

def bothInitial (enabled : Side → Bool) (side : Side) : PathConfig := initial (enabled side)

def connPath (cfg : PathConfig) (n : Nat) : Option PathId :=
  match cfg.threads.lookup (.handover n) with
  | some ⟨.handover (.done p), _⟩ => some p
  | _ => none

namespace Couple

variable (couple : Couple) (cfg : Side → PathConfig)

def route (side : Side) : Option PathId :=
  (cfg side).shared.routes.lookup (couple.vip side.other)

def Over (side : Side) (n : Nat) : Prop :=
  ∃ p ∈ connPath (cfg side) n, couple.route cfg side = some p

instance (side : Side) (n : Nat) : Decidable (couple.Over cfg side n) :=
  inferInstanceAs (Decidable (∃ p ∈ connPath (cfg side) n, _))

/-- Nothing is going on: the connections are established on both sides, their
trials are over, and a connection that is closed on one side has been taken
down on the other. -/
@[mk_iff]
structure Quiescent : Prop where
  resting : ∀ side, Resting (cfg side)
  established : ∀ side, ∀ n < couple.count, connPath (cfg side) n ≠ none
  judged : ∀ side, ∀ n < couple.count, ∀ p ∈ connPath (cfg side) n,
    (cfg side).shared.stateOf p ≠ some .trial
  takenDown : ∀ side, ∀ n < couple.count, ∀ p ∈ connPath (cfg side) n,
    (cfg side).shared.closed p = true → ¬ couple.Over cfg side.other n

instance : Decidable (couple.Quiescent cfg) := decidable_of_iff _ (couple.quiescent_iff cfg).symm

def Agree : Prop := ∃ n < couple.count, ∀ side, couple.Over cfg side n

instance : Decidable (couple.Agree cfg) :=
  inferInstanceAs (Decidable (∃ n < couple.count, ∀ _, _))

/-- The route of the side is over a connection that the peer has rejected. -/
def RejectedAcross (side : Side) : Prop :=
  ∃ n < couple.count, couple.Over cfg side n ∧ ∃ p ∈ connPath (cfg side.other) n,
    (cfg side.other).shared.stateOf p = some .rejected ∨
      (cfg side.other).shared.stateOf p = some .rejectedSettling

instance (side : Side) : Decidable (couple.RejectedAcross cfg side) :=
  inferInstanceAs (Decidable (∃ n < couple.count, _))

end Couple

/-! ## Closing by arbitration -/

def Tables.keeps (s : Tables) (p : PathId) : Option Bool :=
  (s.paths.lookup p).map fun path => arbitrationKeeps path.peer path.myVIP path.role

def closedByArbitration (cfg : PathConfig) : PathAction → Option PathId
  | .step (.watch p) _ =>
    match cfg.threads.lookup (.watch p) with
    | some ⟨.watch .refuse, none⟩ => some p
    | some ⟨.watch (.unlock existing), none⟩ => existing
    | _ => none
  | _ => none

/-- No side closes a connection by arbitration that is the route of the peer
and that the peer keeps. -/
def Couple.Spares (couple : Couple) (cfg : Side → PathConfig) (move : Move Side PathAction) :
    Prop :=
  ∀ p ∈ closedByArbitration (cfg move.party) move.action, ∀ n < couple.count,
    connPath (cfg move.party) n = some p → couple.Over cfg move.party.other n →
      ∀ q ∈ connPath (cfg move.party.other) n,
        (cfg move.party.other).shared.keeps q ≠ some true

/-- A path is not discarded for another one if arbitration keeps both. -/
def Unrivalled (cfg : PathConfig) : PathAction → Prop
  | .step (.watch p) choice =>
    ∀ _ ∈ discardsFor cfg (.step (.watch p) choice), cfg.shared.keeps p = some false
  | _ => True

instance (cfg : PathConfig) : ∀ action, Decidable (Unrivalled cfg action)
  | .step (.watch _) _ => inferInstanceAs (Decidable (∀ _ ∈ discardsFor cfg _, _))
  | .step (.setup _) _ | .step (.worker _ _) _ | .step .prune _ | .step (.handover _) _
  | .step .close _ | .step (.apply _) _ | .spawn _ _ | .env _ => .isTrue trivial

/-! ## Both sides give the same answer -/

theorem Side.other_other (side : Side) : side.other.other = side := by
  cases side <;> rfl

variable {couple : Couple}

theorem Side.eq_other_iff {other : Side} : other = side.other ↔ other ≠ side := by
  cases side <;> cases other <;> decide

def EstablishedReq.keeps (req : EstablishedReq) : Bool :=
  arbitrationKeeps req.peer req.myVIP req.role

namespace Couple

theorem vip_lt (side : Side) :
    couple.vip side.other < couple.vip side ↔ ¬ couple.vip side < couple.vip side.other := by
  have hne : couple.vip side.other ≠ couple.vip side := by
    cases side with
    | left => exact couple.distinct.symm
    | right => exact couple.distinct
  have hnat : (couple.vip side.other).toNat ≠ (couple.vip side).toNat :=
    fun heq => hne (BitVec.eq_of_toNat_eq heq)
  rw [BitVec.lt_def, BitVec.lt_def]
  omega

theorem role_eq_initiator : couple.role side n = .initiator ↔ couple.initiator n = side := by
  unfold role
  split
  next h => exact iff_of_true rfl h
  next h => exact iff_of_false nofun h

theorem role_other (side : Side) (n : Nat) :
    couple.role side.other n = .initiator ↔ ¬ couple.role side n = .initiator := by
  rw [role_eq_initiator, role_eq_initiator, Side.eq_other_iff]

/-- Both the order of the addresses and the role are the other way round on
the other side, so the answer is the same. -/
theorem keeps_other (side : Side) (n : Nat) :
    (couple.request side.other n).keeps = (couple.request side n).keeps := by
  simp only [EstablishedReq.keeps, arbitrationKeeps, request, Side.other_other, vip_lt, role_other]
  by_cases hlt : couple.vip side < couple.vip side.other <;>
    by_cases hrole : couple.role side n = .initiator <;> simp [hlt, hrole]

end Couple

/-! ## The connections of a side -/

theorem connPath_eq_some :
    connPath cfg n = some p ↔
      ∃ call, cfg.threads.lookup (.handover n) = some ⟨.handover (.done p), call⟩ := by
  unfold connPath
  constructor
  · intro h
    split at h <;> cases h
    next q call hlookup =>
      exact ⟨call, hlookup⟩
  · rintro ⟨call, hlookup⟩
    rw [hlookup]

def DirectPath.request (path : DirectPath) : EstablishedReq where
  peer := path.peer
  myVIP := path.myVIP
  role := path.role

theorem PathOp.update_request (op : PathOp Result) (p : PathId) (path : DirectPath) :
    (op.update p path).request = path.request := by
  cases op <;> simp only [PathOp.update] <;> repeat' split
  all_goals rfl

def HandoverPC.carries (s : Tables) (req : EstablishedReq) : HandoverPC → Prop
  | .start req' => req' = req
  | .count req' _ => req' = req
  | .evict req' => req' = req
  | .removeVictim req' _ => req' = req
  | .register req' => req' = req
  | .done p => ∃ path, s.paths.lookup p = some path ∧ path.request = req

structure Couple.Registered (couple : Couple) (side : Side) (cfg : PathConfig) : Prop where
  handovers : ∀ n pc call, cfg.threads.lookup (.handover n) = some ⟨.handover pc, call⟩ →
    n < couple.count ∧ pc.carries cfg.shared (couple.request side n)
  origin : ∀ p path, cfg.shared.paths.lookup p = some path → ∃ n, connPath cfg n = some p

theorem HandoverPC.carries_exec {op : PathOp Result} {result : Result} (hvalid : s.Valid)
    (hexec : exec t s op = some (s', result)) {pc : HandoverPC} (h : pc.carries s req) :
    pc.carries s' req := by
  cases pc with
  | done p =>
    obtain ⟨path, hp, hreq⟩ := h
    exact ⟨_, exec_update hvalid hexec hp, (op.update_request p path).trans hreq⟩
  | _ => exact h

theorem HandoverPC.carries_evicted (choice : Choice) (ps : List PathId) :
    (evicted req choice ps).carries s req := by
  unfold evicted
  repeat' split
  all_goals rfl

theorem HandoverPC.carries_main (hcontrol : handoverControl choice pc = some request)
    (hexec : exec t s request.op = some (s', result)) (h : pc.carries s req) :
    (request.resume result).1.carries s' req := by
  cases pc with
  | start | removeVictim =>
    cases hcontrol
    exact h
  | count req' m =>
    cases hcontrol
    dsimp only [goto]
    split <;> exact h
  | evict req' =>
    cases hcontrol
    obtain rfl : req' = req := h
    exact carries_evicted choice _
  | register req' =>
    cases hcontrol
    obtain rfl : req' = req := h
    obtain ⟨-, hrest⟩ := Tables.locked_eq_some.1 hexec
    cases hrest
    exact ⟨_, Finmap.lookup_insert _, rfl⟩
  | done p => cases hcontrol

section

variable (h : couple.Registered side cfg)
include h

theorem Couple.Registered.spawn
    (hallows : couple.allows side (.spawn t l) = true) (hfresh : cfg.threads.lookup t = none) :
    couple.Registered side { cfg with threads := cfg.threads.insert t l } := by
  refine ⟨fun n pc call hlookup => ?_, fun p path hp => ?_⟩
  · rcases lookup_insert_eq_some.1 hlookup with ⟨rfl, rfl⟩ | ⟨-, hold⟩
    · obtain ⟨hn, hmain⟩ := of_decide_eq_true hallows
      cases hmain
      exact ⟨hn, rfl⟩
    · exact h.handovers n pc call hold
  · obtain ⟨n, hn⟩ := h.origin p path hp
    obtain ⟨call, hlookup⟩ := connPath_eq_some.1 hn
    refine ⟨n, connPath_eq_some.2 ⟨call, (Finmap.lookup_insert_of_ne _ ?_).trans hlookup⟩⟩
    rintro rfl
    rw [hfresh] at hlookup
    cases hlookup

theorem Couple.Registered.call_step (hvalid : cfg.shared.Valid)
    (hlocal : cfg.threads.lookup t = some ⟨main, some (q, pc)⟩)
    (hexec : exec t cfg.shared (endControl q pc).op = some (shared, result)) (call : Call) :
    couple.Registered side ⟨shared, cfg.threads.insert t ⟨main, call⟩⟩ := by
  refine ⟨fun n hpc call' hlookup => ?_, fun p path hp => ?_⟩
  · obtain ⟨hn, hcarries⟩ : n < couple.count ∧ hpc.carries cfg.shared (couple.request side n) := by
      rcases lookup_insert_eq_some.1 hlookup with ⟨rfl, heq⟩ | ⟨-, hold⟩
      · cases heq
        exact h.handovers n hpc _ hlocal
      · exact h.handovers n hpc call' hold
    exact ⟨hn, carries_exec hvalid hexec hcarries⟩
  · obtain ⟨old, hold⟩ := registered_of_exec hexec (end_registers q pc).1 hp
    obtain ⟨n, hn⟩ := h.origin p old hold
    obtain ⟨call', hlookup⟩ := connPath_eq_some.1 hn
    by_cases ht : Thread.handover n = t
    · subst ht
      rw [hlookup] at hlocal
      cases hlocal
      exact ⟨n, connPath_eq_some.2 ⟨call, Finmap.lookup_insert _⟩⟩
    · exact ⟨n, connPath_eq_some.2 ⟨call', (Finmap.lookup_insert_of_ne _ ht).trans hlookup⟩⟩

theorem Couple.Registered.main_step (hvalid : cfg.shared.Valid)
    {main : Main} {request : Request PathOp Local} {result : request.Result}
    (hlocal : cfg.threads.lookup t = some ⟨main, none⟩) (hmain : MainStep choice t main request)
    (hexec : exec t cfg.shared request.op = some (shared, result)) :
    couple.Registered side ⟨shared, cfg.threads.insert t (request.resume result)⟩ := by
  refine ⟨fun n pc call hlookup => ?_, fun p path hp => ?_⟩
  · rcases lookup_insert_eq_some.1 hlookup with ⟨rfl, heq⟩ | ⟨-, hold⟩
    · cases hmain with
      | @handover _ old inner hcontrol =>
        obtain ⟨hn, hcarries⟩ := h.handovers n old _ hlocal
        obtain rfl : pc = (inner.resume result).1 := Main.handover.inj (congrArg Local.main heq)
        exact ⟨hn, carries_main hcontrol hexec hcarries⟩
    · obtain ⟨hn, hcarries⟩ := h.handovers n pc call hold
      exact ⟨hn, carries_exec hvalid hexec hcarries⟩
  · have hkept : ∀ old, cfg.shared.paths.lookup p = some old →
        ∃ n, connPath ⟨shared, cfg.threads.insert t (request.resume result)⟩ n = some p := by
      intro old hold
      obtain ⟨n, hn⟩ := h.origin p old hold
      obtain ⟨call, hlookup⟩ := connPath_eq_some.1 hn
      refine ⟨n, connPath_eq_some.2 ⟨call, (Finmap.lookup_insert_of_ne _ ?_).trans hlookup⟩⟩
      -- a handover that is done does not move
      rintro rfl
      rw [hlookup] at hlocal
      cases hlocal
      cases hmain with
      | handover hcontrol => cases hcontrol
    cases hregisters : request.op.registers with
    | true =>
      obtain ⟨n, req, rfl, rfl⟩ := (main_op hmain).registers hregisters
      cases hmain with
      | handover hcontrol =>
        cases hcontrol
        obtain ⟨-, hrest⟩ := Tables.locked_eq_some.1 hexec
        cases hrest
        rcases lookup_insert_eq_some.1 hp with ⟨rfl, -⟩ | ⟨-, hold⟩
        · exact ⟨n, connPath_eq_some.2 ⟨none, Finmap.lookup_insert _⟩⟩
        · exact hkept path hold
    | false =>
      obtain ⟨old, hold⟩ := registered_of_exec hexec hregisters hp
      exact hkept old hold

theorem Couple.Registered.step (hvalid : cfg.shared.Valid)
    (hallows : couple.allows side action = true) (hstep : PathStep cfg action cfg') :
    couple.Registered side cfg' := by
  cases hstep with
  | spawn hfresh hspawn => exact h.spawn hallows hfresh
  | call hlocal hexec => exact h.call_step hvalid hlocal hexec _
  | main hlocal hmain hexec => exact h.main_step hvalid hlocal hmain hexec

omit h in
theorem initial_registered (couple : Couple) (side : Side) (enabled : Bool) :
    couple.Registered side (initial enabled) := by
  refine ⟨fun n pc call hlookup => ?_, fun p path hp => ?_⟩
  · simp [initial] at hlookup
  · simp [initial, Tables.initial] at hp

theorem Couple.Registered.keeps (hn : connPath cfg n = some p) :
    cfg.shared.keeps p = some (couple.request side n).keeps := by
  obtain ⟨call, hlookup⟩ := connPath_eq_some.1 hn
  obtain ⟨-, path, hp, hreq⟩ := h.handovers n _ call hlookup
  rw [Tables.keeps, hp, Option.map_some, ← hreq]
  rfl

theorem Couple.Registered.routes (hvalid : cfg.shared.Valid)
    (hroute : cfg.shared.routes.lookup dst = some p) :
    dst = couple.vip side.other ∧ ∃ n < couple.count, connPath cfg n = some p := by
  obtain ⟨path, hp, hpeer⟩ := hvalid.routes dst p hroute
  obtain ⟨n, hn⟩ := h.origin p path hp
  obtain ⟨call, hlookup⟩ := connPath_eq_some.1 hn
  obtain ⟨hcount, path', hp', hreq⟩ := h.handovers n _ call hlookup
  rw [hp] at hp'
  cases hp'
  exact ⟨hpeer.symm.trans (congrArg EstablishedReq.peer hreq), n, hcount, hn⟩

end

/-! ## Agreement at rest -/

structure Couple.Tracked (couple : Couple) (side : Side) (cfg : PathConfig) : Prop where
  ledger : Ledger cfg
  registered : couple.Registered side cfg
  accounted : Accounted cfg

/-- A step of a side keeps what is known of its paths. -/
theorem Couple.tracked_step (couple : Couple) (side : Side) (cfg : PathConfig)
    (action : PathAction) (cfg' : PathConfig) (h : couple.Tracked side cfg)
    (hallows : couple.allows side action = true) (hcalm : undisturbed action = true)
    (hnext : system.next cfg action = some cfg') : couple.Tracked side cfg' := by
  have hstep := pathStep_of_next hnext
  exact ⟨h.ledger.step hstep, h.registered.step h.ledger.valid hallows hstep,
    h.accounted.step h.ledger hcalm hstep⟩

theorem Couple.initial_tracked (couple : Couple) (enabled : Side → Bool) (side : Side) :
    couple.Tracked side (bothInitial enabled side) :=
  ⟨initial_ledger _, initial_registered couple side _, initial_accounted _⟩

/-- The route of a side whose connection the peer has not rejected is the
route of the peer. -/
theorem Couple.over_other (htracked : ∀ side, couple.Tracked side (cfg side))
    (hquiet : couple.Quiescent cfg) (hn : n < couple.count) (hover : couple.Over cfg side n)
    (hacross : ¬ couple.RejectedAcross cfg side) : couple.Over cfg side.other n := by
  obtain ⟨q, hq⟩ := Option.ne_none_iff_exists'.1 (hquiet.established side.other n hn)
  obtain ⟨call, hlookup⟩ := connPath_eq_some.1 hq
  have hother := htracked side.other
  obtain ⟨-, path, hpath, -⟩ := hother.registered.handovers n _ call hlookup
  -- the path of the other side has an account, and at rest only three are left
  rcases (hother.accounted.account q path hpath).at_rest (hquiet.resting side.other)
    (hquiet.judged side.other n hn q hq) with ⟨dst, hroute⟩ | hclosed | hrejected
  · obtain ⟨rfl, -⟩ := hother.registered.routes hother.ledger.valid hroute
    exact ⟨q, hq, hroute⟩
  · have hdown := hquiet.takenDown side.other n hn q hq hclosed
    rw [Side.other_other] at hdown
    exact absurd hover hdown
  · exact absurd ⟨n, hn, hover, q, hq, hrejected⟩ hacross

theorem Couple.agree_of_quiescent (htracked : ∀ side, couple.Tracked side (cfg side))
    (hquiet : couple.Quiescent cfg) (hroute : couple.route cfg side = some p)
    (hacross : ¬ couple.RejectedAcross cfg side) : couple.Agree cfg := by
  have hside := htracked side
  obtain ⟨-, n, hn, hp⟩ := hside.registered.routes hside.ledger.valid hroute
  have hover : couple.Over cfg side n := ⟨p, hp, hroute⟩
  refine ⟨n, hn, fun which => ?_⟩
  by_cases hwhich : which = side
  · exact hwhich ▸ hover
  · rw [Side.eq_other_iff.2 hwhich]
    exact couple.over_other htracked hquiet hn hover hacross

/-! ## What is closed by arbitration -/

def WatchPC.condemns (p : PathId) : WatchPC → Option PathId
  | .refuse => some p
  | .install existing => existing
  | .setUp existing => existing
  | .unlock existing => existing
  | _ => none

/-- Arbitration does not keep what the watch loops are going to close. -/
def Sentenced (cfg : PathConfig) : Prop :=
  ∀ p pc call, cfg.threads.lookup (.watch p) = some ⟨.watch pc, call⟩ →
    ∀ q, pc.condemns p = some q → cfg.shared.keeps q = some false

theorem keeps_exec {op : PathOp Result} {result : Result} (hvalid : s.Valid)
    (hexec : exec t s op = some (s', result)) (h : s.keeps p = some answer) :
    s'.keeps p = some answer := by
  obtain ⟨path, hp, rfl⟩ := Option.map_eq_some_iff.1 h
  rw [Tables.keeps, exec_update hvalid hexec hp, Option.map_some]
  exact congrArg (some ∘ EstablishedReq.keeps) (op.update_request p path)

theorem WatchPC.decided_of_condemns {pc : WatchPC} (h : pc.condemns p = some q) :
    pc.decided = true := by
  cases pc with
  | refuse | install | setUp | unlock => rfl
  | _ => cases h

theorem discardsFor_arbitrate
    (hlocal : cfg.threads.lookup (.watch p) = some ⟨.watch .arbitrate, none⟩)
    (hp : cfg.shared.paths.lookup p = some path)
    (hexisting : cfg.shared.existing p path = some (q, true)) (choice : Choice) :
    discardsFor cfg (.step (.watch p) choice) = some q := by
  simp only [discardsFor, hlocal, if_true, hp, hexisting, Option.bind_some]

theorem Sentenced.watch_step (h : Sentenced cfg) (hvalid : cfg.shared.Valid) {pc : WatchPC}
    {request : Request PathOp (WatchPC × Call)} {result : request.Result}
    (hunrivalled : Unrivalled cfg (.step (.watch p) choice))
    (hlocal : cfg.threads.lookup (.watch p) = some ⟨.watch pc, none⟩)
    (hcontrol : watchControl p choice pc = some request)
    (hexec : exec (.watch p) cfg.shared request.op = some (shared, result))
    (hq : (request.resume result).1.condemns p = some q) : shared.keeps q = some false := by
  rcases watch_decided hcontrol hexec (WatchPC.decided_of_condemns hq) with
    rfl | ⟨existing, rfl⟩ | ⟨existing, rfl⟩
  · cases hcontrol
    obtain ⟨path, hp, hrest⟩ := Tables.onPath_eq_some.1 hexec
    cases hrest
    cases hexisting : cfg.shared.existing p path with
    | none =>
      rw [hexisting] at hq
      cases hq
    | some other =>
      obtain ⟨r, keeps⟩ := other
      rw [hexisting] at hq
      cases keeps with
      | true =>
        -- the own path is given up, and it is none that arbitration keeps
        cases hq
        exact hunrivalled r (discardsFor_arbitrate hlocal hp hexisting choice)
      | false =>
        -- the existing path is replaced because arbitration does not keep it
        cases hq
        obtain ⟨-, -, found, hfound, hkeeps⟩ := existing_eq_some hexisting
        rw [Tables.keeps, hfound, Option.map_some, ← hkeeps]
  · cases hcontrol
    exact keeps_exec hvalid hexec (h p _ _ hlocal q hq)
  · cases hcontrol
    exact keeps_exec hvalid hexec (h p _ _ hlocal q hq)

theorem Sentenced.step {cfg' : PathConfig} (h : Sentenced cfg) (hvalid : cfg.shared.Valid)
    (hunrivalled : Unrivalled cfg action) (hstep : PathStep cfg action cfg') : Sentenced cfg' := by
  intro p pc call hlookup q hq
  cases hstep with
  | spawn hfresh hspawn =>
    rcases lookup_insert_eq_some.1 hlookup with ⟨rfl, rfl⟩ | ⟨-, hold⟩
    · cases pc with
      | ready => cases hq
      | _ => simp [spawnable] at hspawn
    · exact h p pc call hold q hq
  | call hlocal hexec =>
    refine keeps_exec hvalid hexec ?_
    rcases lookup_insert_eq_some.1 hlookup with ⟨rfl, heq⟩ | ⟨-, hold⟩
    · cases heq
      exact h p pc _ hlocal q hq
    · exact h p pc call hold q hq
  | main hlocal hmain hexec =>
    rcases lookup_insert_eq_some.1 hlookup with ⟨rfl, heq⟩ | ⟨-, hold⟩
    · cases hmain with
      | watch hcontrol =>
        cases congrArg Local.main heq
        exact h.watch_step hvalid hunrivalled hlocal hcontrol hexec hq
    · exact keeps_exec hvalid hexec (h p pc call hold q hq)

theorem initial_sentenced (enabled : Bool) : Sentenced (initial enabled) := by
  intro p pc call hlookup
  simp [initial] at hlookup

theorem Sentenced.closed (h : Sentenced cfg) (hp : closedByArbitration cfg action = some p) :
    cfg.shared.keeps p = some false := by
  unfold closedByArbitration at hp
  split at hp
  next q choice =>
    split at hp
    next hlookup =>
      cases hp
      exact h p _ _ hlookup p rfl
    next existing hlookup => exact h q _ _ hlookup p hp
    next => cases hp
  next => cases hp

/-- What holds of a side that never has to choose between two connections that
arbitration keeps. -/
structure Couple.Judged (couple : Couple) (side : Side) (cfg : PathConfig) : Prop where
  valid : cfg.shared.Valid
  registered : couple.Registered side cfg
  sentenced : Sentenced cfg

theorem Couple.judged_step (couple : Couple) (side : Side) (cfg : PathConfig)
    (action : PathAction) (cfg' : PathConfig) (h : couple.Judged side cfg)
    (hallows : couple.allows side action = true) (hunrivalled : Unrivalled cfg action)
    (hnext : system.next cfg action = some cfg') : couple.Judged side cfg' := by
  have hstep := pathStep_of_next hnext
  exact ⟨valid_step h.valid hstep, h.registered.step h.valid hallows hstep,
    h.sentenced.step h.valid hunrivalled hstep⟩

theorem Couple.initial_judged (couple : Couple) (enabled : Side → Bool) (side : Side) :
    couple.Judged side (bothInitial enabled side) :=
  ⟨initial_valid _, initial_registered couple side _, initial_sentenced _⟩

theorem Couple.spares_of_judged (h : ∀ side, couple.Judged side (cfg side))
    (move : Move Side PathAction) : couple.Spares cfg move := by
  intro p hp n _ hn _ q hq
  have hkeeps := (h move.party).sentenced.closed hp
  -- both ends of the connection have the same answer
  rw [(h move.party).registered.keeps hn] at hkeeps
  rw [(h move.party.other).registered.keeps hq, couple.keeps_other, hkeeps]
  nofun

/-! ## Two peers agree -/

def Undisturbed (_ : PathConfig) (action : PathAction) : Prop := undisturbed action = true

instance (cfg : PathConfig) (action : PathAction) : Decidable (Undisturbed cfg action) :=
  inferInstanceAs (Decidable (_ = true))

/-- Peers that never have to choose between two connections that both keep do
not close the route of each other.  Peers that are left alone have one route
when they are at rest, unless each has rejected the route of the other. -/
theorem Couple.peers_agree (couple : Couple) (enabled : Side → Bool)
    (moves : List (Move Side PathAction)) :
    (Along couple.step (Move.Meets Unrivalled) (bothInitial enabled) moves →
      Along couple.step couple.Spares (bothInitial enabled) moves) ∧
    (Along couple.step (Move.Meets Undisturbed) (bothInitial enabled) moves →
      ∀ cfg ∈ run couple.step (bothInitial enabled) moves, couple.Quiescent cfg →
        (∀ side, couple.route cfg side ≠ none) → (∃ side, ¬ couple.RejectedAcross cfg side) →
          couple.Agree cfg) := by
  refine ⟨fun hunrivalled => ?_, fun hcalm cfg hcfg hquiet hroutes ⟨side, hacross⟩ => ?_⟩
  · exact hunrivalled.of_invariant (family_invariant couple.judged_step)
      (fun cfg move h _ => spares_of_judged h move) (couple.initial_judged enabled)
  · have htracked := run_invariant (family_invariant couple.tracked_step)
      (couple.initial_tracked enabled) hcalm hcfg
    obtain ⟨p, hroute⟩ := Option.ne_none_iff_exists'.1 (hroutes side)
    exact agree_of_quiescent htracked hquiet hroute hacross

/-! ## Two connections -/

/-- Two connections between two neighbours; the left one has the smaller
address. -/
def neighbours (initiator : Nat → Side) : Couple where
  vip
    | .left => 0x0a000064
    | .right => 0x0a000065
  distinct := by decide
  count := 2
  initiator := initiator

def on (side : Side) (actions : List PathAction) : List (Move Side PathAction) :=
  actions.map (.mk side)

def Couple.establish (couple : Couple) : List (Move Side PathAction) :=
  on .left (handoverRun 0 0 (couple.request .left 0) ++ handoverRun 1 1 (couple.request .left 1)) ++
    on .right
      (handoverRun 0 0 (couple.request .right 0) ++ handoverRun 1 1 (couple.request .right 1))

/-- The watch loop of a path whose trial is passed and that finds no other
one, until it waits again. -/
def installRun (p : PathId) : List PathAction := passRun p ++ goes (.watch p) 10

def rejectRun (p : PathId) : List PathAction :=
  .spawn (.watch p) ⟨.watch .ready, none⟩ :: goes (.watch p) 5 ++
    .step (.watch p) .fails :: goes (.watch p) 6

/-- The watch loop of a path that is passed after another one that is kept, up
to the point where it closes its own. -/
def refuseRun (p : PathId) : List PathAction := passRun p ++ goes (.watch p) 6

def bothKept : Couple := neighbours fun _ => .left

/-- Each side installs one of them; then the other one is passed on the left. -/
def crossedRun : List (Move Side PathAction) :=
  bothKept.establish ++ on .left (installRun 0) ++ on .right (installRun 1) ++
    on .left (refuseRun 1)

/-- Each side installs one of them and rejects the other one. -/
def rejectedRun : List (Move Side PathAction) :=
  bothKept.establish ++ on .left (installRun 0 ++ rejectRun 1) ++
    on .right (installRun 1 ++ rejectRun 0)

/-- Each side keeps the path that the other has given up. -/
theorem Couple.peers_disagree :
    (¬ ∀ (couple : Couple) enabled moves,
      Along couple.step couple.Spares (bothInitial enabled) moves) ∧
    ¬ ∀ (couple : Couple) enabled moves,
      ∀ cfg ∈ run couple.step (bothInitial enabled) moves, couple.Quiescent cfg →
        (∀ side, couple.route cfg side ≠ none) → couple.Agree cfg := by
  constructor
  · intro h
    obtain ⟨cfg, hcfg, hclosed, hleft, hover, hright, hkeeps⟩ : ∃ cfg,
        run bothKept.step (bothInitial fun _ => true) crossedRun = some cfg ∧
        closedByArbitration (cfg .left) (.step (.watch 1) .go) = some 1 ∧
        connPath (cfg .left) 1 = some 1 ∧ bothKept.Over cfg .right 1 ∧
        connPath (cfg .right) 1 = some 1 ∧ (cfg .right).shared.keeps 1 = some true := by
      decide +kernel
    have hspares := (along_append.1 (h bothKept (fun _ => true)
      (crossedRun ++ on .left (goes (.watch 1) 1)))).2 cfg hcfg
    exact hspares.1 1 hclosed 1 (by decide) hleft hover 1 hright hkeeps
  · intro h
    obtain ⟨cfg, hcfg, hquiet, hroutes, hdisagree⟩ : ∃ cfg,
        run bothKept.step (bothInitial fun _ => true) rejectedRun = some cfg ∧
        bothKept.Quiescent cfg ∧ (∀ side, bothKept.route cfg side ≠ none) ∧
        ¬ bothKept.Agree cfg := by
      decide +kernel
    exact hdisagree (h bothKept _ rejectedRun cfg hcfg hquiet hroutes)

def oneKept : Couple := neighbours fun
  | 0 => .left
  | _ => .right

/-- Both sides install the connection that is kept; the other one is passed on
the left, closed there, and found closed on the right. -/
def settledRun : List (Move Side PathAction) :=
  oneKept.establish ++ on .left (installRun 0 ++ refuseRun 1 ++ goes (.watch 1) 7) ++
    on .right (installRun 0 ++ .spawn (.watch 1) ⟨.watch .ready, none⟩ :: goes (.watch 1) 2 ++
      .step (.watch 1) .connDone :: goes (.watch 1) 11)

theorem Couple.peers_agree_oneKept :
    ∃ cfg, run oneKept.step (bothInitial fun _ => true) settledRun = some cfg ∧
      Along oneKept.step oneKept.Spares (bothInitial fun _ => true) settledRun ∧
      oneKept.Quiescent cfg ∧ oneKept.Agree cfg := by
  obtain ⟨cfg, hcfg, hquiet, hroutes, hacross⟩ : ∃ cfg,
      run oneKept.step (bothInitial fun _ => true) settledRun = some cfg ∧
      oneKept.Quiescent cfg ∧ (∀ side, oneKept.route cfg side ≠ none) ∧
      ¬ oneKept.RejectedAcross cfg .left := by
    decide +kernel
  have hagree := Couple.peers_agree oneKept (fun _ => true) settledRun
  exact ⟨cfg, hcfg, hagree.1 (by decide +kernel), hquiet,
    hagree.2 (by decide +kernel) cfg hcfg hquiet hroutes ⟨.left, hacross⟩⟩

end Hy2Link.Client.Path
