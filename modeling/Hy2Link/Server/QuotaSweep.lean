import Hy2Link.Interleaving.Beside
import Hy2Link.Server.OnlineList
import Mathlib.Data.List.Sort

/-! # The quota sweep

`checkQuotaOnce` takes the accounts from the online list, asks the store for
the quota of each, and kicks those that have used it up: it walks the sixteen
shards and calls `closeAll` on every clientStream of the account.  It runs
beside the handlers and closes connections as a client or a network could.

A registration that the online list does not have is never asked for.  It is
missing there between the registration and `ensureOnline` of a setup, and for
good after a teardown has removed it late.

`over_quota_closed` holds for the runs in which setups and teardowns of one
address do not overlap and the online list is read when no handler is at work
on the address of an account that is out of traffic.
-/

namespace Hy2Link.Server

open Interleaving

def numShards : Nat := 16

/-- The bytes of the address are packed with the first one lowest. -/
def getShardIndex (vip : IPv4) : Nat :=
  let h := vip >>> 24 ||| (vip >>> 16 &&& 0xff#32) <<< 8 ||| (vip >>> 8 &&& 0xff#32) <<< 16 |||
    (vip &&& 0xff#32) <<< 24
  let h := h ^^^ h >>> 16
  let h := h * 0x85ebca6b#32
  let h := h ^^^ h >>> 13
  h.toNat % numShards

theorem getShardIndex_lt (vip : IPv4) : getShardIndex vip < numShards :=
  Nat.mod_lt _ (by decide)

/-! ## The sweep -/

/-- A walk over the keys of a Go map, in any order. -/
def listing (order : List IPv4) (keys : Finset IPv4) : Bool := order.Nodup && order.toFinset = keys

variable {setup : Setup}

theorem mem_of_listing (h : listing order keys = true) (hvip : vip ∈ keys) : vip ∈ order := by
  simp only [listing, Bool.and_eq_true, decide_eq_true_eq] at h
  rw [← h.2, List.mem_toFinset] at hvip
  exact hvip

def onlineUsernames (d : DataTables) (order : List IPv4) : List String :=
  (order.filterMap d.clients.lookup).filter (· ≠ "")

/-- The accounts `kickOverQuota` goes through: without repetition and sorted. -/
def uniq (usernames : List String) : List String :=
  (usernames.filter (· ≠ "")).eraseDups.insertionSort (· ≤ ·)

/-- `quota(u).OverQuota()`; an unknown account is not over its quota. -/
def Store.overQuota (s : Store) (username : String) : Bool :=
  (s.lookup username).any User.overQuota

def DataTables.targets (d : DataTables) (username : String) (order : List IPv4) : List StreamId :=
  order.filterMap fun vip =>
    (d.lookup vip).bind fun found => if found.2.username = username then some found.1 else none

/-- The variables of `kickAll`, with the accounts still to come after it. -/
structure Kick where
  username : String
  shard : Nat
  count : Nat
  todo : List String

inductive SweepPC
  | idle
  | quota (username : String) (todo : List String)
  | collect (kick : Kick)
  | closeAll (kick : Kick) (cs : StreamId) (targets : List StreamId)
  | closing (kick : Kick) (conn : ConnId) (conns : List ConnId) (targets : List StreamId)
  | returned

/-- `called` are the objects on which this sweep has called `closeAll`. -/
structure Sweep where
  pc : SweepPC
  kicked : List String
  called : List StreamId

namespace Sweep

def idle : Sweep := ⟨.idle, [], []⟩

variable (sweep : Sweep)

/-- The loop of `kickOverQuota` over the accounts. -/
def check : List String → Sweep
  | [] => { sweep with pc := .returned }
  | username :: todo => { sweep with pc := .quota username todo }

/-- `Kick` fails when nothing was kicked, and then the account is not reported. -/
def kickDone (kick : Kick) : Sweep :=
  check
    { sweep with
      kicked := if kick.count = 0 then sweep.kicked else sweep.kicked ++ [kick.username] }
    kick.todo

def nextShard (kick : Kick) : Sweep :=
  if kick.shard + 1 < numShards then
    { sweep with pc := .collect { kick with shard := kick.shard + 1 } }
  else sweep.kickDone kick

def closeTargets (kick : Kick) : List StreamId → Sweep
  | [] => sweep.nextShard kick
  | cs :: targets => { sweep with pc := .closeAll kick cs targets }

def closeConns (kick : Kick) (targets : List StreamId) : List ConnId → Sweep
  | [] => sweep.closeTargets kick targets
  | conn :: conns => { sweep with pc := .closing kick conn conns targets }

/-- One step of `checkQuotaOnce`; the list is the order in which the step walks
a map. -/
def advance (cfg : ServerConfig) (sweep : Sweep) (order : List IPv4) :
    Option (Sweep × Option ServerAction) :=
  match sweep.pc with
  | .idle | .returned =>
    if listing order cfg.shared.data.clients.keys then
      some (check ⟨.idle, [], []⟩ (uniq (onlineUsernames cfg.shared.data order)), none)
    else none
  | .quota username todo =>
    if cfg.shared.users.overQuota username then
      some ({ sweep with pc := .collect ⟨username, 0, 0, todo⟩ }, none)
    else some (sweep.check todo, none)
  | .collect kick =>
    if listing order (cfg.shared.data.conns.keys.filter fun vip => getShardIndex vip = kick.shard)
    then some (sweep.closeTargets kick (cfg.shared.data.targets kick.username order), none)
    else none
  | .closeAll kick cs targets =>
    some (closeConns { sweep with called := cs :: sweep.called }
      { kick with count := kick.count + 1 } targets (cfg.shared.data.snapshot cs), none)
  | .closing kick conn conns targets =>
    some (sweep.closeConns kick targets conns, some (.env (.closeConn conn)))

end Sweep

/-- The server with the sweep beside it. -/
abbrev SweptConfig := Joint ServerConfig Sweep

abbrev SweptTurn := Turn ServerAction (List IPv4)

def Setup.swept (setup : Setup) : SweptConfig → SweptTurn → Option SweptConfig :=
  joint setup.next Sweep.advance

def Setup.initialSwept (setup : Setup) : SweptConfig := ⟨setup.initial, .idle⟩

/-- The object is registered, and the account it is for is over its quota. -/
def exposed (cs : StreamId) (cfg : ServerConfig) : Bool :=
  (cfg.shared.data.streams.lookup cs).any fun stream =>
    cfg.shared.data.conns.lookup stream.vip = some cs &&
      cfg.shared.users.overQuota stream.username

def Sweep.atRest (sweep : Sweep) : Bool :=
  match sweep.pc with
  | .idle => true
  | .returned => true
  | _ => false

def goesOn (s : SweptConfig) : SweptTurn → Bool
  | .main _ => true
  | .side _ => !s.side.atRest

/-- One execution of `checkQuotaOnce`: it is called in the state `before` and
has returned in the state `last`, and in all states from the one to the other
the object is registered for an account over its quota. -/
structure SweepOver (setup : Setup) (front body : List SweptTurn) (order : List IPv4)
    (cs : StreamId) (before first last : SweptConfig) : Prop where
  reached : run setup.swept setup.initialSwept front = some before
  rest : before.side.atRest = true
  call : setup.swept before (.side order) = some first
  execution : run setup.swept first body = some last
  once : Along setup.swept (fun s turn => goesOn s turn = true) first body
  returned : last.side.atRest = true
  exposedBefore : exposed cs before.main = true
  exposedDuring : Along setup.swept (fun s _ => exposed cs s.main = true) first body
  exposedLast : exposed cs last.main = true

/-! ## Names

An anonymous registration frame is refused, so the sweep, which skips empty
names, skips nobody. -/

def PlanePC.named : PlanePC → Bool
  | .start => false
  | .reject => false
  | .done none => false
  | _ => true

structure Named (cfg : ServerConfig) : Prop where
  wiring : Wiring cfg
  registered : ∀ vip cs key, cfg.shared.data.lookup vip = some (cs, key) → key.username ≠ ""
  handler : ∀ conn reg pc, cfg.threads.lookup (.plane conn) = some (.plane reg pc) →
    pc.named = true → reg.username ≠ ""

theorem HandlerStep.named (h : HandlerStep conn reg choice s pc s' pc')
    (hnamed : pc'.named = true) :
    pc.named = true ∨ reg.username ≠ "" := by
  cases h with
  | clock hname => exact .inr hname
  | anonymous | reject => cases hnamed
  | _ => exact .inl rfl

theorem Named.step (h : Named cfg) (hstep : ServerStep gate cfg action cfg') : Named cfg' := by
  refine ⟨h.wiring.step hstep, ?_, ?_⟩
  · intro vip cs key hlookup
    obtain ⟨hcs, stream, hstream, rfl⟩ := DataTables.lookup_eq_some.1 hlookup
    rcases h.wiring.registered_step hstep hcs hstream with
      ⟨hold, old, hstreamOld, hkey⟩ | ⟨conn, choice, reg, -, hlocal, -, hkey⟩
    · exact h.registered vip cs stream.key
        (DataTables.lookup_eq_some.2 ⟨hold, old, hstreamOld, hkey⟩)
    · rw [← hkey]
      exact h.handler conn reg _ hlocal rfl
  · intro conn reg pc hlocal hnamed
    cases handlerPast_of_step hstep hlocal with
    | started => cases hnamed
    | stayed hold hother => exact h.handler conn reg pc hold hnamed
    | moved haction hold hedge =>
      rcases hedge.named hnamed with hbefore | hname
      · exact h.handler conn reg _ hold hbefore
      · exact hname

theorem Setup.initial_named (setup : Setup) : Named setup.initial := by
  refine ⟨setup.initial_wiring, ?_, ?_⟩
  · intro vip cs key hlookup
    simp [Setup.initial, DataTables.empty, DataTables.lookup] at hlookup
  · intro conn reg pc hlocal
    cases hlocal

/-! ## What the sweep has still before it -/

section Pending

variable (cs : StreamId) (username : String) (vip : IPv4)

/-- The object is among the targets of `kickAll`, or the shard of its address
is still to come, or its account is. -/
def Kick.Pending (kick : Kick) (targets : List StreamId) : Prop :=
  username ∈ kick.todo ∨
    kick.username = username ∧ (cs ∈ targets ∨ kick.shard < getShardIndex vip)

/-- The sweep has called `closeAll` on the object, or is going to. -/
def Sweep.Reaches (sweep : Sweep) : Prop :=
  cs ∈ sweep.called ∨
    match sweep.pc with
    | .idle => False
    | .quota u todo => username ∈ u :: todo
    | .collect kick =>
      username ∈ kick.todo ∨ kick.username = username ∧ kick.shard ≤ getShardIndex vip
    | .closeAll kick x targets => kick.Pending cs username vip (x :: targets)
    | .closing kick _ _ targets => kick.Pending cs username vip targets
    | .returned => False

variable {cs username vip} {sweep : Sweep}

theorem Sweep.reaches_check (h : cs ∈ sweep.called ∨ username ∈ todo) :
    (sweep.check todo).Reaches cs username vip := by
  cases todo with
  | nil => exact .inl (h.resolve_right List.not_mem_nil)
  | cons u todo => exact h

theorem Sweep.reaches_nextShard
    (h : cs ∈ sweep.called ∨ kick.Pending cs username vip []) :
    (sweep.nextShard kick).Reaches cs username vip := by
  unfold Sweep.nextShard
  split
  next hlt =>
    rcases h with hcalled | htodo | ⟨hname, hmem | hshard⟩
    · exact .inl hcalled
    · exact .inr (.inl htodo)
    · cases hmem
    · exact .inr (.inr ⟨hname, hshard⟩)
  next hlast =>
    refine Sweep.reaches_check ?_
    rcases h with hcalled | htodo | ⟨hname, hmem | hshard⟩
    · exact .inl hcalled
    · exact .inr htodo
    · cases hmem
    · have := getShardIndex_lt vip
      omega

theorem Sweep.reaches_closeTargets (h : cs ∈ sweep.called ∨ kick.Pending cs username vip targets) :
    (sweep.closeTargets kick targets).Reaches cs username vip := by
  cases targets with
  | nil => exact Sweep.reaches_nextShard h
  | cons x targets => exact h

theorem Sweep.reaches_closeConns (h : cs ∈ sweep.called ∨ kick.Pending cs username vip targets) :
    (sweep.closeConns kick targets conns).Reaches cs username vip := by
  cases conns with
  | nil => exact Sweep.reaches_closeTargets h
  | cons c conns => exact h

theorem mem_targets {d : DataTables} (hlookup : d.lookup vip = some (cs, key))
    (hvip : vip ∈ order) : cs ∈ d.targets key.username order := by
  refine List.mem_filterMap.2 ⟨vip, hvip, ?_⟩
  simp [hlookup]

theorem Sweep.reaches_advance {effect : Option ServerAction} (h : sweep.Reaches cs key.username vip)
    (hlookup : cfg.shared.data.lookup vip = some (cs, key))
    (hover : cfg.shared.users.overQuota key.username = true) (hrest : sweep.atRest = false)
    (hadvance : Sweep.advance cfg sweep order = some (next, effect)) :
    next.Reaches cs key.username vip := by
  obtain ⟨pc, kicked, called⟩ := sweep
  cases pc with
  | idle | returned => cases hrest
  | quota u todo =>
    simp only [Sweep.advance] at hadvance
    split at hadvance <;> cases hadvance
    next hquota =>
      rcases h with hcalled | hmem
      · exact .inl hcalled
      · rcases List.mem_cons.1 hmem with rfl | htodo
        · exact .inr (.inr ⟨rfl, Nat.zero_le _⟩)
        · exact .inr (.inl htodo)
    next hquota =>
      refine Sweep.reaches_check ?_
      rcases h with hcalled | hmem
      · exact .inl hcalled
      · rcases List.mem_cons.1 hmem with rfl | htodo
        · exact absurd hover hquota
        · exact .inr htodo
  | collect kick =>
    simp only [Sweep.advance, Option.ite_none_right_eq_some, Option.some.injEq,
      Prod.mk.injEq] at hadvance
    obtain ⟨hlisting, rfl, -⟩ := hadvance
    refine Sweep.reaches_closeTargets ?_
    rcases h with hcalled | htodo | ⟨hname, hshard⟩
    · exact .inl hcalled
    · exact .inr (.inl htodo)
    · refine .inr (.inr ⟨hname, ?_⟩)
      rcases Nat.lt_or_eq_of_le hshard with hlt | heq
      · exact .inr hlt
      · -- the shard of the address is walked now
        left
        rw [hname]
        refine mem_targets hlookup (mem_of_listing hlisting ?_)
        refine Finset.mem_filter.2 ⟨?_, heq.symm⟩
        exact Finmap.mem_keys.2 (Finmap.mem_of_lookup_eq_some
          (DataTables.lookup_eq_some.1 hlookup).1)
  | closeAll kick x targets =>
    cases hadvance
    refine Sweep.reaches_closeConns ?_
    rcases h with hcalled | htodo | ⟨hname, hmem | hshard⟩
    · exact .inl (List.mem_cons_of_mem x hcalled)
    · exact .inr (.inl htodo)
    · rcases List.mem_cons.1 hmem with rfl | hlater
      · exact .inl List.mem_cons_self
      · exact .inr (.inr ⟨hname, .inl hlater⟩)
    · exact .inr (.inr ⟨hname, .inr hshard⟩)
  | closing kick c conns targets =>
    cases hadvance
    exact Sweep.reaches_closeConns h

theorem Sweep.called_of_atRest (h : sweep.Reaches cs username vip)
    (hrest : sweep.atRest = true) : cs ∈ sweep.called := by
  obtain ⟨pc, kicked, called⟩ := sweep
  cases pc with
  | idle | returned => exact h.resolve_right id
  | _ => cases hrest

end Pending

/-! ## Runs in which the online list can be relied on -/

/-- The thread is a handler between its table steps, for the address of a
registered account that is over its quota. -/
def Local.disturbs (s : Shared) : Local → Bool
  | .plane reg pc =>
    pc.midway && (s.data.lookup reg.vip).any fun found => s.users.overQuota found.2.username
  | _ => false

/-- The setups and teardowns of an address do not overlap, and the sweep reads
the online list while none of those it looks for is under way. -/
def sweepsApart (s : SweptConfig) : SweptTurn → Bool
  | .main action => startsAlone s.main action
  | .side _ =>
    !s.side.atRest ||
      decide (∀ t l, s.main.threads.lookup t = some l → l.disturbs s.main.shared = false)

theorem startsAlone_advance (h : Sweep.advance cfg sweep order = some (next, some action)) :
    startsAlone cfg action = true := by
  obtain ⟨pc, kicked, called⟩ := sweep
  cases pc with
  | idle | returned | collect kick =>
    simp only [Sweep.advance, Option.ite_none_right_eq_some, Option.some.injEq, Prod.mk.injEq,
      reduceCtorEq, and_false] at h
  | quota u todo =>
    simp only [Sweep.advance] at h
    split at h <;> cases h
  | closeAll kick x targets => cases h
  | closing kick c conns targets =>
    cases h
    rfl

theorem mem_uniq (hlisting : listing order d.clients.keys = true)
    (hclient : d.clients.lookup vip = some name) (hname : name ≠ "") :
    name ∈ uniq (onlineUsernames d order) := by
  have hvip : vip ∈ order := mem_of_listing hlisting
    (Finmap.mem_keys.2 (Finmap.mem_of_lookup_eq_some hclient))
  have honline : name ∈ onlineUsernames d order :=
    List.mem_filter.2 ⟨List.mem_filterMap.2 ⟨vip, hvip, hclient⟩, by simpa using hname⟩
  simp only [uniq, List.mem_insertionSort, List.mem_eraseDups, List.mem_filter]
  exact ⟨honline, by simpa using hname⟩

theorem exposed_iff :
    exposed cs cfg = true ↔ ∃ stream, cfg.shared.data.streams.lookup cs = some stream ∧
      cfg.shared.data.lookup stream.vip = some (cs, stream.key) ∧
      cfg.shared.users.overQuota stream.key.username = true := by
  simp only [exposed, Option.any_eq_true, Bool.and_eq_true, decide_eq_true_eq]
  constructor
  · rintro ⟨stream, hstream, hcs, hover⟩
    exact ⟨stream, hstream, DataTables.lookup_eq_some.2 ⟨hcs, stream, hstream, rfl⟩, hover⟩
  · rintro ⟨stream, hstream, hlookup, hover⟩
    exact ⟨stream, hstream, (DataTables.lookup_eq_some.1 hlookup).1, hover⟩

/-- The sweep is going to reach every object that is registered for an account
over its quota when it reads the online list. -/
theorem reaches_of_call {stream : ClientStream} (hnamed : Named s.main)
    (hpaced : Paced s.main stream.vip) (hrest : s.side.atRest = true)
    (hok : sweepsApart s (.side order) = true)
    (hlookup : s.main.shared.data.lookup stream.vip = some (cs, stream.key))
    (hover : s.main.shared.users.overQuota stream.key.username = true)
    (hcall : setup.swept s (.side order) = some next) :
    next.side.Reaches cs stream.key.username stream.vip ∧ next.main = s.main := by
  have hclient : s.main.shared.data.clients.lookup stream.vip = some stream.key.username := by
    have hidle : s.main.shared.data.Entered stream.vip := by
      refine hpaced.idle fun conn reg pc hlocal hvip => Bool.eq_false_iff.2 fun hmidway => ?_
      simp only [sweepsApart, hrest, Bool.not_true, Bool.false_or, decide_eq_true_eq] at hok
      have hquiet := hok _ _ hlocal
      simp [Local.disturbs, hmidway, hvip, hlookup, hover] at hquiet
    rw [hidle, hlookup]
    rfl
  obtain ⟨main, pc, kicked, called⟩ := s
  cases pc with
  | idle | returned =>
    cases jointStep_of_joint hcall with
    | look hadvance =>
      simp only [Sweep.advance, Option.ite_none_right_eq_some, Option.some.injEq,
        Prod.mk.injEq, and_true] at hadvance
      obtain ⟨hlisting, rfl⟩ := hadvance
      exact ⟨Sweep.reaches_check (.inr (mem_uniq hlisting hclient
        (hnamed.registered _ _ _ hlookup))), rfl⟩
    | act hadvance hnext =>
      simp only [Sweep.advance, Option.ite_none_right_eq_some, Option.some.injEq,
        Prod.mk.injEq, reduceCtorEq, and_false] at hadvance
  | _ => cases hrest

structure Underway (cs : StreamId) (vip : IPv4) (key : SessionKey) (s : SweptConfig) : Prop where
  valid : s.main.shared.data.Valid
  object : ∃ stream, s.main.shared.data.streams.lookup cs = some stream ∧ stream.vip = vip ∧
    stream.key = key
  reaches : s.side.Reaches cs key.username vip

/-- The sweep stays on its way to the client. -/
theorem Underway.step (h : Underway cs vip key s) (hgoes : goesOn s turn = true)
    (hexposed : exposed cs s.main = true) (hturn : setup.swept s turn = some next) :
    Underway cs vip key next := by
  obtain ⟨stream, hstream, rfl, rfl⟩ := h.object
  have hmain : ∀ action main, setup.next s.main action = some main →
      main.shared.data.Valid ∧ ∃ stream', main.shared.data.streams.lookup cs = some stream' ∧
        stream'.vip = stream.vip ∧ stream'.key = stream.key := fun action main hnext =>
    ⟨valid_step h.valid (serverStep_of_next hnext),
      stream_kept h.valid (serverStep_of_next hnext) hstream⟩
  have hside : ∀ order side effect, turn = .side order →
      Sweep.advance s.main s.side order = some (side, effect) →
      side.Reaches cs stream.key.username stream.vip := by
    rintro order side effect rfl hadvance
    have hrest : s.side.atRest = false := by simpa [goesOn] using hgoes
    obtain ⟨stream', hstream', hlookup, hover⟩ := exposed_iff.1 hexposed
    rw [hstream] at hstream'
    cases hstream'
    exact Sweep.reaches_advance h.reaches hlookup hover hrest hadvance
  cases jointStep_of_joint hturn with
  | main hnext =>
    obtain ⟨hvalid, hobject⟩ := hmain _ _ hnext
    exact ⟨hvalid, hobject, h.reaches⟩
  | look hadvance => exact ⟨h.valid, h.object, hside _ _ _ rfl hadvance⟩
  | act hadvance hnext =>
    obtain ⟨hvalid, hobject⟩ := hmain _ _ hnext
    exact ⟨hvalid, hobject, hside _ _ _ rfl hadvance⟩

theorem paced_of_sweptRun
    (hsteps : Along setup.swept (fun s turn => sweepsApart s turn = true) setup.initialSwept turns)
    (hrun : run setup.swept setup.initialSwept turns = some s) :
    Named s.main ∧ ∀ vip, Paced s.main vip := by
  have hkept : ∀ cfg action next, (Named cfg ∧ ∀ vip, Paced cfg vip) →
      startsAlone cfg action = true → setup.next cfg action = some next →
      Named next ∧ ∀ vip, Paced next vip := by
    intro cfg action next hcfg hok hnext
    have hstep := serverStep_of_next hnext
    exact ⟨hcfg.1.step hstep, fun vip => (hcfg.2 vip).step hcfg.1.wiring.valid hok hstep⟩
  refine joint_invariant hkept (fun _ _ _ _ _ hadvance => startsAlone_advance hadvance)
    ⟨setup.initial_named, setup.initial_paced⟩ (hsteps.imp ?_) hrun
  rintro s turn hok action rfl
  exact hok

/-- In every run in which setups and teardowns do not overlap and the online
list is read between them, a sweep calls `closeAll` on every object that is
registered for an account over its quota all the while. -/
theorem over_quota_closed (setup : Setup) (front body : List SweptTurn) (order : List IPv4)
    (cs : StreamId) (before first last : SweptConfig)
    (hsweep : SweepOver setup front body order cs before first last)
    (hsteps : Along setup.swept (fun s turn => sweepsApart s turn = true) setup.initialSwept
      (front ++ .side order :: body)) :
    cs ∈ last.side.called := by
  obtain ⟨hfront, hrest⟩ := along_append.1 hsteps
  have hcall := (hrest before hsweep.reached).1
  have hbefore := paced_of_sweptRun hfront hsweep.reached
  obtain ⟨stream, hstream, hlookup, hover⟩ := exposed_iff.1 hsweep.exposedBefore
  obtain ⟨hreaches, hmain⟩ := reaches_of_call hbefore.1 (hbefore.2 stream.vip) hsweep.rest hcall
    hlookup hover hsweep.call
  have hfirst : Underway cs stream.vip stream.key first := by
    refine ⟨?_, ?_, hreaches⟩
    · rw [hmain]
      exact hbefore.1.wiring.valid
    · rw [hmain]
      exact ⟨stream, hstream, rfl, rfl⟩
  have hkept : ∀ s turn next, Underway cs stream.vip stream.key s →
      goesOn s turn = true ∧ exposed cs s.main = true →
      setup.swept s turn = some next → Underway cs stream.vip stream.key next :=
    fun s turn next hs hok hturn => hs.step hok.1 hok.2 hturn
  have hlast := run_invariant hkept hfirst (hsweep.once.and hsweep.exposedDuring) hsweep.execution
  exact Sweep.called_of_atRest hlast.reaches hsweep.returned

/-! ## A registration that the online list has lost -/

theorem exists_sweepOver (setup : Setup) (front body : List SweptTurn) (order : List IPv4)
    (cs : StreamId) (test : SweptConfig → Prop)
    (h : ∃ before, run setup.swept setup.initialSwept front = some before ∧
      before.side.atRest = true ∧ exposed cs before.main = true ∧
      ∃ first, setup.swept before (.side order) = some first ∧
      Along setup.swept (fun s turn => goesOn s turn = true) first body ∧
      Along setup.swept (fun s _ => exposed cs s.main = true) first body ∧
      ∃ last, run setup.swept first body = some last ∧ last.side.atRest = true ∧
        exposed cs last.main = true ∧ test last) :
    ∃ before first last, SweepOver setup front body order cs before first last ∧ test last := by
  obtain ⟨before, hbefore, hrest, hexposed, first, hfirst, honce, hduring, last, hlast, hreturned,
    hend, htest⟩ := h
  exact ⟨before, first, last,
    ⟨hbefore, hrest, hfirst, hlast, honce, hreturned, hexposed, hduring, hend⟩, htest⟩

def usedUp : List ServerAction :=
  [.env (.store (.update "ann" ⟨"", true, 10, none⟩)), .env (.store (.addTraffic "ann" 10))]

/-- Ann is registered, and a late teardown has removed her entry. -/
def unlistedRun : List SweptTurn := (overlappingRun ++ usedUp).map .main

/-- The sweep does not find a client that is not listed as online. -/
theorem over_quota_unlisted :
    ¬ ∀ (setup : Setup) front body order cs before first last,
      SweepOver setup front body order cs before first last → cs ∈ last.side.called := by
  intro h
  obtain ⟨before, first, last, hsweep, hmissed⟩ :=
    exists_sweepOver smallSetup unlistedRun [] [] 1 (fun last => 1 ∉ last.side.called)
      (by decide +kernel)
  exact hmissed (h _ _ _ _ _ _ _ _ hsweep)

/-- Ann is registered and online, and her traffic is used up. -/
def listedRun : List SweptTurn := (takenOverRun ++ usedUp).map .main

/-- The sweep over her account: the shards before hers, her shard and the one
connection of her object, the shards after hers. -/
def kickingRun : List SweptTurn :=
  (List.replicate (1 + getShardIndex annVIP) [] ++ [annVIP] ::
    List.replicate (2 + (numShards - 1 - getShardIndex annVIP)) []).map .side

theorem over_quota_closed_ann :
    ∃ before first last,
      SweepOver smallSetup listedRun kickingRun [annVIP] 0 before first last ∧
        0 ∈ last.side.called := by
  obtain ⟨before, first, last, hsweep, -⟩ :=
    exists_sweepOver smallSetup listedRun kickingRun [annVIP] 0 (fun _ => True) (by decide +kernel)
  exact ⟨before, first, last, hsweep, over_quota_closed _ _ _ _ _ _ _ _ hsweep (by decide +kernel)⟩

end Hy2Link.Server
