import Hy2Link.Client.PathManager

/-! # The cap on the direct paths

`handleEstablished` keeps the number of paths, in the route table and on trial,
at `pathMaxPaths`: it evicts a path when there are as many.  But it counts them
before the section in which it registers its own path, and `evictLRU` looks for
a victim in the route table only, so nothing is evicted when all paths are on
trial.  A path whose trial is passed is in neither of the two tables until it is
installed.

So the cap is kept in the runs in which these stretches of the handovers and of
the watch loops do not overlap, and an eviction finds a path in use.
-/

namespace Hy2Link.Client.Path

open Interleaving List Tables

def Tables.pathCount (s : Tables) : Nat := s.routes.keys.card + s.trialPaths.length

def Tables.HasRoute (s : Tables) (p : PathId) : Prop := ∃ dst, s.routes.lookup dst = some p

/-! ## One operation -/

def PathOp.adds {Result : Type} : PathOp Result → Bool
  | .register _ => true
  | .installRoute _ => true
  | _ => false

section Exec

variable {s s' : Tables} {Result : Type} {op : PathOp Result} {result : Result}

theorem exec_adds (hexec : exec t s op = some (s', result)) (hop : op.adds = true) :
    s'.pathCount ≤ s.pathCount + 1 := by
  cases exec_effect hexec with
  | register req =>
    simp only [pathCount, length_append, length_singleton]
    omega
  | @installRoute p path hp =>
    have hinsert := Finset.card_insert_le path.peer s.routes.keys
    simp only [pathCount, keys_insert]
    omega
  | none => exact Nat.le_succ _
  | _ => cases hop

theorem card_erase_lt (hroute : s.routes.lookup dst = some p) :
    (s.routes.erase dst).keys.card < s.routes.keys.card := by
  rw [Finmap.keys_erase]
  exact Finset.card_erase_lt_of_mem (mem_keys_iff.2 ⟨p, hroute⟩)

/-- The other operations make neither table larger, and a path that loses its
route leaves room. -/
theorem exec_keeps (hexec : exec t s op = some (s', result)) (hop : op.adds = false) :
    s'.routes.keys.card ≤ s.routes.keys.card ∧ s'.pathCount ≤ s.pathCount ∧
      ∀ p, s.HasRoute p → s'.HasRoute p ∨ s'.pathCount < s.pathCount := by
  cases exec_effect hexec with
  | untrack p paths =>
    exact ⟨le_rfl, Nat.add_le_add_left (length_erase_le ..) _, fun _ h => .inl h⟩
  | pruneDeadRegistrations =>
    exact ⟨le_rfl, Nat.add_le_add_left (length_filter_le ..) _, fun _ h => .inl h⟩
  | removeRoute p dst =>
    have hle : (s.routes.erase dst).keys.card ≤ s.routes.keys.card := by
      rw [Finmap.keys_erase]
      exact Finset.card_erase_le
    refine ⟨hle, Nat.add_le_add_right hle _, ?_⟩
    rintro q ⟨dst', hroute⟩
    by_cases hdst : dst' = dst
    · subst hdst
      exact .inr (Nat.add_lt_add_right (card_erase_lt hroute) _)
    · exact .inl ⟨dst', (Finmap.lookup_erase_ne hdst).trans hroute⟩
  | replaceRoutes hmu =>
    refine ⟨Nat.zero_le _, Nat.add_le_add_right (Nat.zero_le _) _, ?_⟩
    rintro q ⟨dst, hroute⟩
    exact .inr (Nat.add_lt_add_right (Finset.card_pos.2 ⟨dst, mem_keys_iff.2 ⟨q, hroute⟩⟩) _)
  | register | installRoute => cases hop
  | _ => exact ⟨le_rfl, le_rfl, fun _ h => .inl h⟩

/-- The count that a handover starts from misses no entry of the route table. -/
theorem card_le_snapshot (hvalid : s.Valid) : s.routes.keys.card ≤ s.snapshotPaths.length := by
  have hsub : s.routes.keys ⊆
      (s.snapshotPaths.filterMap fun p => (s.paths.lookup p).map (·.peer)).toFinset := by
    intro dst hdst
    obtain ⟨p, hroute⟩ := mem_keys_iff.1 hdst
    obtain ⟨path, hpath, rfl⟩ := hvalid.routes dst p hroute
    rw [mem_toFinset, mem_filterMap]
    refine ⟨p, ?_, by simp [hpath]⟩
    simp [snapshotPaths, routed, hpath, hroute, hvalid.bounded p path hpath]
  exact (Finset.card_le_card hsub).trans
    ((toFinset_card_le _).trans (length_filterMap_le ..))

end Exec

/-! ## One step -/

/-- A handover relies on its count, or a path is in neither table. -/
def Main.reserves : Main → Bool
  | .handover (.count _ _) => true
  | .handover (.evict _) => true
  | .handover (.removeVictim _ _) => true
  | .handover (.register _) => true
  | .watch .lock => true
  | .watch .installCheck => true
  | .watch .arbitrate => true
  | .watch (.install _) => true
  | _ => false

def alone (cfg : PathConfig) : Bool := !cfg.threads.hasEntry fun _ l => l.main.reserves

/-- A handover, and the installation of a path that is still in the registry,
begin when no other of the two is under way, and an eviction finds a path in
use. -/
def apart (cfg : PathConfig) : PathAction → Bool
  | .step t _ =>
    match t, cfg.threads.lookup t with
    | _, some ⟨.handover (.start _), _⟩ => alone cfg
    | .watch p, some ⟨.watch .untrack, _⟩ =>
      alone cfg && decide (p ∈ cfg.shared.trialPaths) &&
        (cfg.shared.paths.lookup p).any (!·.untracked)
    | _, some ⟨.handover (.evict _), _⟩ => cfg.shared.snapshotPaths ≠ []
    | _, _ => true
  | _ => true

/-- What a goroutine in its section can rely on. -/
def Main.Room (s : Tables) : Main → Prop
  | .handover (.count _ n) => s.routes.keys.card ≤ n
  | .handover (.evict _) => True
  | .handover (.removeVictim _ p) => s.pathCount < pathMaxPaths ∨ s.HasRoute p
  | main => main.reserves = true → s.pathCount < pathMaxPaths

section Step

variable {s s' : Tables} {main : Main} {t : Thread}

theorem room_of_outside (h : main.reserves = false) : main.Room s := by
  unfold Main.Room
  split <;> simp_all [Main.reserves]

theorem room_exec {op : PathOp Result} {result : Result} (hexec : exec t s op = some (s', result))
    (hop : op.adds = false) (hcap : s.pathCount ≤ pathMaxPaths) (h : main.Room s) :
    main.Room s' := by
  obtain ⟨hcard, hcount, hroute⟩ := exec_keeps hexec hop
  unfold Main.Room at h ⊢
  split at h
  · exact hcard.trans h
  · trivial
  · rcases h with hroom | hroom
    · exact .inl (hcount.trans_lt hroom)
    · exact (hroute _ hroom).symm.imp_left fun hlt => hlt.trans_le hcap
  · exact fun hsection => hcount.trans_lt (h hsection)

theorem room_of_adds {op : PathOp Result} (hmain : MainOp t main op) (hop : op.adds = true)
    (h : main.Room s) : main.reserves = true ∧ s.pathCount < pathMaxPaths := by
  cases hmain with
  | quiet hquiet => cases op <;> cases hop <;> cases hquiet
  | install | register => exact ⟨rfl, h rfl⟩
  | _ => cases hop

theorem evicted_mem (req : EstablishedReq) (choice : Choice) (hps : ps ≠ []) :
    ∃ p ∈ ps, HandoverPC.evicted req choice ps = .removeVictim req p := by
  obtain ⟨first, rest, rfl⟩ := exists_cons_of_ne_nil hps
  unfold HandoverPC.evicted
  split
  · split
    next p hp => exact ⟨p, mem_of_getElem? hp, rfl⟩
    next => exact ⟨first, mem_cons_self, rfl⟩
  · exact ⟨first, mem_cons_self, rfl⟩

theorem handover_room {result : request.Result} (hvalid : s.Valid)
    (hcap : s.pathCount ≤ pathMaxPaths) (hcontrol : handoverControl choice pc = some request)
    (hexec : exec t s request.op = some (s', result)) (h : (Main.handover pc).Room s)
    (hevict : ∀ req, pc = .evict req → s.snapshotPaths ≠ []) :
    (Main.handover (request.resume result).1).Room s' := by
  cases pc with
  | start req =>
    cases hcontrol
    cases hexec
    exact card_le_snapshot hvalid
  | count req n =>
    cases hcontrol
    obtain ⟨-, hexec⟩ := locked_eq_some.1 hexec
    cases hexec
    dsimp only
    split
    · trivial
    next hroom =>
      have hcard : s.routes.keys.card ≤ n := h
      intro _
      unfold pathCount
      omega
  | evict req =>
    cases hcontrol
    cases hexec
    obtain ⟨p, hp, hvictim⟩ := evicted_mem req choice (hevict req rfl)
    have hrouted : s.routed p = true := (mem_filter.1 hp).2
    simp only [goto, hvictim]
    unfold routed at hrouted
    split at hrouted
    · cases hrouted
    · exact .inr ⟨_, of_decide_eq_true hrouted⟩
  -- the route of the victim is taken, or has been
  | removeVictim req p =>
    cases hcontrol
    intro _
    obtain ⟨path, hpath, hexec⟩ := onPath_eq_some.1 hexec
    obtain ⟨-, hexec⟩ := locked_eq_some.1 hexec
    split at hexec
    next hroute =>
      cases hexec
      exact (Nat.add_lt_add_right (card_erase_lt hroute) _).trans_le hcap
    next hroute =>
      cases hexec
      refine h.resolve_right ?_
      rintro ⟨dst, hdst⟩
      obtain ⟨path', hpath', rfl⟩ := hvalid.routes dst p hdst
      rw [hpath] at hpath'
      cases hpath'
      exact hroute hdst
  | register req =>
    cases hcontrol
    exact fun hsection => nomatch hsection
  | done p => cases hcontrol

theorem watch_room {result : request.Result} (hcap : s.pathCount ≤ pathMaxPaths)
    (hcontrol : watchControl p choice pc = some request)
    (hexec : exec t s request.op = some (s', result)) (h : (Main.watch pc).Room s)
    (htracked : pc = .untrack → p ∈ s.trialPaths ∧ (s.paths.lookup p).any (!·.untracked) = true) :
    (Main.watch (request.resume result).1).Room s' := by
  have hkept : request.op.adds = false → (Main.watch pc).reserves = true →
      s'.pathCount < pathMaxPaths := fun hop hsection =>
    (exec_keeps hexec hop).2.1.trans_lt (h hsection)
  intro hsection
  have hedge := watch_edge hcontrol hexec
  generalize (request.resume result).1 = next at hedge hsection
  cases hedge with
  | @leave _ next hnext => cases next <;> first | (cases hsection; done) | cases hnext
  | lock =>
    obtain ⟨hmem, hfirst⟩ := htracked rfl
    cases hcontrol
    obtain ⟨path, hpath, hexec⟩ := onPath_eq_some.1 hexec
    rw [hpath] at hfirst
    rw [if_neg (by simpa using hfirst)] at hexec
    obtain ⟨-, hexec⟩ := locked_eq_some.1 hexec
    cases hexec
    have hlength := length_erase_of_mem hmem
    have hpos := length_pos_of_mem hmem
    simp only [pathCount, setPath, hlength] at hcap ⊢
    omega
  | check | arbitrate | install =>
    cases hcontrol
    exact hkept rfl rfl
  | _ => cases hsection

end Step

/-! ## Whole runs -/

variable {cfg : PathConfig} {s' : Tables} {t : Thread} {main : Main}

structure Capped (cfg : PathConfig) : Prop where
  valid : cfg.shared.Valid
  cap : cfg.shared.pathCount ≤ pathMaxPaths
  room : ∀ t l, cfg.threads.lookup t = some l → l.main.Room cfg.shared
  single : ∀ t l t' l', cfg.threads.lookup t = some l → cfg.threads.lookup t' = some l' →
    l.main.reserves = true → l'.main.reserves = true → t = t'

/-- The goroutine `t` goes on with `l'`.  It stays out of its section, or nobody
else is in one. -/
theorem Capped.update {l' : Local} (h : Capped cfg) (hvalid : s'.Valid)
    (hcap : s'.pathCount ≤ pathMaxPaths)
    (hothers : ∀ t' l, t' ≠ t → cfg.threads.lookup t' = some l → l.main.Room s')
    (hroom : l'.main.Room s')
    (hsingle : l'.main.reserves = true → ∀ t' l, t' ≠ t → cfg.threads.lookup t' = some l →
      l.main.reserves = false) :
    Capped { shared := s', threads := cfg.threads.insert t l' } := by
  refine ⟨hvalid, hcap, forall_lookup_insert hroom hothers, ?_⟩
  intro t₁ l₁ t₂ l₂ h₁ h₂ hsection₁ hsection₂
  rcases lookup_insert_eq_some.1 h₁ with ⟨rfl, rfl⟩ | ⟨hne₁, hold₁⟩ <;>
    rcases lookup_insert_eq_some.1 h₂ with ⟨rfl, rfl⟩ | ⟨hne₂, hold₂⟩
  · rfl
  · simp [hsingle hsection₁ t₂ l₂ hne₂ hold₂] at hsection₂
  · simp [hsingle hsection₂ t₁ l₁ hne₁ hold₁] at hsection₁
  · exact h.single t₁ l₁ t₂ l₂ hold₁ hold₂ hsection₁ hsection₂

theorem outside_of_alone (h : alone cfg = true) (hl : cfg.threads.lookup t = some l) :
    l.main.reserves = false := by
  rw [alone, Bool.not_eq_true', Bool.eq_false_iff, ne_eq, hasEntry_iff] at h
  by_contra hsection
  exact h ⟨t, l, hl, by simpa using hsection⟩

/-- A goroutine enters its section when nobody is in one. -/
theorem entered_alone {result : request.Result} (hlocal : cfg.threads.lookup t = some ⟨main, none⟩)
    (hmain : MainStep choice t main request)
    (hexec : exec t cfg.shared request.op = some (s', result))
    (hapart : apart cfg (.step t choice) = true)
    (hsection : (request.resume result).main.reserves = true) :
    main.reserves = true ∨ alone cfg = true := by
  simp only [apart, hlocal] at hapart
  cases hmain with
  | @handover n pc request hcontrol =>
    cases pc with
    | start req => exact .inr hapart
    | register req =>
      cases hcontrol
      cases hsection
    | done p => cases hcontrol
    | _ => exact .inl rfl
  | @watch p pc request hcontrol =>
    have hedge := watch_edge hcontrol hexec
    replace hsection : (Main.watch (request.resume result).1).reserves = true := hsection
    generalize (request.resume result).1 = next at hedge hsection
    cases hedge with
    | @leave _ next hnext => cases next <;> first | (cases hsection; done) | cases hnext
    | lock => exact .inr (Bool.and_eq_true_iff.1 (Bool.and_eq_true_iff.1 hapart).1).1
    | check | arbitrate | install => exact .inl rfl
    | _ => cases hsection
  | _ => cases hsection

/-- A step keeps the cap, and the room that a goroutine in its section relies on. -/
theorem capped_step (cfg : PathConfig) (action : PathAction) (cfg' : PathConfig)
    (hcfg : Capped cfg) (hapart : apart cfg action = true)
    (hnext : system.next cfg action = some cfg') : Capped cfg' := by
  have hstep := pathStep_of_next hnext
  have hvalid := valid_step hcfg.valid hstep
  cases hstep with
  | @spawn t l hfresh hspawn =>
    have houtside : l.main.reserves = false := by
      obtain ⟨main, call⟩ := l
      simp only [spawnable, Bool.and_eq_true] at hspawn
      cases main with
      | handover pc => cases pc <;> first | rfl | cases t <;> cases hspawn.2
      | watch pc => cases pc <;> first | rfl | cases t <;> cases hspawn.2
      | _ => rfl
    refine hcfg.update hvalid hcfg.cap (fun t' l _ => hcfg.room t' l) (room_of_outside houtside) ?_
    simp [houtside]
  | @call t choice main p pc shared result hlocal hexec =>
    have hop : (endControl p pc).op.adds = false := by cases pc <;> rfl
    have hroom := hcfg.room t _ hlocal
    refine hcfg.update hvalid ((exec_keeps hexec hop).2.1.trans hcfg.cap)
      (fun t' l _ hl => room_exec hexec hop hcfg.cap (hcfg.room t' l hl))
      (room_exec hexec hop hcfg.cap hroom) fun hsection t' l hne hl => ?_
    by_contra hother
    exact hne (hcfg.single t' l t _ hl hlocal (by simpa using hother) hsection)
  | @main t choice main request shared result hlocal hmain hexec =>
    have hroom := hcfg.room t _ hlocal
    have hothers : main.reserves = true → ∀ t' l, t' ≠ t → cfg.threads.lookup t' = some l →
        l.main.reserves = false := by
      intro hsection t' l hne hl
      by_contra hother
      exact hne (hcfg.single t' l t _ hl hlocal (by simpa using hother) hsection)
    refine hcfg.update hvalid ?_ (fun t' l hne hl => ?_) ?_ fun hsection t' l hne hl => ?_
    · cases hop : request.op.adds with
      | false => exact (exec_keeps hexec hop).2.1.trans hcfg.cap
      | true => exact (exec_adds hexec hop).trans (room_of_adds (main_op hmain) hop hroom).2
    · cases hop : request.op.adds with
      | false => exact room_exec hexec hop hcfg.cap (hcfg.room t' l hl)
      | true =>
        exact room_of_outside (hothers (room_of_adds (main_op hmain) hop hroom).1 t' l hne hl)
    · simp only [apart, hlocal] at hapart
      cases hmain with
      | handover hcontrol =>
        refine handover_room hcfg.valid hcfg.cap hcontrol hexec hroom ?_
        rintro req rfl
        simpa using hapart
      | watch hcontrol =>
        refine watch_room hcfg.cap hcontrol hexec hroom ?_
        rintro rfl
        simp only [Bool.and_eq_true, decide_eq_true_eq] at hapart
        exact ⟨hapart.1.2, hapart.2⟩
      | _ => exact fun hsection => nomatch hsection
    · rcases entered_alone hlocal hmain hexec hapart hsection with hwas | halone
      · exact hothers hwas t' l hne hl
      · exact outside_of_alone halone hl

def KeepsCap (cfg : PathConfig) (action : PathAction) : Prop :=
  ∀ cfg', system.next cfg action = some cfg' → cfg'.shared.pathCount ≤ pathMaxPaths

/-- **The cap is kept where the handovers and the installations do not overlap.**
In a run from the start of the manager, let a handover begin to count, and a
watch loop take a path that has passed its trial out of the registry, only when
no other goroutine is between the count and the registration or between the
registry and the route table, and let every eviction find a path in use.  Then
there are never more than `pathMaxPaths` paths in the route table and the
registry together. -/
theorem path_cap (enabled : Bool) (actions : List PathAction)
    (hapart : Along system.next (fun cfg action => apart cfg action = true) (initial enabled)
      actions) : Along system.next KeepsCap (initial enabled) actions := by
  have hinitial : Capped (initial enabled) :=
    ⟨initial_valid enabled, Nat.zero_le _, by rintro t l ⟨⟩, by rintro t l t' l' ⟨⟩⟩
  refine hapart.of_invariant capped_step (fun cfg action hcfg hapart cfg' hnext => ?_) hinitial
  exact (capped_step cfg action cfg' hcfg hapart hnext).cap

/-! ## Nine paths -/

def reqFrom (n : Nat) : EstablishedReq := ⟨.ofNat 32 (0x0a000065 + n), 0x0a000064, .initiator⟩

/-- The handovers of further peers, one after the other, up to the ninth, which
finds eight paths and turns to `evictLRU`. -/
def handoversFrom (first : Nat) : List PathAction :=
  (range' first (9 - first)).flatMap fun n =>
    .spawn (.handover n) ⟨.handover (.start (reqFrom n)), none⟩ ::
      goes (.handover n) (if n = 8 then 4 else 3)

/-- There is none to evict in an empty route table. -/
theorem nine_paths_on_trial :
    ∃ cfg, run system.next (initial true) (handoversFrom 0) = some cfg ∧
      pathMaxPaths < cfg.shared.pathCount := by
  decide +kernel

/-- The first path has passed its trial and is in use, and gives way to the ninth. -/
def firstInUse : List PathAction :=
  handoverRun 0 0 (reqFrom 0) ++ passRun 0 ++ goes (.watch 0) 9 ++ handoversFrom 1 ++
    goes (.handover 8) 6

theorem path_cap_eviction :
    (run system.next (initial true) firstInUse).any
        (fun cfg => cfg.shared.pathCount = 8 && decide (8 ∈ cfg.shared.trialPaths)) = true ∧
      Along system.next KeepsCap (initial true) firstInUse :=
  ⟨by decide +kernel, path_cap true firstInUse (by decide +kernel)⟩

end Hy2Link.Client.Path
