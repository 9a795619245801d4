import Hy2Link.Interleaving.Run
import Hy2Link.Interleaving.Table
import Hy2Link.Protocol

/-! # The limiter of the built-in STUN server

Each source address has a bucket with the start of its window and the number of
requests let through since.  When more addresses are tracked than the limit says,
the buckets whose window is over are thrown out; those that are still running
stay, so a flood of addresses within one window makes the table as large as the
flood.

`κ` stands for the texts of addresses, which are the keys of the table.
-/

namespace Hy2Link.Server.Stun

open Interleaving

def builtinSTUNRatePerIP : Nat := 30

def builtinSTUNRateWindow : Nat := second

def builtinSTUNMaxTrackedIPs : Nat := 4096

structure StunIPBucket where
  windowStart : Nat
  count : Nat
deriving DecidableEq

structure Request (κ : Type) where
  now : Nat
  key : κ

def StunIPBucket.over (now : Nat) (bucket : StunIPBucket) : Bool :=
  builtinSTUNRateWindow < now - bucket.windowStart

variable {κ : Type} [DecidableEq κ]

def pruned (rate : Table κ StunIPBucket) (now : Nat) : Table κ StunIPBucket :=
  if builtinSTUNMaxTrackedIPs < rate.keys.card then rate.filter fun _ bucket => !bucket.over now
  else rate

def opens (rate : Table κ StunIPBucket) (a : Request κ) : Bool :=
  (rate.lookup a.key).all (·.over a.now)

def pass (rate : Table κ StunIPBucket) (a : Request κ) : Table κ StunIPBucket × Bool :=
  match rate.lookup a.key with
  | none => (rate.insert a.key ⟨a.now, 1⟩, true)
  | some bucket =>
    if bucket.over a.now then (rate.insert a.key ⟨a.now, 1⟩, true)
    else if builtinSTUNRatePerIP ≤ bucket.count then (rate, false)
    else (rate.insert a.key { bucket with count := bucket.count + 1 }, true)

def allow (rate : Table κ StunIPBucket) (a : Request κ) : Table κ StunIPBucket × Bool :=
  pass (pruned rate a.now) a

def after (rate : Table κ StunIPBucket) (calls : List (Request κ)) : Table κ StunIPBucket :=
  calls.foldl (fun rate a => (allow rate a).1) rate

/-- How many requests of an address are let through up to a time. -/
def granted (key : κ) (deadline : Nat) : Table κ StunIPBucket → List (Request κ) → Nat
  | _, [] => 0
  | rate, a :: rest =>
    (if a.key = key ∧ a.now ≤ deadline ∧ (allow rate a).2 = true then 1 else 0) +
      granted key deadline (allow rate a).1 rest

variable {rate : Table κ StunIPBucket} {a : Request κ} {key : κ}

/-! ## One bucket -/

theorem lookup_pruned (h : rate.lookup key = some bucket) (hrunning : bucket.over now = false) :
    (pruned rate now).lookup key = some bucket := by
  unfold pruned
  split
  · rw [lookup_filter, h]
    simp [hrunning]
  · exact h

theorem lookup_pass_of_ne (hne : key ≠ a.key) : (pass rate a).1.lookup key = rate.lookup key := by
  unfold pass
  repeat' split
  all_goals simp [Finmap.lookup_insert_of_ne, hne]

theorem pass_running (h : rate.lookup a.key = some bucket) (hrunning : bucket.over a.now = false) :
    pass rate a = if builtinSTUNRatePerIP ≤ bucket.count then (rate, false)
      else (rate.insert a.key { bucket with count := bucket.count + 1 }, true) := by
  simp [pass, h, hrunning]

theorem pass_opens (h : opens rate a = true) :
    pass rate a = (rate.insert a.key ⟨a.now, 1⟩, true) := by
  unfold opens at h
  unfold pass
  split
  · rfl
  next bucket hbucket =>
    rw [hbucket] at h
    exact if_pos h

theorem granted_late (h : ∀ a ∈ calls, deadline < a.now) : granted key deadline rate calls = 0 := by
  induction calls generalizing rate with
  | nil => rfl
  | cons a rest ih =>
    have hlate := h a List.mem_cons_self
    rw [granted, if_neg (by omega), ih fun a' ha' => h a' (List.mem_cons_of_mem _ ha')]

/-- A bucket that has let `n` requests through has room for the rest of the
limit. -/
theorem granted_le (hbucket : rate.lookup key = some ⟨start, n⟩)
    (hsorted : calls.Pairwise fun a a' => a.now ≤ a'.now) :
    granted key (start + builtinSTUNRateWindow) rate calls ≤ builtinSTUNRatePerIP - n := by
  induction calls generalizing rate n with
  | nil => exact Nat.zero_le _
  | cons a rest ih =>
    obtain ⟨hlater, hsorted⟩ := List.pairwise_cons.mp hsorted
    by_cases hlate : start + builtinSTUNRateWindow < a.now
    · rw [granted_late]
      · exact Nat.zero_le _
      · intro a' ha'
        rcases List.mem_cons.mp ha' with rfl | ha'
        · exact hlate
        · exact hlate.trans_le (hlater a' ha')
    · have hrunning : StunIPBucket.over a.now ⟨start, n⟩ = false := by
        simp only [StunIPBucket.over, decide_eq_false_iff_not]
        omega
      have hpruned := lookup_pruned hbucket hrunning
      by_cases hkey : a.key = key
      · subst hkey
        rw [granted, allow, pass_running hpruned hrunning]
        dsimp only
        split
        · simpa using ih hpruned hsorted
        · have hrest := ih (Finmap.lookup_insert (pruned rate a.now)) (n := n + 1) hsorted
          simp only [and_true]
          split <;> omega
      · rw [granted, if_neg fun h => hkey h.1, Nat.zero_add]
        exact ih ((lookup_pass_of_ne (Ne.symm hkey)).trans hpruned) hsorted

theorem granted_opened (hopens : opens (pruned rate a.now) a = true)
    (hsorted : (a :: rest).Pairwise fun a a' => a.now ≤ a'.now) :
    granted a.key (a.now + builtinSTUNRateWindow) rate (a :: rest) ≤ builtinSTUNRatePerIP := by
  rw [granted, allow, pass_opens hopens]
  have hnew : ((pruned rate a.now).insert a.key ⟨a.now, 1⟩).lookup a.key = some ⟨a.now, 1⟩ :=
    Finmap.lookup_insert _
  have hrest := granted_le hnew (List.pairwise_cons.mp hsorted).2
  have hlimit : 1 ≤ builtinSTUNRatePerIP := by decide
  dsimp only
  split <;> omega

/-! ## The table -/

theorem keys_pass : (pass rate a).1.keys = insert a.key rate.keys := by
  unfold pass
  split
  · exact keys_insert
  next bucket hbucket =>
    repeat' split
    · exact keys_insert
    · rw [Finset.insert_eq_of_mem (mem_keys_iff.2 ⟨bucket, hbucket⟩)]
    · exact keys_insert

/-- The table is not above its limit, or the address is tracked, or there is a
bucket to throw out. -/
def Roomy (rate : Table κ StunIPBucket) (a : Request κ) : Prop :=
  rate.keys.card ≤ builtinSTUNMaxTrackedIPs ∨ a.key ∈ rate.keys ∨
    ∃ k bucket, rate.lookup k = some bucket ∧ bucket.over a.now = true

theorem pruned_eq_self (h : ∀ k bucket, rate.lookup k = some bucket → bucket.over now = false) :
    pruned rate now = rate := by
  unfold pruned
  split
  · apply Finmap.ext_lookup
    intro k
    rw [lookup_filter]
    cases hk : rate.lookup k with
    | none => rfl
    | some bucket => simp [h k bucket hk]
  · rfl

theorem card_allow_iff (h : rate.keys.card ≤ builtinSTUNMaxTrackedIPs + 1) :
    (allow rate a).1.keys.card ≤ builtinSTUNMaxTrackedIPs + 1 ↔ Roomy rate a := by
  rw [allow, keys_pass]
  have hinsert := Finset.card_insert_le a.key (pruned rate a.now).keys
  by_cases hfull : builtinSTUNMaxTrackedIPs < rate.keys.card
  · by_cases hover : ∃ k bucket, rate.lookup k = some bucket ∧ bucket.over a.now = true
    · refine iff_of_true ?_ (.inr (.inr hover))
      obtain ⟨k, bucket, hk, hover⟩ := hover
      have hlt : (pruned rate a.now).keys ⊂ rate.keys := by
        rw [pruned, if_pos hfull]
        refine Finset.ssubset_iff_subset_ne.2 ⟨keys_filter_subset, fun heq => ?_⟩
        have hmem := heq ▸ mem_keys_iff.2 ⟨bucket, hk⟩
        obtain ⟨bucket', hk', hrunning⟩ := mem_keys_filter.1 hmem
        simp_all
      have := Finset.card_lt_card hlt
      omega
    · rw [pruned_eq_self fun k bucket hk =>
        Bool.eq_false_iff.2 fun h => hover ⟨k, bucket, hk, h⟩]
      by_cases hmem : a.key ∈ rate.keys
      · rw [Finset.insert_eq_of_mem hmem]
        exact iff_of_true h (.inr (.inl hmem))
      · rw [Finset.card_insert_of_notMem hmem]
        refine iff_of_false (by omega) ?_
        rintro (hle | hmem' | hover')
        · omega
        · exact hmem hmem'
        · exact hover hover'
  · refine iff_of_true ?_ (.inl (Nat.not_lt.mp hfull))
    rw [pruned, if_neg hfull] at hinsert ⊢
    omega

theorem card_after_iff (h : rate.keys.card ≤ builtinSTUNMaxTrackedIPs + 1) :
    (∀ front, front <+: calls → (after rate front).keys.card ≤ builtinSTUNMaxTrackedIPs + 1) ↔
      Along (fun rate a => some (allow rate a).1) Roomy rate calls := by
  induction calls generalizing rate with
  | nil => exact iff_of_true (by simpa [after] using h) trivial
  | cons a rest ih =>
    rw [along_cons, ← card_allow_iff h]
    constructor
    · intro hall
      have hnext := hall [a] (List.cons_prefix_cons.mpr ⟨rfl, List.nil_prefix⟩)
      refine ⟨hnext, fun next hcall => ?_⟩
      obtain rfl := Option.some.inj hcall
      exact (ih hnext).1 fun front hfront =>
        hall (a :: front) (List.cons_prefix_cons.mpr ⟨rfl, hfront⟩)
    · rintro ⟨hnext, hrest⟩ front hfront
      cases front with
      | nil => exact h
      | cons a' front =>
        obtain ⟨rfl, hfront'⟩ := List.cons_prefix_cons.mp hfront
        exact (ih hnext).2 (hrest _ rfl) front hfront'

/-- For every sequence of requests in the order of their times: the table tracks
at most one address more than its limit after each call, and every bucket lets at
most the limit through, exactly if each request finds room. -/
theorem limiter_bounds_iff (calls : List (Request κ))
    (hsorted : calls.Pairwise fun a a' => a.now ≤ a'.now) :
    ((∀ front, front <+: calls →
        (after ∅ front).keys.card ≤ builtinSTUNMaxTrackedIPs + 1) ∧
      ∀ front a rest, front ++ a :: rest = calls → opens (pruned (after ∅ front) a.now) a = true →
        granted a.key (a.now + builtinSTUNRateWindow) (after ∅ front) (a :: rest) ≤
          builtinSTUNRatePerIP) ↔
      Along (fun rate a => some (allow rate a).1) Roomy ∅ calls := by
  rw [and_iff_left, card_after_iff (by simp)]
  rintro front a rest rfl hopens
  exact granted_opened hopens (List.pairwise_append.mp hsorted).2.1

/-- One address sends a request more than its bucket holds, and a second one a
request of its own; two seconds later both buckets are over. -/
def threeSources : List (Request Nat) :=
  List.replicate 31 ⟨0, 1⟩ ++ [⟨second, 2⟩, ⟨3 * second, 1⟩, ⟨3 * second, 3⟩]

theorem limiter_bounds_three_sources :
    (∀ front, front <+: threeSources →
      (after ∅ front).keys.card ≤ builtinSTUNMaxTrackedIPs + 1) ∧
    (allow (after ∅ (threeSources.take 30)) ⟨0, 1⟩).2 = false ∧
    granted 1 second ∅ threeSources ≤ builtinSTUNRatePerIP ∧
    granted 1 (4 * second) (after ∅ (threeSources.take 32)) (threeSources.drop 32) ≤
      builtinSTUNRatePerIP := by
  obtain ⟨htracked, hgranted⟩ := (limiter_bounds_iff threeSources (by decide +kernel)).2
    (Along.imp (fun _ _ => .inl) (by decide +kernel :
      Along _ (fun rate _ => rate.keys.card ≤ builtinSTUNMaxTrackedIPs) ∅ threeSources))
  refine ⟨htracked, by decide +kernel, hgranted [] ⟨0, 1⟩ _ rfl (by decide +kernel), ?_⟩
  exact hgranted (threeSources.take 32) ⟨3 * second, 1⟩ [⟨3 * second, 3⟩] rfl (by decide +kernel)

def flood (keys : List κ) : List (Request κ) := keys.map fun key => ⟨0, key⟩

theorem card_flood (hnodup : keys.Nodup) (hnew : ∀ key ∈ keys, key ∉ rate.keys)
    (hstart : ∀ k bucket, rate.lookup k = some bucket → bucket.windowStart = 0) :
    (after rate (flood keys)).keys.card = rate.keys.card + keys.length := by
  induction keys generalizing rate with
  | nil => simp [flood, after]
  | cons key rest ih =>
    obtain ⟨hkey, hnodup⟩ := List.nodup_cons.mp hnodup
    have hnone : rate.lookup key = none :=
      Finmap.lookup_eq_none.2 fun hmem => hnew key List.mem_cons_self (Finmap.mem_keys.2 hmem)
    have hallow : (allow rate ⟨0, key⟩).1 = rate.insert key ⟨0, 1⟩ := by
      rw [allow, pruned_eq_self fun k bucket hk => by simp [StunIPBucket.over, hstart k bucket hk],
        pass_opens (by simp [opens, hnone])]
    have hrest := @ih (rate.insert key ⟨0, 1⟩) hnodup ?_ ?_
    · rw [flood, List.map_cons, after, List.foldl_cons, hallow]
      rw [keys_insert, Finset.card_insert_of_notMem (hnew key List.mem_cons_self)] at hrest
      rw [List.length_cons]
      exact hrest.trans (by omega)
    · intro k hk
      rw [keys_insert, Finset.mem_insert, not_or]
      exact ⟨fun heq => hkey (heq ▸ hk), hnew k (List.mem_cons_of_mem _ hk)⟩
    · exact forall_lookup_insert rfl fun k bucket _ hk => hstart k bucket hk

def manySources : List IPv4 := (List.range 4098).map (BitVec.ofNat 32)

theorem manySources_nodup : manySources.Nodup := by
  refine List.nodup_range.map_on fun i hi j hj heq => ?_
  have := congrArg BitVec.toNat heq
  simp only [List.mem_range] at hi hj
  simp only [BitVec.toNat_ofNat] at this
  omega

/-- A flood from two addresses more than the limit fills the table with all of them. -/
theorem flooded_table :
    ¬(after ∅ (flood manySources)).keys.card ≤ builtinSTUNMaxTrackedIPs + 1 := by
  rw [card_flood manySources_nodup (by simp) (by simp)]
  simp [manySources, builtinSTUNMaxTrackedIPs]

end Hy2Link.Server.Stun
