import Mathlib.Data.Finmap
import Mathlib.Data.Finset.Basic

/-! # Finite tables

A table is a finite map with one type of values.  The rules here say what an
insertion and a removal leave in the table, and let a statement about all
entries of a table be evaluated.
-/

namespace Interleaving

open Finmap

abbrev Table (κ ν : Type) := Finmap fun _ : κ => ν

variable {κ ν : Type} [DecidableEq κ] {t t' : Table κ ν} {k k' : κ} {v v' : ν}
  {p p' : κ → ν → Bool}

theorem lookup_insert_eq_some :
    (t.insert k v).lookup k' = some v' ↔
      k' = k ∧ v' = v ∨ k' ≠ k ∧ t.lookup k' = some v' := by
  by_cases h : k' = k
  · subst h
    simp [lookup_insert, eq_comm]
  · simp [lookup_insert_of_ne t h, h]

theorem forall_lookup_insert {p : κ → ν → Prop} (hnew : p k v)
    (hold : ∀ k' v', k' ≠ k → t.lookup k' = some v' → p k' v') (k' : κ) (v' : ν)
    (h : (t.insert k v).lookup k' = some v') : p k' v' := by
  rcases lookup_insert_eq_some.1 h with ⟨rfl, rfl⟩ | ⟨hne, h⟩
  · exact hnew
  · exact hold k' v' hne h

theorem lookup_erase_eq_some : (t.erase k).lookup k' = some v ↔ k' ≠ k ∧ t.lookup k' = some v := by
  by_cases h : k' = k
  · subst h
    simp [lookup_erase]
  · simp [lookup_erase_ne h, h]

theorem insert_eq_self (h : t.lookup k = some v) : t.insert k v = t := by
  apply ext_lookup
  intro k'
  by_cases hk : k' = k
  · subst hk
    rw [lookup_insert, h]
  · exact lookup_insert_of_ne _ hk

theorem erase_eq_self (h : k ∉ t) : t.erase k = t := by
  apply ext_lookup
  intro k'
  by_cases hk : k' = k
  · subst hk
    rw [lookup_erase, lookup_eq_none.2 h]
  · exact lookup_erase_ne hk

def Table.filter {κ ν : Type} (p : κ → ν → Bool) (t : Table κ ν) : Table κ ν where
  entries := t.entries.filter fun entry => p entry.1 entry.2
  nodupKeys := by
    have hle : (t.entries.filter fun entry => p entry.1 entry.2).keys ≤ t.entries.keys :=
      Multiset.map_le_map (Multiset.filter_le _ _)
    exact Multiset.nodup_keys.1 (Multiset.nodup_of_le hle (Multiset.nodup_keys.2 t.nodupKeys))

open Table

theorem lookup_filter_eq_some :
    (t.filter p).lookup k = some v ↔ t.lookup k = some v ∧ p k v = true := by
  simp only [lookup_eq_some_iff, filter, Multiset.mem_filter]

theorem lookup_filter : (t.filter p).lookup k = (t.lookup k).filter (p k) := by
  ext v
  rw [lookup_filter_eq_some, Option.filter_eq_some_iff]

def Table.mapValues {κ ν μ : Type} (f : ν → μ) (t : Table κ ν) : Table κ μ where
  entries := t.entries.map fun entry => ⟨entry.1, f entry.2⟩
  nodupKeys := by
    rw [← Multiset.nodup_keys, Multiset.keys, Multiset.map_map]
    exact Multiset.nodup_keys.2 t.nodupKeys

theorem lookup_mapValues {μ : Type} {f : ν → μ} :
    (t.mapValues f).lookup k = (t.lookup k).map f := by
  ext v
  simp only [lookup_eq_some_iff, Option.map_eq_some_iff, mapValues, Multiset.mem_map]
  constructor
  · rintro ⟨⟨k', w⟩, hw, heq⟩
    cases heq
    exact ⟨w, hw, rfl⟩
  · rintro ⟨w, hw, rfl⟩
    exact ⟨⟨k, w⟩, hw, rfl⟩

theorem mapValues_insert {μ : Type} {f : ν → μ} :
    mapValues f (t.insert k v) = (t.mapValues f).insert k (f v) := by
  apply ext_lookup
  intro k'
  by_cases h : k' = k
  · subst h
    simp [lookup_mapValues]
  · simp [lookup_mapValues, h]

theorem mapValues_erase {μ : Type} {f : ν → μ} :
    mapValues f (t.erase k) = (t.mapValues f).erase k := by
  apply ext_lookup
  intro k'
  by_cases h : k' = k
  · subst h
    simp [lookup_mapValues]
  · simp [lookup_mapValues, h]

theorem forall_lookup_iff {p : κ → ν → Prop} :
    (∀ k ∈ t.keys, ∀ v ∈ t.lookup k, p k v) ↔ ∀ k v, t.lookup k = some v → p k v := by
  constructor
  · intro h k v hv
    exact h k (mem_keys.2 (mem_of_lookup_eq_some hv)) v hv
  · intro h k _ v hv
    exact h k v hv

instance decidableForallLookup {p : κ → ν → Prop} [∀ k v, Decidable (p k v)] :
    Decidable (∀ k v, t.lookup k = some v → p k v) :=
  decidable_of_iff _ forall_lookup_iff

/-! ## Questions about the entries -/

def Table.hasEntry (p : κ → ν → Bool) (t : Table κ ν) : Bool :=
  decide (∃ k ∈ t.keys, ∃ v ∈ t.lookup k, p k v = true)

def Table.countEntries (p : κ → ν → Bool) (t : Table κ ν) : Nat := (t.filter p).keys.card

theorem hasEntry_iff : t.hasEntry p = true ↔ ∃ k v, t.lookup k = some v ∧ p k v = true := by
  simp only [hasEntry, decide_eq_true_eq]
  constructor
  · rintro ⟨k, -, v, hv, hp⟩
    exact ⟨k, v, hv, hp⟩
  · rintro ⟨k, v, hv, hp⟩
    exact ⟨k, mem_keys.2 (mem_of_lookup_eq_some hv), v, hv, hp⟩

theorem mem_keys_iff : k ∈ t.keys ↔ ∃ v, t.lookup k = some v := by
  rw [mem_keys, mem_iff]

theorem mem_keys_filter : k ∈ (t.filter p).keys ↔ ∃ v, t.lookup k = some v ∧ p k v = true := by
  simp only [mem_keys_iff, lookup_filter_eq_some]

theorem keys_insert : (t.insert k v).keys = insert k t.keys := by
  ext k'
  rw [Finset.mem_insert, mem_keys, mem_keys, mem_insert]

theorem keys_filter_subset : (t.filter p).keys ⊆ t.keys := by
  intro k hk
  obtain ⟨v, hv, -⟩ := mem_keys_filter.1 hk
  exact mem_keys_iff.2 ⟨v, hv⟩

theorem countEntries_le
    (h : ∀ k v, t.lookup k = some v → p k v = true →
      ∃ v', t'.lookup k = some v' ∧ p' k v' = true) :
    t.countEntries p ≤ t'.countEntries p' := by
  apply Finset.card_le_card
  intro k hk
  obtain ⟨v, hv, hp⟩ := mem_keys_filter.1 hk
  exact mem_keys_filter.2 (h k v hv hp)

theorem countEntries_insert :
    countEntries p (t.insert k v) =
      countEntries p (t.erase k) + if p k v then 1 else 0 := by
  have hk : k ∉ (filter p (t.erase k)).keys := by
    rw [mem_keys_filter]
    rintro ⟨v', hv', -⟩
    exact (lookup_erase_eq_some.1 hv').1 rfl
  have hkeys : (filter p (t.insert k v)).keys =
      if p k v then insert k (filter p (t.erase k)).keys
      else (filter p (t.erase k)).keys := by
    ext k'
    split
    next hp =>
      simp only [Finset.mem_insert, mem_keys_filter, lookup_insert_eq_some, lookup_erase_eq_some]
      constructor
      · rintro ⟨v', ⟨rfl, rfl⟩ | ⟨hne, hv'⟩, hp'⟩
        · exact .inl rfl
        · exact .inr ⟨v', ⟨hne, hv'⟩, hp'⟩
      · rintro (rfl | ⟨v', ⟨hne, hv'⟩, hp'⟩)
        · exact ⟨v, .inl ⟨rfl, rfl⟩, hp⟩
        · exact ⟨v', .inr ⟨hne, hv'⟩, hp'⟩
    next hp =>
      simp only [mem_keys_filter, lookup_insert_eq_some, lookup_erase_eq_some]
      constructor
      · rintro ⟨v', ⟨rfl, rfl⟩ | ⟨hne, hv'⟩, hp'⟩
        · exact absurd hp' hp
        · exact ⟨v', ⟨hne, hv'⟩, hp'⟩
      · rintro ⟨v', ⟨hne, hv'⟩, hp'⟩
        exact ⟨v', .inr ⟨hne, hv'⟩, hp'⟩
  unfold countEntries
  rw [hkeys]
  split
  · exact Finset.card_insert_of_notMem hk
  · rfl

theorem countEntries_update
    (h : t.lookup k = some v) :
    countEntries p (t.insert k v') + (if p k v then 1 else 0) =
      t.countEntries p + if p k v' then 1 else 0 := by
  have hold : t.countEntries p = countEntries p (t.erase k) + if p k v then 1 else 0 := by
    rw [← countEntries_insert, insert_eq_self h]
  rw [countEntries_insert, hold]
  omega

theorem countEntries_new
    (h : t.lookup k = none) :
    countEntries p (t.insert k v) = t.countEntries p + if p k v then 1 else 0 := by
  rw [countEntries_insert, erase_eq_self (lookup_eq_none.1 h)]

theorem countEntries_insert_le : countEntries p (t.insert k v) ≤ t.countEntries p + 1 := by
  have hsubset : (filter p (t.insert k v)).keys ⊆ insert k (t.filter p).keys := by
    intro k' hk'
    obtain ⟨v', hv', hp⟩ := mem_keys_filter.1 hk'
    rcases lookup_insert_eq_some.1 hv' with ⟨rfl, -⟩ | ⟨-, hv'⟩
    · exact Finset.mem_insert_self _ _
    · exact Finset.mem_insert_of_mem (mem_keys_filter.2 ⟨v', hv', hp⟩)
  exact (Finset.card_le_card hsubset).trans (Finset.card_insert_le _ _)

end Interleaving
