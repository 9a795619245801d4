import Mathlib.Data.Int.Range
import Hy2Link.Client.ReplyFields

/-! # Three readers of port ranges

A list of port ranges is read in three places: the configuration expands it to
a list of ports, the manager does the same with a reader of its own when it
starts the server, and the client keeps the bounds of the ranges.  An item that
a reader cannot read is skipped.
-/

namespace Hy2Link.Config

open Text

structure Expansion where
  out : List Int
  seen : Finset Int
  mem_seen : ∀ p, p ∈ seen ↔ p ∈ out
  nodup : out.Nodup

namespace Expansion

def empty : Expansion := ⟨[], ∅, by simp, List.nodup_nil⟩

def add (e : Expansion) (p : Int) : Expansion :=
  if h : p ∈ e.seen then e
  else
    { out := e.out ++ [p]
      seen := insert p e.seen
      mem_seen := fun q => by simp [e.mem_seen, or_comm]
      nodup := by
        rw [e.mem_seen] at h
        exact e.nodup.append (List.nodup_singleton p) (by simpa using h) }

def addRange (e : Expansion) (lo hi : Int) : Expansion := (Int.range lo (hi + 1)).foldl add e

def addItems (parse : List Char → Option (Int × Int)) (e : Expansion) :
    List (List Char) → Expansion
  | [] => e
  | s :: rest =>
    match parse s with
    | none => e.addItems parse rest
    | some (lo, hi) => (e.addRange lo hi).addItems parse rest

variable {e : Expansion} {p q lo hi : Int}

theorem mem_add : q ∈ (e.add p).out ↔ q ∈ e.out ∨ q = p := by
  unfold add
  split
  next hseen =>
    rw [e.mem_seen] at hseen
    constructor
    · exact Or.inl
    · rintro (hq | rfl)
      · exact hq
      · exact hseen
  next => simp

theorem mem_foldl_add (ports : List Int) : q ∈ (ports.foldl add e).out ↔ q ∈ e.out ∨ q ∈ ports := by
  induction ports generalizing e with
  | nil => simp
  | cons p rest ih => rw [List.foldl_cons, ih, mem_add, List.mem_cons, or_assoc]

theorem mem_addRange : q ∈ (e.addRange lo hi).out ↔ q ∈ e.out ∨ lo ≤ q ∧ q ≤ hi := by
  rw [addRange, mem_foldl_add, Int.mem_range_iff, Int.lt_add_one_iff]

theorem mem_addItems (texts : List (List Char)) :
    q ∈ (e.addItems parse texts).out ↔
      q ∈ e.out ∨ ∃ s ∈ texts, ∃ lo hi, parse s = some (lo, hi) ∧ lo ≤ q ∧ q ≤ hi := by
  induction texts generalizing e with
  | nil => simp [addItems]
  | cons s rest ih =>
    unfold addItems
    cases hparse : parse s with
    | none => simp [ih, hparse]
    | some range =>
      obtain ⟨lo, hi⟩ := range
      simp only [ih, mem_addRange, List.mem_cons, exists_eq_or_imp, hparse, Option.some.injEq,
        Prod.mk.injEq, ↓existsAndEq, true_and, or_assoc]

end Expansion

open Expansion

def expandPortRanges (ranges : List (List Char)) : List Int :=
  (empty.addItems (fun s => (parsePortRange s).toOption) ranges).out

def splitRange (s : List Char) : Option (Int × Int) :=
  let s := trimSpace s
  if s = [] then none
  else
    match index '-' s with
    | some i =>
      match atoi (trimSpace (s.take i)), atoi (trimSpace (s.drop (i + 1))) with
      | some l, some h => if l < 1 || 65535 < h || h < l then none else some (l, h)
      | _, _ => none
    | none =>
      match atoi s with
      | some p => if p < 1 || 65535 < p then none else some (p, p)
      | none => none

def expandUDPSplitPorts (ranges : List (List Char)) : List Int :=
  (empty.addItems splitRange ranges).out

theorem splitRange_eq (s : List Char) :
    splitRange s = (Client.parsePortRangeStr s).map fun r => (r.lo, r.hi) := by
  unfold splitRange Client.parsePortRangeStr
  dsimp only
  split
  · rfl
  cases index '-' (trimSpace s) with
  | some i =>
    dsimp only
    cases atoi (trimSpace ((trimSpace s).take i)) with
    | none => rfl
    | some low =>
      cases atoi (trimSpace ((trimSpace s).drop (i + 1))) with
      | none => rfl
      | some high =>
        dsimp only
        split <;> rfl
  | none =>
    cases atoi (trimSpace s) with
    | none => rfl
    | some p =>
      dsimp only
      split <;> rfl

theorem splitRange_eq_some : splitRange s = some (lo, hi) ↔ parsePortRange s = .ok (lo, hi) := by
  have hclient : splitRange s = some (lo, hi) ↔ Client.parsePortRangeStr s = some ⟨lo, hi⟩ := by
    rw [splitRange_eq, Option.map_eq_some_iff]
    constructor
    · rintro ⟨⟨low, high⟩, hr, heq⟩
      cases heq
      exact hr
    · intro hr
      exact ⟨_, hr, rfl⟩
  rw [hclient, Client.parsePortRangeStr_eq_some]

variable {ranges : List (List Char)}

theorem mem_expandPortRanges : p ∈ expandPortRanges ranges ↔ p ∈ portSet ranges := by
  have hread : ∀ (s : List Char) lo hi, (parsePortRange s).toOption = some (lo, hi) ↔
      parsePortRange s = .ok (lo, hi) := by
    intro s lo hi
    cases parsePortRange s <;> simp [Except.toOption]
  rw [expandPortRanges, mem_addItems]
  simp [empty, portSet, hread]

theorem mem_expandUDPSplitPorts : p ∈ expandUDPSplitPorts ranges ↔ p ∈ portSet ranges := by
  rw [expandUDPSplitPorts, mem_addItems]
  simp [empty, portSet, splitRange_eq_some]

/-- **Three readers, one set of ports.**  A list of port ranges, well-formed or
not, stands for the same ports in the configuration, in the manager and in the
client. -/
theorem port_notations_agree (texts : List (List Char)) :
    {p | p ∈ expandPortRanges texts} = {p | p ∈ expandUDPSplitPorts texts} ∧
      {p | p ∈ expandPortRanges texts} = Client.portSet (Client.parsePortRanges texts) := by
  constructor
  · ext p
    exact mem_expandPortRanges.trans mem_expandUDPSplitPorts.symm
  · rw [Client.portSet_parsePortRanges]
    ext p
    exact mem_expandPortRanges

end Hy2Link.Config
