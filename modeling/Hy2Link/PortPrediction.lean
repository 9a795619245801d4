import Hy2Link.AddressExchange

/-! # Which observed ports the prediction keeps

Behind a symmetric NAT a session advertises the observed ports together with
the ports of two series that start from them.  The series come first, and the
list is full at 32: observed ports that the series do not hit have to fit into
what they leave.
-/

namespace Hy2Link

open Text Client List

variable {out tries : List Nat}

/-! ## Filling the list -/

theorem isPrefix_foldl_addPort (tries : List Nat) : out <+: tries.foldl addPort out := by
  induction tries generalizing out with
  | nil => exact prefix_rfl
  | cons q rest ih =>
    refine List.IsPrefix.trans ?_ ih
    unfold addPort
    split
    · exact prefix_rfl
    · exact prefix_append _ _

theorem mem_of_mem_foldl_addPort (h : p ∈ tries.foldl addPort out) : p ∈ out ∨ p ∈ tries := by
  induction tries generalizing out with
  | nil => exact .inl h
  | cons q rest ih =>
    rcases ih h with hout | hrest
    · unfold addPort at hout
      split at hout
      · exact .inl hout
      · simpa [or_assoc] using Or.inl (mem_append.1 hout)
    · exact .inr (mem_cons_of_mem q hrest)

theorem full_of_not_mem (hp : p ∈ tries) (hrange : 1 ≤ p ∧ p ≤ 65535)
    (hnot : p ∉ tries.foldl addPort out) :
    maxPunchAddrs ≤ (tries.foldl addPort out).length := by
  induction tries generalizing out with
  | nil => cases hp
  | cons q rest ih =>
    rcases mem_cons.1 hp with rfl | hrest
    · have hrejected : p ∉ addPort out p := fun hin =>
        hnot ((isPrefix_foldl_addPort rest).subset hin)
      have hfull : maxPunchAddrs ≤ out.length := by
        by_contra hroom
        apply hrejected
        unfold addPort
        split
        next hskip =>
          simp only [Bool.or_eq_true, decide_eq_true_eq] at hskip
          rcases hskip with ((hzero | hlarge) | hfull) | hin
          · omega
          · omega
          · exact absurd hfull hroom
          · exact hin
        · simp
      exact hfull.trans (isPrefix_foldl_addPort (p :: rest)).length_le
    · exact ih hrest hnot

theorem foldl_addPort_eq_take (hnodup : tries.Nodup) (hpos : ∀ p ∈ tries, p ≠ 0)
    (hnew : ∀ p ∈ tries, p ∉ out) (hlength : out.length ≤ maxPunchAddrs) :
    tries.foldl addPort out = (out ++ tries.filter (· ≤ 65535)).take maxPunchAddrs := by
  induction tries generalizing out with
  | nil => simp [take_of_length_le hlength]
  | cons p rest ih =>
    rw [nodup_cons] at hnodup
    rw [forall_mem_cons] at hpos hnew
    rw [foldl_cons]
    by_cases hlarge : 65535 < p
    · have hskip : addPort out p = out := by simp [addPort, hlarge]
      rw [hskip, ih hnodup.2 hpos.2 hnew.2 hlength, filter_cons_of_neg (by simpa using hlarge)]
    · rw [filter_cons_of_pos (by simpa using hlarge)]
      by_cases hfull : maxPunchAddrs ≤ out.length
      · have hskip : addPort out p = out := by simp [addPort, hfull]
        rw [hskip, ih hnodup.2 hpos.2 hnew.2 hlength, take_append_of_le_length hfull,
          take_append_of_le_length hfull]
      · have hadd : addPort out p = out ++ [p] := by
          simp [addPort, hpos.1, hnew.1, hfull, hlarge]
        rw [hadd, ih hnodup.2 hpos.2 ?_ (by simp; omega), append_assoc, singleton_append]
        intro q hq hin
        rcases mem_append.1 hin with hold | hsame
        · exact hnew.2 q hq hold
        · exact hnodup.1 (mem_singleton.1 hsame ▸ hq)

theorem all_kept_iff {early ports late : List Nat} (hports : ∀ p ∈ ports, 1 ≤ p ∧ p ≤ 65535) :
    (∀ p ∈ ports, p ∈ (early ++ ports ++ late).foldl addPort []) ↔
      ((early.foldl addPort []).toFinset ∪ ports.toFinset).card ≤ maxPunchAddrs := by
  rw [foldl_append, foldl_append]
  generalize hout : early.foldl addPort [] = out
  have hlist : PortList out := hout ▸ portList_nil.foldl early
  constructor
  · intro hkept
    have hall := (hlist.foldl ports).foldl late
    refine (Finset.card_le_card ?_).trans
      ((toFinset_card_of_nodup hall.nodup).trans_le hall.length)
    intro q hq
    rw [Finset.mem_union, mem_toFinset, mem_toFinset] at hq
    rw [mem_toFinset]
    rcases hq with hearly | hport
    · exact (isPrefix_foldl_addPort late).subset ((isPrefix_foldl_addPort ports).subset hearly)
    · exact hkept q hport
  · intro hroom p hp
    apply (isPrefix_foldl_addPort late).subset
    by_contra hnot
    have hfull := full_of_not_mem hp (hports p hp) hnot
    have hsub : insert p (ports.foldl addPort out).toFinset ⊆ out.toFinset ∪ ports.toFinset := by
      intro q hq
      simp only [Finset.mem_insert, mem_toFinset, Finset.mem_union] at hq ⊢
      rcases hq with rfl | hq
      · exact .inr hp
      · exact mem_of_mem_foldl_addPort hq
    have hcard := Finset.card_le_card hsub
    rw [Finset.card_insert_of_notMem (by simpa using hnot),
      toFinset_card_of_nodup (hlist.foldl ports).nodup] at hcard
    omega

/-! ## The step of the series -/

def distances (ports : Finset Nat) : Set Nat :=
  {d | ∃ p ∈ ports, ∃ q ∈ ports, p < q ∧ d = q - p}

section Step

variable {ports : List Nat}

section

variable (hsorted : ports.Pairwise (· < ·))
include hsorted

theorem exists_of_mem_gaps
    (hd : d ∈ zipWith (fun later earlier => later - earlier) ports.tail ports) :
    d ∈ distances ports.toFinset := by
  induction ports with
  | nil => simp at hd
  | cons a rest ih =>
    cases rest with
    | nil => simp at hd
    | cons b rest =>
      rw [pairwise_cons] at hsorted
      rcases mem_cons.1 hd with rfl | hlater
      · exact ⟨a, by simp, b, by simp, hsorted.1 b mem_cons_self, rfl⟩
      · obtain ⟨p, hp, q, hq, hlt, rfl⟩ := ih hsorted.2 hlater
        rw [mem_toFinset] at hp hq
        exact ⟨p, mem_toFinset.2 (mem_cons_of_mem a hp), q,
          mem_toFinset.2 (mem_cons_of_mem a hq), hlt, rfl⟩

theorem gap_le_of_lt (hp : p ∈ ports) (hq : q ∈ ports)
    (hlt : p < q) :
    ∃ d ∈ zipWith (fun later earlier => later - earlier) ports.tail ports, d ≤ q - p := by
  induction ports with
  | nil => cases hp
  | cons a rest ih =>
    rw [pairwise_cons] at hsorted
    rcases mem_cons.1 hq with rfl | hlater
    · rcases mem_cons.1 hp with rfl | hbehind
      · omega
      · exact absurd (hsorted.1 p hbehind) (by omega)
    cases rest with
    | nil => cases hlater
    | cons b rest =>
      rcases mem_cons.1 hp with rfl | hbehind
      · have hle : b ≤ q := by
          rcases mem_cons.1 hlater with rfl | hlast
          · exact le_rfl
          · exact ((pairwise_cons.1 hsorted.2).1 q hlast).le
        exact ⟨b - p, mem_cons_self, Nat.sub_le_sub_right hle p⟩
      · obtain ⟨d, hd, hle⟩ := ih hsorted.2 hbehind hlater
        exact ⟨d, mem_cons_of_mem _ hd, hle⟩

theorem portStep_isLeast (hp : p ∈ ports) (hq : q ∈ ports)
    (hlt : p < q) : IsLeast (distances ports.toFinset) (portStep ports) := by
  have hfilter : (zipWith (fun later earlier => later - earlier) ports.tail ports).filter
      (· ≠ 0) = zipWith (fun later earlier => later - earlier) ports.tail ports := by
    refine filter_eq_self.2 fun d hd => ?_
    obtain ⟨p, -, q, -, hpq, rfl⟩ := exists_of_mem_gaps hsorted hd
    simp
    omega
  unfold portStep
  rw [hfilter]
  obtain ⟨d, hd, -⟩ := gap_le_of_lt hsorted hp hq hlt
  have hmem := fun d => exists_of_mem_gaps hsorted (d := d)
  have hle := fun p q => gap_le_of_lt hsorted (p := p) (q := q)
  generalize zipWith (fun later earlier => later - earlier) ports.tail ports = gaps
    at hd hmem hle ⊢
  cases gaps with
  | nil => cases hd
  | cons gap rest =>
    obtain ⟨hin, hmin⟩ := min?_eq_some_iff.1
      (show (gap :: rest).min? = some (rest.foldl min gap) from rfl)
    refine ⟨hmem _ hin, ?_⟩
    rintro d ⟨p, hp, q, hq, hpq, rfl⟩
    rw [mem_toFinset] at hp hq
    obtain ⟨d, hd, hdle⟩ := hle p q hp hq hpq
    exact (hmin d hd).trans hdle

end

end Step

/-! ## The observed ports -/

section Observed

variable {obs : List Endpoint}

theorem normalizePunchAddrs_onAddress (hlength : obs.length ≤ maxPunchAddrs) (hnodup : obs.Nodup)
    (hobs : ∀ e ∈ obs, e.ip = ip ∧ 1 ≤ e.port ∧ e.port ≤ 65535) :
    normalizePunchAddrs (obs.map AddrPort.ofEndpoint) =
      ((obs.map Endpoint.port).insertionSort (· ≤ ·)).map (Endpoint.mk ip) := by
  have hport : ∀ e ∈ obs, e.port ≠ 0 := fun e he => Nat.one_le_iff_ne_zero.1 (hobs e he).2.1
  have horder : ∀ a ∈ obs, ∀ b ∈ obs, precedes a b = true ↔ a.port ≤ b.port := by
    intro a ha b hb
    simp [precedes, (hobs a ha).1, (hobs b hb).1]
  rw [normalizePunchAddrs, filterMap_ofEndpoint hport, hnodup.dedup,
    take_of_length_le (by rwa [length_insertionSort]),
    ← map_insertionSort _ (· ≤ ·) Endpoint.port obs horder, map_map]
  refine (map_id _).symm.trans (map_congr_left fun e he => ?_)
  rw [mem_insertionSort] at he
  obtain ⟨eip, port⟩ := e
  exact congrArg (Endpoint.mk · port) (hobs _ he).1

theorem sorted_ports (hnodup : obs.Nodup)
    (hobs : ∀ e ∈ obs, e.ip = ip ∧ 1 ≤ e.port ∧ e.port ≤ 65535) :
    ((obs.map Endpoint.port).insertionSort (· ≤ ·)).Pairwise (· < ·) := by
  have hinj : (obs.map Endpoint.port).Nodup := by
    refine hnodup.map_on fun a ha b hb heq => ?_
    obtain ⟨aip, aport⟩ := a
    obtain ⟨bip, bport⟩ := b
    exact congrArg₂ Endpoint.mk ((hobs _ ha).1.trans (hobs _ hb).1.symm) heq
  exact (sortedLE_insertionSort.sortedLT_of_nodup
    ((perm_insertionSort _ _).nodup_iff.2 hinj)).pairwise

end Observed

/-- The first ports that the two series try, from the least observed port to
some above the greatest one, and from there on. -/
def firstTries (least greatest step : Nat) : Finset Nat :=
  (((portRange least (greatest + 4) step ++
    portRange (greatest + 4 + step) (greatest + 4 + predictExtraPorts) step).filter
      (· ≤ 65535)).take maxPunchAddrs).toFinset

/-- The observed ports fit into the list behind the two series, which go by the
least distance of two observed ports.  A single port always fits. -/
def Room (ports : Finset Nat) : Prop :=
  ∀ least greatest step, IsLeast (ports : Set Nat) least → IsGreatest (ports : Set Nat) greatest →
    IsLeast (distances ports) step → (firstTries least greatest step ∪ ports).card ≤ maxPunchAddrs

theorem portRange_nodup (hstep : 0 < step) : (portRange first last step).Nodup := by
  unfold portRange
  split
  · exact nodup_range' step hstep
  · exact nodup_nil

theorem mem_portRange (h : p ∈ portRange first last step) : first ≤ p ∧ p ≤ last := by
  unfold portRange at h
  split at h
  next hle =>
    obtain ⟨i, hi, rfl⟩ := mem_range'.1 h
    have := Nat.mul_le_of_le_div _ _ _ (Nat.lt_succ_iff.1 hi)
    rw [Nat.mul_comm]
    omega
  · cases h

theorem foldl_series (hfirst : 1 ≤ first) (hstep : 0 < step) (extra : Nat) :
    (portRange first last step ++ portRange (last + step) extra step).foldl addPort [] =
      ((portRange first last step ++ portRange (last + step) extra step).filter
        (· ≤ 65535)).take maxPunchAddrs := by
  refine foldl_addPort_eq_take (nodup_append.2 ⟨portRange_nodup hstep, portRange_nodup hstep,
    fun p hp q hq => ?_⟩) (fun p hp => ?_) (fun _ _ => not_mem_nil) (Nat.zero_le _)
  · have := mem_portRange hp
    have := mem_portRange hq
    omega
  · rcases mem_append.1 hp with hp | hp
    · have := mem_portRange hp
      omega
    · have := mem_portRange hp
      omega

theorem head_mem_foldl (hrange : 1 ≤ first ∧ first ≤ 65535) (hle : first ≤ last) (more : List Nat) :
    first ∈ (portRange first last step ++ more).foldl addPort [] := by
  have hadd : addPort [] first = [first] := by
    simp [addPort, maxPunchAddrs]
    omega
  rw [portRange, if_pos hle, range'_succ, cons_append, foldl_cons, hadd]
  exact (isPrefix_foldl_addPort _).subset (mem_singleton_self first)

theorem observed_kept_iff {ports : List Nat} (hsorted : ports.Pairwise (· < ·)) (hne : ports ≠ [])
    (hports : ∀ p ∈ ports, 1 ≤ p ∧ p ≤ 65535) :
    (∀ p ∈ ports, p ∈ predictPorts ports (ports.head hne) (ports.getLast hne)) ↔
      Room ports.toFinset := by
  have hleast : IsLeast (ports.toFinset : Set Nat) (ports.head hne) :=
    ⟨by simp, fun q hq => (hsorted.imp le_of_lt).rel_head (by simpa using hq)⟩
  have hgreatest : IsGreatest (ports.toFinset : Set Nat) (ports.getLast hne) :=
    ⟨by simp, fun q hq => (hsorted.imp le_of_lt).rel_getLast (by simpa using hq)⟩
  have hhead := hports _ (head_mem hne)
  simp only [predictPorts, mem_insertionSort]
  rw [all_kept_iff hports]
  by_cases hsingle : ports.length = 1
  · obtain ⟨m, rfl⟩ := length_eq_one_iff.1 hsingle
    refine iff_of_true ?_ fun least greatest step _ _ hstep => ?_
    · -- the port is the first one of its series
      simp only [hsingle, if_true]
      have hmem : ∀ more, m ∈ (portRange m (m + predictPortWindow - 1) (portStep [m]) ++
          more).foldl addPort [] := head_mem_foldl hhead (by simp [predictPortWindow])
      rw [Finset.union_eq_left.2 (by simpa using hmem _)]
      exact (toFinset_card_le _).trans (portList_nil.foldl _).length
    · obtain ⟨p, hp, q, hq, hlt, -⟩ := hstep.1
      simp at hp hq
      omega
  · have hlt : ports.head hne < ports.getLast hne := by
      obtain ⟨m, rest, rfl⟩ := exists_cons_of_ne_nil hne
      cases rest with
      | nil => simp at hsingle
      | cons b rest => exact hsorted.rel_head_tail (by simp)
    have hstep := portStep_isLeast hsorted (head_mem hne) (getLast_mem hne) hlt
    have hpos : 0 < portStep ports := by
      obtain ⟨p, -, q, -, hpq, heq⟩ := hstep.1
      omega
    simp only [hsingle, if_false]
    rw [foldl_series hhead.1 hpos]
    constructor
    · intro h least greatest step hl hg hs
      rw [hl.unique hleast, hg.unique hgreatest, hs.unique hstep]
      exact h
    · intro h
      exact h _ _ _ hleast hgreatest hstep

/-! ## The advertised candidates -/

/-- Distinct endpoints on the address, in the order of their ports, with every
observed one among them. -/
structure Advertised (ip : BitVec 32) (obs candidates : List Endpoint) : Prop where
  onAddress : ∀ e ∈ candidates, e.ip = ip ∧ 1 ≤ e.port ∧ e.port ≤ 65535
  nodup : candidates.Nodup
  increasing : candidates.Pairwise fun a b => a.port < b.port
  length : candidates.length ≤ maxPunchAddrs
  observed : ∀ e ∈ obs, e ∈ candidates

theorem predict_eq (hne : ports ≠ [])
    (hnormal : normalizePunchAddrs addrs = ports.map (Endpoint.mk ip)) :
    predictSymmetricCandidates false addrs =
      (predictPorts ports (ports.head hne) (ports.getLast hne)).map (Endpoint.mk ip) := by
  obtain ⟨m, rest, rfl⟩ := exists_cons_of_ne_nil hne
  rw [map_cons] at hnormal
  have hports : (Endpoint.mk ip m :: rest.map (Endpoint.mk ip)).map Endpoint.port = m :: rest := by
    simp [Function.comp_def]
  have hlast : ((Endpoint.mk ip m :: rest.map (Endpoint.mk ip)).getLast?.map
      Endpoint.port).getD m = (m :: rest).getLast hne := by
    rw [← getLast?_map, hports, getLast?_eq_some_getLast hne, Option.getD_some]
  simp only [predictSymmetricCandidates, hnormal, hports, hlast]
  rw [if_neg (by simp)]
  rfl

/-- **What the prediction keeps.**  The candidates are always distinct endpoints
on the address with valid ports in increasing order, at most 32 of them.  They
contain every observed endpoint if and only if the observed ports fit. -/
theorem observations_advertised_iff (ip : BitVec 32) (obs : List Endpoint)
    (hlength : obs.length ≤ maxPunchAddrs) (hnodup : obs.Nodup)
    (hobs : ∀ e ∈ obs, e.ip = ip ∧ 1 ≤ e.port ∧ e.port ≤ 65535) :
    Advertised ip obs (predictSymmetricCandidates false (obs.map AddrPort.ofEndpoint)) ↔
      Room (obs.map Endpoint.port).toFinset := by
  have hnormal := normalizePunchAddrs_onAddress hlength hnodup hobs
  have hsorted := sorted_ports hnodup hobs
  have hmem : ∀ p, p ∈ (obs.map Endpoint.port).insertionSort (· ≤ ·) ↔
      p ∈ obs.map Endpoint.port := fun p => mem_insertionSort _
  generalize (obs.map Endpoint.port).insertionSort (· ≤ ·) = ports at hnormal hsorted hmem
  by_cases hne : ports = []
  · subst hne
    have hnil : obs = [] := by
      cases obs with
      | nil => rfl
      | cons e rest => exact absurd ((hmem e.port).2 (by simp)) not_mem_nil
    subst hnil
    refine iff_of_true ⟨nofun, nodup_nil, List.Pairwise.nil, Nat.zero_le _, nofun⟩ ?_
    rintro least greatest step ⟨hleast, -⟩
    simp at hleast
  have hlist := portList_predictPorts ports (ports.head hne) (ports.getLast hne)
  have hports : ∀ p ∈ ports, 1 ≤ p ∧ p ≤ 65535 := by
    intro p hp
    obtain ⟨e, he, rfl⟩ := mem_map.1 ((hmem p).1 hp)
    exact (hobs e he).2
  have hset : (obs.map Endpoint.port).toFinset = ports.toFinset := by
    ext p
    simp only [mem_toFinset, hmem]
  rw [predict_eq hne hnormal, hset, ← observed_kept_iff hsorted hne hports]
  have hinj : Function.Injective (Endpoint.mk ip) := fun p q h => congrArg Endpoint.port h
  constructor
  · intro h p hp
    obtain ⟨e, he, rfl⟩ := mem_map.1 ((hmem p).1 hp)
    obtain ⟨q, hq, rfl⟩ := mem_map.1 (h.observed e he)
    exact hq
  · intro hkept
    refine ⟨?_, hlist.nodup.map hinj, ?_, ?_, ?_⟩
    · intro e he
      obtain ⟨p, hp, rfl⟩ := mem_map.1 he
      exact ⟨rfl, hlist.range p hp⟩
    · rw [pairwise_map]
      exact (sortedLE_insertionSort.sortedLT_of_nodup hlist.nodup).pairwise
    · rw [length_map]
      exact hlist.length
    · intro e he
      obtain ⟨rfl, -⟩ := hobs e he
      exact mem_map.2 ⟨e.port, hkept _ ((hmem _).2 (mem_map_of_mem he)), rfl⟩

/-- Two ports at distance 2. -/
theorem observations_advertised_onOneAddress :
    Advertised 0x08080808 onOneAddress
      (predictSymmetricCandidates false (onOneAddress.map AddrPort.ofEndpoint)) := by
  refine (observations_advertised_iff 0x08080808 onOneAddress (by decide) (by decide)
    (by decide)).2 fun least greatest step hleast hgreatest hstep => ?_
  have hports : (onOneAddress.map Endpoint.port).toFinset = {4000, 4002} := by decide
  rw [hports] at hleast hgreatest hstep ⊢
  obtain rfl : least = 4000 := by
    have hle := hleast.2 (show 4000 ∈ (({4000, 4002} : Finset Nat) : Set Nat) by simp)
    have hmem : least = 4000 ∨ least = 4002 := by simpa using hleast.1
    omega
  obtain rfl : greatest = 4002 := by
    have hle := hgreatest.2 (show 4002 ∈ (({4000, 4002} : Finset Nat) : Set Nat) by simp)
    have hmem : greatest = 4000 ∨ greatest = 4002 := by simpa using hgreatest.1
    omega
  obtain ⟨p, hp, q, hq, hlt, rfl⟩ := hstep.1
  simp only [Finset.mem_insert, Finset.mem_singleton] at hp hq
  obtain rfl : p = 4000 := by omega
  obtain rfl : q = 4002 := by omega
  decide

def spreadPorts : List Endpoint :=
  [⟨0x08080808, 1000⟩, ⟨0x08080808, 1001⟩, ⟨0x08080808, 1040⟩]

/-- The series of the neighbours fills the list, and the third port is lost. -/
theorem observation_not_advertised :
    spreadPorts.length ≤ maxPunchAddrs ∧ spreadPorts.Nodup ∧
      (∀ e ∈ spreadPorts, e.ip = 0x08080808 ∧ 1 ≤ e.port ∧ e.port ≤ 65535) ∧
      ⟨0x08080808, 1040⟩ ∈ spreadPorts ∧
      ⟨0x08080808, 1040⟩ ∉
        predictSymmetricCandidates false (spreadPorts.map AddrPort.ofEndpoint) := by
  decide +kernel

end Hy2Link
