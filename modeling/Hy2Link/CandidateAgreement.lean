import Hy2Link.AddressExchange
import Hy2Link.TextRules

/-! # What server and client accept as candidates

The server checks the address fields of a message with `net.SplitHostPort`,
`net.ParseIP` and `strconv.Atoi`; the client that gets them reads them with
`netip.ParseAddrPort`.  The two differ in the sign of a port and in brackets
around an IPv4 address, and they tell candidates apart by their texts and by
their endpoints.
-/

namespace Hy2Link

open Text Client Server AddrPort List

variable {s host port : List Char} {ip : IP} {p : Nat} {addrs : List (List Char)}

/-! ## What the server has read -/

structure Reads (s host port : List Char) (ip : IP) (p : Nat) : Prop where
  split : splitHostPort (trimSpace s) = .ok (host, port)
  parsed : parseIP host = some ip
  number : atoi port = some (p : Int)
  pos : 1 ≤ p
  le : p ≤ 65535

theorem reads_of_validatePunchAddr (h : validatePunchAddr s false = .ok ()) :
    ∃ host port ip p, Reads s host port ip p := by
  unfold validatePunchAddr at h
  dsimp only at h
  split at h
  · cases h
  split at h
  · cases h
  next hpublic =>
    unfold validatePublicAddr at hpublic
    rw [String.toList_ofList] at hpublic
    split at hpublic
    · cases hpublic
    split at hpublic
    · cases hpublic
    next host port hsplit =>
      split at hpublic
      · cases hpublic
      next ip hip =>
        split at hpublic
        · cases hpublic
        split at hpublic
        · cases hpublic
        next n hn =>
          split at hpublic
          · cases hpublic
          next hrange =>
            simp only [Bool.or_eq_true, decide_eq_true_eq, not_or, not_lt] at hrange
            obtain ⟨p, rfl⟩ := Int.eq_ofNat_of_zero_le (by omega : 0 ≤ n)
            exact ⟨host, port, ip, p, hsplit, hip, hn, by omega, by omega⟩

theorem reads_of_checkPunchAddrs {index : Nat}
    (h : checkPunchAddrs index seen group addrs = .ok g) :
    (∀ shared, group = some shared → g = some shared) ∧
      ∀ a ∈ addrs, ∃ host port ip p, Reads a host port ip p ∧ g = some ip := by
  induction addrs generalizing index seen group with
  | nil =>
    cases h
    exact ⟨fun _ h => h, by simp⟩
  | cons raw rest ih =>
    rw [checkPunchAddrs] at h
    split at h
    · cases h
    next hvalid =>
      obtain ⟨host, port, ip, p, hread⟩ := reads_of_validatePunchAddr hvalid
      have hsplit := hread.split
      rw [trimSpace_idem] at hsplit
      split at h
      · cases h
      rw [hsplit] at h
      dsimp only at h
      rw [hread.parsed] at h
      dsimp only at h
      -- the address of this candidate is the group's from here on
      have hgroup : g = some ip ∧ (∀ shared, group = some shared → ip = shared) ∧
          ∀ a ∈ rest, ∃ host port ip p, Reads a host port ip p ∧ g = some ip := by
        split at h
        · exact ⟨(ih h).1 ip rfl, by simp, (ih h).2⟩
        · split at h
          next hsame =>
            subst hsame
            exact ⟨(ih h).1 ip rfl, fun _ h => Option.some.inj h, (ih h).2⟩
          · cases h
      obtain ⟨hg, hshared, hrest⟩ := hgroup
      refine ⟨fun shared hs => by rw [hg, hshared shared hs], ?_⟩
      rw [forall_mem_cons]
      exact ⟨⟨host, port, ip, p, ⟨hsplit, hread.parsed, hread.number, hread.pos, hread.le⟩, hg⟩,
        hrest⟩

theorem Reads.punchAddrIP (h : Reads s host port ip p) : punchAddrIP s = host := by
  simp only [Server.punchAddrIP, h.split]

/-- All candidates are on the address of `punchAddr`. -/
theorem reads_of_validatePunchAddrs (hread : Reads s host port ip p) (hne : addrs ≠ [])
    (h : validatePunchAddrs addrs (punchAddrIP s) = .ok ()) :
    addrs.length ≤ Client.maxPunchAddrs ∧
      ∀ a ∈ addrs, ∃ host port p, Reads a host port ip p := by
  rw [hread.punchAddrIP, validatePunchAddrs, if_neg hne] at h
  split at h
  · cases h
  next hlength =>
    refine ⟨not_lt.1 hlength, ?_⟩
    split at h
    · cases h
    next g hcheck =>
      rw [trimSpace_of_parseIP hread.parsed] at h
      dsimp only at h
      rw [hread.parsed] at h
      have hhost : host ≠ [] := by
        rintro rfl
        cases hread.parsed
      have hg : g = some ip := by
        by_contra hg
        simp [hhost, hg] at h
      intro a ha
      obtain ⟨host, port, ip', p, hread', hg'⟩ := (reads_of_checkPunchAddrs hcheck).2 a ha
      obtain rfl := Option.some.inj (hg.symm.trans hg')
      exact ⟨host, port, p, hread'⟩

/-! ## What the client reads -/

theorem index_eq_some (h : index c s = some i) : s.take (i + 1) = s.take i ++ [c] := by
  obtain ⟨hi, hc, -⟩ := findIdx?_eq_some_iff_getElem.1 h
  rw [take_succ_eq_append_getElem hi]
  simp only [decide_eq_true_eq] at hc
  rw [hc]

theorem splitAddrPort_of_split (h : splitHostPort s = .ok (host, port)) (hhost : host ≠ [])
    (hport : port ≠ []) :
    splitAddrPort s = some (host, port, decide (s.head? = some '[')) ∧
      (s.head? ≠ some '[' → ':' ∉ host) := by
  unfold splitHostPort at h
  split at h
  · cases h
  next i hi =>
    rw [splitAddrPort, hi]
    dsimp only at h ⊢
    split at h
    next hopen =>
      split at h
      · cases h
      next last hlast =>
        split at h
        · cases h
        split at h
        · split at h <;> cases h
        next hi' =>
          split at h
          · cases h
          split at h
          · cases h
          cases h
          obtain rfl : last + 1 = i := not_not.1 hi'
          obtain ⟨rest, rfl⟩ : ∃ rest, s = '[' :: rest := by
            cases s with
            | nil => cases hopen
            | cons c rest => exact ⟨rest, congrArg (· :: rest) (Option.some.inj hopen)⟩
          rw [index_eq_some hlast]
          cases last with
          | zero => exact absurd rfl hhost
          | succ last =>
            have hclose : ('[' :: (rest.take last ++ [']'])).getLast? = some ']' := by
              rw [← cons_append, getLast?_concat]
            have hsome : last + 2 < rest.length := by simpa using hport
            simp [take_succ_cons, hclose, hsome]
    next hopen =>
      split at h
      · cases h
      next hcolon =>
        split at h
        · cases h
        split at h
        · cases h
        cases h
        have hhead : (s.take i).head? ≠ some '[' := by
          intro hhead
          cases i with
          | zero => exact hhost rfl
          | succ i => exact hopen (by rwa [head?_take, if_neg (Nat.succ_ne_zero i)] at hhead)
        simp [hhost, hport, hhead, hopen, hcolon]

theorem parseAddr_of_parseIP (h : parseIP host = some ip) :
    (∃ v, parseAddr host = some (.v4 v) ∧ ip.to4 = some v ∧ ':' ∉ host) ∨
      parseAddr host = some (.v6 ip) ∧ ':' ∈ host := by
  have hzone : index '%' host = none := by
    rw [index, findIdx?_eq_none_iff]
    intro c hc
    simp only [decide_eq_false_iff_not]
    rintro rfl
    exact absurd (chars_of_parseIP h hc) (by unfold AddrChar; decide)
  unfold parseIP at h
  split at h
  next hfind =>
    obtain ⟨v, hv, rfl⟩ := Option.map_eq_some_iff.1 h
    refine .inl ⟨v, by rw [parseAddr, hfind, hv]; rfl, to4_ofIPv4 v, fun hcolon => ?_⟩
    exact absurd (chars_of_parseIPv4 hv hcolon) (by decide)
  next hfind =>
    refine .inr ⟨?_, mem_of_find?_eq_some hfind⟩
    rw [parseAddr, hfind, hzone, h]
    rfl
  · cases h

theorem parseUint16_of_atoi (h : atoi port = some (p : Int)) (hpos : 1 ≤ p) (hle : p ≤ 65535) :
    parseUint16 port = if port.head? = some '+' then none else some p := by
  unfold atoi at h
  split at h
  next rest =>
    obtain ⟨m, -, hm⟩ := Option.bind_eq_some_iff.1 h
    rw [Option.ite_none_right_eq_some, Option.some.injEq] at hm
    omega
  next rest =>
    have hnone : decimal ('+' :: rest) = none := by
      cases hd : decimal ('+' :: rest) with
      | none => rfl
      | some n => exact absurd (isDigit_of_decimal hd mem_cons_self) (by decide)
    simp [parseUint16, hnone]
  next hminus hplus =>
    obtain ⟨m, hm, hp⟩ := Option.bind_eq_some_iff.1 h
    rw [Option.ite_none_right_eq_some, Option.some.injEq] at hp
    have hhead : port.head? ≠ some '+' := by
      cases port with
      | nil => nofun
      | cons c rest =>
        rintro heq
        exact hplus rest (congrArg (· :: rest) (Option.some.inj heq))
    obtain rfl : m = p := by omega
    simp [parseUint16, hm, hhead, hle]

/-- The notation that both sides know: no sign before the port, and brackets
around IPv6 addresses only. -/
def Notated (s : List Char) : Prop :=
  match splitHostPort (trimSpace s) with
  | .error _ => False
  | .ok (host, port) =>
    port.head? ≠ some '+' ∧ ((trimSpace s).head? = some '[' → ':' ∈ host)

instance : DecidablePred Notated := fun s =>
  match h : splitHostPort (trimSpace s) with
  | .error _ => isFalse (by simp [Notated, h])
  | .ok (host, port) =>
    decidable_of_iff (port.head? ≠ some '+' ∧ ((trimSpace s).head? = some '[' → ':' ∈ host))
      (by simp [Notated, h])

theorem Reads.parsePunchAddr (h : Reads s host port ip p) :
    (Notated s → ∃ addr, parsePunchAddr s = some ⟨addr, p⟩ ∧ addr.is4 = ip.to4) ∧
      (¬ Notated s → parsePunchAddr s = none) := by
  have hhost : host ≠ [] := by
    rintro rfl
    cases h.parsed
  have hport : port ≠ [] := by
    rintro rfl
    cases h.number
  have hsome : trimSpace s ≠ [] := by
    intro hnil
    have hsplit := h.split
    rw [hnil] at hsplit
    cases hsplit
  obtain ⟨hsplit, hplain⟩ := splitAddrPort_of_split h.split hhost hport
  rw [Client.parsePunchAddr, if_neg hsome, parseAddrPort, hsplit, Notated, h.split]
  dsimp only
  rw [parseUint16_of_atoi h.number h.pos h.le]
  by_cases hsign : port.head? = some '+'
  · simp [hsign]
  · by_cases hopen : (trimSpace s).head? = some '['
    · rcases parseAddr_of_parseIP h.parsed with ⟨v, haddr, hv, hcolon⟩ | ⟨haddr, hcolon⟩
      · simp [hsign, hopen, haddr, hcolon]
      · simp [hsign, hopen, haddr, hcolon, Addr.is4]
    · rcases parseAddr_of_parseIP h.parsed with ⟨v, haddr, hv, hcolon⟩ | ⟨haddr, hcolon⟩
      · simp [hsign, hopen, haddr, Addr.is4, hv]
      · exact absurd hcolon (hplain hopen)

/-! ## The list -/

def candidate (s : List Char) : Option Endpoint := (parsePunchAddr s).bind endpoint

theorem endpoint_unmap (addr : Addr) (p : Nat) :
    (mk addr.unmap p).endpoint = (mk addr p).endpoint := by
  have his4 : addr.unmap.is4 = addr.is4 := by
    cases addr with
    | zero | v4 => rfl
    | v6 ip =>
      unfold Addr.unmap
      cases h : ip.to4 <;> simp [Addr.is4, h]
  rw [endpoint, endpoint, his4]

theorem mem_keepPunchAddrs :
    e ∈ (keepPunchAddrs out addrs).filterMap endpoint ↔
      e ∈ out.filterMap endpoint ∨ e ∈ addrs.filterMap candidate := by
  induction addrs generalizing out with
  | nil => simp [keepPunchAddrs]
  | cons s rest ih =>
    rw [keepPunchAddrs]
    cases hs : parsePunchAddr s with
    | none =>
      have hnone : candidate s = none := by rw [candidate, hs]; rfl
      rw [filterMap_cons_none hnone]
      exact ih
    | some ap =>
      have hcandidate : candidate s = (mk ap.addr.unmap ap.port).endpoint := by
        rw [endpoint_unmap, candidate, hs]
        rfl
      dsimp only
      split
      next hskip =>
        have hnone : candidate s = none := by
          rw [candidate, hs, Option.bind_some, endpoint]
          simp only [Bool.or_eq_true, decide_eq_true_eq] at hskip
          rcases hskip with hzero | hport
          · simp [hzero, Addr.is4]
          · rw [if_pos hport]
        rw [filterMap_cons_none hnone]
        exact ih
      · have hcons : e ∈ (s :: rest).filterMap candidate ↔
            (mk ap.addr.unmap ap.port).endpoint = some e ∨
              e ∈ rest.filterMap candidate := by
          simp [← hcandidate]
        rw [hcons]
        split
        next hdup =>
          have hout (hap : (mk ap.addr.unmap ap.port).endpoint = some e) :
              e ∈ out.filterMap endpoint := mem_filterMap.2 ⟨_, hdup, hap⟩
          rw [ih, ← or_assoc, or_iff_left_of_imp hout]
        · rw [ih, filterMap_append, mem_append, or_assoc]
          simp

theorem length_parsePunchAddrs :
    (parsePunchAddrs addrs).length =
      min Client.maxPunchAddrs (addrs.filterMap candidate).dedup.length := by
  have hset : ((keepPunchAddrs [] addrs).filterMap endpoint).toFinset =
      (addrs.filterMap candidate).toFinset := by
    ext e
    simp only [mem_toFinset, mem_keepPunchAddrs, filterMap_nil, not_mem_nil, false_or]
  rw [parsePunchAddrs, normalizePunchAddrs, length_take, length_insertionSort,
    ← card_toFinset, hset, card_toFinset]

/-- No text is lost exactly if each gives an endpoint of its own. -/
theorem length_parsePunchAddrs_eq_iff (hlength : addrs.length ≤ Client.maxPunchAddrs) :
    (parsePunchAddrs addrs).length = addrs.length ↔
      (∀ a ∈ addrs, (candidate a).isSome) ∧ (addrs.filterMap candidate).Nodup := by
  have hdedup := (dedup_sublist (addrs.filterMap candidate)).length_le
  have hmap := length_filterMap_le candidate addrs
  rw [length_parsePunchAddrs, ← filterMap_length_eq_length]
  constructor
  · intro h
    have hall : (addrs.filterMap candidate).dedup.length = (addrs.filterMap candidate).length := by
      omega
    exact ⟨by omega, dedup_eq_self.1 ((dedup_sublist _).eq_of_length hall)⟩
  · rintro ⟨hall, hnodup⟩
    rw [hnodup.dedup, hall]
    omega

def portOf (s : List Char) : Option Int :=
  match splitHostPort (trimSpace s) with
  | .error _ => none
  | .ok (_, port) => atoi port

theorem Reads.candidate (h : Reads s host port ip p) :
    (Notated s → candidate s = ip.to4.map fun v => ⟨v, p⟩) ∧
      (¬ Notated s → candidate s = none) := by
  obtain ⟨hyes, hno⟩ := h.parsePunchAddr
  constructor
  · intro hnotated
    obtain ⟨addr, hparse, his4⟩ := hyes hnotated
    rw [Hy2Link.candidate, hparse, Option.bind_some, endpoint,
      if_neg (Nat.one_le_iff_ne_zero.1 h.pos), his4]
  · intro hnot
    rw [Hy2Link.candidate, hno hnot]
    rfl

theorem Reads.portOf (h : Reads s host port ip p) : portOf s = some (p : Int) := by
  rw [Hy2Link.portOf, h.split]
  exact h.number

/-- The receiver accepts `punchAddr`, and the candidates it gets are as many as
were sent and on this address. -/
def Agreed (punchAddr : List Char) (addrs : List (List Char)) : Prop :=
  ∃ ap, parsePunchAddr punchAddr = some ap ∧ (parsePunchAddrs addrs).length = addrs.length ∧
    (parsePunchAddrs addrs).Nodup ∧ ∀ e ∈ parsePunchAddrs addrs, ap.addr.is4 = some e.ip

theorem nodup_candidates
    (h : ∀ a ∈ addrs, ∃ p : Nat, candidate a = some ⟨v, p⟩ ∧ portOf a = some (p : Int)) :
    (addrs.filterMap candidate).Nodup ↔ (addrs.map portOf).Nodup := by
  rw [List.Nodup, pairwise_filterMap, List.Nodup, pairwise_map]
  apply List.Pairwise.iff_of_mem
  intro a b ha hb
  obtain ⟨p, hp, hp'⟩ := h a ha
  obtain ⟨q, hq, hq'⟩ := h b hb
  simp [hp, hp', hq, hq']

/-- **Server and client read the same candidates, in the common notation.**  What
the server accepts reaches the receiver exactly if all texts are in the notation
that both know, the address is IPv4 and the ports are different numbers. -/
theorem candidates_agree_iff (punchAddr : List Char) (addrs : List (List Char))
    (haddr : validatePunchAddr punchAddr false = .ok ()) (hne : addrs ≠ [])
    (hlist : validatePunchAddrs addrs (punchAddrIP punchAddr) = .ok ()) :
    Agreed punchAddr addrs ↔
      Notated punchAddr ∧ (∀ a ∈ addrs, Notated a) ∧
        (parseTo4 (punchAddrIP punchAddr)).isSome ∧ (addrs.map portOf).Nodup := by
  obtain ⟨host, port, ip, p, hread⟩ := reads_of_validatePunchAddr haddr
  obtain ⟨hlength, hall⟩ := reads_of_validatePunchAddrs hread hne hlist
  obtain ⟨hyes, hno⟩ := hread.parsePunchAddr
  rw [hread.punchAddrIP, parseTo4, hread.parsed, Option.bind_some, Agreed,
    length_parsePunchAddrs_eq_iff hlength]
  have hendpoint {v : BitVec 32} (hv : ip.to4 = some v) (hnotated : ∀ a ∈ addrs, Notated a) :
      ∀ a ∈ addrs, ∃ p : Nat, candidate a = some ⟨v, p⟩ ∧ portOf a = some (p : Int) := by
    intro a ha
    obtain ⟨_, _, q, hq⟩ := hall a ha
    exact ⟨q, by rw [hq.candidate.1 (hnotated a ha), hv]; rfl, hq.portOf⟩
  constructor
  · rintro ⟨ap, hap, ⟨hsome, hnodup⟩, -, -⟩
    have hfirst : Notated punchAddr := by
      by_contra hnot
      simp [hno hnot] at hap
    have hnotated : ∀ a ∈ addrs, Notated a := by
      intro a ha
      by_contra hnot
      obtain ⟨_, _, q, hq⟩ := hall a ha
      have := hsome a ha
      rw [hq.candidate.2 hnot] at this
      cases this
    obtain ⟨a, ha⟩ := exists_mem_of_ne_nil addrs hne
    obtain ⟨_, _, q, hq⟩ := hall a ha
    have hv : ip.to4.isSome := by
      have := hsome a ha
      rwa [hq.candidate.1 (hnotated a ha), Option.isSome_map] at this
    obtain ⟨v, hv'⟩ := Option.isSome_iff_exists.1 hv
    exact ⟨hfirst, hnotated, hv, (nodup_candidates (hendpoint hv' hnotated)).1 hnodup⟩
  · rintro ⟨hfirst, hnotated, hv, hports⟩
    obtain ⟨v, hv⟩ := Option.isSome_iff_exists.1 hv
    obtain ⟨addr, hap, his4⟩ := hyes hfirst
    have hall' := hendpoint hv hnotated
    refine ⟨_, hap, ⟨fun a ha => ?_, (nodup_candidates hall').2 hports⟩,
      normalizePunchAddrs_nodup, fun e he => ?_⟩
    · obtain ⟨q, hq, -⟩ := hall' a ha
      rw [hq]
      rfl
    · have hmem := mem_keepPunchAddrs.1 (mem_of_mem_normalizePunchAddrs he)
      simp only [filterMap_nil, not_mem_nil, false_or, mem_filterMap] at hmem
      obtain ⟨a, ha, hcandidate⟩ := hmem
      obtain ⟨q, hq, -⟩ := hall' a ha
      obtain rfl := Option.some.inj (hq.symm.trans hcandidate)
      exact his4.trans hv

theorem candidates_agree_twoPorts :
    Agreed "8.8.8.8:80".toList ["8.8.8.8:80".toList, "[::ffff:8.8.8.8]:81".toList] :=
  (candidates_agree_iff _ _ (by decide +kernel) (by decide) (by decide +kernel)).2
    (by decide +kernel)

/-- Two texts of one port: the server takes them for two candidates, and the
client gets one. -/
theorem candidates_merged :
    validatePunchAddr "8.8.8.8:80".toList false = .ok () ∧
      validatePunchAddrs ["8.8.8.8:80".toList, "8.8.8.8:080".toList]
        (punchAddrIP "8.8.8.8:80".toList) = .ok () ∧
      parsePunchAddrs ["8.8.8.8:80".toList, "8.8.8.8:080".toList] = [⟨0x08080808, 80⟩] := by
  decide +kernel

end Hy2Link
