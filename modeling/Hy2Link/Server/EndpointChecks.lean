import Hy2Link.EndpointText
import Hy2Link.Server.PunchRequests
import Mathlib.Tactic.MkIffOfInductiveProp

/-! # What the address checks say about endpoints

The texts of public endpoints pass the check of a single address.  A list of
them passes the check of the candidates exactly when all are on one address.
-/

namespace Hy2Link.Server

open Text IP

@[mk_iff]
structure PublicUnicast (ip : BitVec 32) : Prop where
  specified : (ofIPv4 ip).isUnspecified = false
  notPrivate : (ofIPv4 ip).isPrivate = false
  notLoopback : (ofIPv4 ip).isLoopback = false
  notLinkLocal : (ofIPv4 ip).isLinkLocalUnicast = false
  notLinkLocalMulticast : (ofIPv4 ip).isLinkLocalMulticast = false
  notMulticast : (ofIPv4 ip).isMulticast = false

/-- An endpoint as a STUN server reports it to a client on the internet. -/
@[mk_iff]
structure PublicEndpoint (e : Endpoint) : Prop where
  ip : PublicUnicast e.ip
  port_pos : 1 ≤ e.port
  port_le : e.port ≤ 65535

instance : DecidablePred PublicUnicast := fun ip => decidable_of_iff' _ (publicUnicast_iff ip)

instance : DecidablePred PublicEndpoint := fun e => decidable_of_iff' _ (publicEndpoint_iff e)

variable {e : Endpoint} {es : List Endpoint}

theorem text_ne_nil (e : Endpoint) : e.text ≠ [] := by
  simp [Endpoint.text]

theorem validatePublicAddr_text (h : PublicEndpoint e) :
    validatePublicAddr (String.ofList e.text) = .ok () := by
  have hne : String.ofList e.text ≠ "" := by
    intro hempty
    have htext : e.text = [] := by simpa using congrArg String.toList hempty
    exact text_ne_nil e htext
  have hatoi : atoi (Nat.toDigits 10 e.port) = some (e.port : Int) :=
    atoi_toDigits (h.port_le.trans_lt (by decide))
  have hport : ¬ ((e.port : Int) < 1 || 65535 < (e.port : Int)) = true := by
    have hpos := h.port_pos
    have hle := h.port_le
    simp only [Bool.or_eq_true, decide_eq_true_eq]
    omega
  unfold validatePublicAddr
  rw [if_neg hne, String.toList_ofList, splitHostPort_text]
  simp only [parseIP_dotted, h.ip.specified, hatoi, if_neg hport, Bool.false_eq_true, if_false]

theorem validatePunchAddr_text (h : PublicEndpoint e) (allowEmpty : Bool) :
    validatePunchAddr e.text allowEmpty = .ok () := by
  have hopen : unreachableFromOutside (ofIPv4 e.ip) = false := by
    simp [unreachableFromOutside, h.ip.notPrivate, h.ip.notLoopback, h.ip.notLinkLocal,
      h.ip.notLinkLocalMulticast, h.ip.notMulticast]
  unfold validatePunchAddr
  simp only [trimSpace_text, if_neg (text_ne_nil e), validatePublicAddr_text h,
    splitHostPort_text, parseIP_dotted, hopen, Bool.false_eq_true, if_false]

theorem ofIPv4_injective : Function.Injective ofIPv4 := by
  intro a b h
  have hnat := congrArg BitVec.toNat h
  simp only [ofIPv4, BitVec.toNat_ofNat] at hnat
  have ha := a.isLt
  have hb := b.isLt
  apply BitVec.eq_of_toNat_eq
  omega

/-! ## Lists -/

def OnAddress (ip : BitVec 32) (es : List Endpoint) : Prop := ∀ e ∈ es, e.ip = ip

variable {seen : List (List Char)}

theorem onAddress_cons :
    OnAddress ip (e :: es) ↔ e.ip = ip ∧ OnAddress ip es := List.forall_mem_cons

theorem checkPunchAddrs_cons {index : Nat} (h : PublicEndpoint e) (hnew : e.text ∉ seen) :
    checkPunchAddrs index seen group ((e :: es).map Endpoint.text) =
      if group = none ∨ group = some (ofIPv4 e.ip) then
        checkPunchAddrs (index + 1) (e.text :: seen) (some (ofIPv4 e.ip))
          (es.map Endpoint.text)
      else .error (.mixed (group.getD 0) (ofIPv4 e.ip)) := by
  rw [List.map_cons, checkPunchAddrs]
  simp only [trimSpace_text, validatePunchAddr_text h, if_neg hnew, splitHostPort_text,
    parseIP_dotted]
  cases group with
  | none => simp
  | some shared =>
    by_cases hsame : ofIPv4 e.ip = shared
    · subst hsame
      simp
    · have hsame' : shared ≠ ofIPv4 e.ip := fun heq => hsame heq.symm
      simp [hsame, hsame']

theorem checkPunchAddrs_group {index : Nat} (hpublic : ∀ e ∈ es, PublicEndpoint e)
    (hnodup : es.Nodup) (hseen : ∀ e ∈ es, e.text ∉ seen) :
    checkPunchAddrs index seen (some (ofIPv4 ip)) (es.map Endpoint.text) = .ok group ↔
      OnAddress ip es ∧ group = some (ofIPv4 ip) := by
  induction es generalizing index seen with
  | nil => simp [checkPunchAddrs, OnAddress, eq_comm]
  | cons e es ih =>
    obtain ⟨hfresh, hnodup⟩ := List.nodup_cons.1 hnodup
    rw [checkPunchAddrs_cons (hpublic e List.mem_cons_self) (hseen e List.mem_cons_self),
      onAddress_cons]
    by_cases hip : e.ip = ip
    · subst hip
      rw [if_pos (.inr rfl), ih (fun e' he' => hpublic e' (List.mem_cons_of_mem _ he')) hnodup]
      · simp
      · intro e' he'
        rw [List.mem_cons, not_or]
        refine ⟨fun htext => ?_, hseen e' (List.mem_cons_of_mem _ he')⟩
        exact hfresh (Endpoint.text_injective htext ▸ he')
    · have hother : ¬ (some (ofIPv4 ip) = none ∨ some (ofIPv4 ip) = some (ofIPv4 e.ip)) := by
        simp only [reduceCtorEq, Option.some.injEq, false_or]
        exact fun heq => hip (ofIPv4_injective heq).symm
      rw [if_neg hother]
      simp [hip]

/-- The candidates are accepted with the anchor of the first one exactly when
they are all on its address. -/
theorem validatePunchAddrs_text (hpublic : ∀ e' ∈ e :: es, PublicEndpoint e')
    (hnodup : (e :: es).Nodup) (hlength : (e :: es).length ≤ maxPunchAddrs) :
    validatePunchAddrs ((e :: es).map Endpoint.text) (punchAddrIP e.text) = .ok () ↔
      OnAddress e.ip (e :: es) := by
  obtain ⟨hfresh, hnodup⟩ := List.nodup_cons.1 hnodup
  have hanchor : trimSpace (punchAddrIP e.text) = dotted e.ip := by
    simp only [punchAddrIP, trimSpace_text, splitHostPort_text, trimSpace_dotted]
  have hcheck : checkPunchAddrs 0 [] none ((e :: es).map Endpoint.text) =
      checkPunchAddrs 1 [e.text] (some (ofIPv4 e.ip)) (es.map Endpoint.text) := by
    rw [checkPunchAddrs_cons (hpublic e List.mem_cons_self) List.not_mem_nil, if_pos (.inl rfl)]
  have hgroup : ∀ group, checkPunchAddrs 1 [e.text] (some (ofIPv4 e.ip))
      (es.map Endpoint.text) = .ok group ↔ OnAddress e.ip es ∧ group = some (ofIPv4 e.ip) := by
    intro group
    refine checkPunchAddrs_group (fun e' he' => hpublic e' (List.mem_cons_of_mem _ he')) hnodup ?_
    intro e' he' hmem
    exact hfresh (Endpoint.text_injective (List.mem_singleton.1 hmem) ▸ he')
  have hshort : ¬ maxPunchAddrs < ((e :: es).map Endpoint.text).length := by
    rw [List.length_map]
    exact Nat.not_lt.2 hlength
  unfold validatePunchAddrs
  rw [if_neg (by simp), if_neg hshort, hcheck, onAddress_cons]
  cases hresult : checkPunchAddrs 1 [e.text] (some (ofIPv4 e.ip)) (es.map Endpoint.text) with
  | error err =>
    have hnot : ¬ OnAddress e.ip es := by
      intro hon
      have hok := (hgroup (some (ofIPv4 e.ip))).2 ⟨hon, rfl⟩
      simp [hresult] at hok
    simp [hnot]
  | ok group =>
    obtain ⟨hon, rfl⟩ := (hgroup group).1 hresult
    simp [hanchor, parseIP_dotted, hon]

end Hy2Link.Server
