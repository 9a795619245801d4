import Hy2Link.Client.PunchAddresses
import Hy2Link.Server.EndpointChecks
import Hy2Link.Server.PunchHandlers

/-! # Addresses from the client through the server

The client builds the address fields of a punch message from what STUN has
told it, and the server checks them.  The client keeps endpoints of several
addresses, which the server rejects, and prints the zero value where the server
expects an empty text.
-/

namespace Hy2Link

open Text Client AddrPort List

def OneAddress (es : List Endpoint) : Prop := ∀ e ∈ es, ∀ e' ∈ es, e.ip = e'.ip

instance (es : List Endpoint) : Decidable (OneAddress es) :=
  inferInstanceAs (Decidable (∀ e ∈ es, ∀ e' ∈ es, e.ip = e'.ip))

theorem oneAddress_cons : OneAddress (e :: es) ↔ Server.OnAddress e.ip (e :: es) := by
  constructor
  · intro h e' he'
    exact h e' he' e mem_cons_self
  · intro h e₁ h₁ e₂ h₂
    rw [h e₁ h₁, h e₂ h₂]

theorem OneAddress.congr (h : ∀ e, e ∈ es ↔ e ∈ es') : OneAddress es ↔ OneAddress es' := by
  simp only [OneAddress, h]

/-! ## Normalised lists -/

section Normalize

variable {obs : List Endpoint}

theorem endpoint_ofEndpoint (hport : e.port ≠ 0) : (ofEndpoint e).endpoint = some e := by
  simp [endpoint, ofEndpoint, Addr.is4, hport]

theorem normalizePunchAddrs_nodup : (normalizePunchAddrs addrs).Nodup := by
  apply List.Nodup.sublist (take_sublist _ _)
  exact (perm_insertionSort _ _).nodup_iff.2 (nodup_dedup _)

theorem normalizePunchAddrs_length : (normalizePunchAddrs addrs).length ≤ maxPunchAddrs := by
  rw [normalizePunchAddrs, length_take]
  exact Nat.min_le_left _ _

theorem mem_of_mem_normalizePunchAddrs (h : e ∈ normalizePunchAddrs addrs) :
    e ∈ addrs.filterMap endpoint := by
  have hsorted := mem_of_mem_take h
  rwa [(perm_insertionSort _ _).mem_iff, mem_dedup] at hsorted

theorem mem_normalizePunchAddrs
    (hlength : (addrs.filterMap endpoint).length ≤ maxPunchAddrs) :
    e ∈ normalizePunchAddrs addrs ↔ e ∈ addrs.filterMap endpoint := by
  have hwhole : normalizePunchAddrs addrs =
      ((addrs.filterMap endpoint).dedup).insertionSort
        fun a b => precedes a b = true := by
    apply take_of_length_le
    rw [length_insertionSort]
    exact (List.Sublist.length_le (dedup_sublist _)).trans hlength
  rw [hwhole, (perm_insertionSort _ _).mem_iff, mem_dedup]

theorem filterMap_ofEndpoint (hport : ∀ e ∈ obs, e.port ≠ 0) :
    (obs.map ofEndpoint).filterMap endpoint = obs := by
  induction obs with
  | nil => rfl
  | cons e rest ih =>
    rw [map_cons,
      filterMap_cons_some (endpoint_ofEndpoint (hport e mem_cons_self)),
      ih fun e' he' => hport e' (mem_cons_of_mem _ he')]

theorem normalizePunchAddrs_eq_nil (hport : ∀ e ∈ obs, e.port ≠ 0) :
    normalizePunchAddrs (obs.map ofEndpoint) = [] ↔ obs = [] := by
  rw [normalizePunchAddrs, take_eq_nil_iff, filterMap_ofEndpoint hport,
    ← length_eq_zero_iff, length_insertionSort, length_eq_zero_iff,
    dedup_eq_nil]
  simp [maxPunchAddrs]

end Normalize

/-! ## Predicted ports -/

/-- What the closure `add` keeps true of its list. -/
structure PortList (out : List Nat) : Prop where
  nodup : out.Nodup
  length : out.length ≤ maxPunchAddrs
  range : ∀ p ∈ out, 1 ≤ p ∧ p ≤ 65535

theorem portList_nil : PortList [] := ⟨nodup_nil, Nat.zero_le _, nofun⟩

theorem PortList.addPort (h : PortList out) (port : Nat) : PortList (addPort out port) := by
  unfold Client.addPort
  split
  · exact h
  next hadd =>
    simp only [Bool.or_eq_true, decide_eq_true_eq, not_or] at hadd
    obtain ⟨⟨⟨hzero, hlarge⟩, hfull⟩, hnew⟩ := hadd
    refine ⟨nodup_append.2 ⟨h.nodup, nodup_singleton _, ?_⟩, ?_, ?_⟩
    · intro p hp q hq heq
      rw [heq, mem_singleton.1 hq] at hp
      exact hnew hp
    · rw [length_append, length_singleton]
      omega
    · intro p hp
      rcases mem_append.1 hp with hp | hp
      · exact h.range p hp
      · rw [mem_singleton.1 hp]
        omega

theorem PortList.foldl (h : PortList out) (tries : List Nat) :
    PortList (tries.foldl Client.addPort out) := by
  induction tries generalizing out with
  | nil => exact h
  | cons p rest ih => exact ih (h.addPort p)

theorem PortList.perm (h : PortList out) (hperm : out.Perm out') : PortList out' :=
  ⟨hperm.nodup_iff.1 h.nodup, hperm.length_eq ▸ h.length,
    fun p hp => h.range p (hperm.mem_iff.2 hp)⟩

theorem portList_predictPorts (ports : List Nat) (minPort maxPort : Nat) :
    PortList (predictPorts ports minPort maxPort) := by
  unfold predictPorts
  exact (portList_nil.foldl _).perm (perm_insertionSort _ _).symm

/-! ## Candidates -/

/-- What the server asks of a list of candidates, the shared address apart. -/
structure Candidates (es : List Endpoint) : Prop where
  nodup : es.Nodup
  length : es.length ≤ maxPunchAddrs
  valid : ∀ e ∈ es, Server.PublicEndpoint e

/-- The list stands for the observed endpoints: there are candidates if there
are observed ones, and the same number of addresses, one or several. -/
structure StandsFor (es observed : List Endpoint) : Prop where
  candidates : Candidates es
  nonempty : observed ≠ [] → es ≠ []
  oneAddress : OneAddress es ↔ OneAddress observed

theorem StandsFor.refl (h : Candidates es) : StandsFor es es :=
  ⟨h, id, Iff.rfl⟩

theorem candidates_normalize
    (hvalid : ∀ e ∈ addrs.filterMap endpoint, Server.PublicEndpoint e) :
    Candidates (normalizePunchAddrs addrs) :=
  ⟨normalizePunchAddrs_nodup, normalizePunchAddrs_length,
    fun e he => hvalid e (mem_of_mem_normalizePunchAddrs he)⟩

open Server

theorem standsFor_predict (noPredict : Bool)
    (hvalid : ∀ e ∈ addrs.filterMap endpoint, Server.PublicEndpoint e)
    (hne : predictSymmetricCandidates noPredict addrs ≠ []) :
    StandsFor (predictSymmetricCandidates noPredict addrs) (normalizePunchAddrs addrs) := by
  have hobserved := candidates_normalize hvalid
  unfold predictSymmetricCandidates at hne ⊢
  split
  next hnil =>
    rw [hnil] at hne
    exact absurd rfl hne
  next first rest hnormal =>
    rw [hnormal] at hne hobserved ⊢
    dsimp only at hne ⊢
    split
    · exact .refl hobserved
    next hpredict =>
      simp only [Bool.or_eq_true, any_eq_true, decide_eq_true_eq, not_or, not_exists,
        not_and, not_not] at hpredict
      rw [if_neg (by simpa using hpredict)] at hne
      have hports := portList_predictPorts ((first :: rest).map Endpoint.port) first.port
        (((first :: rest).getLast?.map Endpoint.port).getD first.port)
      have hinj : Function.Injective fun p => Endpoint.mk first.ip p := by
        intro p q h
        exact congrArg Endpoint.port h
      refine ⟨⟨hports.nodup.map hinj, ?_, ?_⟩, fun _ => hne, iff_of_true ?_ ?_⟩
      · rw [length_map]
        exact hports.length
      · intro e he
        obtain ⟨p, hp, rfl⟩ := mem_map.1 he
        exact ⟨(hobserved.valid first mem_cons_self).ip, (hports.range p hp).1,
          (hports.range p hp).2⟩
      · intro e he e' he'
        obtain ⟨p, -, rfl⟩ := mem_map.1 he
        obtain ⟨p', -, rfl⟩ := mem_map.1 he'
        rfl
      · rw [oneAddress_cons, onAddress_cons]
        exact ⟨rfl, hpredict.2⟩

theorem standsFor_candidates (noPredict : Bool) (natType : String)
    (hvalid : ∀ e ∈ addrs.filterMap endpoint, Server.PublicEndpoint e) :
    StandsFor (candidatesForNATType noPredict natType addrs) (normalizePunchAddrs addrs) := by
  unfold candidatesForNATType
  split
  · exact .refl (candidates_normalize hvalid)
  · split
    · exact .refl (candidates_normalize hvalid)
    next hne => exact standsFor_predict noPredict hvalid hne

/-! ## The fields of both messages -/

section Fields

variable {obs : List Endpoint} (off : Prediction) (natType : String)

theorem standsFor_responder (hobs : obs ≠ []) (hvalid : ∀ e ∈ obs, Server.PublicEndpoint e) :
    StandsFor (responderCandidates off natType (obs.map ofEndpoint))
      (normalizePunchAddrs (obs.map ofEndpoint)) := by
  have hport : ∀ e ∈ obs, e.port ≠ 0 := fun e he => Nat.one_le_iff_ne_zero.1 (hvalid e he).port_pos
  have hvalid' : ∀ e ∈ (obs.map ofEndpoint).filterMap endpoint, Server.PublicEndpoint e := by
    rwa [filterMap_ofEndpoint hport]
  unfold responderCandidates
  rw [if_neg (by simpa using hobs)]
  split
  · exact .refl (candidates_normalize hvalid')
  · exact standsFor_candidates off.envOff natType hvalid'

theorem standsFor_initiator (hvalid : ∀ e ∈ obs, Server.PublicEndpoint e) :
    StandsFor (initiatorCandidates off natType (obs.map ofEndpoint))
      (normalizePunchAddrs (obs.map ofEndpoint)) := by
  have hport : ∀ e ∈ obs, e.port ≠ 0 := fun e he => Nat.one_le_iff_ne_zero.1 (hvalid e he).port_pos
  have hobserved : Candidates (normalizePunchAddrs (obs.map ofEndpoint)) := by
    apply candidates_normalize
    rwa [filterMap_ofEndpoint hport]
  unfold initiatorCandidates
  generalize normalizePunchAddrs (obs.map ofEndpoint) = observed at hobserved
  have hport' : ∀ e ∈ observed, e.port ≠ 0 :=
    fun e he => Nat.one_le_iff_ne_zero.1 (hobserved.valid e he).port_pos
  have hentries : (observed.map ofEndpoint).filterMap endpoint = observed :=
    filterMap_ofEndpoint hport'
  dsimp only
  split
  · rw [ite_self]
    exact .refl hobserved
  split
  · exact .refl hobserved
  · -- the second normalisation neither drops nor adds
    have hmem : ∀ e, e ∈ normalizePunchAddrs (observed.map ofEndpoint) ↔ e ∈ observed := by
      intro e
      rw [mem_normalizePunchAddrs (by rw [hentries]; exact hobserved.length), hentries]
    have hvalid' : ∀ e ∈ (observed.map ofEndpoint).filterMap endpoint, Server.PublicEndpoint e := by
      rw [hentries]
      exact hobserved.valid
    have hstands := standsFor_candidates off.envOff natType hvalid'
    refine ⟨hstands.candidates, fun hne => hstands.nonempty ?_,
      hstands.oneAddress.trans (OneAddress.congr hmem)⟩
    exact fun hnil => hne ((normalizePunchAddrs_eq_nil hport').1 hnil)

end Fields

/-! ## The server's answer -/

def withAddresses (msg : Server.PunchMessage) (fields : AddressFields) : Server.PunchMessage :=
  { msg with punchAddr := fields.punchAddr, punchAddrs := fields.punchAddrs }

theorem checkAddresses_candidates (h : Candidates es) (hne : es ≠ []) (allowEmpty : Bool)
    (msg : Server.PunchMessage) :
    checkAddresses allowEmpty (withAddresses msg (addressFields es)) = .ok () ↔
      OneAddress es := by
  cases es with
  | nil => exact absurd rfl hne
  | cons e es =>
    rw [oneAddress_cons, ← validatePunchAddrs_text h.valid h.nodup h.length]
    have haddr := validatePunchAddr_text (h.valid e mem_cons_self) allowEmpty
    simp only [checkAddresses, check_bind_eq_ok, mapError_eq_ok]
    exact and_iff_right haddr

theorem checkAddresses_nil (allowEmpty : Bool) (msg : Server.PunchMessage) :
    checkAddresses allowEmpty (withAddresses msg (addressFields [])) ≠ .ok () := by
  have haddr : ∀ allowEmpty, validatePunchAddr "invalid AddrPort".toList allowEmpty ≠
      .ok () := by
    decide +kernel
  intro h
  simp only [checkAddresses, check_bind_eq_ok, mapError_eq_ok] at h
  exact haddr allowEmpty h.1

def blankMessage : Server.PunchMessage := ⟨[], [], "", "", "", [], [], [], 0⟩

/-- Both messages pass the address checks of the server, and an empty list of a
responder reaches the initiator as the empty address. -/
structure AddressesPass (off : Prediction) (natType : String) (obs : List Endpoint) : Prop where
  intent : obs ≠ [] → ∀ msg, checkAddresses false (withAddresses msg
    (addressFields (initiatorCandidates off natType (obs.map ofEndpoint)))) = .ok ()
  ready : ∀ msg, checkAddresses true (withAddresses msg
    (addressFields (responderCandidates off natType (obs.map ofEndpoint)))) = .ok ()
  empty : obs = [] →
    (addressFields (responderCandidates off natType (obs.map ofEndpoint))).punchAddr = []

/-- The fields pass exactly when something was observed and what is left after
the normalisation is on one address. -/
theorem addresses_pass (off : Prediction) (natType : String) (obs : List Endpoint)
    (hvalid : ∀ e ∈ obs, Server.PublicEndpoint e) :
    AddressesPass off natType obs ↔
      obs ≠ [] ∧ OneAddress (normalizePunchAddrs (obs.map ofEndpoint)) := by
  have hport : ∀ e ∈ obs, e.port ≠ 0 := fun e he => Nat.one_le_iff_ne_zero.1 (hvalid e he).port_pos
  by_cases hobs : obs = []
  · subst hobs
    refine iff_of_false (fun h => ?_) fun h => h.1 rfl
    exact checkAddresses_nil true blankMessage (h.ready _)
  · have hobserved : normalizePunchAddrs (obs.map ofEndpoint) ≠ [] :=
      fun hnil => hobs ((normalizePunchAddrs_eq_nil hport).1 hnil)
    have hinitiator := standsFor_initiator off natType hvalid
    have hresponder := standsFor_responder off natType hobs hvalid
    constructor
    · intro h
      refine ⟨hobs, hresponder.oneAddress.1 ?_⟩
      exact (checkAddresses_candidates hresponder.candidates (hresponder.nonempty hobserved)
        true blankMessage).1 (h.ready _)
    · rintro ⟨-, hone⟩
      refine ⟨fun _ msg => ?_, fun msg => ?_, fun hnil => absurd hnil hobs⟩
      · exact (checkAddresses_candidates hinitiator.candidates (hinitiator.nonempty hobserved)
          false msg).2 (hinitiator.oneAddress.2 hone)
      · exact (checkAddresses_candidates hresponder.candidates (hresponder.nonempty hobserved)
          true msg).2 (hresponder.oneAddress.2 hone)

def onTwoAddresses : List Endpoint := [⟨0x08080808, 4000⟩, ⟨0x09090909, 4000⟩]

/-- Endpoints on two addresses are refused in both messages, and so is the text
that an empty list leaves. -/
theorem advertised_addresses_refused :
    (∀ e ∈ onTwoAddresses, Server.PublicEndpoint e) ∧
    checkAddresses false (withAddresses blankMessage (addressFields
        (initiatorCandidates ⟨false, false⟩ natSymmetric
          (onTwoAddresses.map ofEndpoint)))) =
      .error (.punchAddrs (.mixed (IP.ofIPv4 0x08080808) (IP.ofIPv4 0x09090909))) ∧
    checkAddresses true (withAddresses blankMessage (addressFields
        (responderCandidates ⟨false, false⟩ natSymmetric
          (onTwoAddresses.map ofEndpoint)))) =
      .error (.punchAddrs (.mixed (IP.ofIPv4 0x08080808) (IP.ofIPv4 0x09090909))) ∧
    (addressFields (responderCandidates ⟨false, false⟩ natSymmetric [])).punchAddr =
      "invalid AddrPort".toList ∧
    checkAddresses true (withAddresses blankMessage (addressFields
        (responderCandidates ⟨false, false⟩ natSymmetric []))) =
      .error (.punchAddr (.publicAddr (.publicAddrForm .missingPort))) := by
  decide +kernel

def onOneAddress : List Endpoint := [⟨0x08080808, 4000⟩, ⟨0x08080808, 4002⟩]

theorem addresses_pass_onOneAddress :
    AddressesPass ⟨false, false⟩ natSymmetric onOneAddress :=
  (addresses_pass ⟨false, false⟩ natSymmetric onOneAddress (by decide +kernel)).2
    (by decide +kernel)

end Hy2Link
