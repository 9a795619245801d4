import Hy2Link.Client.ReplyFields
import Hy2Link.Server.DhcpOutbound

/-! # The settings of the server on their way to a client

The server writes its settings into one line of twelve fields, and the client
reads as much of the line as its buffer of 512 bytes holds.  Settings that lie
within the buffer come back; a setting beyond it comes back only where its
default says the same.
-/

namespace Hy2Link.Config

open Text Server Client ServerConfig Option

/-- What the server has to tell: an accepted configuration, how its certificate
is made and for which name, the STUN ports that are open, and an address. -/
structure Announcement where
  config : ServerConfig
  mode : CertMode
  hostname : List Char
  stunPorts : List Int
  vip : IPv4
  mask : IPv4
  accepted : config.validate = .ok ()
  comma : ',' ∉ hostname

variable {texts : List (List Char)}

namespace Announcement

variable (a : Announcement)

def outbound : DHCPOutbound := newDHCPOutbound a.config a.mode a.hostname a.stunPorts

def fields : List (List Char) := a.outbound.replyFields (dotted a.vip) (dotted a.mask)

/-- The TCP ports with a connection of their own. -/
def splitPorts : Finset Int :=
  if a.config.tcpSplitEnabled then a.config.tcpSplitPorts.toFinset else ∅

/-- The ports of a list of ranges that is switched on. -/
def udpPorts (enabled : Bool) (texts : List (List Char)) : Set Int :=
  {p | enabled = true ∧ p ∈ portSet texts}

structure Recovered (st : Client.DhcpSettings) : Prop where
  ip : st.ip = dotted a.vip
  mask : st.mask = dotted a.mask
  splitEnabled : st.serverSplitEnabled = a.config.tcpSplitEnabled
  splitPorts : st.serverSplitPorts = a.splitPorts
  udpMatch : Client.portSet st.udpMatchRanges =
    udpPorts a.config.udpReliableEnabled a.config.udpReliablePorts
  udpUnreliable : Client.portSet st.udpUnreliableRanges =
    udpPorts a.config.udpUnreliableEnabled a.config.udpUnreliablePorts
  certMode : st.serverCertMode = a.mode.text
  hostname : a.hostname ≠ [] → st.serverHostname = a.hostname
  p2p : st.p2pServerEnabled = a.config.p2pEnabled
  stunPorts : st.builtinSTUNPorts = a.stunPorts

/-- The line that `Read` gives is read by `Connect` as these settings. -/
def RoundTrip (conn : DHCPConn) (server : IPv4) : Prop :=
  ∃ line st, (conn.read a.outbound).1 = .line line ∧
    readReply (dotted server) line = .ok st ∧ a.Recovered st

/-- What the first `n` bytes of a list of ranges hold stands for all its ports,
or it stands for none and the default does. -/
def Kept (n : Nat) (default : List Client.PortRange) (texts : List (List Char)) : Prop :=
  let came := portSet ((takeBytes n (['|'].intercalate texts)).splitOn '|')
  came = portSet texts ∨ came = ∅ ∧ Client.portSet default = portSet texts

/-- Every setting lies within the buffer, as far as it differs from what the
client takes without it, and the client accepts the address. -/
structure Legible (server : IPv4) : Prop where
  address : a.vip ≠ 0 ∧ a.vip >>> 28 ≠ 0xe ∧ a.vip ≠ 0xffffffff ∧ Client.ReasonableMask a.mask
  splitPorts : endOf a.fields 3 ≤ replyBufferSize
  udpMatch : a.config.udpReliableEnabled = true →
    startOf a.fields 5 ≤ replyBufferSize ∧
      Kept (replyBufferSize - startOf a.fields 5) defaultUDPMatchRanges
        a.config.udpReliablePorts
  udpUnreliable : a.config.udpUnreliableEnabled = true →
    startOf a.fields 7 ≤ replyBufferSize ∧
      Kept (replyBufferSize - startOf a.fields 7) defaultUDPUnreliableRanges
        a.config.udpUnreliablePorts
  certMode : endOf a.fields 8 ≤ replyBufferSize ∨
    a.mode = .selfSigned ∧ replyBufferSize ≤ startOf a.fields 8
  hostname : a.hostname ≠ [] → Tight a.hostname ∧
    (endOf a.fields 9 ≤ replyBufferSize ∨
      a.hostname = dotted server ∧ replyBufferSize ≤ startOf a.fields 9)
  p2p : a.config.p2pEnabled = true → endOf a.fields 10 ≤ replyBufferSize
  stunPorts : a.stunPorts ≠ [] → (∀ p ∈ a.stunPorts, 1 ≤ p ∧ p ≤ 65535) ∧
    endOf a.fields 11 ≤ replyBufferSize

/-! ## The line -/

variable {a}

theorem split_valid (henabled : a.config.tcpSplitEnabled = true) :
    a.config.tcpSplitPorts ≠ [] ∧ a.config.tcpSplitPorts.Nodup ∧
      ∀ p ∈ a.config.tcpSplitPorts, 1 ≤ p ∧ p ≤ 65535 :=
  splitPorts_of_check (validate_eq_ok.1 a.accepted).2.2.2.1 henabled

theorem udpMatch_valid (henabled : a.config.udpReliableEnabled = true) :
    a.config.udpReliablePorts ≠ [] ∧
      ∀ s ∈ a.config.udpReliablePorts, ∃ range, parsePortRange s = .ok range :=
  ranges_of_check (validate_eq_ok.1 a.accepted).2.2.2.2.1 henabled

theorem udpUnreliable_valid (henabled : a.config.udpUnreliableEnabled = true) :
    a.config.udpUnreliablePorts ≠ [] ∧
      ∀ s ∈ a.config.udpUnreliablePorts, ∃ range, parsePortRange s = .ok range :=
  ranges_of_check (validate_eq_ok.1 a.accepted).2.2.2.2.2.1 henabled

theorem comma_onOff (enabled : Bool) : ',' ∉ onOff enabled := by
  cases enabled <;> decide

theorem comma_joined (h : enabled = true → ∀ s ∈ texts, ',' ∉ s) : ',' ∉ joined enabled texts := by
  unfold joined
  split
  next henabled =>
    intro hmem
    rcases mem_intercalate hmem with hbar | ⟨s, hs, hc⟩
    · revert hbar
      decide
    · exact h henabled s hs hc
  · exact List.not_mem_nil

theorem comma_ranges (h : ∀ s ∈ texts, ∃ range, parsePortRange s = .ok range) :
    ∀ s ∈ texts, ',' ∉ s := by
  intro s hs
  obtain ⟨⟨lo, hi⟩, hrange⟩ := h s hs
  exact not_mem_of_parsePortRange hrange (by decide) (by decide) (by decide) (by decide)

theorem comma_itoa (ports : List Int) : ∀ s ∈ ports.map itoa, ',' ∉ s := by
  intro s hs
  obtain ⟨p, -, rfl⟩ := List.mem_map.1 hs
  exact not_mem_itoa (by decide) (by decide) p

theorem stun_field (ports : List Int) :
    (if announce ports = [] then "off".toList else announce ports) =
      if ports = [] then "off".toList else portsText ports := by
  unfold announce
  split
  · rfl
  next hne =>
    rw [if_neg]
    · rfl
    · obtain ⟨p, rest, rfl⟩ := List.exists_cons_of_ne_nil hne
      have hitoa : itoa p ≠ [] := by
        unfold itoa
        split
        · exact List.cons_ne_nil _ _
        · exact Nat.toDigits_ne_nil
      cases rest with
      | nil => simpa using hitoa
      | cons next more => simp [List.intercalate_cons_cons]

theorem comma_fields : ∀ f ∈ a.fields, ',' ∉ f := by
  have hsplit : ',' ∉ joined a.config.tcpSplitEnabled (a.config.tcpSplitPorts.map itoa) :=
    comma_joined fun _ => comma_itoa _
  have hmatch : ',' ∉ joined a.config.udpReliableEnabled a.config.udpReliablePorts :=
    comma_joined fun henabled => comma_ranges (udpMatch_valid henabled).2
  have hunreliable : ',' ∉ joined a.config.udpUnreliableEnabled a.config.udpUnreliablePorts :=
    comma_joined fun henabled => comma_ranges (udpUnreliable_valid henabled).2
  have hmode : ',' ∉ a.mode.text := by
    cases a.mode <;> decide
  have hstun : ',' ∉ if announce a.stunPorts = [] then "off".toList else announce a.stunPorts := by
    rw [stun_field]
    split
    · decide
    · exact comma_joined (fun (_ : true = true) => comma_itoa a.stunPorts)
  have hdotted : ∀ v : IPv4, ',' ∉ dotted v := not_mem_dotted (by decide) (by decide)
  intro f hf
  simp only [fields, DHCPOutbound.replyFields, outbound, newDHCPOutbound, List.mem_cons,
    List.not_mem_nil, or_false] at hf
  rcases hf with rfl | rfl | rfl | rfl | rfl | rfl | rfl | rfl | rfl | rfl | rfl | rfl
  · exact hdotted a.vip
  · exact hdotted a.mask
  · exact comma_onOff _
  · exact hsplit
  · exact comma_onOff _
  · exact hmatch
  · exact comma_onOff _
  · exact hunreliable
  · exact hmode
  · exact a.comma
  · exact comma_onOff _
  · exact hstun

def parts (a : Announcement) : List (List Char) :=
  (takeBytes replyBufferSize ([','].intercalate a.fields)).splitOn ','

theorem parts_getElem? (hi : a.fields[i]? = some f) :
    a.parts[i]? =
      if startOf a.fields i ≤ replyBufferSize then
        some (takeBytes (replyBufferSize - startOf a.fields i) f)
      else none :=
  getElem?_splitOn_takeBytes (by decide) (by decide) comma_fields hi _

theorem field_parts (hi : a.fields[i]? = some f) :
    field a.parts i =
      if startOf a.fields i ≤ replyBufferSize then
        some (trimSpace (takeBytes (replyBufferSize - startOf a.fields i) f))
      else none := by
  rw [field, parts_getElem? hi]
  split <;> rfl

/-! ## The first fields always fit -/

theorem byteLength_toDigits_le (h : n < 256) : byteLength (Nat.toDigits 10 n) ≤ 3 := by
  rw [byteLength_eq_length fun c hc => utf8Size_of_isDigit (isDigit_of_mem hc),
    Nat.length_toDigits_le_iff (by decide) (by decide)]
  omega

theorem byteLength_dotted_le (v : IPv4) : byteLength (dotted v) ≤ 15 := by
  have hoctet : ∀ i, byteLength (Nat.toDigits 10 (octetOf v i)) ≤ 3 :=
    fun i => byteLength_toDigits_le (octetOf_lt v i)
  have h0 := hoctet 0
  have h1 := hoctet 1
  have h2 := hoctet 2
  have h3 := hoctet 3
  simp only [dotted, byteLength_append, byteLength_cons, show Char.utf8Size '.' = 1 from rfl]
  omega

theorem byteLength_onOff_le (enabled : Bool) : byteLength (onOff enabled) ≤ 3 := by
  cases enabled <;> decide

theorem startOf_one : startOf a.fields 1 ≤ 16 := by
  have hip := byteLength_dotted_le a.vip
  rw [startOf_succ (show a.fields[0]? = some (dotted a.vip) from rfl), startOf_zero]
  omega

theorem startOf_two : startOf a.fields 2 ≤ 32 := by
  have hone := @startOf_one a
  have hmask := byteLength_dotted_le a.mask
  rw [startOf_succ (show a.fields[1]? = some (dotted a.mask) from rfl)]
  omega

theorem startOf_three : startOf a.fields 3 ≤ 36 := by
  have htwo := @startOf_two a
  have hflag := byteLength_onOff_le a.config.tcpSplitEnabled
  rw [startOf_succ (show a.fields[2]? = some (onOff a.config.tcpSplitEnabled) from rfl)]
  omega

theorem field_ip : field a.parts 0 = some (dotted a.vip) := by
  have hip := byteLength_dotted_le a.vip
  rw [field_parts (show a.fields[0]? = some (dotted a.vip) from rfl), startOf_zero,
    if_pos (Nat.zero_le _), trimSpace_takeBytes_eq_iff.2]
  exact ⟨tight_dotted _, le_trans hip (by decide)⟩

theorem field_mask : field a.parts 1 = some (dotted a.mask) := by
  have hone := @startOf_one a
  have hmask := byteLength_dotted_le a.mask
  have hsize : replyBufferSize = 512 := rfl
  rw [field_parts (show a.fields[1]? = some (dotted a.mask) from rfl), if_pos (by omega),
    trimSpace_takeBytes_eq_iff.2]
  exact ⟨tight_dotted _, by omega⟩

/-- The round trip is about what the client keeps of the fields in the
buffer. -/
theorem roundTrip_iff (hconn : conn.Leased a.vip a.mask) :
    a.RoundTrip conn server ↔
      validateTunnelIPv4 (dotted a.vip) (dotted a.mask) = .ok () ∧
        a.Recovered
          (settings (dotted server) (dotted a.vip) (dotted a.mask) a.parts) := by
  have hip : dotted a.vip ≠ [] := by
    intro hempty
    have hparse := parseIPv4_dotted a.vip
    rw [hempty] at hparse
    cases hparse
  unfold RoundTrip
  rw [hconn.read hip a.outbound]
  constructor
  · rintro ⟨line, st, hline, hreply, hrecovered⟩
    cases hline
    obtain ⟨ip, mask, hip, hmask, htunnel, rfl⟩ := (readReply_eq_ok rfl).1 hreply
    obtain rfl : dotted a.vip = ip := some.inj (field_ip.symm.trans hip)
    obtain rfl : dotted a.mask = mask := some.inj (field_mask.symm.trans hmask)
    exact ⟨htunnel, hrecovered⟩
  · rintro ⟨htunnel, hrecovered⟩
    exact ⟨_, _, rfl, (readReply_eq_ok rfl).2
      ⟨_, _, field_ip, field_mask, htunnel, rfl⟩, hrecovered⟩

/-! ## Setting by setting -/

theorem field_eq_on_iff (hi : a.fields[i]? = some (onOff enabled)) :
    field a.parts i = some "on".toList ↔
      enabled = true ∧ startOf a.fields i + 2 ≤ replyBufferSize := by
  rw [field_parts hi]
  split
  · rw [some.injEq, onOff, flag_eq_on_iff rfl]
    exact and_congr_right fun _ => by omega
  next hreach =>
    simp only [reduceCtorEq, false_iff]
    rintro ⟨-, hend⟩
    omega

theorem splitEnabled_iff :
    field a.parts 2 = some "on".toList ↔ a.config.tcpSplitEnabled = true := by
  have htwo := @startOf_two a
  have hsize : replyBufferSize = 512 := rfl
  rw [field_eq_on_iff rfl]
  exact and_iff_left_of_imp fun _ => show startOf a.fields 2 + 2 ≤ _ by omega

theorem splitPorts_iff :
    Client.splitPorts a.parts = a.splitPorts ↔ endOf a.fields 3 ≤ Client.replyBufferSize := by
  have hthree := @startOf_three a
  have hsize : replyBufferSize = 512 := rfl
  unfold Client.splitPorts splitPorts
  by_cases henabled : a.config.tcpSplitEnabled = true
  · have hfield : a.fields[3]? = some (portsText a.config.tcpSplitPorts) := by
      change some (joined a.config.tcpSplitEnabled _) = _
      rw [henabled]
      rfl
    obtain ⟨hne, hnodup, hports⟩ := split_valid henabled
    have hpart := parts_getElem? hfield
    rw [if_pos (by omega)] at hpart
    rw [if_pos (splitEnabled_iff.2 henabled), if_pos henabled, endOf_eq hfield, hpart,
      map_some, getD_some]
    dsimp only
    -- the first port comes, so the default is not taken
    have hsome : (portList (takeBytes (replyBufferSize - startOf a.fields 3)
        (portsText a.config.tcpSplitPorts))).toFinset ≠ ∅ := by
      obtain ⟨p, rest, hcons⟩ := List.exists_cons_of_ne_nil hne
      rw [hcons] at hports ⊢
      have hp := hports p List.mem_cons_self
      have hlength := byteLength_itoa_le hp
      have hmem := @Client.head_mem_portList (replyBufferSize - startOf a.fields 3) p rest
        hp (by omega)
      exact Finset.ne_empty_of_mem (List.mem_toFinset.2 hmem)
    rw [if_neg hsome, toFinset_portList_eq_iff hne hnodup hports]
    omega
  · have hfield : a.fields[3]? = some [] := by
      change some (joined a.config.tcpSplitEnabled _) = _
      rw [Bool.not_eq_true] at henabled
      rw [henabled]
      rfl
    rw [if_neg (splitEnabled_iff.not.2 henabled), if_neg henabled, endOf_eq hfield, byteLength_nil]
    simp only [true_iff]
    omega

theorem udpRanges_iff {default : List Client.PortRange}
    (hflag : a.fields[i]? = some (onOff enabled))
    (hlist : a.fields[i + 1]? = some (joined enabled texts))
    (hvalid : enabled = true → texts ≠ [] ∧ ∀ s ∈ texts, ∃ range, parsePortRange s = .ok range) :
    Client.portSet (Client.udpRanges a.parts i default) = udpPorts enabled texts ↔
      (enabled = true → startOf a.fields (i + 1) ≤ replyBufferSize ∧
        Kept (replyBufferSize - startOf a.fields (i + 1)) default texts) := by
  unfold udpRanges
  cases enabled with
  | false =>
    have hoff : ¬ field a.parts i = some "on".toList := by
      rw [field_eq_on_iff hflag]
      simp
    rw [if_neg hoff, portSet_nil]
    simp [udpPorts]
  | true =>
    have hports : udpPorts true texts = portSet texts := by simp [udpPorts]
    obtain ⟨hne, hranges⟩ := hvalid rfl
    have hnonempty := portSet_nonempty hne hranges
    have hstart := startOf_succ hflag
    rw [hports, parts_getElem? hlist]
    simp only [forall_const]
    by_cases hreach : startOf a.fields (i + 1) ≤ replyBufferSize
    · have hon : field a.parts i = some "on".toList := by
        rw [field_eq_on_iff hflag]
        rw [show byteLength (onOff true) = 2 from rfl] at hstart
        exact ⟨rfl, by omega⟩
      rw [if_pos hon, if_pos hreach, map_some]
      simp only [hreach, true_and, joined, if_true, Kept, rangeList_eq_nil_iff]
      split
      next hnone =>
        -- nothing of the list came, so the client has its default
        rw [hnone]
        constructor
        · intro h
          exact .inr ⟨rfl, h⟩
        · rintro (hempty | ⟨-, h⟩)
          · rw [← hempty] at hnonempty
            exact absurd hnonempty Set.not_nonempty_empty
          · exact h
      next hsome =>
        rw [portSet_rangeList]
        constructor
        · exact .inl
        · rintro (h | ⟨hempty, -⟩)
          · exact h
          · exact absurd hempty hsome
    · -- the client takes the list as switched off, but it has a port
      rw [if_neg hreach, map_none]
      simp only [hreach, false_and, iff_false, ite_self, portSet_nil]
      intro hempty
      rw [← hempty] at hnonempty
      exact Set.not_nonempty_empty hnonempty

theorem certMode_iff :
    filled "selfsigned".toList (field a.parts 8) = a.mode.text ↔
      endOf a.fields 8 ≤ replyBufferSize ∨
        a.mode = .selfSigned ∧ replyBufferSize ≤ startOf a.fields 8 := by
  have hfield : a.fields[8]? = some a.mode.text := rfl
  have htight : ∀ mode : CertMode, Tight mode.text := by
    intro mode
    apply trimSpace_eq_self_iff.1
    cases mode <;> decide
  have hne : a.mode.text ≠ [] := by
    cases a.mode <;> decide
  have hmode : a.mode.text = "selfsigned".toList ↔ a.mode = .selfSigned := by
    cases a.mode <;> decide
  have hdefault : Tight "selfsigned".toList := htight .selfSigned
  rw [field_parts hfield, filled_cut_eq_iff hdefault hne, endOf_eq hfield, hmode]
  exact and_iff_right (htight a.mode)

theorem hostname_iff :
    (a.hostname ≠ [] →
      filled (dotted server) (field a.parts 9) = a.hostname) ↔
      (a.hostname ≠ [] → Tight a.hostname ∧
        (endOf a.fields 9 ≤ replyBufferSize ∨
          a.hostname = dotted server ∧ replyBufferSize ≤ startOf a.fields 9)) := by
  have hfield : a.fields[9]? = some a.hostname := rfl
  apply imp_congr_right
  intro hne
  rw [field_parts hfield, filled_cut_eq_iff (tight_dotted server) hne, endOf_eq hfield]

theorem p2p_iff :
    parseP2PFlag a.parts = a.config.p2pEnabled ↔
      (a.config.p2pEnabled = true → endOf a.fields 10 ≤ replyBufferSize) := by
  have hfield : a.fields[10]? = some (onOff a.config.p2pEnabled) := rfl
  have hflag : parseP2PFlag a.parts = true ↔
      a.config.p2pEnabled = true ∧ startOf a.fields 10 + 2 ≤ replyBufferSize := by
    unfold parseP2PFlag
    rw [field_parts hfield]
    by_cases hreach : startOf a.fields 10 ≤ replyBufferSize
    · rw [if_pos hreach]
      dsimp only
      rw [onOff, flag_equalFold_iff rfl]
      exact and_congr_right fun _ => by omega
    · rw [if_neg hreach]
      simp only [Bool.false_eq_true, false_iff]
      rintro ⟨-, hend⟩
      omega
  rw [Bool.eq_iff_iff, hflag, endOf_eq hfield]
  cases a.config.p2pEnabled with
  | false => simp
  | true => simp only [true_and, forall_const, iff_true, show byteLength (onOff true) = 2 from rfl]

theorem stunPorts_iff :
    parseBuiltinSTUNPorts a.parts = a.stunPorts ↔
      (a.stunPorts ≠ [] → (∀ p ∈ a.stunPorts, 1 ≤ p ∧ p ≤ 65535) ∧
        endOf a.fields 11 ≤ replyBufferSize) := by
  have hfield : a.fields[11]? =
      some (if a.stunPorts = [] then "off".toList else portsText a.stunPorts) :=
    congrArg some (stun_field a.stunPorts)
  rw [parseBuiltinSTUNPorts_eq, field_parts hfield, endOf_eq hfield]
  by_cases hports : a.stunPorts = []
  · simp only [hports, ne_eq, not_true_eq_false, false_imp_iff, iff_true, if_true]
    split
    · rw [map_some, getD_some, portList_trimSpace]
      -- no part of `off` is a port
      apply portList_of_chars
      intro c hc
      have hletters : ("off".toList.all fun c => c.isDigit = false ∧ c ≠ '-' ∧ c ≠ '+') = true := by
        decide
      rcases mem_takeBytes hc with hc | rfl
      · exact of_decide_eq_true (List.all_eq_true.1 hletters c hc)
      · decide
    · rfl
  · simp only [hports, ne_eq, not_false_eq_true, forall_const, if_false]
    split
    next hreach =>
      rw [map_some, getD_some, portList_trimSpace, portList_takeBytes_eq_iff hports]
      exact and_congr_right fun _ => by omega
    next hreach =>
      rw [map_none, getD_none]
      constructor
      · intro h
        exact absurd h.symm hports
      · rintro ⟨-, hend⟩
        omega

/-! ## The round trip -/

theorem udpMatch_iff :
    Client.portSet (Client.udpRanges a.parts 4 Client.defaultUDPMatchRanges) =
        udpPorts a.config.udpReliableEnabled a.config.udpReliablePorts ↔
      (a.config.udpReliableEnabled = true → startOf a.fields 5 ≤ replyBufferSize ∧
        Kept (replyBufferSize - startOf a.fields 5) defaultUDPMatchRanges
          a.config.udpReliablePorts) :=
  udpRanges_iff rfl rfl udpMatch_valid

theorem udpUnreliable_iff :
    Client.portSet (Client.udpRanges a.parts 6 Client.defaultUDPUnreliableRanges) =
        udpPorts a.config.udpUnreliableEnabled a.config.udpUnreliablePorts ↔
      (a.config.udpUnreliableEnabled = true → startOf a.fields 7 ≤ replyBufferSize ∧
        Kept (replyBufferSize - startOf a.fields 7) defaultUDPUnreliableRanges
          a.config.udpUnreliablePorts) :=
  udpRanges_iff rfl rfl udpUnreliable_valid

theorem RoundTrip.legible (h : a.RoundTrip conn server) (hconn : conn.Leased a.vip a.mask) :
    a.Legible server := by
  obtain ⟨htunnel, -, -, -, hsplit, hmatch, hunreliable, hmode, hname, hp2p, hstun⟩ :=
    (roundTrip_iff hconn).1 h
  dsimp only [settings] at hsplit hmatch hunreliable hmode hname hp2p hstun
  exact
    { address := (validateTunnelIPv4_dotted _ _).1 htunnel
      splitPorts := splitPorts_iff.1 hsplit
      udpMatch := udpMatch_iff.1 hmatch
      udpUnreliable := udpUnreliable_iff.1 hunreliable
      certMode := certMode_iff.1 hmode
      hostname := hostname_iff.1 hname
      p2p := p2p_iff.1 hp2p
      stunPorts := stunPorts_iff.1 hstun }

theorem Legible.roundTrip (h : a.Legible server) (hconn : conn.Leased a.vip a.mask) :
    a.RoundTrip conn server := by
  refine (roundTrip_iff hconn).2 ⟨(validateTunnelIPv4_dotted _ _).2 h.address, ?_⟩
  constructor <;> dsimp only [settings]
  case splitEnabled => exact Bool.eq_iff_iff.2 (decide_eq_true_iff.trans splitEnabled_iff)
  case splitPorts => exact splitPorts_iff.2 h.splitPorts
  case udpMatch => exact udpMatch_iff.2 h.udpMatch
  case udpUnreliable => exact udpUnreliable_iff.2 h.udpUnreliable
  case certMode => exact certMode_iff.2 h.certMode
  case hostname => exact hostname_iff.2 h.hostname
  case p2p => exact p2p_iff.2 h.p2p
  case stunPorts => exact stunPorts_iff.2 h.stunPorts

/-- The settings come back exactly when all that matters of the line fits. -/
theorem dhcp_round_trip (hconn : conn.Leased a.vip a.mask) :
    a.RoundTrip conn server ↔ a.Legible server :=
  ⟨fun h => h.legible hconn, fun h => h.roundTrip hconn⟩

/-! ## A line that fits -/

theorem kept_of_whole (hne : texts ≠ [])
    (hranges : ∀ s ∈ texts, ∃ range, parsePortRange s = .ok range)
    (hfits : byteLength (['|'].intercalate texts) ≤ n) (default : List Client.PortRange) :
    Kept n default texts := by
  have hbar : ∀ s ∈ texts, '|' ∉ s := by
    intro s hs
    obtain ⟨⟨lo, hi⟩, hrange⟩ := hranges s hs
    exact not_mem_of_parsePortRange hrange (by decide) (by decide) (by decide) (by decide)
  unfold Kept
  rw [takeBytes_of_le hfits, List.splitOn_intercalate '|' hbar hne]
  exact .inl rfl

/-- If the whole line fits, what is left to ask is that the client accepts the
address, that the name has no space at its ends and that the STUN ports are
ports. -/
theorem legible_of_fits
    (haddress : a.vip ≠ 0 ∧ a.vip >>> 28 ≠ 0xe ∧ a.vip ≠ 0xffffffff ∧
      Client.ReasonableMask a.mask)
    (hfits : endOf a.fields 11 ≤ replyBufferSize) (hname : Tight a.hostname)
    (hstun : ∀ p ∈ a.stunPorts, 1 ≤ p ∧ p ≤ 65535) : a.Legible server := by
  have hbefore : ∀ i, i < 11 → endOf a.fields i ≤ replyBufferSize := by
    intro i hi
    have hend := endOf_le_endOf hi (show 11 < a.fields.length from Nat.lt_succ_self 11)
    omega
  have hkept : ∀ {i enabled texts} (default : List Client.PortRange), i < 11 →
      a.fields[i]? = some (joined enabled texts) → enabled = true →
      (texts ≠ [] ∧ ∀ s ∈ texts, ∃ range, parsePortRange s = .ok range) →
      startOf a.fields i ≤ replyBufferSize ∧
        Kept (replyBufferSize - startOf a.fields i) default texts := by
    intro i enabled texts default hi hfield henabled hvalid
    have hend := hbefore i hi
    rw [endOf_eq hfield, joined, if_pos henabled] at hend
    exact ⟨by omega, kept_of_whole hvalid.1 hvalid.2 (by omega) default⟩
  exact
    { address := haddress
      splitPorts := hbefore 3 (by decide)
      udpMatch := fun henabled => hkept _ (by decide) rfl henabled (udpMatch_valid henabled)
      udpUnreliable := fun henabled =>
        hkept _ (by decide) rfl henabled (udpUnreliable_valid henabled)
      certMode := .inl (hbefore 8 (by decide))
      hostname := fun _ => ⟨hname, .inl (hbefore 9 (by decide))⟩
      p2p := fun _ => hbefore 10 (by decide)
      stunPorts := fun _ => ⟨hstun, hfits⟩ }

def full : Announcement where
  config := { default with
    tcpSplitEnabled := true, udpReliableEnabled := true, udpUnreliableEnabled := true }
  mode := .acme
  hostname := "vpn.example.org".toList
  stunPorts := [3478, 3479]
  vip := 0xc0a81e0b
  mask := 0xffffff00
  accepted := by decide +kernel
  comma := by decide

/-- The first request to the allocator of the default configuration. -/
def firstConn : DHCPConn :=
  (newDHCPConn.write ⟨Pool.setIPPool 0xc0a81e0b 0xc0a81eff, 0xffffff00⟩ 0 0
    "dev\nREQUEST_IP".toList).1

theorem firstConn_leased : firstConn.Leased 0xc0a81e0b 0xffffff00 :=
  ⟨by decide +kernel, by decide +kernel, by decide +kernel, by decide +kernel, by decide +kernel⟩

theorem dhcp_round_trip_full :
    firstConn.Leased full.vip full.mask ∧ full.RoundTrip firstConn 0xcb007107 := by
  refine ⟨firstConn_leased, (dhcp_round_trip firstConn_leased).2 (legible_of_fits ?_ ?_ ?_ ?_)⟩
  · exact ⟨by decide, by decide, by decide, 24, by decide, by decide, by decide⟩
  · decide +kernel
  · exact trimSpace_eq_self_iff.1 (by decide)
  · decide

def manyPorts : Announcement :=
  { full with
    config := { full.config with
      tcpSplitPorts := (List.range 100).map fun i : Nat => 10001 + (i : Int) }
    accepted := by decide +kernel }

/-- The ports alone take more than the buffer. -/
theorem many_ports_cut :
    firstConn.Leased manyPorts.vip manyPorts.mask ∧ ¬ manyPorts.RoundTrip firstConn 0xcb007107 := by
  have hleased : firstConn.Leased manyPorts.vip manyPorts.mask := firstConn_leased
  refine ⟨hleased, fun h => ?_⟩
  have hfits := (h.legible hleased).splitPorts
  revert hfits
  decide +kernel

end Announcement

end Hy2Link.Config
