import Hy2Link.Client.DhcpReply
import Hy2Link.CutText
import Hy2Link.Server.Config

/-! # What the client reads in a reply that was cut off

Space around the fields does not matter, nor does the line feed at the end.  A
list of ports that was cut off loses a port, and what is left of a switch is
not taken for one that is on.
-/

namespace Hy2Link.Client

open Text List

/-! ## Space around the fields -/

@[simp] theorem portNumber_trimSpace (s : List Char) : portNumber (trimSpace s) = portNumber s := by
  simp only [portNumber, trimSpace_idem]

@[simp] theorem parsePortRangeStr_trimSpace (s : List Char) :
    parsePortRangeStr (trimSpace s) = parsePortRangeStr s := by
  simp only [parsePortRangeStr, trimSpace_idem]

theorem parsePortRanges_eq (items : List (List Char)) :
    parsePortRanges items = items.filterMap parsePortRangeStr := by
  unfold parsePortRanges
  congr 1
  funext it
  split
  next hempty => simp [parsePortRangeStr, hempty]
  · rw [parsePortRangeStr_trimSpace]

theorem filterMap_splitOn_trimSpace {β : Type} {f : List Char → Option β}
    (hf : ∀ s, f (trimSpace s) = f s) (s : List Char) :
    ((trimSpace s).splitOn '|').filterMap f = (s.splitOn '|').filterMap f := by
  have htrim : ∀ l : List (List Char), l.filterMap f = (l.map trimSpace).filterMap f := by
    intro l
    rw [filterMap_map]
    congr 1
    funext item
    exact (hf item).symm
  rw [htrim, @map_trimSpace_splitOn '|' (by decide) s, ← htrim]

@[simp] theorem portList_trimSpace (s : List Char) : portList (trimSpace s) = portList s :=
  filterMap_splitOn_trimSpace portNumber_trimSpace s

@[simp] theorem rangeList_trimSpace (s : List Char) : rangeList (trimSpace s) = rangeList s := by
  rw [rangeList, parsePortRanges_eq, rangeList, parsePortRanges_eq]
  exact filterMap_splitOn_trimSpace parsePortRangeStr_trimSpace s

theorem map_eq_of_field {β : Type} {g : List Char → β} (hg : ∀ s, g (trimSpace s) = g s)
    (i : Nat) : parts[i]?.map g = (field parts i).map g := by
  rw [field, Option.map_map]
  congr 1
  funext s
  exact (hg s).symm

theorem settings_congr (h : parts.map trimSpace = parts'.map trimSpace)
    (serverIPv4 ip mask : List Char) :
    settings serverIPv4 ip mask parts = settings serverIPv4 ip mask parts' := by
  have hfield : field parts = field parts' := by
    funext i
    rw [field, field, ← getElem?_map, ← getElem?_map, h]
  have hsplit : splitPorts parts = splitPorts parts' := by
    simp only [splitPorts, map_eq_of_field portList_trimSpace, hfield]
  have hudp : ∀ i default, udpRanges parts i default = udpRanges parts' i default := by
    intro i default
    simp only [udpRanges, map_eq_of_field rangeList_trimSpace, hfield]
  simp only [settings, parseP2PFlag, parseBuiltinSTUNPorts, hfield, hsplit, hudp]

theorem readReply_eq_ok (hparts : (takeBytes replyBufferSize text).splitOn ',' = parts) :
    readReply serverIPv4 (text ++ ['\n']) = .ok st ↔
      ∃ ip mask, field parts 0 = some ip ∧ field parts 1 = some mask ∧
        validateTunnelIPv4 ip mask = .ok () ∧ settings serverIPv4 ip mask parts = st := by
  have hline : ∀ c ∈ takeBytes (replyBufferSize - byteLength text) ['\n'], isSpace c = true := by
    intro c hc
    generalize replyBufferSize - byteLength text = n at hc
    cases n with
    | zero => simp at hc
    | succ n =>
      obtain rfl : c = '\n' := by
        simpa [takeBytes, show Char.utf8Size '\n' = 1 from rfl] using hc
      decide
  have hresponse : trimSpace (takeBytes replyBufferSize (text ++ ['\n'])) =
      trimSpace (takeBytes replyBufferSize text) := by
    rw [takeBytes_append]
    exact @trimSpace_append [] _ (by simp) hline _
  have htrim := @map_trimSpace_splitOn ',' (by decide) (takeBytes replyBufferSize text)
  rw [hparts] at htrim
  -- the fields of the trimmed text are those of the text, up to space
  unfold readReply
  rw [hresponse]
  dsimp only
  generalize (trimSpace (takeBytes replyBufferSize text)).splitOn ',' = sent at htrim
  have hfield : ∀ i, field sent i = field parts i := by
    intro i
    rw [field, field, ← getElem?_map, ← getElem?_map, htrim]
  rw [hfield 0, hfield 1]
  cases hip : field parts 0 with
  | none => simp
  | some ip =>
    cases hmask : field parts 1 with
    | none => simp
    | some mask =>
      cases htunnel : validateTunnelIPv4 ip mask with
      | error error => simp [htunnel]
      | ok u => simp [htunnel, settings_congr htrim]

/-! ## Switches -/

theorem flag_eq_on_iff (hf : f = if enabled then "on".toList else "off".toList) :
    trimSpace (takeBytes n f) = "on".toList ↔ enabled = true ∧ 2 ≤ n := by
  subst hf
  cases enabled with
  | true =>
    have htight : Tight "on".toList := trimSpace_eq_self_iff.1 (by decide)
    rw [if_pos rfl, trimSpace_takeBytes_eq_iff, show byteLength "on".toList = 2 from rfl]
    exact ⟨fun h => ⟨rfl, h.2⟩, fun h => ⟨htight, h.2⟩⟩
  | false =>
    -- nothing that is left of `off` has an n
    simp only [Bool.false_eq_true, if_false, false_and, iff_false]
    intro h
    have hn : 'n' ∈ trimSpace (takeBytes n "off".toList) := by
      rw [h]
      decide
    rcases mem_takeBytes (mem_of_mem_trimSpace hn) with hmem | hnul
    · revert hmem
      decide
    · revert hnul
      decide

theorem flag_equalFold_iff (hf : f = if enabled then "on".toList else "off".toList) :
    equalFold (trimSpace (takeBytes n f)) "on".toList = true ↔ enabled = true ∧ 2 ≤ n := by
  constructor
  · intro h
    simp only [equalFold, decide_eq_true_eq] at h
    have hn : 'n' ∈ (trimSpace (takeBytes n f)).map Char.toLower := by
      rw [h]
      decide
    obtain ⟨c, hc, hlower⟩ := mem_map.1 hn
    have hlength := byteLength_trimSpace_le (takeBytes n f)
    rw [byteLength_takeBytes] at hlength
    subst hf
    cases enabled with
    | true =>
      refine ⟨rfl, ?_⟩
      have htwo : (trimSpace (takeBytes n "on".toList)).length = 2 := by
        simpa using congrArg length h
      have hbytes : 2 ≤ byteLength (trimSpace (takeBytes n "on".toList)) := by
        rw [← htwo]
        exact length_le_byteLength _
      simp only [if_true] at hlength
      omega
    | false =>
      exfalso
      rcases mem_takeBytes (mem_of_mem_trimSpace hc) with hmem | rfl
      · have hnone : ("off".toList.all fun c => c.toLower ≠ 'n') = true := by decide
        exact absurd hlower (of_decide_eq_true (all_eq_true.1 hnone c hmem))
      · revert hlower
        decide
  · intro h
    rw [(flag_eq_on_iff hf).2 h]
    decide

/-! ## Texts -/

/-- A text with a default comes back if it came whole, and the default if
nothing came. -/
theorem filled_cut_eq_iff {default f : List Char} {start n : Nat} (hdefault : Tight default)
    (hne : f ≠ []) :
    filled default (if start ≤ n then some (trimSpace (takeBytes (n - start) f)) else none) = f ↔
      Tight f ∧ (start + byteLength f ≤ n ∨ f = default ∧ n ≤ start) := by
  have hpos : 0 < byteLength f :=
    lt_of_lt_of_le (length_pos_iff.2 hne) (length_le_byteLength f)
  have hdefault' : default = f → Tight f := fun h => h ▸ hdefault
  split
  next hreach =>
    unfold filled
    dsimp only
    split
    next hempty =>
      constructor
      · intro h
        have htight := hdefault' h
        refine ⟨htight, .inr ⟨h.symm, ?_⟩⟩
        by_contra hlt
        exact trimSpace_takeBytes_ne_nil htight hne (show 0 < n - start by omega) hempty
      · rintro ⟨htight, hwhole | ⟨rfl, -⟩⟩
        · rw [trimSpace_takeBytes_eq_iff.2 ⟨htight, by omega⟩] at hempty
          exact absurd hempty hne
        · rfl
    next hsome =>
      rw [trimSpace_takeBytes_eq_iff]
      constructor
      · rintro ⟨htight, hfits⟩
        exact ⟨htight, .inl (by omega)⟩
      · rintro ⟨htight, hwhole | ⟨-, hnone⟩⟩
        · exact ⟨htight, by omega⟩
        · rw [show n - start = 0 by omega, takeBytes_zero] at hsome
          exact absurd (by decide) hsome
  next hreach =>
    constructor
    · intro h
      exact ⟨hdefault' h, .inr ⟨h.symm, by omega⟩⟩
    · rintro ⟨-, hwhole | ⟨rfl, -⟩⟩
      · omega
      · rfl

/-! ## Lists of ports -/

theorem itoa_of_nonneg (h : 0 ≤ p) : itoa p = Nat.toDigits 10 p.toNat := by
  rw [itoa, if_neg (by omega)]
  congr 1
  omega

theorem isDigit_of_mem_itoa (hp : 0 ≤ p) (h : c ∈ itoa p) : c.isDigit = true := by
  rw [itoa_of_nonneg hp] at h
  exact isDigit_of_mem h

theorem mem_itoa (h : c ∈ itoa p) : c.isDigit = true ∨ c = '-' := by
  unfold itoa at h
  split at h
  · rcases mem_cons.1 h with rfl | h
    · exact .inr rfl
    · exact .inl (isDigit_of_mem h)
  · exact .inl (isDigit_of_mem h)

theorem not_mem_itoa (hdigit : c.isDigit = false) (hsign : c ≠ '-') (p : Int) : c ∉ itoa p := by
  intro h
  rcases mem_itoa h with hc | rfl
  · simp [hc] at hdigit
  · exact hsign rfl

theorem byteLength_itoa_le (hp : 1 ≤ p ∧ p ≤ 65535) : byteLength (itoa p) ≤ 5 := by
  rw [byteLength_eq_length fun c hc => utf8Size_of_isDigit (isDigit_of_mem_itoa (by omega) hc),
    itoa_of_nonneg (by omega), Nat.length_toDigits_le_iff (by decide) (by decide)]
  omega

theorem portNumber_eq_some :
    portNumber s = some q ↔ atoi (trimSpace s) = some q ∧ 1 ≤ q ∧ q ≤ 65535 := by
  unfold portNumber
  cases atoi (trimSpace s) with
  | none => simp
  | some n =>
    simp only [Bool.or_eq_true, decide_eq_true_eq, Option.ite_none_left_eq_some, not_or,
      Int.not_lt, Option.some.injEq]
    constructor
    · rintro ⟨hrange, rfl⟩
      exact ⟨rfl, by omega, by omega⟩
    · rintro ⟨rfl, hlow, hhigh⟩
      exact ⟨⟨by omega, by omega⟩, rfl⟩

theorem portNumber_itoa (hlow : 1 ≤ p) (hhigh : p ≤ 65535) : portNumber (itoa p) = some p := by
  refine portNumber_eq_some.2 ⟨?_, hlow, hhigh⟩
  have htrim : trimSpace (itoa p) = itoa p := by
    apply trimSpace_of_forall
    intro c hc
    exact isSpace_of_isDigit (isDigit_of_mem_itoa (by omega) hc)
  rw [htrim, itoa_of_nonneg (by omega), atoi_toDigits (by omega)]
  exact congrArg some (Int.toNat_of_nonneg (by omega))

/-- What is left of a port that was cut is a smaller one, if it is a port. -/
theorem portNumber_cut (hp : 1 ≤ p ∧ p ≤ 65535) (hcut : n < byteLength (itoa p))
    (hq : portNumber (takeBytes n (itoa p)) = some q) : q < p := by
  have hdigits : ∀ c ∈ itoa p, c.isDigit = true :=
    fun c hc => isDigit_of_mem_itoa (by omega) hc
  have hbytes : ∀ c ∈ itoa p, c.utf8Size = 1 := fun c hc => utf8Size_of_isDigit (hdigits c hc)
  rw [byteLength_eq_length hbytes] at hcut
  rw [takeBytes_eq_take hbytes] at hq
  have htake : ∀ c ∈ (itoa p).take n, c.isDigit = true :=
    fun c hc => hdigits c (mem_of_mem_take hc)
  obtain ⟨hatoi, hlow, -⟩ := portNumber_eq_some.1 hq
  rw [trimSpace_of_forall fun c hc => isSpace_of_isDigit (htake c hc), atoi_of_digits htake]
    at hatoi
  obtain ⟨m, hm, hmq⟩ := Option.bind_eq_some_iff.1 hatoi
  obtain ⟨-, hmq⟩ := Option.ite_none_right_eq_some.1 hmq
  have hwhole : decimal ((itoa p).take n ++ (itoa p).drop n) = some p.toNat := by
    rw [take_append_drop, itoa_of_nonneg (by omega)]
    exact decimal_toDigits p.toNat
  have hlt := decimal_lt (by rwa [take_append_drop]) (by simpa using hcut) hm
    (by rw [Option.some.injEq] at hmq; omega) hwhole
  rw [Option.some.injEq] at hmq
  omega

def portsText (ports : List Int) : List Char := ['|'].intercalate (ports.map itoa)

theorem portsText_cons_cons (p next : Int) (more : List Int) :
    portsText (p :: next :: more) = itoa p ++ '|' :: portsText (next :: more) := by
  simp [portsText, intercalate_cons_cons]

theorem portList_of_not_mem (h : '|' ∉ s) : portList s = (portNumber s).toList := by
  rw [portList, splitOn_eq_singleton h]
  cases hs : portNumber s with
  | none | some => simp [hs]

theorem portList_cons (h : '|' ∉ s) (t : List Char) :
    portList (s ++ '|' :: t) = (portNumber s).toList ++ portList t := by
  rw [portList, splitOn_field h]
  cases hs : portNumber s with
  | none | some => simp [portList, hs]

theorem portList_portsText (hne : ports ≠ []) (hports : ∀ p ∈ ports, 1 ≤ p ∧ p ≤ 65535) :
    portList (portsText ports) = ports := by
  have hbar : ∀ p : Int, '|' ∉ itoa p := not_mem_itoa (by decide) (by decide)
  induction ports with
  | nil => exact absurd rfl hne
  | cons p rest ih =>
    obtain ⟨hlow, hhigh⟩ := hports p mem_cons_self
    cases rest with
    | nil =>
      rw [portsText, map_singleton, intercalate_singleton,
        portList_of_not_mem (hbar p), portNumber_itoa hlow hhigh]
      rfl
    | cons next more =>
      rw [portsText_cons_cons, portList_cons (hbar p), portNumber_itoa hlow hhigh,
        ih (cons_ne_nil next more) fun q hq => hports q (mem_cons_of_mem p hq)]
      rfl

/-- A list that was cut is read up to some port, which is not read; if anything
follows, it is a smaller one. -/
theorem portList_cut (hports : ∀ p ∈ ports, 1 ≤ p ∧ p ≤ 65535)
    (hcut : n < byteLength (portsText ports)) :
    ∃ front p back extra, ports = front ++ p :: back ∧
      portList (takeBytes n (portsText ports)) = front ++ extra ∧ ∀ q ∈ extra, q < p := by
  have hbar : ∀ p : Int, '|' ∉ itoa p := not_mem_itoa (by decide) (by decide)
  have hbarCut : ∀ (p : Int) (n : Nat), '|' ∉ takeBytes n (itoa p) := by
    intro p n hmem
    exact (mem_takeBytes hmem).elim (hbar p) (by decide)
  induction ports generalizing n with
  | nil => simp [portsText] at hcut
  | cons p rest ih =>
    have hp := hports p mem_cons_self
    have hshort : ∀ n, n < byteLength (itoa p) → ∀ q ∈ portList (takeBytes n (itoa p)), q < p := by
      intro n hn q hq
      rw [portList_of_not_mem (hbarCut p n), Option.mem_toList] at hq
      exact portNumber_cut hp hn hq
    cases rest with
    | nil =>
      rw [portsText, map_singleton, intercalate_singleton] at hcut ⊢
      exact ⟨[], p, [], _, rfl, rfl, hshort n hcut⟩
    | cons next more =>
      rw [portsText_cons_cons] at hcut ⊢
      rw [takeBytes_field (by decide)]
      split
      next hreach =>
        -- the port came whole, and the cut is in the rest
        rw [byteLength_append, byteLength_cons, show Char.utf8Size '|' = 1 from rfl] at hcut
        obtain ⟨front, q, back, extra, hrest, hlist, hextra⟩ :=
          ih (fun q hq => hports q (mem_cons_of_mem p hq))
            (show n - (byteLength (itoa p) + 1) < byteLength (portsText (next :: more)) by
              omega)
        refine ⟨p :: front, q, back, extra, by rw [hrest]; rfl, ?_, hextra⟩
        rw [portList_cons (hbar p), portNumber_itoa hp.1 hp.2, hlist]
        rfl
      next hreach =>
        -- the cut is in the port, or right behind it
        by_cases hn : n < byteLength (itoa p)
        · exact ⟨[], p, next :: more, _, rfl, rfl, hshort n hn⟩
        · refine ⟨[p], next, more, [], rfl, ?_, by simp⟩
          rw [takeBytes_of_le (by omega), portList_of_not_mem (hbar p), portNumber_itoa hp.1 hp.2]
          rfl

theorem portList_takeBytes_eq_iff (hne : ports ≠ []) :
    portList (takeBytes n (portsText ports)) = ports ↔
      (∀ p ∈ ports, 1 ≤ p ∧ p ≤ 65535) ∧ byteLength (portsText ports) ≤ n := by
  constructor
  · intro h
    have hports : ∀ p ∈ ports, 1 ≤ p ∧ p ≤ 65535 := by
      intro p hp
      rw [← h] at hp
      obtain ⟨s, -, hs⟩ := mem_filterMap.1 hp
      exact (portNumber_eq_some.1 hs).2
    refine ⟨hports, ?_⟩
    by_contra hcut
    obtain ⟨front, p, back, extra, hsplit, hlist, hextra⟩ := portList_cut hports (not_le.1 hcut)
    rw [h, hsplit, append_cancel_left_eq] at hlist
    exact lt_irrefl p (hextra p (hlist ▸ mem_cons_self))
  · rintro ⟨hports, hfits⟩
    rw [takeBytes_of_le hfits, portList_portsText hne hports]

/-- The set of the ports comes back only with the whole list, since no port is
listed twice. -/
theorem toFinset_portList_eq_iff (hne : ports ≠ []) (hnodup : ports.Nodup)
    (hports : ∀ p ∈ ports, 1 ≤ p ∧ p ≤ 65535) :
    (portList (takeBytes n (portsText ports))).toFinset = ports.toFinset ↔
      byteLength (portsText ports) ≤ n := by
  constructor
  · intro h
    by_contra hcut
    obtain ⟨front, p, back, extra, hsplit, hlist, hextra⟩ := portList_cut hports (not_le.1 hcut)
    have hp : p ∈ (portList (takeBytes n (portsText ports))).toFinset := by
      rw [h, hsplit]
      simp
    rw [hlist, mem_toFinset, mem_append] at hp
    rcases hp with hfront | hextra'
    · rw [hsplit] at hnodup
      exact (nodup_append.1 hnodup).2.2 p hfront p mem_cons_self rfl
    · exact lt_irrefl p (hextra p hextra')
  · intro hfits
    rw [takeBytes_of_le hfits, portList_portsText hne hports]

theorem head_mem_portList {n : Nat} {p : Int} {rest : List Int} (hp : 1 ≤ p ∧ p ≤ 65535)
    (hn : byteLength (itoa p) ≤ n) : p ∈ portList (takeBytes n (portsText (p :: rest))) := by
  have hbar : '|' ∉ itoa p := not_mem_itoa (by decide) (by decide) p
  cases rest with
  | nil =>
    rw [portsText, map_singleton, intercalate_singleton, takeBytes_of_le hn,
      portList_of_not_mem hbar, portNumber_itoa hp.1 hp.2]
    simp
  | cons next more =>
    rw [portsText_cons_cons, takeBytes_field (by decide)]
    split
    · rw [portList_cons hbar, portNumber_itoa hp.1 hp.2]
      simp
    · rw [takeBytes_of_le hn, portList_of_not_mem hbar, portNumber_itoa hp.1 hp.2]
      simp

theorem portList_of_chars (h : ∀ c ∈ s, c.isDigit = false ∧ c ≠ '-' ∧ c ≠ '+') :
    portList s = [] := by
  rw [portList, filterMap_eq_nil_iff]
  intro item hitem
  by_contra hsome
  obtain ⟨q, hq⟩ := Option.ne_none_iff_exists'.1 hsome
  have hatoi := (portNumber_eq_some.1 hq).1
  obtain ⟨c, hc⟩ : ∃ c, c ∈ trimSpace item := by
    apply exists_mem_of_ne_nil
    intro hempty
    rw [hempty] at hatoi
    cases hatoi
  obtain ⟨hdigit, hminus, hplus⟩ := h c (mem_of_mem_splitOn hitem (mem_of_mem_trimSpace hc))
  rcases chars_of_atoi hatoi hc with hc | hc | hc
  · rw [hc] at hdigit
    cases hdigit
  · exact hminus hc
  · exact hplus hc

theorem portList_of_equalFold_off (h : equalFold raw "off".toList = true) : portList raw = [] := by
  simp only [equalFold, decide_eq_true_eq] at h
  apply portList_of_chars
  intro c hc
  have hlower : c.toLower ∈ raw.map Char.toLower := mem_map_of_mem hc
  rw [h] at hlower
  refine ⟨?_, ?_, ?_⟩
  · by_contra hdigit
    rw [Bool.not_eq_false] at hdigit
    have hletters : (("off".toList.map Char.toLower).all fun c => !c.isDigit) = true := by decide
    rw [toLower_of_isDigit hdigit] at hlower
    have hletter := all_eq_true.1 hletters c hlower
    simp [hdigit] at hletter
  · rintro rfl
    revert hlower
    decide
  · rintro rfl
    revert hlower
    decide

theorem parseBuiltinSTUNPorts_eq (parts : List (List Char)) :
    parseBuiltinSTUNPorts parts = ((field parts 11).map portList).getD [] := by
  unfold parseBuiltinSTUNPorts
  cases field parts 11 with
  | none => rfl
  | some raw =>
    dsimp only [Option.map_some, Option.getD_some]
    split
    next hoff =>
      symm
      rw [Bool.or_eq_true, decide_eq_true_eq] at hoff
      rcases hoff with rfl | hoff
      · decide
      · exact portList_of_equalFold_off hoff
    · rfl

end Hy2Link.Client

/-! ## Ranges -/

namespace Hy2Link.Config

open Text

def portSet (texts : List (List Char)) : Set Int :=
  {p | ∃ s ∈ texts, ∃ lo hi, parsePortRange s = .ok (lo, hi) ∧ lo ≤ p ∧ p ≤ hi}

section

variable (h : parsePortRange s = .ok (lo, hi))
include h

theorem bounds_of_parsePortRange : 1 ≤ lo ∧ lo ≤ hi ∧ hi ≤ 65535 := by
  unfold parsePortRange at h
  dsimp only at h
  repeat' split at h
  all_goals simp only [reduceCtorEq, Except.ok.injEq, Prod.mk.injEq] at h
  next hrange =>
    simp only [Bool.or_eq_true, decide_eq_true_eq, not_or] at hrange
    omega
  next hport =>
    simp only [Bool.or_eq_true, decide_eq_true_eq, not_or] at hport
    omega

theorem chars_of_parsePortRange (hc : c ∈ s) :
    isSpace c = true ∨ c.isDigit = true ∨ c = '-' ∨ c = '+' := by
  have hnumber : ∀ {t : List Char} {n : Int}, atoi (trimSpace t) = some n → ∀ {c}, c ∈ t →
      isSpace c = true ∨ c.isDigit = true ∨ c = '-' ∨ c = '+' := by
    intro t n hn c hc
    rcases mem_trimSpace_or hc with hspace | hc
    · exact .inl hspace
    · exact .inr (chars_of_atoi hn hc)
  rcases mem_trimSpace_or hc with hspace | hc
  · exact .inl hspace
  unfold parsePortRange at h
  dsimp only at h
  split at h
  · cases h
  split at h
  next i hindex =>
    split at h
    · cases h
    next low hlow =>
      split at h
      · cases h
      next high hhigh =>
        rcases mem_of_index hindex hc with hfirst | rfl | hlast
        · exact hnumber hlow hfirst
        · exact .inr (.inr (.inl rfl))
        · exact hnumber hhigh hlast
  next hindex =>
    split at h
    · cases h
    next p hp => exact .inr (chars_of_atoi hp hc)

theorem not_mem_of_parsePortRange (hspace : isSpace c = false)
    (hdigit : c.isDigit = false) (hminus : c ≠ '-') (hplus : c ≠ '+') : c ∉ s := by
  intro hc
  rcases chars_of_parsePortRange h hc with hc | hc | rfl | rfl
  · simp [hc] at hspace
  · simp [hc] at hdigit
  · exact hminus rfl
  · exact hplus rfl

end

theorem portSet_nonempty (hne : texts ≠ [])
    (h : ∀ s ∈ texts, ∃ range, parsePortRange s = .ok range) : (portSet texts).Nonempty := by
  obtain ⟨s, hs⟩ := List.exists_mem_of_ne_nil texts hne
  obtain ⟨⟨lo, hi⟩, hrange⟩ := h s hs
  exact ⟨lo, s, hs, lo, hi, hrange, le_refl lo, (bounds_of_parsePortRange hrange).2.1⟩

end Hy2Link.Config

namespace Hy2Link.Client

open Text

theorem parsePortRangeStr_eq_some :
    parsePortRangeStr s = some r ↔ Config.parsePortRange s = .ok (r.lo, r.hi) := by
  obtain ⟨lo, hi⟩ := r
  unfold parsePortRangeStr Config.parsePortRange
  dsimp only
  split
  · simp
  cases index '-' (trimSpace s) with
  | some i =>
    dsimp only
    cases atoi (trimSpace ((trimSpace s).take i)) with
    | none => simp
    | some low =>
      cases atoi (trimSpace ((trimSpace s).drop (i + 1))) with
      | none => simp
      | some high =>
        dsimp only
        split <;> simp
  | none =>
    cases atoi (trimSpace s) with
    | none => simp
    | some p =>
      dsimp only
      split <;> simp

def portSet (ranges : List PortRange) : Set Int := {p | ∃ r ∈ ranges, r.contains p = true}

@[simp] theorem portSet_nil : portSet [] = ∅ := by
  ext p
  simp [portSet]

theorem portSet_parsePortRanges (texts : List (List Char)) :
    portSet (parsePortRanges texts) = Config.portSet texts := by
  ext p
  simp only [portSet, Config.portSet, Set.mem_ofPred_eq, parsePortRanges_eq,
    List.mem_filterMap, PortRange.contains, Bool.and_eq_true, decide_eq_true_eq]
  constructor
  · rintro ⟨r, ⟨item, hitem, hr⟩, hlow, hhigh⟩
    exact ⟨item, hitem, r.lo, r.hi, parsePortRangeStr_eq_some.1 hr, hlow, hhigh⟩
  · rintro ⟨item, hitem, lo, hi, hr, hlow, hhigh⟩
    exact ⟨⟨lo, hi⟩, ⟨item, hitem, parsePortRangeStr_eq_some.2 hr⟩, hlow, hhigh⟩

theorem portSet_rangeList (s : List Char) :
    portSet (rangeList s) = Config.portSet (s.splitOn '|') :=
  portSet_parsePortRanges _

theorem rangeList_eq_nil_iff (s : List Char) :
    rangeList s = [] ↔ Config.portSet (s.splitOn '|') = ∅ := by
  rw [← portSet_rangeList]
  constructor
  · intro h
    rw [h, portSet_nil]
  · intro h
    rw [List.eq_nil_iff_forall_not_mem]
    intro r hr
    have hmem : r.lo ∈ portSet (rangeList s) := by
      rw [rangeList, parsePortRanges_eq, List.mem_filterMap] at hr
      obtain ⟨item, hitem, hparse⟩ := hr
      have hle := (Config.bounds_of_parsePortRange (parsePortRangeStr_eq_some.1 hparse)).2.1
      refine ⟨r, ?_, by simp [PortRange.contains, hle]⟩
      rw [rangeList, parsePortRanges_eq, List.mem_filterMap]
      exact ⟨item, hitem, hparse⟩
    rw [h] at hmem
    exact hmem

end Hy2Link.Client
