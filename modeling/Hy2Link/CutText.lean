import Hy2Link.TextRules

/-! # Texts that a buffer cuts off

A reader with a buffer of `n` bytes gets the first `n` bytes of a text.  If the
text is made of fields with a separator between them, the fields that end
within those bytes come whole, one more may come in part, and the others do not
come at all.
-/

namespace Text

open List

variable {s t : List Char}

/-! ## Space at the ends -/

theorem trimSpace_append (hlead : ∀ c ∈ lead, isSpace c = true)
    (htrail : ∀ c ∈ trail, isSpace c = true) (s : List Char) :
    trimSpace (lead ++ s ++ trail) = trimSpace s := by
  have hback : ∀ t : List Char,
      ((t ++ trail).reverse.dropWhile isSpace).reverse = (t.reverse.dropWhile isSpace).reverse := by
    intro t
    rw [reverse_append, dropWhile_append_of_pos fun c hc => htrail c (by simpa using hc)]
  rw [trimSpace, append_assoc, dropWhile_append_of_pos hlead, dropWhile_append]
  split
  next hempty =>
    have hspaces : s.dropWhile isSpace = [] := by simpa using hempty
    have htrail' : trail.dropWhile isSpace = [] := dropWhile_eq_nil_iff.2 htrail
    simp [trimSpace, hspaces, htrail']
  · rw [hback, trimSpace]

theorem exists_trimSpace (s : List Char) :
    ∃ lead trail, s = lead ++ trimSpace s ++ trail ∧ (∀ c ∈ lead, isSpace c = true) ∧
      ∀ c ∈ trail, isSpace c = true := by
  refine ⟨s.takeWhile isSpace, ((s.dropWhile isSpace).reverse.takeWhile isSpace).reverse, ?_,
    fun c hc => mem_takeWhile_imp hc,
    fun c hc => mem_takeWhile_imp (mem_reverse.1 hc)⟩
  rw [append_assoc, trimSpace, ← reverse_append, takeWhile_append_dropWhile,
    reverse_reverse, takeWhile_append_dropWhile]

variable {c sep : Char}

theorem mem_trimSpace_or (h : c ∈ s) : isSpace c = true ∨ c ∈ trimSpace s := by
  obtain ⟨lead, trail, hs, hlead, htrail⟩ := exists_trimSpace s
  rw [hs, mem_append, mem_append] at h
  rcases h with (h | h) | h
  · exact .inl (hlead c h)
  · exact .inr h
  · exact .inl (htrail c h)

theorem trimSpace_eq_nil : trimSpace s = [] ↔ ∀ c ∈ s, isSpace c = true := by
  constructor
  · intro h c hc
    rcases mem_trimSpace_or hc with hspace | hmem
    · exact hspace
    · simp [h] at hmem
  · intro h
    simp [trimSpace, dropWhile_eq_nil_iff.2 h]

/-! ## The first bytes -/

@[simp] theorem takeBytes_nil (n : Nat) : takeBytes n [] = [] := by
  rw [takeBytes]

@[simp] theorem takeBytes_zero (s : List Char) : takeBytes 0 s = [] := by
  cases s with
  | nil => simp
  | cons c rest => simp [takeBytes, (Char.utf8Size_pos c).ne']

@[simp] theorem byteLength_nil : byteLength [] = 0 := rfl

@[simp] theorem byteLength_cons (c : Char) (s : List Char) :
    byteLength (c :: s) = c.utf8Size + byteLength s := by
  simp [byteLength]

theorem takeBytes_append (n : Nat) (s t : List Char) :
    takeBytes n (s ++ t) = takeBytes n s ++ takeBytes (n - byteLength s) t := by
  induction s generalizing n with
  | nil => simp
  | cons c rest ih =>
    by_cases hfits : c.utf8Size ≤ n
    · simp only [cons_append, takeBytes, if_pos hfits, ih, byteLength_cons, Nat.sub_sub]
    · have hnone : n - byteLength (c :: rest) = 0 := by
        rw [byteLength_cons]
        omega
      simp only [cons_append, takeBytes, if_neg hfits, hnone, takeBytes_zero, append_nil]

theorem takeBytes_of_le (h : byteLength s ≤ n) : takeBytes n s = s := by
  induction s generalizing n with
  | nil => simp
  | cons c rest ih =>
    rw [byteLength_cons] at h
    rw [takeBytes, if_pos (by omega), ih (by omega)]

theorem byteLength_takeBytes (n : Nat) (s : List Char) :
    byteLength (takeBytes n s) = min n (byteLength s) := by
  induction s generalizing n with
  | nil => simp
  | cons c rest ih =>
    rw [takeBytes]
    split
    · rw [byteLength_cons, byteLength_cons, ih]
      omega
    next hfits =>
      have hnul : byteLength (replicate n '\x00') = n := by
        simp [byteLength, show Char.utf8Size '\x00' = 1 from rfl]
      rw [hnul, byteLength_cons]
      omega

theorem mem_takeBytes (h : c ∈ takeBytes n s) : c ∈ s ∨ c = '\x00' := by
  induction s generalizing n with
  | nil => simp at h
  | cons d rest ih =>
    rw [takeBytes] at h
    split at h
    · rcases mem_cons.1 h with rfl | h
      · exact .inl mem_cons_self
      · exact (ih h).imp_left (mem_cons_of_mem d)
    · exact .inr (eq_of_mem_replicate h)

theorem length_le_byteLength (s : List Char) : s.length ≤ byteLength s := by
  induction s with
  | nil => simp
  | cons c rest ih =>
    have hc := Char.utf8Size_pos c
    rw [length_cons, byteLength_cons]
    omega

theorem takeBytes_eq_take (h : ∀ c ∈ s, c.utf8Size = 1) (n : Nat) : takeBytes n s = s.take n := by
  induction s generalizing n with
  | nil => simp
  | cons c rest ih =>
    have hc := h c mem_cons_self
    cases n with
    | zero => simp
    | succ n =>
      rw [takeBytes, hc, if_pos (by omega), take_succ_cons, Nat.add_sub_cancel,
        ih fun d hd => h d (mem_cons_of_mem c hd)]

theorem trimSpace_takeBytes_ne_nil (htight : Tight s) (hne : s ≠ []) (hn : 0 < n) :
    trimSpace (takeBytes n s) ≠ [] := by
  cases s with
  | nil => exact absurd rfl hne
  | cons c rest =>
    have hc : isSpace c = false := htight.head c (by simp)
    obtain ⟨d, more, hcut, hd⟩ : ∃ d more, takeBytes n (c :: rest) = d :: more ∧
        isSpace d = false := by
      rw [takeBytes]
      split
      · exact ⟨c, _, rfl, hc⟩
      · obtain ⟨m, rfl⟩ := Nat.exists_eq_add_of_lt hn
        exact ⟨'\x00', replicate (0 + m) '\x00', rfl, by decide⟩
    intro hempty
    have hspace := trimSpace_eq_nil.1 hempty d (by rw [hcut]; exact mem_cons_self)
    simp [hd] at hspace

theorem byteLength_eq_length (h : ∀ c ∈ s, c.utf8Size = 1) : byteLength s = s.length := by
  induction s with
  | nil => rfl
  | cons c rest ih =>
    rw [byteLength_cons, h c mem_cons_self, ih fun d hd => h d (mem_cons_of_mem c hd),
      length_cons, Nat.add_comm]

/-! ## Fields -/

/-- What holds of a text without the separator, and of a first field before a
text of which it holds, holds of every text. -/
theorem field_induction {motive : List Char → Prop} (sep : Char)
    (last : ∀ s, sep ∉ s → motive s)
    (field : ∀ s rest, sep ∉ s → motive rest → motive (s ++ sep :: rest)) (s : List Char) :
    motive s := by
  -- the induction is on the characters, and the first field grows from the left
  suffices h : ∀ front, sep ∉ front → motive (front ++ s) from h [] not_mem_nil
  induction s with
  | nil =>
    intro front hfront
    rw [append_nil]
    exact last front hfront
  | cons c rest ih =>
    intro front hfront
    by_cases hc : c = sep
    · subst hc
      exact field front rest hfront (ih [] not_mem_nil)
    · rw [append_cons]
      apply ih
      simpa [hfront] using Ne.symm hc

theorem mem_of_index (hi : index sep s = some i) (h : c ∈ s) :
    c ∈ s.take i ∨ c = sep ∨ c ∈ s.drop (i + 1) := by
  obtain ⟨hlt, hsep, -⟩ := findIdx?_eq_some_iff_getElem.1 hi
  rw [← take_append_drop i s, mem_append, drop_eq_getElem_cons hlt, mem_cons] at h
  simp only [decide_eq_true_eq] at hsep
  rwa [hsep] at h

theorem splitOn_field (h : sep ∉ s) (t : List Char) :
    (s ++ sep :: t).splitOn sep = s :: t.splitOn sep := by
  rw [splitOn_append_cons_self, splitOn_eq_singleton h, singleton_append]

theorem mem_of_mem_splitOn (hpiece : piece ∈ s.splitOn sep) (hc : c ∈ piece) : c ∈ s := by
  induction s using field_induction sep with
  | last s hs =>
    rw [splitOn_eq_singleton hs, mem_singleton] at hpiece
    exact hpiece ▸ hc
  | field s rest hs ih =>
    rw [splitOn_field hs] at hpiece
    rcases mem_cons.1 hpiece with rfl | hpiece
    · exact mem_append_left _ hc
    · exact mem_append_right s (mem_cons_of_mem sep (ih hpiece))

theorem byteLength_trimSpace_le (s : List Char) : byteLength (trimSpace s) ≤ byteLength s := by
  obtain ⟨lead, trail, hs, -, -⟩ := exists_trimSpace s
  have hlength := congrArg byteLength hs
  rw [byteLength_append, byteLength_append] at hlength
  omega

/-- A text comes back from a trimmed piece of it only if it came whole. -/
theorem trimSpace_takeBytes_eq_iff :
    trimSpace (takeBytes n s) = s ↔ Tight s ∧ byteLength s ≤ n := by
  constructor
  · intro h
    have hlength := byteLength_trimSpace_le (takeBytes n s)
    rw [h, byteLength_takeBytes] at hlength
    exact ⟨h ▸ tight_trimSpace _, by omega⟩
  · rintro ⟨htight, hfits⟩
    rw [takeBytes_of_le hfits, htight.trimSpace]

/-- Space at the ends of a text is space at the ends of its first and its last
field. -/
theorem map_trimSpace_splitOn (hsep : isSpace sep = false) (s : List Char) :
    ((trimSpace s).splitOn sep).map trimSpace = (s.splitOn sep).map trimSpace := by
  obtain ⟨lead, trail, hs, hlead, htrail⟩ := exists_trimSpace s
  have hout : ∀ {l : List Char}, (∀ c ∈ l, isSpace c = true) → sep ∉ l := by
    intro l hl hmem
    simp [hl sep hmem] at hsep
  have hback : ∀ t : List Char,
      ((t ++ trail).splitOn sep).map trimSpace = (t.splitOn sep).map trimSpace := by
    intro t
    induction t using field_induction sep with
    | last t ht =>
      have hall : sep ∉ t ++ trail := by simp [ht, hout htrail]
      have htrim := @trimSpace_append [] trail (by simp) htrail t
      rw [nil_append] at htrim
      rw [splitOn_eq_singleton ht, splitOn_eq_singleton hall]
      simp [htrim]
    | field t rest ht ih =>
      rw [append_assoc, cons_append, splitOn_field ht, splitOn_field ht]
      simp [ih]
  have hfront : ∀ t : List Char,
      ((lead ++ t).splitOn sep).map trimSpace = (t.splitOn sep).map trimSpace := by
    intro t
    have htrim : ∀ u : List Char, trimSpace (lead ++ u) = trimSpace u := by
      intro u
      simpa using @trimSpace_append lead [] hlead (by simp) u
    induction t using field_induction sep with
    | last t ht =>
      have hall : sep ∉ lead ++ t := by simp [ht, hout hlead]
      rw [splitOn_eq_singleton ht, splitOn_eq_singleton hall]
      simp [htrim]
    | field t rest ht ih =>
      have hall : sep ∉ lead ++ t := by simp [ht, hout hlead]
      rw [← append_assoc, splitOn_field hall, splitOn_field ht]
      simp [htrim]
  rw [hs, hback, hfront, ← hs]

/-! ## Fields that are cut off -/

/-- The bytes before field `i`, with a separator of one byte after each
field. -/
def startOf (fields : List (List Char)) (i : Nat) : Nat :=
  ((fields.take i).map fun f => byteLength f + 1).sum

@[simp] theorem startOf_zero (fields : List (List Char)) : startOf fields 0 = 0 := by
  simp [startOf]

@[simp] theorem startOf_cons_succ (f : List Char) (rest : List (List Char)) (i : Nat) :
    startOf (f :: rest) (i + 1) = byteLength f + 1 + startOf rest i := by
  simp [startOf]

theorem startOf_succ (hi : fields[i]? = some f) :
    startOf fields (i + 1) = startOf fields i + byteLength f + 1 := by
  rw [startOf, take_add_one, hi, map_append, sum_append, startOf]
  simp [Nat.add_assoc]

def endOf (fields : List (List Char)) (i : Nat) : Nat :=
  startOf fields i + byteLength (fields.getD i [])

theorem endOf_eq (hi : fields[i]? = some f) : endOf fields i = startOf fields i + byteLength f := by
  rw [endOf, getD_eq_getElem?_getD, hi, Option.getD_some]

theorem startOf_mono (h : i ≤ j) : startOf fields i ≤ startOf fields j := by
  induction h with
  | refl => exact le_refl _
  | step h ih =>
    rw [startOf, startOf, take_add_one, map_append, sum_append]
    rw [startOf, startOf] at ih
    omega

theorem endOf_le_endOf (h : i < j) (hj : j < fields.length) : endOf fields i ≤ endOf fields j := by
  obtain ⟨f, hf⟩ : ∃ f, fields[i]? = some f := ⟨_, getElem?_eq_getElem (h.trans hj)⟩
  have hmono : startOf fields (i + 1) ≤ startOf fields j := startOf_mono h
  rw [startOf_succ hf] at hmono
  rw [endOf_eq hf, endOf]
  omega

theorem takeBytes_field (hsize : sep.utf8Size = 1) (n : Nat) (s t : List Char) :
    takeBytes n (s ++ sep :: t) =
      if byteLength s + 1 ≤ n then s ++ sep :: takeBytes (n - (byteLength s + 1)) t
      else takeBytes n s := by
  rw [takeBytes_append]
  split
  · rw [takeBytes_of_le (by omega), takeBytes, hsize, if_pos (by omega), Nat.sub_sub]
  · rw [Nat.sub_eq_zero_of_le (by omega), takeBytes_zero, append_nil]

theorem getElem?_splitOn_takeBytes (hsize : sep.utf8Size = 1) (hnul : sep ≠ '\x00')
    (hfields : ∀ f ∈ fields, sep ∉ f) (hi : fields[i]? = some f) (n : Nat) :
    ((takeBytes n ([sep].intercalate fields)).splitOn sep)[i]? =
      if startOf fields i ≤ n then some (takeBytes (n - startOf fields i) f) else none := by
  have hcut : ∀ {g : List Char} (m : Nat), sep ∉ g → sep ∉ takeBytes m g := by
    intro g m hg hmem
    exact (mem_takeBytes hmem).elim hg hnul
  induction fields generalizing n i with
  | nil => simp at hi
  | cons g rest ih =>
    have hg : sep ∉ g := hfields g mem_cons_self
    have hrest : ∀ f ∈ rest, sep ∉ f := fun f hf => hfields f (mem_cons_of_mem g hf)
    cases rest with
    | nil =>
      obtain ⟨rfl, rfl⟩ : i = 0 ∧ g = f := by
        cases i with
        | zero => simpa using hi
        | succ i => simp at hi
      rw [intercalate_singleton, splitOn_eq_singleton (hcut n hg)]
      simp
    | cons next more =>
      rw [intercalate_cons_cons, append_assoc, singleton_append, takeBytes_field hsize]
      split
      next hreach =>
        rw [splitOn_field hg]
        cases i with
        | zero =>
          obtain rfl : g = f := by simpa using hi
          simp [takeBytes_of_le (show byteLength g ≤ n by omega)]
        | succ i =>
          rw [getElem?_cons_succ] at hi ⊢
          have hiff : startOf (next :: more) i ≤ n - (byteLength g + 1) ↔
              byteLength g + 1 + startOf (next :: more) i ≤ n := by omega
          rw [ih hrest hi, startOf_cons_succ]
          simp only [hiff, Nat.sub_sub]
      next hreach =>
        rw [splitOn_eq_singleton (hcut n hg)]
        cases i with
        | zero =>
          obtain rfl : g = f := by simpa using hi
          simp
        | succ i =>
          rw [startOf_cons_succ, if_neg (by omega)]
          simp

/-! ## Numbers -/

theorem val_le_of_isDigit (h : c.isDigit = true) : c.val ≤ 57 := by
  simp only [Char.isDigit, Bool.and_eq_true, decide_eq_true_eq] at h
  exact h.2

theorem utf8Size_of_isDigit (h : c.isDigit = true) : c.utf8Size = 1 :=
  if_pos (UInt32.le_trans (val_le_of_isDigit h) (by decide))

theorem toLower_of_isDigit (h : c.isDigit = true) : c.toLower = c := by
  unfold Char.toLower
  rw [dif_neg]
  rintro ⟨hupper, -⟩
  exact absurd (UInt32.le_trans hupper (val_le_of_isDigit h)) (by decide)

theorem lt_foldl_digits (hne : ds ≠ []) (hn : 1 ≤ n) : n < ds.foldl (fun n d => n * 10 + d) n := by
  induction ds generalizing n with
  | nil => exact absurd rfl hne
  | cons d rest ih =>
    rw [foldl_cons]
    cases rest with
    | nil =>
      rw [foldl_nil]
      omega
    | cons next more =>
      have hlt := ih (cons_ne_nil next more) (show 1 ≤ n * 10 + d by omega)
      omega

theorem decimal_of_digits (hne : s ≠ []) (h : ∀ c ∈ s, c.isDigit = true) :
    decimal s = some ((s.map fun c => c.toNat - '0'.toNat).foldl (fun n d => n * 10 + d) 0) := by
  unfold decimal
  rw [mapM_digit h]
  cases s with
  | nil => exact absurd rfl hne
  | cons c rest => rfl

theorem atoi_of_digits (h : ∀ c ∈ s, c.isDigit = true) :
    atoi s = (decimal s).bind fun n => if n < 2 ^ 63 then some (n : Int) else none := by
  unfold atoi
  split
  next rest => exact absurd (h '-' mem_cons_self) (by decide)
  next rest => exact absurd (h '+' mem_cons_self) (by decide)
  next => rfl

theorem decimal_lt (hdigits : ∀ c ∈ s ++ t, c.isDigit = true) (ht : t ≠ [])
    (hs : decimal s = some q) (hq : 1 ≤ q) (hst : decimal (s ++ t) = some m) : q < m := by
  have hne : s ≠ [] := by
    rintro rfl
    cases hs
  rw [decimal_of_digits hne fun c hc => hdigits c (mem_append_left t hc), Option.some.injEq] at hs
  rw [decimal_of_digits (by simp [hne]) hdigits, map_append, foldl_append, hs,
    Option.some.injEq] at hst
  rw [← hst]
  apply lt_foldl_digits _ hq
  simpa using ht

end Text
