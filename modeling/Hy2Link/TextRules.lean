import Hy2Link.EndpointText
import Mathlib.Data.List.DropRight

/-! # Rules for texts

What trimming, splitting and searching do to the texts that the configuration,
the credentials and the registration frames are made of.
-/

namespace Text

open List Option

theorem byteLength_append (s t : List Char) :
    byteLength (s ++ t) = byteLength s + byteLength t := by
  simp [byteLength]

/-! ## Trimming -/

structure Tight (s : List Char) : Prop where
  head : ∀ c ∈ s.head?, isSpace c = false
  last : ∀ c ∈ s.getLast?, isSpace c = false

theorem dropWhile_of_head {s : List Char} (h : ∀ c ∈ s.head?, isSpace c = false) :
    s.dropWhile isSpace = s := by
  cases s with
  | nil => rfl
  | cons c rest => simp [h c (by simp)]

theorem Tight.trimSpace {s : List Char} (h : Tight s) : trimSpace s = s := by
  have hlast : s.reverse.dropWhile isSpace = s.reverse :=
    dropWhile_of_head fun c hc => h.last c (by rwa [head?_reverse] at hc)
  rw [Text.trimSpace, dropWhile_of_head h.head, hlast, reverse_reverse]

theorem tight_trimSpace (s : List Char) : Tight (trimSpace s) := by
  have hprefix : trimSpace s <+: s.dropWhile isSpace := rdropWhile_prefix isSpace _
  constructor
  · intro c hc
    obtain ⟨rest, hrest⟩ := hprefix
    have hhead : (s.dropWhile isSpace).head? = some c := by
      rw [← hrest, head?_append, mem_def.1 hc]
      rfl
    have hnot := head?_dropWhile_not isSpace s
    rw [hhead] at hnot
    exact hnot
  · intro c hc
    have hnot := head?_dropWhile_not isSpace (s.dropWhile isSpace).reverse
    rw [Text.trimSpace, getLast?_reverse] at hc
    rw [mem_def.1 hc] at hnot
    exact hnot

theorem trimSpace_eq_self_iff : trimSpace s = s ↔ Tight s :=
  ⟨fun h => h ▸ tight_trimSpace s, Tight.trimSpace⟩

theorem Tight.append (hfront : Tight front) (hback : Tight back) (hf : front ≠ []) (hb : back ≠ [])
    (middle : List Char) : Tight (front ++ middle ++ back) := by
  constructor
  · intro c hc
    apply hfront.head
    rwa [append_assoc, head?_append_of_ne_nil _ hf] at hc
  · intro c hc
    apply hback.last
    rwa [getLast?_append_of_ne_nil _ hb] at hc

theorem tight_dotted (ip : BitVec 32) : Tight (dotted ip) :=
  trimSpace_eq_self_iff.1 (trimSpace_dotted ip)

theorem mem_of_mem_trimSpace (h : c ∈ trimSpace s) : c ∈ s := by
  rw [trimSpace, mem_reverse] at h
  have hdropped := mem_reverse.1 ((dropWhile_sublist _).mem h)
  exact (dropWhile_sublist _).mem hdropped

theorem trimSpace_idem (s : List Char) : trimSpace (trimSpace s) = trimSpace s :=
  (tight_trimSpace s).trimSpace

/-! ## Pieces -/

theorem index_append (h : c ∉ front) : index c (front ++ c :: rest) = some front.length := by
  rw [index, findIdx?_append]
  have hnone : front.findIdx? (· = c) = none := by
    rw [findIdx?_eq_none_iff]
    intro x hx
    simp only [decide_eq_false_iff_not]
    rintro rfl
    exact h hx
  simp [hnone, findIdx?_cons]

theorem not_mem_take_index (h : index c s = some i) : c ∉ s.take i := by
  obtain ⟨hi, -, hbefore⟩ := findIdx?_eq_some_iff_getElem.1 h
  intro hmem
  obtain ⟨j, hj, hget⟩ := mem_take_iff_getElem.1 hmem
  have hne := hbefore j (lt_of_lt_of_le hj (min_le_left _ _))
  simp [hget] at hne

theorem splitN_append (n : Nat) (h : c ∉ front) :
    splitN c (n + 2) (front ++ c :: rest) = front :: splitN c (n + 1) rest := by
  rw [splitN, index_append h]
  simp

theorem not_mem_of_mem_splitN (h : piece ∈ (splitN c n s).dropLast) : c ∉ piece := by
  fun_induction splitN c n s with
  | case1 s => simp at h
  | case2 s => simp at h
  | case3 n s hindex => simp at h
  | case4 n s i hindex ih =>
    cases hrest : splitN c (n + 1) (s.drop (i + 1)) with
    | nil => simp [hrest] at h
    | cons first rest =>
      rw [hrest] at h ih
      rcases mem_cons.1 h with rfl | h
      · exact not_mem_take_index hindex
      · exact ih h

theorem mem_intercalate (h : c ∈ [sep].intercalate pieces) :
    c = sep ∨ ∃ piece ∈ pieces, c ∈ piece := by
  induction pieces with
  | nil => cases h
  | cons piece rest ih =>
    cases rest with
    | nil =>
      rw [intercalate_singleton] at h
      exact .inr ⟨piece, mem_cons_self, h⟩
    | cons next more =>
      rw [intercalate_cons_cons, append_assoc, mem_append, mem_append, mem_singleton] at h
      rcases h with h | h | h
      · exact .inr ⟨piece, mem_cons_self, h⟩
      · exact .inl h
      · refine (ih h).imp_right ?_
        rintro ⟨other, hother, hc⟩
        exact ⟨other, mem_cons_of_mem _ hother, hc⟩

theorem mem_splitOn {sep c : Char} {s : List Char} (h : c ∈ s) :
    c = sep ∨ ∃ piece ∈ s.splitOn sep, c ∈ piece := by
  apply mem_intercalate
  rw [intercalate_splitOn]
  exact h

/-! ## Numbers -/

theorem isDigit_of_digit (h : digit c = some d) : c.isDigit = true := by
  simp only [digit, ite_none_right_eq_some, Bool.and_eq_true, decide_eq_true_eq] at h
  simpa [Char.isDigit, Char.le_def] using h.1

theorem exists_of_mapM {α β : Type} {f : α → Option β} {xs : List α} {ys : List β}
    (h : xs.mapM f = some ys) {x : α} (hx : x ∈ xs) : ∃ y, f x = some y := by
  induction xs generalizing ys with
  | nil => cases hx
  | cons x' rest ih =>
    rw [mapM_cons, bind_eq_bind, bind_eq_some_iff] at h
    obtain ⟨y, hy, h⟩ := h
    rcases mem_cons.1 hx with rfl | hx
    · exact ⟨y, hy⟩
    · rw [bind_eq_bind, bind_eq_some_iff] at h
      obtain ⟨rest', hrest, -⟩ := h
      exact ih hrest hx

theorem mem_of_mapM {α β : Type} {f : α → Option β} {xs : List α} {ys : List β}
    (h : xs.mapM f = some ys) {y : β} (hy : y ∈ ys) : ∃ x ∈ xs, f x = some y := by
  induction xs generalizing ys with
  | nil =>
    cases h
    cases hy
  | cons x rest ih =>
    simp only [mapM_cons, Option.bind_eq_bind, Option.bind_eq_some_iff, Option.pure_def,
      some.injEq] at h
    obtain ⟨y', hy', rest', hrest, rfl⟩ := h
    rcases mem_cons.1 hy with rfl | hy
    · exact ⟨x, mem_cons_self, hy'⟩
    · obtain ⟨x', hx', hfx'⟩ := ih hrest hy
      exact ⟨x', mem_cons_of_mem _ hx', hfx'⟩

theorem isDigit_of_decimal {s : List Char} {n : Nat} (h : decimal s = some n) {c : Char}
    (hc : c ∈ s) : c.isDigit = true := by
  cases hdigits : s.mapM digit with
  | none => simp [decimal, hdigits] at h
  | some ds =>
    obtain ⟨d, hd⟩ := exists_of_mapM hdigits hc
    exact isDigit_of_digit hd

theorem atoi_lt (h : atoi s = some n) : n < 2 ^ 63 := by
  unfold atoi at h
  split at h
  · obtain ⟨m, -, hm⟩ := bind_eq_some_iff.1 h
    rw [ite_none_right_eq_some, some.injEq] at hm
    omega
  · obtain ⟨m, -, hm⟩ := bind_eq_some_iff.1 h
    rw [ite_none_right_eq_some, some.injEq] at hm
    omega
  · obtain ⟨m, -, hm⟩ := bind_eq_some_iff.1 h
    rw [ite_none_right_eq_some, some.injEq] at hm
    omega

theorem chars_of_atoi (h : atoi s = some n) (hc : c ∈ s) :
    c.isDigit = true ∨ c = '-' ∨ c = '+' := by
  unfold atoi at h
  split at h
  next rest =>
    obtain ⟨m, hm, -⟩ := bind_eq_some_iff.1 h
    rcases mem_cons.1 hc with rfl | hc
    · exact .inr (.inl rfl)
    · exact .inl (isDigit_of_decimal hm hc)
  next rest =>
    obtain ⟨m, hm, -⟩ := bind_eq_some_iff.1 h
    rcases mem_cons.1 hc with rfl | hc
    · exact .inr (.inr rfl)
    · exact .inl (isDigit_of_decimal hm hc)
  next =>
    obtain ⟨m, hm, -⟩ := bind_eq_some_iff.1 h
    exact .inl (isDigit_of_decimal hm hc)

/-! ## Addresses -/

theorem isDigit_of_octet (h : octet s = some n) (hc : c ∈ s) : c.isDigit = true := by
  unfold octet at h
  split at h
  · cases h
  · obtain ⟨m, hm, -⟩ := bind_eq_some_iff.1 h
    exact isDigit_of_decimal hm hc

/-- The characters of an address. -/
def AddrChar (c : Char) : Prop := (hexDigit c).isSome = true ∨ c = '.' ∨ c = ':'

theorem addrChar_of_isDigit (h : c.isDigit = true) : AddrChar c := by
  have hrange : '0' ≤ c ∧ c ≤ '9' := by simpa [Char.isDigit, Char.le_def] using h
  exact .inl (by simp [hexDigit, hrange])

theorem AddrChar.not_isSpace (h : AddrChar c) : isSpace c = false := by
  rcases h with h | rfl | rfl
  · have hrange : 48 ≤ c.toNat ∧ c.toNat ≤ 102 := by
      unfold hexDigit at h
      simp only [Bool.and_eq_true, decide_eq_true_eq, Char.le_def, UInt32.le_iff_toNat_le] at h
      split at h
      next hc => exact ⟨hc.1, hc.2.trans (by decide)⟩
      next =>
        split at h
        next hc => exact ⟨le_trans (by decide) hc.1, hc.2⟩
        next =>
          split at h
          next hc => exact ⟨le_trans (by decide) hc.1, hc.2.trans (by decide)⟩
          · cases h
    simp [isSpace]
    omega
  · decide
  · decide

theorem chars_of_parseIPv4 {s : List Char} {v : BitVec 32} (h : parseIPv4 s = some v) {c : Char}
    (hc : c ∈ s) : c.isDigit = true ∨ c = '.' := by
  unfold parseIPv4 at h
  split at h
  next hoctets =>
    rcases (mem_splitOn hc : c = '.' ∨ _) with rfl | ⟨piece, hpiece, hc⟩
    · exact .inr rfl
    · obtain ⟨n, hn⟩ := exists_of_mapM hoctets hpiece
      exact .inl (isDigit_of_octet hn hc)
  · cases h

theorem chars_of_parseGroups (h : parseGroups fuel groups ellipsis s = some r) (hc : c ∈ s) :
    AddrChar c := by
  induction fuel generalizing groups ellipsis s with
  | zero => cases h
  | succ fuel ih =>
    have hsplit : c ∈ s.takeWhile (fun c => (hexDigit c).isSome) ∨
        c ∈ s.dropWhile fun c => (hexDigit c).isSome := by
      rw [← mem_append, takeWhile_append_dropWhile]
      exact hc
    rcases hsplit with hdigit | hrest
    · exact .inl (mem_takeWhile_imp (p := fun c => (hexDigit c).isSome) hdigit)
    · unfold parseGroups at h
      dsimp only at h
      split at h
      · cases h
      · -- what is left behind the digits
        split at h
        next =>
          split at h
          · cases h
          · obtain ⟨v, hv, -⟩ := map_eq_some_iff.1 h
            exact (chars_of_parseIPv4 hv hc).elim addrChar_of_isDigit fun h => .inr (.inl h)
        next heq =>
          simp [heq] at hrest
        next heq =>
          rw [heq] at hrest
          simp at hrest
          exact .inr (.inr hrest)
        next more _ heq =>
          split at h
          · cases h
          · rw [heq] at hrest
            simp only [mem_cons] at hrest
            rcases hrest with rfl | rfl | hmore
            · exact .inr (.inr rfl)
            · exact .inr (.inr rfl)
            · exact ih h hmore
        next c' more _ heq =>
          rw [heq] at hrest
          rcases mem_cons.1 hrest with rfl | hmore
          · exact .inr (.inr rfl)
          · exact ih h hmore
        · cases h

theorem chars_of_parseIP (h : parseIP s = some ip) (hc : c ∈ s) : AddrChar c := by
  unfold parseIP at h
  split at h
  · obtain ⟨v, hv, -⟩ := map_eq_some_iff.1 h
    exact (chars_of_parseIPv4 hv hc).elim addrChar_of_isDigit fun h => .inr (.inl h)
  · obtain ⟨groups, hgroups, -⟩ := map_eq_some_iff.1 h
    obtain ⟨parsed, hparsed, -⟩ := bind_eq_some_iff.1 hgroups
    split at hparsed
    · simp at hc
      exact .inr (.inr hc)
    next rest _ =>
      rcases mem_cons.1 hc with rfl | hc
      · exact .inr (.inr rfl)
      · rcases mem_cons.1 hc with rfl | hc
        · exact .inr (.inr rfl)
        · exact chars_of_parseGroups hparsed hc
    · exact chars_of_parseGroups hparsed hc
  · cases h

theorem trimSpace_of_parseIP (h : parseIP s = some ip) : trimSpace s = s :=
  trimSpace_of_forall fun _ hc => (chars_of_parseIP h hc).not_isSpace

end Text
