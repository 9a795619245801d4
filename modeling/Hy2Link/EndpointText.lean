import Hy2Link.Text
import Mathlib.Data.Nat.Digits.Defs

/-! # The text of an IPv4 endpoint

`netip.AddrPort` writes an IPv4 endpoint as a dotted address, a colon and a
decimal port.  The functions that read such a text give the endpoint back.
-/

namespace Text

open List

structure Endpoint where
  ip : BitVec 32
  port : Nat
deriving DecidableEq

/-- One of the four bytes, the first one with the number 0. -/
def octetOf (ip : BitVec 32) (i : Nat) : Nat := ip.toNat / 256 ^ (3 - i) % 256

def dotted (ip : BitVec 32) : List Char :=
  Nat.toDigits 10 (octetOf ip 0) ++ '.' :: (Nat.toDigits 10 (octetOf ip 1) ++
    '.' :: (Nat.toDigits 10 (octetOf ip 2) ++ '.' :: Nat.toDigits 10 (octetOf ip 3)))

def Endpoint.text (e : Endpoint) : List Char := dotted e.ip ++ ':' :: Nat.toDigits 10 e.port

example : (Endpoint.mk 0xcb007107 4000).text = "203.0.113.7:4000".toList := by decide +kernel

/-! ## Digits -/

variable {n : Nat} {c : Char} {host : List Char}

theorem isDigit_of_mem (h : c ∈ Nat.toDigits 10 n) : c.isDigit = true :=
  Nat.isDigit_of_mem_toDigits (by decide) (by decide) h

theorem digit_of_isDigit (h : c.isDigit = true) : digit c = some (c.toNat - '0'.toNat) := by
  have hrange : '0' ≤ c ∧ c ≤ '9' := by simpa [Char.isDigit, Char.le_def] using h
  simp [digit, hrange]

theorem mapM_digit {s : List Char} (h : ∀ c ∈ s, c.isDigit = true) :
    s.mapM digit = some (s.map fun c => c.toNat - '0'.toNat) := by
  induction s with
  | nil => rfl
  | cons c rest ih =>
    rw [mapM_cons, digit_of_isDigit (h c mem_cons_self),
      ih fun c' hc' => h c' (mem_cons_of_mem _ hc')]
    rfl

theorem decimal_toDigits (n : Nat) : decimal (Nat.toDigits 10 n) = some n := by
  have hdigits : (Nat.toDigits 10 n).mapM digit =
      some ((Nat.toDigits 10 n).map fun c => c.toNat - '0'.toNat) :=
    mapM_digit fun c hc => isDigit_of_mem hc
  have hvalue : ((Nat.toDigits 10 n).map fun c => c.toNat - '0'.toNat).foldl
      (fun n d => n * 10 + d) 0 = n := by
    rw [foldl_map]
    simpa [Nat.ofDigitChars, Nat.mul_comm] using @Nat.ofDigitChars_ten_toDigits n
  unfold decimal
  rw [hdigits]
  cases hs : (Nat.toDigits 10 n).map fun c => c.toNat - '0'.toNat with
  | nil => exact absurd (map_eq_nil_iff.1 hs) Nat.toDigits_ne_nil
  | cons d rest =>
    rw [hs] at hvalue
    simp only [hvalue]

theorem octet_toDigits (h : n < 256) : octet (Nat.toDigits 10 n) = some n := by
  have hall : ∀ n < 256, octet (Nat.toDigits 10 n) = some n := by decide +kernel
  exact hall n h

theorem not_mem_toDigits (hc : c.isDigit = false) (n : Nat) : c ∉ Nat.toDigits 10 n := by
  intro h
  simp [isDigit_of_mem h] at hc

/-! ## Addresses -/

theorem octetOf_lt (ip : BitVec 32) (i : Nat) : octetOf ip i < 256 := Nat.mod_lt _ (by decide)

theorem splitOn_dotted (ip : BitVec 32) :
    (dotted ip).splitOn '.' =
      [Nat.toDigits 10 (octetOf ip 0), Nat.toDigits 10 (octetOf ip 1),
        Nat.toDigits 10 (octetOf ip 2), Nat.toDigits 10 (octetOf ip 3)] := by
  have hdot : ∀ n, '.' ∉ Nat.toDigits 10 n := not_mem_toDigits (by decide)
  rw [dotted, splitOn_append_cons_self_of_not_mem (hdot _),
    splitOn_append_cons_self_of_not_mem (hdot _),
    splitOn_append_cons_self_of_not_mem (hdot _), splitOn_eq_singleton (hdot _)]

theorem join_octets (ip : BitVec 32) :
    ((octetOf ip 0 * 256 + octetOf ip 1) * 256 + octetOf ip 2) * 256 + octetOf ip 3 =
      ip.toNat := by
  have hlt := ip.isLt
  simp only [octetOf]
  omega

theorem parseIPv4_dotted (ip : BitVec 32) : parseIPv4 (dotted ip) = some ip := by
  have hoctets : [Nat.toDigits 10 (octetOf ip 0), Nat.toDigits 10 (octetOf ip 1),
      Nat.toDigits 10 (octetOf ip 2), Nat.toDigits 10 (octetOf ip 3)].mapM octet =
        some [octetOf ip 0, octetOf ip 1, octetOf ip 2, octetOf ip 3] := by
    simp [mapM_cons, octet_toDigits (octetOf_lt ip _)]
  rw [parseIPv4, splitOn_dotted, hoctets]
  simp only [join_octets, BitVec.ofNat_toNat, BitVec.setWidth_eq]

theorem parseIP_dotted (ip : BitVec 32) : parseIP (dotted ip) = some (IP.ofIPv4 ip) := by
  have hfind : (dotted ip).find? (fun c => c = '.' || c = ':' || c = '%') = some '.' := by
    rw [dotted, find?_append]
    have hnone : (Nat.toDigits 10 (octetOf ip 0)).find?
        (fun c => c = '.' || c = ':' || c = '%') = none := by
      rw [find?_eq_none]
      intro c hc hsep
      have hdigit := isDigit_of_mem hc
      simp only [Bool.or_eq_true, decide_eq_true_eq] at hsep
      rcases hsep with (rfl | rfl) | rfl <;> revert hdigit <;> decide
    rw [hnone]
    rfl
  unfold parseIP
  rw [hfind, parseIPv4_dotted]
  rfl

theorem to4_ofIPv4 (ip : BitVec 32) : (IP.ofIPv4 ip).to4 = some ip := by
  have hlt := ip.isLt
  have hnat : (IP.ofIPv4 ip).toNat = 0xffff * 2 ^ 32 + ip.toNat := by
    rw [IP.ofIPv4, BitVec.toNat_ofNat]
    omega
  have hhigh : (0xffff * 2 ^ 32 + ip.toNat) / 2 ^ 32 = 0xffff := by omega
  have hlow : (0xffff * 2 ^ 32 + ip.toNat) % 2 ^ 32 = ip.toNat := by omega
  rw [IP.to4, hnat, if_pos hhigh, hlow, BitVec.ofNat_toNat, BitVec.setWidth_eq]

theorem parseTo4_dotted (ip : BitVec 32) : parseTo4 (dotted ip) = some ip := by
  rw [parseTo4, parseIP_dotted, Option.bind_some, to4_ofIPv4]

theorem dotted_chars (h : c ∈ dotted ip) : c.isDigit = true ∨ c = '.' := by
  simp only [dotted, mem_append, mem_cons] at h
  rcases h with h | rfl | h | rfl | h | rfl | h
  · exact .inl (isDigit_of_mem h)
  · exact .inr rfl
  · exact .inl (isDigit_of_mem h)
  · exact .inr rfl
  · exact .inl (isDigit_of_mem h)
  · exact .inr rfl
  · exact .inl (isDigit_of_mem h)

theorem not_mem_dotted (hdigit : c.isDigit = false) (hdot : c ≠ '.') (ip : BitVec 32) :
    c ∉ dotted ip := by
  intro h
  rcases dotted_chars h with hd | hd
  · simp [hd] at hdigit
  · exact hdot hd

/-! ## Endpoints -/

theorem find_range_reverse (hi : i < n) (hp : p i = true)
    (hlast : ∀ j, i < j → j < n → p j = false) : (range n).reverse.find? p = some i := by
  induction n with
  | zero => omega
  | succ n ih =>
    rw [range_succ, reverse_append, reverse_singleton, singleton_append]
    by_cases heq : i = n
    · subst heq
      exact find?_cons_of_pos hp
    · have hn : p n = false := hlast n (by omega) (by omega)
      rw [find?_cons_of_neg (by simp [hn])]
      exact ih (by omega) fun j hij hj => hlast j hij (by omega)

/-- The last occurrence of a separator is the one behind which its first
character does not occur again. -/
theorem lastIndex_of_not_mem (hrest : c ∉ more ++ rest) :
    lastIndex (c :: more) (host ++ c :: (more ++ rest)) = some host.length := by
  apply find_range_reverse
  · simp only [length_append, length_cons]
    omega
  · simp
  · intro j hj _
    obtain ⟨k, rfl⟩ : ∃ k, j = host.length + 1 + k := ⟨j - (host.length + 1), by omega⟩
    have hdrop : (host ++ c :: (more ++ rest)).drop (host.length + 1 + k) =
        (more ++ rest).drop k := by
      rw [Nat.add_assoc, drop_length_add_append, Nat.add_comm 1 k, drop_succ_cons]
    rw [hdrop]
    cases htail : (more ++ rest).drop k with
    | nil => rfl
    | cons c' tail =>
      have hc' : c' ∈ more ++ rest := mem_of_mem_drop (htail ▸ mem_cons_self)
      have hne : c ≠ c' := fun heq => hrest (heq ▸ hc')
      simp [isPrefixOf, hne]

theorem lastIndex_colon (hport : ':' ∉ port) :
    lastIndex [':'] (host ++ ':' :: port) = some host.length :=
  @lastIndex_of_not_mem ':' host [] port hport

theorem splitHostPort_join (hhost : ':' ∉ host) (hport : ':' ∉ port)
    (hopen : '[' ∉ host ++ ':' :: port) (hclose : ']' ∉ host ++ ':' :: port) :
    splitHostPort (host ++ ':' :: port) = .ok (host, port) := by
  have hhead : (host ++ ':' :: port).head? ≠ some '[' := by
    intro hhead
    exact hopen (mem_of_mem_head? hhead)
  simp only [splitHostPort, lastIndex_colon hport, if_neg hhead, take_left', hhost, hopen,
    hclose, if_false]
  simp

theorem splitHostPort_text (e : Endpoint) :
    splitHostPort e.text = .ok (dotted e.ip, Nat.toDigits 10 e.port) := by
  have hnot : ∀ c : Char, c.isDigit = false → c ≠ '.' → c ≠ ':' → c ∉ e.text := by
    intro c hdigit hdot hcolon
    simp only [Endpoint.text, mem_append, mem_cons, not_or]
    exact ⟨not_mem_dotted hdigit hdot e.ip, hcolon, not_mem_toDigits hdigit e.port⟩
  apply splitHostPort_join
  · exact not_mem_dotted (by decide) (by decide) e.ip
  · exact not_mem_toDigits (by decide) e.port
  · exact hnot '[' (by decide) (by decide) (by decide)
  · exact hnot ']' (by decide) (by decide) (by decide)

theorem atoi_toDigits (h : n < 2 ^ 63) : atoi (Nat.toDigits 10 n) = some n := by
  have hdecimal := decimal_toDigits n
  unfold atoi
  split
  next rest heq => exact absurd (heq ▸ mem_cons_self) (not_mem_toDigits (by decide) n)
  next rest heq => exact absurd (heq ▸ mem_cons_self) (not_mem_toDigits (by decide) n)
  next => simpa [hdecimal] using h

theorem Endpoint.text_injective : Function.Injective Endpoint.text := by
  intro e e' h
  have hsplit := splitHostPort_text e
  rw [h, splitHostPort_text e', Except.ok.injEq, Prod.mk.injEq] at hsplit
  have hip : some e'.ip = some e.ip := by
    rw [← parseIPv4_dotted, ← parseIPv4_dotted, hsplit.1]
  have hport : some e'.port = some e.port := by
    rw [← decimal_toDigits, ← decimal_toDigits, hsplit.2]
  cases e
  cases e'
  simp_all

/-! ## Space -/

theorem trimSpace_of_forall (h : ∀ c ∈ s, isSpace c = false) : trimSpace s = s := by
  have hdrop : ∀ l : List Char, (∀ c ∈ l, isSpace c = false) → l.dropWhile isSpace = l := by
    intro l hl
    cases l with
    | nil => rfl
    | cons c rest => simp [hl c mem_cons_self]
  rw [trimSpace, hdrop s h, hdrop s.reverse fun c hc => h c (mem_reverse.1 hc), reverse_reverse]

theorem isSpace_of_isDigit (h : c.isDigit = true) : isSpace c = false := by
  have hrange : 48 ≤ c.toNat ∧ c.toNat ≤ 57 := by
    simpa [Char.isDigit, Char.le_def, UInt32.le_iff_toNat_le] using h
  simp [isSpace]
  omega

theorem trimSpace_dotted (ip : BitVec 32) : trimSpace (dotted ip) = dotted ip := by
  apply trimSpace_of_forall
  intro c hc
  rcases dotted_chars hc with hdigit | rfl
  · exact isSpace_of_isDigit hdigit
  · decide

theorem trimSpace_text (e : Endpoint) : trimSpace e.text = e.text := by
  apply trimSpace_of_forall
  intro c hc
  simp only [Endpoint.text, mem_append, mem_cons] at hc
  rcases hc with hc | rfl | hc
  · rcases dotted_chars hc with hdigit | rfl
    · exact isSpace_of_isDigit hdigit
    · decide
  · decide
  · exact isSpace_of_isDigit (isDigit_of_mem hc)

end Text
