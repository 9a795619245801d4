import Hy2Link.Text

/-! # The address of a request

`ipResolver` decides from which address a request to the panel comes; the login
limiter and the geographic fence go by it.  A client may write anything into the
header `X-Forwarded-For`, and every proxy on the way appends the address it was
called from.

Addresses and the functions of `netip` on them are left open.
-/

namespace Hy2Link.Admin

open Text

/-- `ParseAddr`, `Unmap` and `String`. -/
structure Netip (Addr : Type) where
  parseAddr : List Char → Option Addr
  unmap : Addr → Addr
  string : Addr → List Char
  parseAddr_nil : parseAddr [] = none

/-- A header may have several lines. -/
structure HTTPRequest where
  remoteAddr : List Char
  xForwardedFor : List (List Char)
  xRealIP : List (List Char)

/-- `Header.Get` reads the first line only. -/
def header (lines : List (List Char)) : List Char := lines.headD []

structure IPResolver (Addr : Type) where
  netip : Netip Addr
  trusted : List (Addr → Bool)

namespace IPResolver

variable {Addr : Type} (r : IPResolver Addr)

def trusts (a : Addr) : Bool := r.trusted.any fun contains => contains (r.netip.unmap a)

def peerAddr (remoteAddr : List Char) : Option Addr :=
  let host := match splitHostPort remoteAddr with
    | .ok (host, _) => host
    | .error _ => remoteAddr
  let bracket := fun c => c = '[' || c = ']'
  let host := ((host.dropWhile bracket).reverse.dropWhile bracket).reverse
  (r.netip.parseAddr host).map r.netip.unmap

/-- One round of the loop over the header: an entry that is no address and one of
a trusted proxy are passed over. -/
def candidate (part : List Char) : Option Addr :=
  match r.netip.parseAddr (trimSpace part) with
  | none => none
  | some cand => if r.trusts (r.netip.unmap cand) then none else some (r.netip.unmap cand)

/-- The last candidate of `X-Forwarded-For`, or else `X-Real-IP`. -/
def forwarded (req : HTTPRequest) : Option Addr :=
  (if header req.xForwardedFor = [] then none
    else ((header req.xForwardedFor).splitOn ',').reverse.findSome? r.candidate).or
  (if header req.xRealIP = [] then none
    else (r.netip.parseAddr (trimSpace (header req.xRealIP))).map r.netip.unmap)

def clientIP (req : HTTPRequest) : List Char :=
  match r.peerAddr req.remoteAddr with
  | none => req.remoteAddr
  | some peer => r.netip.string (if r.trusts peer then (r.forwarded req).getD peer else peer)

variable {r}

theorem forwarded_eq (hclient : r.candidate client = some a)
    (hproxies : ∀ part ∈ proxies, r.candidate part = none)
    (hline : line.splitOn ',' = before ++ client :: proxies) :
    r.forwarded ⟨remoteAddr, line :: lines, xRealIP⟩ = some a := by
  have hne : line ≠ [] := by
    rintro rfl
    have hmem : client ∈ List.splitOn ',' [] := by simp [hline]
    obtain rfl : client = [] := by simpa using hmem
    simp [candidate, trimSpace, r.netip.parseAddr_nil] at hclient
  rw [forwarded, header, List.headD_cons, if_neg hne, hline, List.reverse_append,
    List.reverse_cons, List.append_assoc, List.findSome?_append, List.findSome?_eq_none_iff.2,
    Option.none_or, List.singleton_append, List.findSome?_cons, hclient, Option.some_or]
  simpa using hproxies

/-- What a client writes into the headers makes no difference: from outside the
trusted networks it is taken for the address it calls from, and behind trusted
proxies for the last address in the first line of `X-Forwarded-For` that is not
trusted, which is the one that the first of them was called from, if all of them
append to that line. -/
theorem client_address_unforgeable (r : IPResolver Addr) (remoteAddr : List Char) (peer : Addr)
    (hpeer : r.peerAddr remoteAddr = some peer) :
    (r.trusts peer = false → ∀ xForwardedFor xRealIP,
      r.clientIP ⟨remoteAddr, xForwardedFor, xRealIP⟩ = r.netip.string peer) ∧
    (r.trusts peer = true → ∀ line before client proxies a,
      line.splitOn ',' = before ++ client :: proxies → r.candidate client = some a →
      (∀ part ∈ proxies, r.candidate part = none) → ∀ lines xRealIP,
        r.clientIP ⟨remoteAddr, line :: lines, xRealIP⟩ = r.netip.string a) := by
  refine ⟨fun htrusts _ _ => ?_, fun htrusts line before client proxies a hline hclient hproxies
    lines xRealIP => ?_⟩
  · simp [clientIP, hpeer, htrusts]
  · simp [clientIP, hpeer, htrusts, forwarded_eq hclient hproxies hline]

/-- Addresses are texts, and those of the private network 10 are trusted. -/
def smallResolver : IPResolver (List Char) :=
  ⟨⟨fun s => if s = [] then none else some s, id, id, rfl⟩, [fun a => "10.".toList.isPrefixOf a]⟩

/-- The client forges an entry and a line of its own. -/
theorem client_address_unforgeable_proxied :
    smallResolver.clientIP ⟨"10.0.0.1:443".toList,
        ["127.0.0.1,198.51.100.7, 10.0.0.2".toList, "127.0.0.2".toList],
        ["127.0.0.3".toList]⟩ = "198.51.100.7".toList :=
  (client_address_unforgeable smallResolver "10.0.0.1:443".toList "10.0.0.1".toList
    (by decide +kernel)).2 (by decide +kernel) _ ["127.0.0.1".toList] "198.51.100.7".toList
    [" 10.0.0.2".toList] _ (by decide +kernel) (by decide +kernel) (by decide +kernel) _ _

end IPResolver

end Hy2Link.Admin
