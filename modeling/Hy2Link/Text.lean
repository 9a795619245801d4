import Mathlib.Algebra.Ring.Nat
import Mathlib.Data.List.Basic

/-! # Text functions of the standard library

The functions of Go's `strings`, `strconv` and `net` packages that the client
and the server apply to texts they receive.  A text is the list of its
characters.
-/

namespace Text

/-- `unicode.IsSpace`. -/
def isSpace (c : Char) : Bool :=
  c.toNat ∈ [0x09, 0x0a, 0x0b, 0x0c, 0x0d, 0x20, 0x85, 0xa0, 0x1680, 0x2028, 0x2029, 0x202f,
    0x205f, 0x3000] || (0x2000 ≤ c.toNat && c.toNat ≤ 0x200a)

/-- `strings.TrimSpace`. -/
def trimSpace (s : List Char) : List Char :=
  ((s.dropWhile isSpace).reverse.dropWhile isSpace).reverse

/-- `strings.Index` for a text of one character. -/
def index (c : Char) (s : List Char) : Option Nat := s.findIdx? (· = c)

/-- `strings.SplitN` for a separator of one character and a positive number:
the last piece takes the rest. -/
def splitN (c : Char) : Nat → List Char → List (List Char)
  | 0, _ => []
  | 1, s => [s]
  | n + 2, s =>
    match index c s with
    | none => [s]
    | some i => s.take i :: splitN c (n + 1) (s.drop (i + 1))

/-- `strings.LastIndex`: the start of the last occurrence of `sep`. -/
def lastIndex (sep : List Char) (s : List Char) : Option Nat :=
  (List.range (s.length + 1)).reverse.find? fun i => sep.isPrefixOf (s.drop i)

/-- `len` of a text: its bytes. -/
def byteLength (s : List Char) : Nat := (s.map Char.utf8Size).sum

/-- The text in the first `n` bytes of a longer one.  A character that does not
fit leaves some of its bytes, for each of which a NUL stands: it is of one byte
and neither space, letter, digit nor separator. -/
def takeBytes : Nat → List Char → List Char
  | _, [] => []
  | n, c :: rest =>
    if c.utf8Size ≤ n then c :: takeBytes (n - c.utf8Size) rest else List.replicate n '\x00'

/-- `strings.EqualFold` for a text `t` of letters that only ASCII letters fold
to, as all do but k and s. -/
def equalFold (s t : List Char) : Bool := s.map Char.toLower = t.map Char.toLower

/-- `strconv.Itoa`. -/
def itoa (n : Int) : List Char :=
  if n < 0 then '-' :: Nat.toDigits 10 n.natAbs else Nat.toDigits 10 n.natAbs

def quoted (s : List Char) : String :=
  "\"" ++ String.ofList (s.flatMap fun c => if c = '"' || c = '\\' then ['\\', c] else [c]) ++ "\""

def digit (c : Char) : Option Nat :=
  if '0' ≤ c && c ≤ '9' then some (c.toNat - '0'.toNat) else none

def hexDigit (c : Char) : Option Nat :=
  if '0' ≤ c && c ≤ '9' then some (c.toNat - '0'.toNat)
  else if 'a' ≤ c && c ≤ 'f' then some (c.toNat - 'a'.toNat + 10)
  else if 'A' ≤ c && c ≤ 'F' then some (c.toNat - 'A'.toNat + 10)
  else none

/-- A text of digits, none for the empty text. -/
def decimal (s : List Char) : Option Nat :=
  match s.mapM digit with
  | none => none
  | some [] => none
  | some ds => some (ds.foldl (fun n d => n * 10 + d) 0)

/-- `strconv.Atoi` with 64-bit integers. -/
def atoi (s : List Char) : Option Int :=
  match s with
  | '-' :: rest =>
    (decimal rest).bind fun n => if n ≤ 2 ^ 63 then some (-(n : Int)) else none
  | '+' :: rest => (decimal rest).bind fun n => if n < 2 ^ 63 then some n else none
  | _ => (decimal s).bind fun n => if n < 2 ^ 63 then some n else none

/-- `net.IP` in its 16-byte form. -/
abbrev IP := BitVec 128

/-- `To4`: the address behind an IPv4-mapped one. -/
def IP.to4 (ip : IP) : Option (BitVec 32) :=
  if ip.toNat / 2 ^ 32 = 0xffff then some (BitVec.ofNat 32 (ip.toNat % 2 ^ 32)) else none

def IP.ofIPv4 (v : BitVec 32) : IP := BitVec.ofNat 128 (0xffff * 2 ^ 32 + v.toNat)

def IP.isUnspecified (ip : IP) : Bool := ip = 0 || ip = IP.ofIPv4 0

/-- The byte number `i` of the 16-byte form. -/
def IP.byte (ip : IP) (i : Nat) : Nat := ip.toNat / 2 ^ (8 * (15 - i)) % 256

/-- The tests of `net.IP` look at the four bytes of an IPv4-mapped address and
at all sixteen of another one. -/
def IP.isPrivate (ip : IP) : Bool :=
  match ip.to4 with
  | some _ =>
    ip.byte 12 = 10 || (ip.byte 12 = 172 && ip.byte 13 / 16 = 1) ||
      (ip.byte 12 = 192 && ip.byte 13 = 168)
  | none => ip.byte 0 / 2 = 0xfc / 2

def IP.isLoopback (ip : IP) : Bool :=
  match ip.to4 with
  | some _ => ip.byte 12 = 127
  | none => ip = 1

def IP.isLinkLocalUnicast (ip : IP) : Bool :=
  match ip.to4 with
  | some _ => ip.byte 12 = 169 && ip.byte 13 = 254
  | none => ip.byte 0 = 0xfe && ip.byte 1 / 64 = 0x80 / 64

def IP.isLinkLocalMulticast (ip : IP) : Bool :=
  match ip.to4 with
  | some _ => ip.byte 12 = 224 && ip.byte 13 = 0 && ip.byte 14 = 0
  | none => ip.byte 0 = 0xff && ip.byte 1 % 16 = 2

def IP.isMulticast (ip : IP) : Bool :=
  match ip.to4 with
  | some _ => ip.byte 12 / 16 = 0xe0 / 16
  | none => ip.byte 0 = 0xff

/-- One field of a dotted address: no leading zero and at most 255. -/
def octet (s : List Char) : Option Nat :=
  match s with
  | '0' :: _ :: _ => none
  | _ => (decimal s).bind fun n => if n ≤ 255 then some n else none

def parseIPv4 (s : List Char) : Option (BitVec 32) :=
  match (s.splitOn '.').mapM octet with
  | some [a, b, c, d] => some (BitVec.ofNat 32 (((a * 256 + b) * 256 + c) * 256 + d))
  | _ => none

/-- The loop of `parseIPv6` over the 16-bit groups.  `groups` are those read so
far and `ellipsis` is the position of the double colon among them. -/
def parseGroups : Nat → List Nat → Option Nat → List Char → Option (List Nat × Option Nat)
  | 0, _, _, _ => none
  | fuel + 1, groups, ellipsis, s =>
    let digits := s.takeWhile fun c => (hexDigit c).isSome
    let rest := s.dropWhile fun c => (hexDigit c).isSome
    let group := (digits.filterMap hexDigit).foldl (fun n d => n * 16 + d) 0
    if digits = [] || 4 < digits.length then none
    else
      match rest with
      | '.' :: _ =>
        -- a dotted address may stand for the last two groups
        if ellipsis.isNone && groups.length ≠ 6 || 6 < groups.length then none
        else (parseIPv4 s).map fun v =>
          (groups ++ [v.toNat / 2 ^ 16, v.toNat % 2 ^ 16], ellipsis)
      | [] => some (groups ++ [group], ellipsis)
      | [':', ':'] =>
        if ellipsis.isSome then none
        else some (groups ++ [group], some (groups.length + 1))
      | ':' :: ':' :: more =>
        if ellipsis.isSome then none
        else parseGroups fuel (groups ++ [group]) (some (groups.length + 1)) more
      | ':' :: c :: more => parseGroups fuel (groups ++ [group]) ellipsis (c :: more)
      | _ => none

/-- Fill the place of the double colon with zero groups, at least one. -/
def expand : List Nat × Option Nat → Option (List Nat)
  | (groups, none) => if groups.length = 8 then some groups else none
  | (groups, some at_) =>
    if groups.length < 8 then
      some (groups.take at_ ++ List.replicate (8 - groups.length) 0 ++ groups.drop at_)
    else none

def parseIPv6 (s : List Char) : Option IP :=
  let parsed := match s with
    | [':', ':'] => some ([], some 0)
    | ':' :: ':' :: rest => parseGroups 8 [] (some 0) rest
    | _ => parseGroups 8 [] none s
  (parsed.bind expand).map fun groups =>
    BitVec.ofNat 128 (groups.foldl (fun n g => n * 2 ^ 16 + g) 0)

/-- `net.ParseIP`: the first dot or colon decides the form, and a zone is not
accepted. -/
def parseIP (s : List Char) : Option IP :=
  match s.find? fun c => c = '.' || c = ':' || c = '%' with
  | some '.' => (parseIPv4 s).map IP.ofIPv4
  | some ':' => parseIPv6 s
  | _ => none

/-- `net.ParseIP` followed by `To4`. -/
def parseTo4 (s : List Char) : Option (BitVec 32) := (parseIP s).bind IP.to4

inductive AddrError
  | missingPort | tooManyColons | missingBracket | unexpectedOpening | unexpectedClosing
deriving DecidableEq

/-- `net.SplitHostPort`. -/
def splitHostPort (s : List Char) : Except AddrError (List Char × List Char) :=
  match lastIndex [':'] s with
  | none => .error .missingPort
  | some i =>
    let port := s.drop (i + 1)
    if s.head? = some '[' then
      match index ']' s with
      | none => .error .missingBracket
      | some last =>
        if last + 1 = s.length then .error .missingPort
        else if last + 1 ≠ i then
          if (s.drop (last + 1)).head? = some ':' then .error .tooManyColons
          else .error .missingPort
        else if '[' ∈ s.drop 1 then .error .unexpectedOpening
        else if ']' ∈ s.drop (last + 1) then .error .unexpectedClosing
        else .ok ((s.take last).drop 1, port)
    else if ':' ∈ s.take i then .error .tooManyColons
    else if '[' ∈ s then .error .unexpectedOpening
    else if ']' ∈ s then .error .unexpectedClosing
    else .ok (s.take i, port)

example : (parseIP "203.0.113.7".toList).bind IP.to4 = some 0xcb007107 := by decide +kernel

example : parseIP "fe80::1:2".toList = some 0xfe800000000000000000000000010002 := by decide +kernel

end Text
