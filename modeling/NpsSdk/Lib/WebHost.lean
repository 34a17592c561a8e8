import NpsSdk.Lib.Json
import NpsSdk.Lib.UrlHost

/-!
# The hosts of web addresses

What the host of an `http` or `https` address is once it has been read: a domain name in ASCII, an IPv4
address or an IPv6 address.  Every spelling of an address comes to the one text that is written for it:
four decimal numbers, or eight groups of hexadecimal digits in brackets whose first longest run of zeros is
left out.  A name that ends in a number is no domain name.
-/

namespace NpsSdk.Lib

/-! ### IPv4 -/

structure Ipv4 where
  a : UInt8
  b : UInt8
  c : UInt8
  d : UInt8

/-- The octets of an address that no host on the Internet has: loopback, RFC 1918, link-local, unspecified. -/
def InternalOctets (a b c d : ℕ) : Prop :=
  a = 127 ∨ a = 10 ∨ (a = 172 ∧ 16 ≤ b ∧ b ≤ 31) ∨ (a = 192 ∧ b = 168) ∨ (a = 169 ∧ b = 254) ∨
    (a = 0 ∧ b = 0 ∧ c = 0 ∧ d = 0)

namespace Ipv4

def octets (x : Ipv4) : List (List Char) := [x.a, x.b, x.c, x.d].map fun n => Nat.toDigits 10 n.toNat

def text (x : Ipv4) : List Char := List.intercalate ['.'] x.octets

def IsInternal (x : Ipv4) : Prop := InternalOctets x.a.toNat x.b.toNat x.c.toNat x.d.toNat

end Ipv4

/-! ### IPv6 -/

/-- The hexadecimal digits of a group, without zeros before them. -/
def hexGroup (n : ℕ) : List Char :=
  if n < 16 then [Json.hexDigit n]
  else if n < 256 then [Json.hexDigit (n / 16), Json.hexDigit (n % 16)]
  else if n < 4096 then [Json.hexDigit (n / 256), Json.hexDigit (n / 16 % 16), Json.hexDigit (n % 16)]
  else [Json.hexDigit (n / 4096), Json.hexDigit (n / 256 % 16), Json.hexDigit (n / 16 % 16), Json.hexDigit (n % 16)]

structure Ipv6 where
  groups : List ℕ
  eight : groups.length = 8
  small : ∀ n ∈ groups, n < 65536

namespace Ipv6

def colonText (groups : List ℕ) : List Char := List.intercalate [':'] (groups.map hexGroup)

/-- The number of zeros at the head. -/
def zeros (groups : List ℕ) : ℕ := (groups.takeWhile (· = 0)).length

/-- Of two runs of zeros, each a place and a length, the longer one, or the first. -/
def longer (best run : ℕ × ℕ) : ℕ × ℕ := if best.2 < run.2 then run else best

/-- The place and the length of the first longest run of zeros, if it is longer than one. -/
def compressed (groups : List ℕ) : Option (ℕ × ℕ) :=
  let best := ((List.range groups.length).map fun i => (i, zeros (groups.drop i))).foldl longer (0, 0)
  if 1 < best.2 then some best else none

/-- The text of an address, without the brackets. -/
def text (x : Ipv6) : List Char :=
  match compressed x.groups with
  | none => colonText x.groups
  | some (i, n) => colonText (x.groups.take i) ++ ':' :: ':' :: colonText (x.groups.drop (i + n))

def first (x : Ipv6) : ℕ := x.groups.headD 0

/-- The address is an IPv4 address with these octets, mapped to IPv6. -/
def Maps (x : Ipv6) (a b c d : ℕ) : Prop := x.groups = [0, 0, 0, 0, 0, 0xffff, 256 * a + b, 256 * c + d]

/-- Loopback, unspecified, unique-local, link-local, or an internal IPv4 address mapped to IPv6. -/
def IsInternal (x : Ipv6) : Prop :=
  x.groups = [0, 0, 0, 0, 0, 0, 0, 1] ∨ x.groups = [0, 0, 0, 0, 0, 0, 0, 0] ∨
    (0xfc00 ≤ x.first ∧ x.first ≤ 0xfdff) ∨ (0xfe80 ≤ x.first ∧ x.first ≤ 0xfebf) ∨
    ∃ a b c d, a < 256 ∧ b < 256 ∧ c < 256 ∧ d < 256 ∧ x.Maps a b c d ∧ InternalOctets a b c d

end Ipv6

/-! ### Domain names -/

/-- A number as it may stand at the end of an address: decimal digits, or hexadecimal ones after `0x`. -/
def isIpv4Number (cs : List Char) : Bool :=
  (!cs.isEmpty && cs.all Char.isDigit) ||
    match cs with
    | '0' :: x :: hex => (x = 'x' || x = 'X') && hex.all fun c =>
        c.isDigit || (decide ('a' ≤ c) && decide (c ≤ 'f')) || (decide ('A' ≤ c) && decide (c ≤ 'F'))
    | _ => false

/-- Does the last label, or the one before a dot at the end, spell a number? -/
def endsInNumber (name : List Char) : Bool :=
  match (splitChars '.' name).reverse with
  | [] => false
  | [] :: label :: _ => isIpv4Number label
  | label :: _ => isIpv4Number label

/-- A domain name as it comes out of the reading of an address. -/
structure DomainName where
  text : List Char
  nonempty : text ≠ []
  plain : ∀ c ∈ text, UrlHost.isPlain c = true ∧ c ≠ '%' ∧ ¬ ('A' ≤ c ∧ c ≤ 'Z')
  notNumber : endsInNumber text = false

/-! ### Hosts -/

inductive WebHost
  | domain (name : DomainName)
  | ipv4 (address : Ipv4)
  | ipv6 (address : Ipv6)

namespace WebHost

def text : WebHost → List Char
  | .domain name => name.text
  | .ipv4 address => address.text
  | .ipv6 address => '[' :: address.text ++ [']']

/-- An IP literal that denotes a loopback, private, link-local, unique-local or unspecified address. -/
def IsInternal : WebHost → Prop
  | .domain _ => False
  | .ipv4 address => address.IsInternal
  | .ipv6 address => address.IsInternal

end WebHost

/-! ### Addresses -/

/-- A scheme other than `http` and `https`, as it comes out of the reading of an address. -/
structure OtherScheme where
  text : String
  chars : ∀ c ∈ text.toList, ('a' ≤ c ∧ c ≤ 'z') ∨ c.isDigit = true ∨ c = '+' ∨ c = '-' ∨ c = '.'
  other : text ≠ "http" ∧ text ≠ "https"

/-- An `http` or, if it is secure, an `https` address. -/
structure WebUrl where
  secure : Bool
  host : WebHost
  /-- The port, unless it is the one of the scheme. -/
  port : Option ℕ
  path : List Char

/-- What `new URL(text)` makes. -/
inductive Url
  | web (address : WebUrl)
  | other (scheme : OtherScheme) (hostname : String)

namespace Url

def protocol : Url → String
  | .web address => if address.secure then "https:" else "http:"
  | .other scheme _ => scheme.text ++ ":"

def hostname : Url → String
  | .web address => String.ofList address.host.text
  | .other _ hostname => hostname

end Url

/-! ### Texts of addresses -/

/-- `s.toLowerCase()`, of an ASCII text. -/
def lowerAscii (cs : List Char) : List Char := cs.map Char.toLower

/-- `s.replace(/^\[/, "").replace(/\]$/, "")`. -/
def stripBrackets (cs : List Char) : List Char :=
  let rest := if cs.head? = some '[' then cs.tail else cs
  if rest.getLast? = some ']' then rest.dropLast else rest

/-- `s.replace(/:$/, "")`. -/
def stripColon (cs : List Char) : List Char := if cs.getLast? = some ':' then cs.dropLast else cs

/-- `\d{1,3}`. -/
def isShortNumber (cs : List Char) : Bool := !cs.isEmpty && decide (cs.length ≤ 3) && cs.all Char.isDigit

/-- `\d+`. -/
def isNumber (cs : List Char) : Bool := !cs.isEmpty && cs.all Char.isDigit

/-- The four parts between the dots of a text, if each is as `isPart` says. -/
def fourParts (isPart : List Char → Bool) (cs : List Char) : Option (List (List Char)) :=
  let parts := splitChars '.' cs
  if parts.length = 4 ∧ parts.all isPart then some parts else none

/-- `s.match(/::ffff:(p\.p\.p\.p)$/)`, for parts `p`: what is captured. -/
def matchMapped (isPart : List Char → Bool) (cs : List Char) : Option (List Char) :=
  cs.tails.findSome? fun tail =>
    if "::ffff:".toList.isPrefixOf tail then (fourParts isPart (tail.drop 7)).map fun _ => tail.drop 7
    else none

variable {cs : List Char} {isPart : List Char → Bool} {parts : List (List Char)}

theorem isNumber_of_isShortNumber (h : isShortNumber cs = true) : isNumber cs = true := by
  simp only [isShortNumber, isNumber, Bool.and_eq_true] at h ⊢
  exact ⟨h.1.1, h.2⟩

theorem fourParts_eq_some (h : fourParts isPart cs = some parts) :
    parts = splitChars '.' cs ∧ parts.length = 4 ∧ ∀ p ∈ parts, isPart p = true := by
  simp only [fourParts, Option.ite_none_right_eq_some, Option.some.injEq, List.all_eq_true] at h
  obtain ⟨⟨h1, h2⟩, rfl⟩ := h
  exact ⟨rfl, h1, h2⟩

theorem stripBrackets_of_not_mem (hopen : '[' ∉ cs) (hclose : ']' ∉ cs) : stripBrackets cs = cs := by
  have hhead : cs.head? ≠ some '[' := fun h => hopen (List.mem_of_mem_head? h)
  have hlast : cs.getLast? ≠ some ']' := fun h => hclose (List.mem_of_getLast? h)
  rw [stripBrackets, if_neg hhead, if_neg hlast]

theorem stripBrackets_of_fourParts (hnumber : ∀ p, isPart p = true → isNumber p = true)
    (h : fourParts isPart cs = some parts) : stripBrackets cs = cs := by
  obtain ⟨rfl, -, hall⟩ := fourParts_eq_some h
  have hchars : ∀ c ∈ cs, c = '.' ∨ c.isDigit = true := by
    intro c hc
    rcases mem_splitChars hc with hdot | ⟨p, hp, hcp⟩
    · exact .inl hdot
    · have := hnumber p (hall p hp)
      simp only [isNumber, Bool.and_eq_true, List.all_eq_true] at this
      exact .inr (this.2 c hcp)
  refine stripBrackets_of_not_mem (fun hmem => ?_) fun hmem => ?_
  · exact absurd (hchars _ hmem) (by decide)
  · exact absurd (hchars _ hmem) (by decide)

theorem fourParts_of_matchMapped {captured : List Char} (h : matchMapped isPart cs = some captured) :
    (fourParts isPart captured).isSome := by
  obtain ⟨tail, -, htail⟩ := List.exists_of_findSome?_eq_some h
  split at htail
  · cases hparts : fourParts isPart (tail.drop 7) with
    | none =>
      rw [hparts] at htail
      cases htail
    | some parts =>
      rw [hparts] at htail
      cases htail
      rw [hparts]
      rfl
  · cases htail

end NpsSdk.Lib
