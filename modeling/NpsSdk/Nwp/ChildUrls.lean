import NpsSdk.Lib.WebOrigin
import NpsSdk.Nwp.CallbackGuards

/-!
# Child addresses and allowed prefixes

What it means for the address of a child that its text starts with an allowed prefix.  Only a prefix whose
authority is closed fixes the scheme, the host and the port of the child, and only where the text goes on at
the end of a segment, in the same case and without going up, the path of the child is below that of the
prefix.
-/

namespace NpsSdk.Nwp.ChildUrls

open NpsSdk.Lib WebReader CallbackValidator

/-- `new URL`, as far as it reads `http` and `https` addresses. -/
structure Reads (parse : String → Option Url) (readHost : List Char → Option WebHost)
    (encode : Char → List Char) : Prop where
  web : ∀ text address, parse text = some (.web address) ↔ readWeb readHost encode text.toList = some address
  /-- Names are in small letters. -/
  host : ∀ cs, readHost (cs.map lowerChar) = readHost cs

/-- What the check compares. -/
def StartsWith (lower : String → String) (childUrl p : String) : Prop := startsWith (lower childUrl) (lower p) = true

def Confined (parse : String → Option Url) (allowedPrefixes : List String) (childUrl : String) : Prop :=
  ∃ child, parse childUrl = some (.web child) ∧ ∃ p ∈ allowedPrefixes, ∃ allowed, parse p = some (.web allowed) ∧
    SameOrigin allowed child ∧ AtBoundary allowed.path child.path

section

variable {parse : String → Option Url} {lower : String → String} {readHost : List Char → Option WebHost}
  {encode : Char → List Char} {childUrl : String} {allowedPrefixes : List String} {rejectPrivate allowHttp : Bool}

theorem scheme_refused (scheme : OtherScheme) (hostname : String) (allowHttp : Bool) :
    (!decide (lowerAscii (Url.other scheme hostname).protocol.toList = "https:".toList) &&
      !(allowHttp && decide (lowerAscii (Url.other scheme hostname).protocol.toList = "http:".toList))) = true := by
  have hlower : lowerAscii (scheme.text ++ ":").toList = scheme.text.toList ++ [':'] := by
    rw [String.toList_append, lowerAscii, List.map_append, ← lowerAscii, OtherScheme.lowerAscii_text]
    rfl
  have hne : ∀ text : String, scheme.text ≠ text → scheme.text.toList ++ [':'] ≠ text.toList ++ [':'] :=
    fun text hne h => hne (String.toList_inj.1 (List.append_cancel_right h))
  have hhttps : lowerAscii (scheme.text ++ ":").toList ≠ "https:".toList := by
    rw [hlower]
    exact hne "https" scheme.other.2
  have hhttp : lowerAscii (scheme.text ++ ":").toList ≠ "http:".toList := by
    rw [hlower]
    exact hne "http" scheme.other.1
  rw [Url.protocol, decide_eq_false hhttps, decide_eq_false hhttp, Bool.and_false]
  rfl

/-- An accepted address is an `http` or `https` address and starts with an allowed prefix, if there are
any. -/
theorem of_validateChildUrl
    (haccepted : validateChildUrl parse lower childUrl allowedPrefixes rejectPrivate allowHttp = none) :
    (∃ child, parse childUrl = some (.web child)) ∧
      (allowedPrefixes ≠ [] → ∃ p ∈ allowedPrefixes, StartsWith lower childUrl p) := by
  unfold validateChildUrl at haccepted
  split at haccepted
  · cases haccepted
  · cases hparse : parse childUrl with
    | none =>
      rw [hparse] at haccepted
      cases haccepted
    | some uri =>
      rw [hparse] at haccepted
      dsimp only at haccepted
      split at haccepted
      · cases haccepted
      · rename_i hscheme
        split at haccepted
        · cases haccepted
        · rename_i hprefix
          refine ⟨?_, fun hne => ?_⟩
          · cases uri with
            | web child => exact ⟨child, rfl⟩
            | other scheme hostname => exact absurd (scheme_refused scheme hostname allowHttp) hscheme
          · have hany : (allowedPrefixes.any fun p => startsWith (lower childUrl) (lower p)) = true := by
              have hsome : allowedPrefixes.isEmpty = false := by rwa [List.isEmpty_eq_false_iff]
              rwa [hsome, Bool.not_false, Bool.true_and, Bool.not_eq_true', Bool.not_eq_false] at hprefix
            exact List.any_eq_true.1 hany

/-- **The allowed prefixes.**  An accepted address starts with an allowed prefix.  Of such a prefix it has the
scheme, the host and the port, if the authority of the prefix is closed, and then its path is at a boundary of
that of the prefix, if its text goes on at the end of a segment and does not go up. -/
theorem accepted_of_prefixes (hreads : Reads parse readHost encode) (hlower : LowersStarts lower)
    (hne : allowedPrefixes ≠ [])
    (haccepted : validateChildUrl parse lower childUrl allowedPrefixes rejectPrivate allowHttp = none) :
    ∃ child, parse childUrl = some (.web child) ∧ (∃ p ∈ allowedPrefixes, StartsWith lower childUrl p) ∧
      ∀ p ∈ allowedPrefixes, StartsWith lower childUrl p → ∀ allowed, parse p = some (.web allowed) →
        ClosesAuthority p.toList → SameOrigin allowed child ∧
          ∀ u t, rawPath p.toList = some u → rawPath childUrl.toList = some (u ++ t) → GoesOn u t →
            AtBoundary allowed.path child.path := by
  obtain ⟨⟨child, hchild⟩, hprefix⟩ := of_validateChildUrl haccepted
  refine ⟨child, hchild, hprefix hne, fun p _ hstart allowed hallowed hclosed => ?_⟩
  rw [hreads.web] at hchild hallowed
  refine ⟨sameOrigin_of_start hlower hreads.host hclosed hstart hallowed hchild, fun u t hu ht hgoes => ?_⟩
  obtain ⟨partsP, -, -, -, hrawP, hpathP⟩ := readWeb_eq_some hallowed
  obtain ⟨partsC, -, -, -, hrawC, hpathC⟩ := readWeb_eq_some hchild
  rw [hu, Option.some.injEq] at hrawP
  rw [ht, Option.some.injEq] at hrawC
  rw [hpathP, hpathC, ← hrawP, ← hrawC]
  exact atBoundary_of_goesOn encode hgoes

end

/-! ### A reading of domain names -/

def isNameChar (c : Char) : Bool :=
  UrlHost.isPlain c && c ≠ '%' && !(decide ('A' ≤ c) && decide (c ≤ 'Z'))

theorem isNameChar_facts {c : Char} (h : isNameChar c = true) :
    UrlHost.isPlain c = true ∧ c ≠ '%' ∧ ¬ ('A' ≤ c ∧ c ≤ 'Z') := by
  simp only [isNameChar, Bool.and_eq_true, decide_eq_true_eq, Bool.not_eq_true', Bool.and_eq_false_iff,
    decide_eq_false_iff_not] at h
  exact ⟨h.1.1, h.1.2, fun hcapital => h.2.elim (fun hno => hno hcapital.1) fun hno => hno hcapital.2⟩

def domainHost (text : List Char) : Option WebHost :=
  if h : text ≠ [] ∧ text.all isNameChar = true ∧ endsInNumber text = false then
    some (.domain ⟨text, h.1, fun c hc => isNameChar_facts (List.all_eq_true.1 h.2.1 c hc), h.2.2⟩)
  else none

def readDomain (cs : List Char) : Option WebHost := domainHost (cs.map lowerChar)

def readSample (text : String) : Option Url := (readWeb readDomain (fun c => [c]) text.toList).map .web

theorem reads_readSample : Reads readSample readDomain fun c => [c] where
  web text address := by
    rw [readSample, Option.map_eq_some_iff]
    constructor
    · rintro ⟨address', h, heq⟩
      cases heq
      exact h
    · exact fun h => ⟨address, h, rfl⟩
  host cs := by
    rw [readDomain, readDomain, map_lowerChar_idem]

/-- What the theorem says of a prefix with a path and a child that is written with another case. -/
theorem accepted_of_prefixes_sample :
    ∃ child, readSample "https://GOOD.com/api/v1" = some (.web child) ∧
      (∃ p ∈ ["https://good.com/api/"], StartsWith lowerLatin "https://GOOD.com/api/v1" p) ∧
      ∀ p ∈ ["https://good.com/api/"], StartsWith lowerLatin "https://GOOD.com/api/v1" p →
        ∀ allowed, readSample p = some (.web allowed) → ClosesAuthority p.toList → SameOrigin allowed child ∧
          ∀ u t, rawPath p.toList = some u → rawPath "https://GOOD.com/api/v1".toList = some (u ++ t) →
            GoesOn u t → AtBoundary allowed.path child.path :=
  @accepted_of_prefixes readSample lowerLatin readDomain (fun c => [c]) "https://GOOD.com/api/v1"
    ["https://good.com/api/"] true false reads_readSample lowersStarts_lowerLatin (List.cons_ne_nil _ _)
    (by decide)

/-! ### Prefixes that do not confine -/

def hostAndPath (text : String) : Option (List Char × List Char) :=
  (readWeb readDomain (fun c => [c]) text.toList).map fun address => (address.host.text, address.path)

theorem of_readSample {text : String} {address : WebUrl} {host path : List Char}
    (h : readSample text = some (.web address)) (hread : hostAndPath text = some (host, path)) :
    address.host.text = host ∧ address.path = path := by
  have hsome := (reads_readSample.web text address).1 h
  rw [hostAndPath, hsome, Option.map_some, Option.some.injEq, Prod.mk.injEq] at hread
  exact hread

theorem not_confined {childUrl p : String} {host path host' path' : List Char}
    (hchild : hostAndPath childUrl = some (host, path)) (hp : hostAndPath p = some (host', path'))
    (hne : host ≠ host' ∨ ¬ AtBoundary path' path) : ¬ Confined readSample [p] childUrl := by
  rintro ⟨child, hreadC, p', hp', allowed, hreadP, horigin, hboundary⟩
  rw [List.mem_singleton] at hp'
  subst hp'
  obtain ⟨hhostC, hpathC⟩ := of_readSample hreadC hchild
  obtain ⟨hhostP, hpathP⟩ := of_readSample hreadP hp
  rcases hne with hne | hne
  · refine hne ?_
    rw [← hhostC, ← hhostP, horigin.host]
  · refine hne ?_
    rw [← hpathC, ← hpathP]
    exact hboundary

theorem not_atBoundary {p r : List Char} (h : p.getLast? ≠ some '/' ∧ r ≠ [] ∧ r.head? ≠ some '/') :
    ¬ AtBoundary p (p ++ r) := by
  rintro ⟨r', hr, hboundary⟩
  obtain rfl := List.append_cancel_left hr
  exact hboundary.elim h.1 fun hr => hr.elim h.2.1 h.2.2

/-- An address is accepted whose host only starts with that of the allowed prefix, or has that as its user
information, and one whose path goes on within a segment, goes up, or differs in case. -/
theorem prefixes_do_not_confine :
    (validateChildUrl readSample lowerLatin "https://good.com.evil.com/" ["https://good.com"] true false = none ∧
      ¬ Confined readSample ["https://good.com"] "https://good.com.evil.com/") ∧
    (validateChildUrl readSample lowerLatin "https://good.com@evil.com/" ["https://good.com"] true false = none ∧
      ¬ Confined readSample ["https://good.com"] "https://good.com@evil.com/") ∧
    (validateChildUrl readSample lowerLatin "https://good.com/apievil" ["https://good.com/api"] true false = none ∧
      ¬ Confined readSample ["https://good.com/api"] "https://good.com/apievil") ∧
    (validateChildUrl readSample lowerLatin "https://good.com/api/../admin" ["https://good.com/api/"] true false =
        none ∧
      ¬ Confined readSample ["https://good.com/api/"] "https://good.com/api/../admin") ∧
    (validateChildUrl readSample lowerLatin "https://good.com/API/x" ["https://good.com/api/"] true false = none ∧
      ¬ Confined readSample ["https://good.com/api/"] "https://good.com/API/x") := by
  have hhost : hostAndPath "https://good.com" = some ("good.com".toList, "/".toList) := by decide
  have hpath : hostAndPath "https://good.com/api" = some ("good.com".toList, "/api".toList) := by decide
  have hslash : hostAndPath "https://good.com/api/" = some ("good.com".toList, "/api/".toList) := by decide
  refine ⟨⟨by decide, ?_⟩, ⟨by decide, ?_⟩, ⟨by decide, ?_⟩, ⟨by decide, ?_⟩, by decide, ?_⟩
  · have hchild : hostAndPath "https://good.com.evil.com/" = some ("good.com.evil.com".toList, "/".toList) := by
      decide
    exact not_confined hchild hhost (.inl (by decide))
  · have hchild : hostAndPath "https://good.com@evil.com/" = some ("evil.com".toList, "/".toList) := by
      decide
    exact not_confined hchild hhost (.inl (by decide))
  · have hchild : hostAndPath "https://good.com/apievil" = some ("good.com".toList, "/apievil".toList) := by
      decide
    exact not_confined hchild hpath (.inr (@not_atBoundary "/api".toList "evil".toList (by decide)))
  · have hchild : hostAndPath "https://good.com/api/../admin" = some ("good.com".toList, "/admin".toList) := by
      decide
    refine not_confined hchild hslash (.inr ?_)
    rintro ⟨r, hr, -⟩
    have hno : ¬ "/api/".toList <+: "/admin".toList := by decide
    exact hno ⟨r, hr.symm⟩
  · have hchild : hostAndPath "https://good.com/API/x" = some ("good.com".toList, "/API/x".toList) := by
      decide
    refine not_confined hchild hslash (.inr ?_)
    rintro ⟨r, hr, -⟩
    have hno : ¬ "/api/".toList <+: "/API/x".toList := by decide
    exact hno ⟨r, hr.symm⟩

end NpsSdk.Nwp.ChildUrls
