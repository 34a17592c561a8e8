import Mathlib.Data.List.Infix
import NpsSdk.Lib.WebHostText
import NpsSdk.Nop.CallbackValidator

/-!
# Outbound addresses of nodes

`nwp/callback-validator.ts`, over any reading of addresses and any lower case of texts.
-/

namespace NpsSdk.Nwp.CallbackValidator

open NpsSdk.Lib

/-- The body of `isPrivateHost`, with the function that it calls for the address in a mapped one. -/
def isPrivateHostWith (recur : String → Bool) (host : String) : Bool :=
  if host = "" then true
  else if lowerAscii host.toList = "localhost".toList then true
  else
    let stripped := stripBrackets host.toList
    match fourParts isShortNumber stripped with
    | some parts =>
      let b := parts.map digitsValue
      if b.any fun n => decide (255 < n) then false
      else
        match b with
        | b0 :: b1 :: _ =>
          b0 == 127 || b0 == 10 || b0 == 0 || (b0 == 172 && decide (16 ≤ b1) && decide (b1 ≤ 31)) ||
            (b0 == 192 && b1 == 168) || (b0 == 169 && b1 == 254)
        | _ => false
    | none =>
      if ':' ∈ stripped then
        let lower := lowerAscii stripped
        if lower = "::1".toList ∨ lower = "::".toList then true
        else
          match matchMapped isShortNumber lower with
          | some mapped => recur (String.ofList mapped)
          | none =>
            if "fe80".toList.isPrefixOf lower then true
            else "fc".toList.isPrefixOf lower || "fd".toList.isPrefixOf lower
      else false

/-- Is the host an IP literal in a loopback, private or link-local range, or the name of the machine?  The
inner call meets an IPv4 literal and makes no further one (`isPrivateHost_eq`). -/
def isPrivateHost (host : String) : Bool := isPrivateHostWith (isPrivateHostWith fun _ => false) host

/-- What is wrong with a callback address, if anything is; `parse` is `new URL`.  Private hosts are rejected
by default. -/
def validateCallbackUrl (parse : String → Option Url) (callbackUrl : String) (rejectPrivate : Bool) :
    Option String :=
  if isBlank callbackUrl then some "callback_url must not be empty."
  else
    match parse callbackUrl with
    | none => some s!"callback_url '{callbackUrl}' is not a valid absolute URI."
    | some uri =>
      if lowerAscii uri.protocol.toList ≠ "https:".toList then
        let scheme := String.ofList (stripColon uri.protocol.toList)
        some s!"callback_url MUST use the https:// scheme (got '{scheme}://')."
      else if rejectPrivate && isPrivateHost uri.hostname then
        some s!"callback_url host '{uri.hostname}' resolves to a private or loopback address (SSRF guard)."
      else none

/-- What is wrong with the address of a child, if anything is; `lower` is the lower case of a text.  By default
there are no allowed prefixes, private hosts are rejected and `http` is not allowed. -/
def validateChildUrl (parse : String → Option Url) (lower : String → String) (childUrl : String)
    (allowedPrefixes : List String) (rejectPrivate allowHttp : Bool) : Option String :=
  if isBlank childUrl then some "child node URL must not be empty."
  else
    match parse childUrl with
    | none => some s!"child node URL '{childUrl}' is not a valid absolute URI."
    | some uri =>
      let scheme := lowerAscii uri.protocol.toList
      let isHttps := decide (scheme = "https:".toList)
      let isHttp := decide (scheme = "http:".toList)
      if !isHttps && !(allowHttp && isHttp) then
        let shown := String.ofList (stripColon scheme)
        some s!"child node URL MUST use the https:// scheme (got '{shown}://')."
      else if !allowedPrefixes.isEmpty && !allowedPrefixes.any fun p => startsWith (lower childUrl) (lower p) then
        some s!"child node URL '{childUrl}' is not in the allowed prefix list."
      else if rejectPrivate && isPrivateHost uri.hostname then
        some s!"child node host '{uri.hostname}' resolves to a private or loopback address (SSRF guard)."
      else none

/-! ### The recursion -/

variable {r r' : String → Bool} {cs mapped : List Char}

theorem isPrivateHostWith_of_fourParts (h : (fourParts isShortNumber cs).isSome) :
    isPrivateHostWith r (String.ofList cs) = isPrivateHostWith r' (String.ofList cs) := by
  obtain ⟨parts, hparts⟩ := Option.isSome_iff_exists.1 h
  have hstrip : stripBrackets (String.ofList cs).toList = cs := by
    rw [String.toList_ofList, stripBrackets_of_fourParts (fun p hp => isNumber_of_isShortNumber hp) hparts]
  unfold isPrivateHostWith
  dsimp only
  rw [hstrip, hparts]

/-- **The recursion of the source.** -/
theorem isPrivateHost_eq (host : String) : isPrivateHost host = isPrivateHostWith isPrivateHost host := by
  have hinner : ∀ mapped, (fourParts isShortNumber mapped).isSome →
      isPrivateHostWith (fun _ => false) (String.ofList mapped) = isPrivateHost (String.ofList mapped) :=
    fun mapped h => isPrivateHostWith_of_fourParts h
  rw [isPrivateHost]
  unfold isPrivateHostWith
  dsimp only
  split
  · rfl
  · split
    · rfl
    · split
      · rfl
      · split
        · split
          · rfl
          · split
            · rename_i mapped hmapped
              exact hinner mapped (fourParts_of_matchMapped hmapped)
            · rfl
        · rfl

end NpsSdk.Nwp.CallbackValidator

/-!
## What the callback guards let pass

The guards of tasks and of nodes read the text of a host.  They agree on domain names and on IPv4 addresses,
and let none of the internal ones pass.  Of the IPv6 addresses the guard of tasks misses `::` and `fc00::/7`,
the guard of nodes misses `fe81::` to `febf::`, both miss an internal IPv4 address that is mapped to IPv6, and
each refuses some that the other lets pass.
-/

namespace NpsSdk.Nwp.CallbackGuards

open NpsSdk.Lib

/-! ### IPv4 addresses -/

theorem octet_facts {n : ℕ} (hn : n < 256) : isShortNumber (Nat.toDigits 10 n) = true ∧
    digitsValue (Nat.toDigits 10 n) = n ∧ '.' ∉ Nat.toDigits 10 n := by
  have hall : ∀ n < 256, isShortNumber (Nat.toDigits 10 n) = true ∧
      digitsValue (Nat.toDigits 10 n) = n ∧ '.' ∉ Nat.toDigits 10 n := by decide +kernel
  exact hall n hn

variable (x : Ipv4)

theorem text_ipv4 : x.text = Nat.toDigits 10 x.a.toNat ++ '.' :: (Nat.toDigits 10 x.b.toNat ++
    '.' :: (Nat.toDigits 10 x.c.toNat ++ '.' :: Nat.toDigits 10 x.d.toNat)) := by
  simp [Ipv4.text, Ipv4.octets, List.intercalate]

theorem splitChars_ipv4 : splitChars '.' x.text = x.octets := by
  have hdot : ∀ n : UInt8, '.' ∉ Nat.toDigits 10 n.toNat := fun n => (octet_facts n.toNat_lt).2.2
  rw [text_ipv4, splitChars_append (hdot x.a), splitChars_append (hdot x.b), splitChars_append (hdot x.c),
    splitChars_of_not_mem (hdot x.d)]
  rfl

theorem fourParts_ipv4 : fourParts isShortNumber x.text = some x.octets := by
  have hshort : ∀ n : UInt8, isShortNumber (Nat.toDigits 10 n.toNat) = true := fun n => (octet_facts n.toNat_lt).1
  unfold fourParts
  dsimp only
  rw [splitChars_ipv4, if_pos]
  simp [Ipv4.octets, hshort]

/-- What both guards refuse of the IPv4 addresses. -/
def refusedOctets (b0 b1 : ℕ) : Bool :=
  b0 == 127 || b0 == 10 || b0 == 0 || (b0 == 172 && decide (16 ≤ b1) && decide (b1 ≤ 31)) ||
    (b0 == 192 && b1 == 168) || (b0 == 169 && b1 == 254)

theorem ne_localhost_of_dot {cs : List Char} (h : '.' ∈ cs) : lowerAscii cs ≠ "localhost".toList := by
  intro heq
  have hmem : '.'.toLower ∈ lowerAscii cs := List.mem_map_of_mem h
  rw [heq] at hmem
  exact absurd hmem (by decide)

theorem dot_mem_ipv4 : '.' ∈ x.text := by
  rw [text_ipv4]
  simp

theorem ne_empty_ipv4 : String.ofList x.text ≠ "" := by
  intro h
  have hnil : x.text = [] := by simpa using congrArg String.toList h
  have hdot := dot_mem_ipv4 x
  rw [hnil] at hdot
  cases hdot

theorem nop_ipv4 : Nop.CallbackValidator.isPrivateHost (String.ofList x.text) = refusedOctets x.a.toNat x.b.toNat := by
  have hvalue : ∀ n : UInt8, digitsValue (Nat.toDigits 10 n.toNat) = n.toNat := fun n => (octet_facts n.toNat_lt).2.1
  have hshort : ∀ n : UInt8, isShortNumber (Nat.toDigits 10 n.toNat) = true := fun n => (octet_facts n.toNat_lt).1
  have hsmall : ∀ n : UInt8, n.toNat ≤ 255 := fun n => Nat.le_of_lt_succ n.toNat_lt
  have hstrip : stripBrackets x.text = x.text :=
    stripBrackets_of_fourParts (fun _ => isNumber_of_isShortNumber) (fourParts_ipv4 x)
  have hv4 : Nop.CallbackValidator.isIpv4 x.text = true := by
    simp [Nop.CallbackValidator.isIpv4, splitChars_ipv4, Ipv4.octets, hshort, hvalue, hsmall]
  unfold Nop.CallbackValidator.isPrivateHost
  rw [if_neg (ne_empty_ipv4 x), String.toList_ofList, if_neg (ne_localhost_of_dot (dot_mem_ipv4 x))]
  dsimp only
  rw [hstrip, if_pos hv4, Nop.CallbackValidator.isPrivateIpv4, splitChars_ipv4]
  simp only [Ipv4.octets, List.map_cons, hvalue]
  rfl

theorem nwp_ipv4 : CallbackValidator.isPrivateHost (String.ofList x.text) = refusedOctets x.a.toNat x.b.toNat := by
  have hvalue : ∀ n : UInt8, digitsValue (Nat.toDigits 10 n.toNat) = n.toNat := fun n => (octet_facts n.toNat_lt).2.1
  have hsmall : ∀ n : UInt8, ¬ 255 < n.toNat := fun n => Nat.not_lt.2 (Nat.le_of_lt_succ n.toNat_lt)
  have hstrip : stripBrackets x.text = x.text :=
    stripBrackets_of_fourParts (fun _ => isNumber_of_isShortNumber) (fourParts_ipv4 x)
  unfold CallbackValidator.isPrivateHost CallbackValidator.isPrivateHostWith
  rw [if_neg (ne_empty_ipv4 x), String.toList_ofList, if_neg (ne_localhost_of_dot (dot_mem_ipv4 x))]
  dsimp only
  rw [hstrip, fourParts_ipv4]
  simp only [Ipv4.octets, List.map_cons, List.map_nil, hvalue]
  rw [if_neg (by simp [hsmall])]
  rfl

/-! ### Domain names -/

variable (name : DomainName)

theorem plain_facts {c : Char} (hc : c ∈ name.text) : c ≠ ':' ∧ c ≠ '[' ∧ c ≠ ']' := by
  obtain ⟨-, -, hcolon, -, hopen, hclose⟩ :=
    UrlHost.isForbidden_false (UrlHost.isPlain_iff.1 (name.plain c hc).1).2.2
  exact ⟨hcolon, hopen, hclose⟩

theorem fourParts_domain : fourParts isShortNumber name.text = none := by
  cases h : fourParts isShortNumber name.text with
  | none => rfl
  | some parts =>
    obtain ⟨rfl, hlen, hall⟩ := fourParts_eq_some h
    have hends := name.notNumber
    unfold endsInNumber at hends
    cases hr : (splitChars '.' name.text).reverse with
    | nil =>
      rw [List.reverse_eq_nil_iff] at hr
      rw [hr] at hlen
      cases hlen
    | cons label labels =>
      have hlabel : isNumber label = true := isNumber_of_isShortNumber
        (hall label (List.mem_reverse.1 (by rw [hr]; exact List.mem_cons_self)))
      rw [hr] at hends
      cases label with
      | nil => cases hlabel
      | cons c cs =>
        have hnumber : isIpv4Number (c :: cs) = true := by
          unfold isIpv4Number
          rw [Bool.or_eq_true]
          exact .inl hlabel
        dsimp only at hends
        rw [hnumber] at hends
        cases hends

theorem guards_domain : Nop.CallbackValidator.isPrivateHost (String.ofList name.text) =
    CallbackValidator.isPrivateHost (String.ofList name.text) := by
  have hstrip : stripBrackets name.text = name.text :=
    stripBrackets_of_not_mem (fun h => (plain_facts name h).2.1 rfl) fun h => (plain_facts name h).2.2 rfl
  have hcolon : ':' ∉ name.text := fun h => (plain_facts name h).1 rfl
  have hv4 : Nop.CallbackValidator.isIpv4 name.text = false := by
    have hnone := fourParts_domain name
    rw [fourParts, ite_eq_right_iff] at hnone
    rw [Bool.eq_false_iff]
    intro hall
    simp only [Nop.CallbackValidator.isIpv4, Bool.and_eq_true, decide_eq_true_eq, List.all_eq_true] at hall
    have := hnone ⟨hall.1, List.all_eq_true.2 fun p hp => (hall.2 p hp).1⟩
    cases this
  unfold Nop.CallbackValidator.isPrivateHost CallbackValidator.isPrivateHost CallbackValidator.isPrivateHostWith
  rw [String.toList_ofList, hstrip]
  dsimp only
  rw [fourParts_domain, hv4]
  simp only [hcolon, if_false, Bool.false_eq_true]

/-! ### IPv6 addresses -/

variable (y : Ipv6)

theorem hostText_ipv6 : stripBrackets ('[' :: y.text ++ [']']) = y.text := by
  unfold stripBrackets
  simp

theorem splitChars_ipv6 : splitChars '.' y.text = [y.text] := splitChars_of_not_mem y.text_facts.2.2.2

theorem matchMapped_ipv6 (isPart : List Char → Bool) : matchMapped isPart y.text = none := by
  cases h : matchMapped isPart y.text with
  | none => rfl
  | some captured =>
    obtain ⟨tail, htail, hcaptured⟩ := List.exists_of_findSome?_eq_some h
    rw [List.mem_tails] at htail
    have hdot : '.' ∉ tail.drop 7 := fun hmem =>
      y.text_facts.2.2.2 (htail.subset (List.mem_of_mem_drop hmem))
    have hnone : fourParts isPart (tail.drop 7) = none := by
      rw [fourParts, splitChars_of_not_mem hdot, if_neg (by simp)]
    split at hcaptured
    · rw [hnone] at hcaptured
      cases hcaptured
    · cases hcaptured

theorem ne_localhost_ipv6 : lowerAscii ('[' :: y.text ++ [']']) ≠ "localhost".toList := by
  intro h
  have hmem : '['.toLower ∈ lowerAscii ('[' :: y.text ++ [']']) := List.mem_map_of_mem (by simp)
  rw [h] at hmem
  exact absurd hmem (by decide)

theorem nop_ipv6 : Nop.CallbackValidator.isPrivateHost (String.ofList ('[' :: y.text ++ [']'])) = true ↔
    y.groups = [0, 0, 0, 0, 0, 0, 0, 1] ∨ (0xfe8 ≤ y.first ∧ y.first ≤ 0xfef) ∨
      (0xfe80 ≤ y.first ∧ y.first ≤ 0xfeff) := by
  have hv4 : Nop.CallbackValidator.isIpv4 y.text = false := by
    simp [Nop.CallbackValidator.isIpv4, splitChars_ipv6]
  have hstart : ∀ d < 16, [Json.hexDigit 15, Json.hexDigit 14, Json.hexDigit d].isPrefixOf y.text = true ↔
      y.first = 256 * 15 + 16 * 14 + d ∨ y.first / 16 = 256 * 15 + 16 * 14 + d := by
    intro d hd
    rw [Ipv6.isPrefixOf_text (by revert d; decide) (by simp; decide) (by simp)]
    exact three_digits_isPrefixOf (by omega) (by omega) hd y.first_small
  have h8 : "fe8".toList.isPrefixOf y.text = true ↔ _ := hstart 8 (by decide)
  have h9 : "fe9".toList.isPrefixOf y.text = true ↔ _ := hstart 9 (by decide)
  have ha : "fea".toList.isPrefixOf y.text = true ↔ _ := hstart 10 (by decide)
  have hb : "feb".toList.isPrefixOf y.text = true ↔ _ := hstart 11 (by decide)
  have hc : "fec".toList.isPrefixOf y.text = true ↔ _ := hstart 12 (by decide)
  have hd : "fed".toList.isPrefixOf y.text = true ↔ _ := hstart 13 (by decide)
  have he : "fee".toList.isPrefixOf y.text = true ↔ _ := hstart 14 (by decide)
  have hf : "fef".toList.isPrefixOf y.text = true ↔ _ := hstart 15 (by decide)
  unfold Nop.CallbackValidator.isPrivateHost
  rw [if_neg (by simp), String.toList_ofList, if_neg (ne_localhost_ipv6 y), hostText_ipv6]
  dsimp only
  rw [hv4, if_neg (by simp), if_pos y.colon_mem_text]
  unfold Nop.CallbackValidator.isPrivateIpv6
  rw [y.text_facts.1]
  simp only [matchMapped_ipv6, Nop.CallbackValidator.startsWithAny, List.any_cons, List.any_nil, Bool.or_false,
    Ipv6.text_eq_loopback, Bool.or_eq_true, h8, h9, ha, hb, hc, hd, he, hf]
  by_cases hloop : y.groups = [0, 0, 0, 0, 0, 0, 0, 1]
  · simp [hloop]
  · simp only [hloop, if_false, false_or]
    split_ifs
    · simp only [true_iff]
      omega
    · simp only [true_iff]
      omega
    · simp only [false_iff]
      omega

theorem nwp_ipv6 : CallbackValidator.isPrivateHost (String.ofList ('[' :: y.text ++ [']'])) = true ↔
    y.groups = [0, 0, 0, 0, 0, 0, 0, 1] ∨ y.groups = [0, 0, 0, 0, 0, 0, 0, 0] ∨ y.first = 0xfe80 ∨
      y.first = 0xfc ∨ y.first = 0xfd ∨ (0xfc0 ≤ y.first ∧ y.first ≤ 0xfdf) ∨
      (0xfc00 ≤ y.first ∧ y.first ≤ 0xfdff) := by
  have hnone : fourParts isShortNumber y.text = none := by
    rw [fourParts, splitChars_ipv6, if_neg (by simp)]
  have hlink : "fe80".toList.isPrefixOf y.text = true ↔ y.first = 4096 * 15 + 256 * 14 + 16 * 8 + 0 := by
    rw [Ipv6.isPrefixOf_text (by decide) (by decide) (by decide)]
    exact four_digits_isPrefixOf (d := 15) (e := 14) (f := 8) (g := 0) (by decide) (by decide) (by decide) (by decide) y.first_small
  have hfc : "fc".toList.isPrefixOf y.text = true ↔
      y.first = 16 * 15 + 12 ∨ y.first / 16 = 16 * 15 + 12 ∨ y.first / 256 = 16 * 15 + 12 := by
    rw [Ipv6.isPrefixOf_text (by decide) (by decide) (by decide)]
    exact two_digits_isPrefixOf (d := 15) (e := 12) (by decide) (by decide) y.first_small
  have hfd : "fd".toList.isPrefixOf y.text = true ↔
      y.first = 16 * 15 + 13 ∨ y.first / 16 = 16 * 15 + 13 ∨ y.first / 256 = 16 * 15 + 13 := by
    rw [Ipv6.isPrefixOf_text (by decide) (by decide) (by decide)]
    exact two_digits_isPrefixOf (d := 15) (e := 13) (by decide) (by decide) y.first_small
  unfold CallbackValidator.isPrivateHost CallbackValidator.isPrivateHostWith
  rw [if_neg (by simp), String.toList_ofList, if_neg (ne_localhost_ipv6 y), hostText_ipv6]
  dsimp only
  rw [hnone]
  dsimp only
  rw [if_pos y.colon_mem_text, y.text_facts.1, matchMapped_ipv6]
  simp only [Ipv6.text_eq_loopback, Ipv6.text_eq_unspecified, hlink]
  by_cases hshort : y.groups = [0, 0, 0, 0, 0, 0, 0, 1] ∨ y.groups = [0, 0, 0, 0, 0, 0, 0, 0]
  · rw [if_pos hshort]
    simp only [true_iff]
    exact hshort.imp_right .inl
  · rw [if_neg hshort]
    rw [not_or] at hshort
    simp only [hshort.1, hshort.2, false_or]
    split_ifs with h
    · simp only [true_iff]
      omega
    · rw [Bool.or_eq_true, hfc, hfd]
      omega

/-! ### Hosts -/

/-- The groups that stand first in an address that one guard refuses and the other does not. -/
def Disputed (n : ℕ) : Prop :=
  n = 0xfc ∨ n = 0xfd ∨ (0xfc0 ≤ n ∧ n ≤ 0xfdf) ∨ (0xfc00 ≤ n ∧ n ≤ 0xfdff) ∨ (0xfe8 ≤ n ∧ n ≤ 0xfef) ∨
    (0xfe81 ≤ n ∧ n ≤ 0xfeff)

/-- The IPv6 addresses that a guard misses, or about which the two differ: `::`, those that start with a
disputed group, and internal IPv4 addresses that are mapped to IPv6. -/
def Missed (y : Ipv6) : Prop :=
  y.groups = [0, 0, 0, 0, 0, 0, 0, 0] ∨ Disputed y.first ∨
    ∃ a b c d, a < 256 ∧ b < 256 ∧ c < 256 ∧ d < 256 ∧ y.Maps a b c d ∧ InternalOctets a b c d

/-- Both guards refuse a host if it is internal, and refuse the same hosts. -/
structure HostGuarded (host : WebHost) : Prop where
  nop : Nop.CallbackValidator.isPrivateHost (String.ofList host.text) = false → ¬ host.IsInternal
  nwp : CallbackValidator.isPrivateHost (String.ofList host.text) = false → ¬ host.IsInternal
  agree : Nop.CallbackValidator.isPrivateHost (String.ofList host.text) =
    CallbackValidator.isPrivateHost (String.ofList host.text)

theorem first_of_maps {a b c d : ℕ} (h : y.Maps a b c d) : y.first = 0 := by
  rw [Ipv6.first, h]
  rfl

theorem hostGuarded_ipv6 : HostGuarded (.ipv6 y) ↔ ¬ Missed y := by
  have hloop : y.groups = [0, 0, 0, 0, 0, 0, 0, 1] → y.first = 0 := fun h => by rw [Ipv6.first, h]; rfl
  have hzero : y.groups = [0, 0, 0, 0, 0, 0, 0, 0] → y.first = 0 := fun h => by rw [Ipv6.first, h]; rfl
  constructor
  · rintro ⟨hnop, hnwp, hagree⟩ hmissed
    rw [Bool.eq_iff_iff] at hagree
    have hagree' := (nop_ipv6 y).symm.trans (hagree.trans (nwp_ipv6 y))
    rcases hmissed with h | h | ⟨a, b, c, d, ha, hb, hc, hd, hmaps, hinternal⟩
    · have hfirst := hzero h
      rw [h] at hagree'
      simp at hagree'
      omega
    · unfold Disputed at h
      by_cases h1 : y.groups = [0, 0, 0, 0, 0, 0, 0, 1]
      · have := hloop h1
        omega
      · by_cases h0 : y.groups = [0, 0, 0, 0, 0, 0, 0, 0]
        · have := hzero h0
          omega
        · simp only [h1, h0, false_or] at hagree'
          omega
    · have hfirst := first_of_maps y hmaps
      have hrefused : Nop.CallbackValidator.isPrivateHost (String.ofList ('[' :: y.text ++ [']'])) = false := by
        rw [Bool.eq_false_iff, ne_eq, nop_ipv6, hmaps]
        simp
        omega
      exact hnop hrefused (.inr (.inr (.inr (.inr ⟨a, b, c, d, ha, hb, hc, hd, hmaps, hinternal⟩))))
  · intro hmissed
    unfold Missed Disputed at hmissed
    rw [not_or, not_or] at hmissed
    obtain ⟨h0, hfirst, hmaps⟩ := hmissed
    refine ⟨fun hpassed hinternal => ?_, fun hpassed hinternal => ?_, ?_⟩
    · have hrefused := mt (nop_ipv6 y).2 (Bool.eq_false_iff.1 hpassed)
      rcases hinternal with h | h | h | h | h
      · exact hrefused (.inl h)
      · exact h0 h
      · omega
      · omega
      · exact hmaps h
    · have hrefused := mt (nwp_ipv6 y).2 (Bool.eq_false_iff.1 hpassed)
      rcases hinternal with h | h | h | h | h
      · exact hrefused (.inl h)
      · exact h0 h
      · omega
      · omega
      · exact hmaps h
    · rw [Bool.eq_iff_iff]
      refine (nop_ipv6 y).trans (Iff.trans ?_ (nwp_ipv6 y).symm)
      by_cases h1 : y.groups = [0, 0, 0, 0, 0, 0, 0, 1]
      · simp [h1]
      · simp only [h1, h0, false_or]
        omega

theorem hostGuarded_ipv4 : HostGuarded (.ipv4 x) := by
  have hrefused : x.IsInternal → refusedOctets x.a.toNat x.b.toNat = true := by
    intro h
    simp only [refusedOctets, Bool.or_eq_true, Bool.and_eq_true, beq_iff_eq, decide_eq_true_eq]
    unfold Ipv4.IsInternal InternalOctets at h
    omega
  refine ⟨fun hpassed hinternal => ?_, fun hpassed hinternal => ?_, ?_⟩
  · have hsame : refusedOctets x.a.toNat x.b.toNat = false := (nop_ipv4 x).symm.trans hpassed
    rw [hrefused hinternal] at hsame
    cases hsame
  · have hsame : refusedOctets x.a.toNat x.b.toNat = false := (nwp_ipv4 x).symm.trans hpassed
    rw [hrefused hinternal] at hsame
    cases hsame
  · exact (nop_ipv4 x).trans (nwp_ipv4 x).symm

/-- The guards do with a host what they should, unless it is an IPv6 address that is missed. -/
theorem hostGuarded_iff (host : WebHost) : HostGuarded host ↔ ∀ y, host = .ipv6 y → ¬ Missed y := by
  cases host with
  | domain name =>
    refine iff_of_true ⟨fun _ h => h, fun _ h => h, guards_domain name⟩ ?_
    rintro y ⟨⟩
  | ipv4 x =>
    refine iff_of_true (hostGuarded_ipv4 x) ?_
    rintro y ⟨⟩
  | ipv6 y =>
    rw [hostGuarded_ipv6]
    constructor
    · rintro h y' ⟨⟩
      exact h
    · exact fun h => h y rfl

/-! ### Addresses -/

variable (parse : String → Option Url) (url : String)

def InternalHost : Prop := ∃ address, parse url = some (.web address) ∧ address.host.IsInternal

/-- No validator accepts an address whose host is internal, and both say the same of every address. -/
structure Guarded : Prop where
  nop : Nop.CallbackValidator.validateCallbackUrl parse url = none → ¬ InternalHost parse url
  nwp : CallbackValidator.validateCallbackUrl parse url true = none → ¬ InternalHost parse url
  agree : Nop.CallbackValidator.validateCallbackUrl parse url = CallbackValidator.validateCallbackUrl parse url true

/-- An `https` address whose host is an IPv6 address that is missed. -/
def MissedUrl : Prop :=
  isBlank url = false ∧ ∃ address y, parse url = some (.web address) ∧ address.secure = true ∧
    address.host = .ipv6 y ∧ Missed y

/-- What both validators say of a host that they refuse. -/
def messageFor (hostname : String) : String :=
  s!"callback_url host '{hostname}' resolves to a private or loopback address (SSRF guard)."

variable {parse url}

/-- What both validators say of an address that is no `https` address. -/
theorem guarded_of_refused {message : String}
    (hnop : Nop.CallbackValidator.validateCallbackUrl parse url = some message)
    (hnwp : CallbackValidator.validateCallbackUrl parse url true = some message) : Guarded parse url where
  nop h := by
    rw [hnop] at h
    cases h
  nwp h := by
    rw [hnwp] at h
    cases h
  agree := hnop.trans hnwp.symm

theorem guarded_other {scheme : OtherScheme} {hostname : String} (hblank : isBlank url = false)
    (hparse : parse url = some (.other scheme hostname)) : Guarded parse url := by
  have hcolon : stripColon (scheme.text ++ ":").toList = scheme.text.toList := by simp [stripColon]
  have hlower : lowerAscii (scheme.text ++ ":").toList = (scheme.text ++ ":").toList := by
    rw [String.toList_append, lowerAscii, List.map_append, ← lowerAscii, OtherScheme.lowerAscii_text]
    rfl
  have hnop : Nop.CallbackValidator.validateCallbackUrl parse url =
      some s!"callback_url MUST use the https:// scheme (got '{scheme.text}://')." := by
    unfold Nop.CallbackValidator.validateCallbackUrl
    rw [hblank, hparse]
    simp only [Url.protocol, hcolon, OtherScheme.lowerAscii_text, String.ofList_toList, Bool.false_eq_true, if_false]
    rw [if_pos scheme.other.2]
  have hnwp : CallbackValidator.validateCallbackUrl parse url true =
      some s!"callback_url MUST use the https:// scheme (got '{scheme.text}://')." := by
    unfold CallbackValidator.validateCallbackUrl
    rw [hblank, hparse]
    simp only [Url.protocol, hlower, hcolon, String.ofList_toList, Bool.false_eq_true, if_false]
    rw [if_pos]
    intro h
    refine scheme.other.2 ?_
    have hhttps : ("https:" : String).toList = "https".toList ++ ":".toList := rfl
    rw [String.toList_append, hhttps, List.append_left_inj] at h
    exact String.toList_inj.1 h
  exact guarded_of_refused hnop hnwp

variable {address : WebUrl}

theorem guarded_insecure (hblank : isBlank url = false)
    (hparse : parse url = some (.web address)) (hsecure : address.secure = false) : Guarded parse url := by
  have hnop : Nop.CallbackValidator.validateCallbackUrl parse url =
      some "callback_url MUST use the https:// scheme (got 'http://')." := by
    unfold Nop.CallbackValidator.validateCallbackUrl
    rw [hblank, hparse]
    simp only [Url.protocol, hsecure, Bool.false_eq_true, if_false]
    rfl
  have hnwp : CallbackValidator.validateCallbackUrl parse url true =
      some "callback_url MUST use the https:// scheme (got 'http://')." := by
    unfold CallbackValidator.validateCallbackUrl
    rw [hblank, hparse]
    simp only [Url.protocol, hsecure, Bool.false_eq_true, if_false]
    rfl
  exact guarded_of_refused hnop hnwp

theorem nop_secure (hblank : isBlank url = false) (hparse : parse url = some (.web address))
    (hsecure : address.secure = true) : Nop.CallbackValidator.validateCallbackUrl parse url =
      if Nop.CallbackValidator.isPrivateHost (String.ofList address.host.text) then
        some (messageFor (String.ofList address.host.text)) else none := by
  have hprotocol : (Url.web address).protocol = "https:" := by rw [Url.protocol, hsecure, if_pos rfl]
  have hscheme : String.ofList (lowerAscii (stripColon "https:".toList)) = "https" := rfl
  unfold Nop.CallbackValidator.validateCallbackUrl
  rw [hblank, hparse, if_neg Bool.false_ne_true]
  dsimp only
  rw [hprotocol, hscheme, if_neg (fun h => h rfl)]
  rfl

theorem nwp_secure (hblank : isBlank url = false) (hparse : parse url = some (.web address))
    (hsecure : address.secure = true) : CallbackValidator.validateCallbackUrl parse url true =
      if CallbackValidator.isPrivateHost (String.ofList address.host.text) then
        some (messageFor (String.ofList address.host.text)) else none := by
  have hprotocol : (Url.web address).protocol = "https:" := by rw [Url.protocol, hsecure, if_pos rfl]
  have hscheme : lowerAscii "https:".toList = "https:".toList := rfl
  unfold CallbackValidator.validateCallbackUrl
  rw [hblank, hparse, if_neg Bool.false_ne_true]
  dsimp only
  rw [hprotocol, hscheme, if_neg (fun h => h rfl), Bool.true_and]
  rfl

/-- Of an `https` address both validators look at the host. -/
theorem guarded_secure (hblank : isBlank url = false)
    (hparse : parse url = some (.web address)) (hsecure : address.secure = true) :
    Guarded parse url ↔ HostGuarded address.host := by
  have hinternal : InternalHost parse url ↔ address.host.IsInternal := by
    constructor
    · rintro ⟨address', hparse', h⟩
      rw [hparse] at hparse'
      cases hparse'
      exact h
    · exact fun h => ⟨address, hparse, h⟩
  have hnop := nop_secure hblank hparse hsecure
  have hnwp := nwp_secure hblank hparse hsecure
  constructor
  · rintro ⟨h1, h2, h3⟩
    rw [hnop, hinternal] at h1
    rw [hnwp, hinternal] at h2
    rw [hnop, hnwp] at h3
    refine ⟨fun h => h1 (by rw [h]; rfl), fun h => h2 (by rw [h]; rfl), ?_⟩
    rw [Bool.eq_iff_iff]
    split_ifs at h3 with hn hw hw
    · exact iff_of_true hn hw
    · exact iff_of_false hn hw
  · rintro ⟨h1, h2, h3⟩
    refine ⟨?_, ?_, ?_⟩
    · rw [hnop, hinternal]
      intro h
      split_ifs at h with hn
      exact h1 (Bool.eq_false_iff.2 hn)
    · rw [hnwp, hinternal]
      intro h
      split_ifs at h with hw
      exact h2 (Bool.eq_false_iff.2 hw)
    · rw [hnop, hnwp, h3]

/-- **The callback guards.**  Of every address the validators accept it only if its host is no internal IP
literal, and they agree, unless it is an `https` address whose host is an IPv6 address that is missed. -/
theorem guarded_iff (parse : String → Option Url) (url : String) : Guarded parse url ↔ ¬ MissedUrl parse url := by
  cases hblank : isBlank url with
  | true =>
    refine iff_of_true (@guarded_of_refused _ _ "callback_url must not be empty." ?_ ?_) ?_
    · unfold Nop.CallbackValidator.validateCallbackUrl
      rw [hblank, if_pos rfl]
    · unfold CallbackValidator.validateCallbackUrl
      rw [hblank, if_pos rfl]
    · rintro ⟨hno, -⟩
      rw [hblank] at hno
      cases hno
  | false =>
    cases hparse : parse url with
    | none =>
      refine iff_of_true (@guarded_of_refused _ _ s!"callback_url '{url}' is not a valid absolute URI." ?_ ?_) ?_
      · unfold Nop.CallbackValidator.validateCallbackUrl
        rw [hblank, hparse]
        rfl
      · unfold CallbackValidator.validateCallbackUrl
        rw [hblank, hparse]
        rfl
      · rintro ⟨-, address, y, hsome, -⟩
        rw [hparse] at hsome
        cases hsome
    | some uri =>
      cases uri with
      | other scheme hostname =>
        refine iff_of_true (guarded_other hblank hparse) ?_
        rintro ⟨-, address, y, hsome, -⟩
        rw [hparse] at hsome
        cases hsome
      | web address =>
        have hmissed : MissedUrl parse url ↔ address.secure = true ∧ ∃ y, address.host = .ipv6 y ∧ Missed y := by
          constructor
          · rintro ⟨-, address', y, hsome, hsecure, hhost, h⟩
            rw [hparse] at hsome
            cases hsome
            exact ⟨hsecure, y, hhost, h⟩
          · rintro ⟨hsecure, y, hhost, h⟩
            exact ⟨hblank, address, y, hparse, hsecure, hhost, h⟩
        rw [hmissed]
        cases hsecure : address.secure with
        | false =>
          refine iff_of_true (guarded_insecure hblank hparse hsecure) ?_
          rintro ⟨h, -⟩
          cases h
        | true =>
          rw [guarded_secure hblank hparse hsecure, hostGuarded_iff]
          simp only [true_and, not_exists, not_and]

/-! ### Internal hosts that pass -/

def mappedLoopback : Ipv6 := ⟨[0, 0, 0, 0, 0, 0xffff, 0x7f00, 1], rfl, by decide⟩

def uniqueLocal : Ipv6 := ⟨[0xfd00, 0, 0, 0, 0, 0, 0, 1], rfl, by decide⟩

def linkLocal : Ipv6 := ⟨[0xfe90, 0, 0, 0, 0, 0, 0, 1], rfl, by decide⟩

/-- What is read in three addresses. -/
def readSample (url : String) : Option Url :=
  if url = "https://[::ffff:127.0.0.1]/cb" then some (.web ⟨true, .ipv6 mappedLoopback, none, "/cb".toList⟩)
  else if url = "https://[fd00::1]/cb" then some (.web ⟨true, .ipv6 uniqueLocal, none, "/cb".toList⟩)
  else if url = "https://[fe90::1]/cb" then some (.web ⟨true, .ipv6 linkLocal, none, "/cb".toList⟩)
  else none

/-- Both validators accept a mapped loopback address; that of tasks accepts a unique-local address and that
of nodes a link-local one, which the other refuses. -/
theorem internal_hosts_pass :
    (Nop.CallbackValidator.validateCallbackUrl readSample "https://[::ffff:127.0.0.1]/cb" = none ∧
      CallbackValidator.validateCallbackUrl readSample "https://[::ffff:127.0.0.1]/cb" true = none ∧
      ¬ Guarded readSample "https://[::ffff:127.0.0.1]/cb") ∧
    (Nop.CallbackValidator.validateCallbackUrl readSample "https://[fd00::1]/cb" = none ∧
      ¬ Guarded readSample "https://[fd00::1]/cb") ∧
    (CallbackValidator.validateCallbackUrl readSample "https://[fe90::1]/cb" true = none ∧
      ¬ Guarded readSample "https://[fe90::1]/cb") := by
  have h1 : Nop.CallbackValidator.validateCallbackUrl readSample "https://[::ffff:127.0.0.1]/cb" = none := by
    decide
  have h2 : CallbackValidator.validateCallbackUrl readSample "https://[::ffff:127.0.0.1]/cb" true = none := by
    decide
  have h3 : Nop.CallbackValidator.validateCallbackUrl readSample "https://[fd00::1]/cb" = none := by decide
  have h4 : CallbackValidator.validateCallbackUrl readSample "https://[fe90::1]/cb" true = none := by decide
  refine ⟨⟨h1, h2, fun h => h.nop h1 ⟨_, rfl, ?_⟩⟩, ⟨h3, fun h => h.nop h3 ⟨_, rfl, ?_⟩⟩,
    ⟨h4, fun h => h.nwp h4 ⟨_, rfl, ?_⟩⟩⟩
  · exact .inr (.inr (.inr (.inr ⟨127, 0, 0, 1, by decide, by decide, by decide, by decide, rfl, .inl rfl⟩)))
  · exact .inr (.inr (.inl (by decide)))
  · exact .inr (.inr (.inr (.inl (by decide))))

end NpsSdk.Nwp.CallbackGuards
