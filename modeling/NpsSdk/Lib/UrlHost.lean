import NpsSdk.Lib.Bytes
import NpsSdk.Lib.JsString

/-!
# The host of an address

`new URL(text).hostname`, for an address whose scheme is none of the special ones: after `//` stands the
authority, in it the host between the user information and the port.  A host is a text that is
percent-encoded where it must be, or an IPv6 address in brackets.
-/

namespace NpsSdk.Lib.UrlHost

/-! ### Characters -/

/-- The characters that are removed from an address before it is read. -/
def isTabOrNewline (c : Char) : Bool := c = '\t' || c = '\n' || c = '\r'

/-- The characters that are removed at both ends. -/
def isControlOrSpace (c : Char) : Bool := decide (c.toNat ≤ 0x20)

def isAuthorityEnd (c : Char) : Bool := c = '/' || c = '?' || c = '#'

/-- The characters that a host must not have. -/
def isForbidden (c : Char) : Bool :=
  c = '\x00' || isTabOrNewline c || c = ' ' || isAuthorityEnd c || c = ':' || c = '<' || c = '>' || c = '@' ||
    c = '[' || c = '\\' || c = ']' || c = '^' || c = '|'

def hexDigit (n : ℕ) : Char := if n < 10 then Char.ofNat ('0'.toNat + n) else Char.ofNat ('A'.toNat + (n - 10))

def percentByte (b : UInt8) : List Char := ['%', hexDigit (b.toNat / 16), hexDigit (b.toNat % 16)]

/-- A character of a host; control characters and what is not ASCII are percent-encoded. -/
def encodeChar (c : Char) : List Char :=
  if c.toNat < 0x20 || 0x7e < c.toNat then (String.utf8EncodeChar c).flatMap percentByte else [c]

/-! ### The parts of an authority -/

/-- The text after the user information, which must not be empty where there is some. -/
def afterUserinfo (authority : List Char) : Option (List Char) :=
  if '@' ∈ authority then
    match (authority.reverse.takeWhile (· ≠ '@')).reverse with
    | [] => none
    | host => some host
  else some authority

/-- The text up to the first colon outside of brackets, and the port after it. -/
def splitPort (inBrackets : Bool) : List Char → List Char × Option (List Char)
  | [] => ([], none)
  | c :: cs =>
    if c = ':' && !inBrackets then ([], some cs)
    else
      let (host, port) := splitPort (if c = '[' then true else if c = ']' then false else inBrackets) cs
      (c :: host, port)

def isPort (port : List Char) : Bool := port.all Char.isDigit && decide (digitsValue port ≤ 65535)

section

-- reads an IPv6 address and writes it in its shortest form
variable (ipv6 : List Char → Option (List Char))

def parseHost : List Char → Option (List Char)
  | '[' :: rest =>
    if rest.getLast? = some ']' then (ipv6 rest.dropLast).map fun address => '[' :: address ++ [']'] else none
  | host => if host.any isForbidden then none else some (host.flatMap encodeChar)

def parseAuthority (authority : List Char) : Option (List Char) := do
  let text ← afterUserinfo authority
  match splitPort false text with
  | (host, none) => parseHost ipv6 host
  | ([], some _) => none
  | (host, some port) => if isPort port then parseHost ipv6 host else none

/-- What is read: without control characters and spaces at its ends, and without tabs and newlines. -/
def cleaned (text : List Char) : List Char :=
  ((text.dropWhile isControlOrSpace).reverse.dropWhile isControlOrSpace).reverse.filter (!isTabOrNewline ·)

/-- What follows a scheme, given in small letters. -/
def afterScheme (scheme : List Char) (text : List Char) : Option (List Char) :=
  if (text.take (scheme.length + 1)).map Char.toLower = scheme ++ [':'] then some (text.drop (scheme.length + 1))
  else none

/-- The host of an address of the given scheme, empty where it has none; `none` for what is no such address. -/
def hostname (scheme : String) (text : String) : Option String :=
  match afterScheme scheme.toList (cleaned text.toList) with
  | none => none
  | some ('/' :: '/' :: rest) => (parseAuthority ipv6 (rest.takeWhile (!isAuthorityEnd ·))).map String.ofList
  | some _ => some ""

end

/-! ### Plain hosts -/

/-- A visible ASCII character that a host may have. -/
def isPlain (c : Char) : Bool := decide (0x20 < c.toNat) && decide (c.toNat ≤ 0x7e) && !isForbidden c

theorem isPlain_iff {c : Char} : isPlain c = true ↔ 0x20 < c.toNat ∧ c.toNat ≤ 0x7e ∧ isForbidden c = false := by
  simp [isPlain, and_assoc]

theorem isForbidden_false {c : Char} (h : isForbidden c = false) : isTabOrNewline c = false ∧
    isAuthorityEnd c = false ∧ c ≠ ':' ∧ c ≠ '@' ∧ c ≠ '[' ∧ c ≠ ']' := by
  simp only [isForbidden, Bool.or_eq_false_iff, decide_eq_false_iff_not] at h
  simp [h]

variable {ipv6 : List Char → Option (List Char)} {cs : List Char}

theorem dropWhile_visible {c : Char} (hc : 0x20 < c.toNat) : (c :: cs).dropWhile isControlOrSpace = c :: cs := by
  rw [List.dropWhile_cons_of_neg]
  simpa [isControlOrSpace] using hc

theorem cleaned_of_visible (h : ∀ c ∈ cs, 0x20 < c.toNat) : cleaned cs = cs := by
  have hdrop : ∀ cs : List Char, (∀ c ∈ cs, 0x20 < c.toNat) → cs.dropWhile isControlOrSpace = cs := by
    intro cs hcs
    cases cs with
    | nil => rfl
    | cons c cs => exact dropWhile_visible (hcs c List.mem_cons_self)
  rw [cleaned, hdrop cs h, hdrop _ fun c hc => h c (List.mem_reverse.1 hc), List.reverse_reverse, List.filter_eq_self]
  intro c hc
  have hvisible := h c hc
  have htab : c ≠ '\t' ∧ c ≠ '\n' ∧ c ≠ '\r' := by
    refine ⟨?_, ?_, ?_⟩ <;>
    · rintro rfl
      exact absurd hvisible (by decide)
  simp [isTabOrNewline, htab]

theorem splitPort_plain (h : ∀ c ∈ cs, isPlain c = true) : splitPort false cs = (cs, none) := by
  induction cs with
  | nil => rfl
  | cons c cs ih =>
    obtain ⟨-, -, hcolon, -, hopen, hclose⟩ :=
      isForbidden_false (isPlain_iff.1 (h c List.mem_cons_self)).2.2
    rw [splitPort]
    simp [hcolon, hopen, hclose, ih fun d hd => h d (List.mem_cons_of_mem _ hd)]

theorem parseHost_plain (h : ∀ c ∈ cs, isPlain c = true) : parseHost ipv6 cs = some cs := by
  have hnone : cs.any isForbidden = false := by
    rw [List.any_eq_false]
    exact fun c hc => by simp [(isPlain_iff.1 (h c hc)).2.2]
  have hencode : cs.flatMap encodeChar = cs := by
    conv_rhs => rw [← List.flatMap_singleton' cs]
    refine List.flatMap_congr fun c hc => ?_
    obtain ⟨hlow, hhigh, -⟩ := isPlain_iff.1 (h c hc)
    rw [encodeChar, if_neg (by simpa using ⟨by omega, hhigh⟩)]
  unfold parseHost
  split
  · rename_i rest
    exact absurd rfl (isForbidden_false (isPlain_iff.1 (h '[' List.mem_cons_self)).2.2).2.2.2.2.1
  · rw [hnone, hencode]
    rfl

theorem parseAuthority_plain (h : ∀ c ∈ cs, isPlain c = true) : parseAuthority ipv6 cs = some cs := by
  have hat : '@' ∉ cs := fun hmem =>
    (isForbidden_false (isPlain_iff.1 (h '@' hmem)).2.2).2.2.2.1 rfl
  simp only [parseAuthority, afterUserinfo, if_neg hat, Option.bind_eq_bind, Option.bind_some,
    splitPort_plain h, parseHost_plain h]

/-- **A plain text is read as the host it is.** -/
theorem hostname_plain {scheme name : String} (hscheme : ∀ c ∈ scheme.toList, c.toLower = c ∧ 0x20 < c.toNat)
    (hname : ∀ c ∈ name.toList, isPlain c = true) :
    hostname ipv6 scheme (scheme ++ "://" ++ name ++ "/") = some name := by
  have hclean : cleaned (scheme ++ "://" ++ name ++ "/").toList =
      scheme.toList ++ ':' :: '/' :: '/' :: (name.toList ++ ['/']) := by
    rw [cleaned_of_visible]
    · simp
    · intro c hc
      simp only [String.toList_append, List.mem_append] at hc
      rcases hc with ((hc | hc) | hc) | hc
      · exact (hscheme c hc).2
      · obtain rfl | rfl : c = ':' ∨ c = '/' := by simpa using hc
        · decide
        · decide
      · exact (isPlain_iff.1 (hname c hc)).1
      · obtain rfl : c = '/' := by simpa using hc
        decide
  have hafter : afterScheme scheme.toList (scheme.toList ++ ':' :: '/' :: '/' :: (name.toList ++ ['/'])) =
      some ('/' :: '/' :: (name.toList ++ ['/'])) := by
    have hlower : scheme.toList.map Char.toLower = scheme.toList :=
      (List.map_congr_left fun c hc => (hscheme c hc).1).trans (List.map_id _)
    rw [afterScheme, List.take_append, List.drop_append]
    have htaken : List.take (scheme.toList.length + 1) scheme.toList = scheme.toList :=
      List.take_of_length_le (Nat.le_succ _)
    simp [hlower, htaken]
  have htake : (name.toList ++ ['/']).takeWhile (!isAuthorityEnd ·) = name.toList := by
    rw [List.takeWhile_append_of_pos fun c hc => by
      simp [(isForbidden_false (isPlain_iff.1 (hname c hc)).2.2).2.1]]
    simp [isAuthorityEnd]
  rw [hostname, hclean, hafter]
  simp only [htake, parseAuthority_plain hname, Option.map_some, String.ofList_toList]

end NpsSdk.Lib.UrlHost
