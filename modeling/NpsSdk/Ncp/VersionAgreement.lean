import Mathlib.Data.List.GetD
import Mathlib.Data.List.TakeWhile
import NpsSdk.Ncp.Negotiation

/-!
# Two negotiators of versions

`negotiateVersion` reads dotted texts of any kind, `negotiateHandshake` only two numbers.  The first one takes
what is no number to be compatible with everything; where both are negotiated, the session versions are the
same number exactly if the numbers of the lower version are written as they were read.
-/

namespace NpsSdk.Ncp

open NpsSdk.Lib

/-! ### `negotiateVersion` -/

/-- `Number.parseInt(p, 10)`. -/
def parseIntNumber (p : String) : JsDouble :=
  match parseInt p with
  | none => .nan
  | some z => if 0 ≤ z then .ofNat z.toNat else - .ofNat (-z).toNat

/-- `parseVersion` of this negotiator. -/
def parseParts (v : String) : List JsDouble := (split v '.').map parseIntNumber

/-- The difference of the first parts that are not the same number; a part that is missing is 0. -/
def compareParts (xs ys : List JsDouble) : JsDouble :=
  match (List.range (max xs.length ys.length)).find? fun i => !(xs.getD i 0).eq (ys.getD i 0) with
  | some i => xs.getD i 0 - ys.getD i 0
  | none => 0

def compareVersions (a b : String) : JsDouble := compareParts (parseParts a) (parseParts b)

structure VersionOutcome where
  session_version : String
  compatible : Bool
  error_code : Option String := none

def negotiateVersion (nps_version : String) (min_version : Option String) (serverVersion : String) :
    VersionOutcome :=
  if 0 < compareVersions (min_version.getD nps_version) serverVersion then
    { session_version := serverVersion, compatible := false, error_code := some "NCP-VERSION-INCOMPATIBLE" }
  else
    { session_version := if compareVersions nps_version serverVersion ≤ 0 then nps_version else serverVersion
      compatible := true }

/-! ### Comparison -/

/-- At the first parts that are not the same number, the first text has the greater number. -/
def ReadAbove (xs ys : List JsDouble) : Prop :=
  ∃ i, (∀ j < i, (xs.getD j 0).eq (ys.getD j 0) = true) ∧ ys.getD i 0 < xs.getD i 0

variable {xs ys : List JsDouble}

/-- **The comparison of two texts.** -/
theorem compareParts_pos : 0 < compareParts xs ys ↔ ReadAbove xs ys := by
  unfold compareParts
  split
  · rename_i i hfind
    obtain ⟨hi, -, hbefore⟩ := List.find?_range_eq_some.1 hfind
    have hi : (xs.getD i 0).eq (ys.getD i 0) = false := by simpa using hi
    have hbefore : ∀ j < i, (xs.getD j 0).eq (ys.getD j 0) = true := fun j hj => by simpa using hbefore j hj
    rw [JsDouble.sub_pos]
    constructor
    · exact fun hlt => ⟨i, hbefore, hlt⟩
    · rintro ⟨k, hk, hlt⟩
      -- both positions are the first one at which the parts differ
      rcases lt_trichotomy i k with hik | rfl | hki
      · rw [hk i hik] at hi
        cases hi
      · exact hlt
      · have hbefore := hbefore k hki
        rw [JsDouble.eq_false_of_lt hlt] at hbefore
        cases hbefore
  · rename_i hfind
    have hsame : ∀ i < max xs.length ys.length, (xs.getD i 0).eq (ys.getD i 0) = true := fun i hi => by
      simpa using List.find?_eq_none.1 hfind i (List.mem_range.2 hi)
    constructor
    · exact fun h => absurd h (by decide)
    · rintro ⟨i, -, hlt⟩
      by_cases hi : i < max xs.length ys.length
      · have hsame := hsame i hi
        rw [JsDouble.eq_false_of_lt hlt] at hsame
        cases hsame
      · have hi : xs.length ≤ i ∧ ys.length ≤ i := by omega
        rw [List.getD_eq_default _ _ hi.1, List.getD_eq_default _ _ hi.2] at hlt
        exact absurd hlt (by decide)

/-! ### Dotted numbers -/

/-- The numbers of a text of decimal numbers with dots between them. -/
def dotted (v : String) : Option (List ℕ) := (splitChars '.' v.toList).mapM parseDecimal

/-- One list of numbers comes after another one, missing numbers being 0. -/
def Above (ms ns : List ℕ) : Prop := ∃ i, (∀ j < i, ms.getD j 0 = ns.getD j 0) ∧ ns.getD i 0 < ms.getD i 0

/-- Two texts of decimal numbers, the first of which is not above the second. -/
def NotAbove (minimum version : String) : Prop :=
  ∃ ms ns, dotted minimum = some ms ∧ dotted version = some ns ∧ ¬ Above ms ns

/-- At the first numbers that differ, the first one is the greater, and both are read as one number. -/
def ReadAsOne (ms ns : List ℕ) : Prop :=
  ∃ i, (∀ j < i, ms.getD j 0 = ns.getD j 0) ∧ ns.getD i 0 < ms.getD i 0 ∧
    JsDouble.ofNat (ns.getD i 0) = JsDouble.ofNat (ms.getD i 0)

variable {p : List Char} {n : ℕ} {ms ns : List ℕ} {v w : String}

theorem parseDecimal_eq_some_iff : parseDecimal p = some n ↔
    p ≠ [] ∧ p.all Char.isDigit = true ∧ digitsValue p = n := by
  unfold parseDecimal
  split
  · rename_i h
    simp only [reduceCtorEq, false_iff]
    rintro ⟨hne, hall, -⟩
    rcases h with h | h
    · exact hne h
    · rw [hall] at h
      cases h
  · rename_i h
    rw [not_or, Bool.not_eq_false] at h
    simp [h.1, h.2]

theorem digit_cases {c : Char} (hc : c.isDigit = true) : isJsSpace c = false ∧ c ≠ '-' ∧ c ≠ '+' ∧ c ≠ '.' := by
  have h : 48 ≤ c.toNat ∧ c.toNat ≤ 57 := by
    simpa [Char.isDigit, UInt32.le_iff_toNat_le] using hc
  refine ⟨?_, ?_, ?_, ?_⟩
  · unfold isJsSpace
    simp only [Bool.or_eq_false_iff, Bool.and_eq_false_iff, beq_eq_false_iff_ne, decide_eq_false_iff_not]
    omega
  all_goals
    rintro rfl
    revert h
    decide

/-- `parseInt` reads a decimal number as it is. -/
theorem parseIntNumber_of_decimal (h : parseDecimal p = some n) : parseIntNumber (String.ofList p) = .ofNat n := by
  obtain ⟨hne, hall, rfl⟩ := parseDecimal_eq_some_iff.1 h
  have hdigits : ∀ c ∈ p, c.isDigit = true := List.all_eq_true.1 hall
  cases p with
  | nil => exact absurd rfl hne
  | cons c cs =>
    obtain ⟨hspace, hminus, hplus, -⟩ := digit_cases (hdigits c List.mem_cons_self)
    have htake : (c :: cs).takeWhile Char.isDigit = c :: cs := List.takeWhile_eq_self_iff.2 hdigits
    have hparse : parseInt (String.ofList (c :: cs)) = some (digitsValue (c :: cs) : ℤ) := by
      unfold parseInt
      rw [String.toList_ofList, List.dropWhile_cons_of_neg (by simp [hspace])]
      split
      · rename_i heq
        exact absurd (List.head_eq_of_cons_eq heq) hminus
      · rename_i heq
        exact absurd (List.head_eq_of_cons_eq heq) hplus
      · dsimp only
        rw [htake]
        rfl
    rw [parseIntNumber, hparse]
    simp

theorem mapM_length {ps : List (List Char)} (h : ps.mapM parseDecimal = some ns) :
    (ps.map String.ofList).map parseIntNumber = ns.map JsDouble.ofNat := by
  induction ps generalizing ns with
  | nil =>
    cases h
    rfl
  | cons p ps ih =>
    rw [List.mapM_cons] at h
    obtain ⟨n, hn, h⟩ := Option.bind_eq_some_iff.1 h
    obtain ⟨rest, hrest, h⟩ := Option.bind_eq_some_iff.1 h
    cases h
    rw [List.map_cons, List.map_cons, List.map_cons, ih hrest, parseIntNumber_of_decimal hn]

theorem parseParts_of_dotted (h : dotted v = some ns) : parseParts v = ns.map JsDouble.ofNat :=
  mapM_length h

theorem getD_read (i : ℕ) : (ns.map JsDouble.ofNat).getD i 0 = JsDouble.ofNat (ns.getD i 0) := by
  have hzero : (0 : JsDouble) = JsDouble.ofNat 0 := (JsDouble.ofNat_of_lt (by decide)).symm
  rw [hzero]
  exact List.getD_map ns 0 JsDouble.ofNat

theorem readAbove_of_above (hone : ¬ ReadAsOne ms ns) (h : Above ms ns) :
    ReadAbove (ms.map JsDouble.ofNat) (ns.map JsDouble.ofNat) := by
  obtain ⟨i, hbefore, hlt⟩ := h
  refine ⟨i, fun j hj => ?_, ?_⟩
  · rw [getD_read, getD_read, hbefore j hj]
    exact (JsDouble.eq_iff JsDouble.ofNat_ne_nan).2 rfl
  · rw [getD_read, getD_read]
    exact JsDouble.ofNat_lt hlt.le fun heq => hone ⟨i, hbefore, hlt, heq⟩

theorem compatible_iff {nps_version serverVersion : String} {min_version : Option String} :
    (negotiateVersion nps_version min_version serverVersion).compatible = true ↔
      ¬ ReadAbove (parseParts (min_version.getD nps_version)) (parseParts serverVersion) := by
  rw [← compareParts_pos]
  show _ ↔ ¬ 0 < compareVersions (min_version.getD nps_version) serverVersion
  unfold negotiateVersion
  split <;> simp_all

/-- **When a compatible version is one**: the minimum is read as a greater number than the version at the first
parts that are read apart, or both are dotted numbers that are not read as one where the minimum is above. -/
theorem notAbove_iff {nps_version serverVersion : String} {min_version : Option String} :
    ((negotiateVersion nps_version min_version serverVersion).compatible = true →
      NotAbove (min_version.getD nps_version) serverVersion) ↔
    (ReadAbove (parseParts (min_version.getD nps_version)) (parseParts serverVersion) ∨
      ∃ ms ns, dotted (min_version.getD nps_version) = some ms ∧ dotted serverVersion = some ns ∧
        ¬ ReadAsOne ms ns) := by
  rw [compatible_iff]
  constructor
  · intro h
    by_cases hread : ReadAbove (parseParts (min_version.getD nps_version)) (parseParts serverVersion)
    · exact .inl hread
    · obtain ⟨ms, ns, hms, hns, habove⟩ := h hread
      exact .inr ⟨ms, ns, hms, hns, fun ⟨i, hbefore, hlt, _⟩ => habove ⟨i, hbefore, hlt⟩⟩
  · rintro (hread | ⟨ms, ns, hms, hns, hone⟩) hcompatible
    · exact absurd hread hcompatible
    · refine ⟨ms, ns, hms, hns, fun habove => hcompatible ?_⟩
      rw [parseParts_of_dotted hms, parseParts_of_dotted hns]
      exact readAbove_of_above hone habove

/-! ### Where both are negotiated -/

variable {a b c : Version} {server : NcpHandshakeProfile} {client : HelloFrame} {d : Negotiation}

theorem not_compare_pos (ha : a.Read) (hb : b.Read) : ¬ 0 < compare a b ↔ a.1 < b.1 ∨ a.1 = b.1 ∧ a.2 ≤ b.2 := by
  rw [compare_pos]
  split
  · rename_i heq
    have heq := (JsDouble.eq_iff ha.1).1 heq
    constructor
    · exact fun h => .inr ⟨heq, (JsDouble.le_or_lt ha.2 hb.2).resolve_right h⟩
    · rintro (h | ⟨-, h⟩) hlt
      · rw [heq] at h
        exact JsDouble.lt_irrefl h
      · exact JsDouble.lt_irrefl (JsDouble.lt_of_le_of_lt h hlt)
  · rename_i hne
    constructor
    · intro h
      rcases JsDouble.le_iff.1 ((JsDouble.le_or_lt ha.1 hb.1).resolve_right h) with h | ⟨h, -⟩
      · exact .inl h
      · exact absurd ((JsDouble.eq_iff ha.1).2 h) hne
    · rintro (h | ⟨h, -⟩) hlt
      · exact JsDouble.lt_irrefl (JsDouble.lt_trans h hlt)
      · exact hne ((JsDouble.eq_iff ha.1).2 h)

theorem not_compare_pos_trans (ha : a.Read) (hb : b.Read) (hc : c.Read) (hab : ¬ 0 < compare a b)
    (hbc : ¬ 0 < compare b c) : ¬ 0 < compare a c := by
  rw [not_compare_pos ha hb] at hab
  rw [not_compare_pos hb hc] at hbc
  rw [not_compare_pos ha hc]
  rcases hab with hab | ⟨hab, hle⟩
  · rcases hbc with hbc | ⟨hbc, -⟩
    · exact .inl (JsDouble.lt_trans hab hbc)
    · exact .inl (hbc ▸ hab)
  · rcases hbc with hbc | ⟨hbc, hle'⟩
    · exact .inl (hab ▸ hbc)
    · exact .inr ⟨hab.trans hbc, JsDouble.le_trans hle hle'⟩

theorem not_compare_pos_of_lt (h : 0 < compare a b) : ¬ 0 < compare b a := by
  rw [← compare_neg]
  exact fun hlt => JsDouble.lt_irrefl (JsDouble.lt_trans h hlt)

theorem eq_of_not_compare_pos (ha : a.Read) (hb : b.Read) (hab : ¬ 0 < compare a b)
    (hba : ¬ 0 < compare b a) : a = b := by
  rw [not_compare_pos ha hb] at hab
  rw [not_compare_pos hb ha] at hba
  rcases hab with hab | ⟨heq, hle⟩
  · rcases hba with hba | ⟨heq, -⟩
    · exact absurd (JsDouble.lt_trans hab hba) JsDouble.lt_irrefl
    · rw [heq] at hab
      exact absurd hab JsDouble.lt_irrefl
  · rcases hba with hba | ⟨-, hle'⟩
    · rw [heq] at hba
      exact absurd hba JsDouble.lt_irrefl
    · exact Prod.ext heq (JsDouble.le_antisymm hle hle')

theorem minimum_of_accepts {smin smax cmin cmax : ℕ × ℕ} {stable : String}
    (h : Accepts server client smin smax cmin cmax stable) : ¬ 0 < compare (readVersion cmin) (readVersion smax) := by
  have hoverlap := h.overlap
  rw [maxVersion_eq read_readVersion read_readVersion, minVersion_eq read_readVersion read_readVersion] at hoverlap
  split at hoverlap
  · split at hoverlap
    · rename_i hlt
      exact not_compare_pos_trans read_readVersion read_readVersion read_readVersion h.clientRange
        (not_compare_pos_of_lt hlt)
    · exact hoverlap
  · rename_i hle
    exact not_compare_pos_trans read_readVersion read_readVersion read_readVersion hle h.serverRange

theorem dotted_of_versionOf {u : ℕ × ℕ} (h : versionOf v = some u) : dotted v = some [u.1, u.2] := by
  unfold versionOf at h
  unfold dotted
  split at h
  · rename_i major minor hsplit
    obtain ⟨m, hm, h⟩ := Option.bind_eq_some_iff.1 h
    obtain ⟨n, hn, rfl⟩ := Option.map_eq_some_iff.1 h
    rw [hsplit, List.mapM_cons, hm, List.mapM_cons, hn]
    rfl
  · cases h

theorem readAbove_pair {u u' : ℕ × ℕ} (h : versionOf v = some u) (h' : versionOf w = some u') :
    ReadAbove (parseParts v) (parseParts w) ↔ 0 < compare (readVersion u) (readVersion u') := by
  rw [parseParts_of_dotted (dotted_of_versionOf h), parseParts_of_dotted (dotted_of_versionOf h'), compare_pos]
  constructor
  · rintro ⟨i, hbefore, hlt⟩
    rcases i with _ | _ | i
    · have hlt : (readVersion u').1 < (readVersion u).1 := hlt
      rw [if_neg (by rw [JsDouble.eq_false_of_lt hlt]; decide)]
      exact hlt
    · have heq : (readVersion u).1.eq (readVersion u').1 = true := hbefore 0 (by decide)
      rw [if_pos heq]
      exact hlt
    · exact absurd hlt JsDouble.lt_irrefl
  · intro hlt
    split at hlt
    · rename_i heq
      refine ⟨1, fun j hj => ?_, hlt⟩
      obtain rfl : j = 0 := by omega
      exact heq
    · exact ⟨0, fun j hj => absurd hj (Nat.not_lt_zero j), hlt⟩

/-! ### The version of a session -/

/-- Two texts of the same dotted numbers, missing numbers being 0. -/
def SameVersion (v w : String) : Prop :=
  ∃ ms ns, dotted v = some ms ∧ dotted w = some ns ∧ ∀ i, ms.getD i 0 = ns.getD i 0

/-- A number that is written as it was read. -/
def WrittenBack (n : ℕ) : Prop := parseDecimal (JsDouble.ofNat n).wholeText.toList = some n

/-- Numbers below `2^53` are. -/
theorem writtenBack_of_lt (h : n < 2 ^ 53) : WrittenBack n := by
  rw [WrittenBack, JsDouble.wholeText_ofNat h, String.toList_ofList, parseDecimal_eq_some_iff]
  refine ⟨Nat.toDigits_ne_nil, List.all_eq_true.2 fun c hc => ?_, ?_⟩
  · exact Nat.isDigit_of_mem_toDigits (by decide) (by decide) hc
  · exact Nat.ofDigitChars_ten_toDigits

theorem wholeText_chars (n : ℕ) : (∀ c ∈ (JsDouble.ofNat n).wholeText.toList, c.isDigit = true) ∨
    ∃ c ∈ (JsDouble.ofNat n).wholeText.toList, c.isDigit = false ∧ c ≠ '.' := by
  unfold JsDouble.ofNat
  split
  · show (∀ c ∈ (numberText _).toList, _) ∨ ∃ c ∈ (numberText _).toList, _
    unfold numberText
    dsimp only
    split
    · left
      intro c hc
      rw [String.toList_ofList] at hc
      exact Nat.isDigit_of_mem_toDigits (by decide) (by decide) hc
    · right
      refine ⟨'e', ?_, by decide, by decide⟩
      simp
  · exact .inr ⟨'I', by decide, by decide, by decide⟩

theorem mapM_digits {ps : List (List Char)} (h : ps.mapM parseDecimal = some ns) :
    ∀ p ∈ ps, ∀ c ∈ p, c.isDigit = true := by
  induction ps generalizing ns with
  | nil => nofun
  | cons p ps ih =>
    rw [List.mapM_cons] at h
    obtain ⟨n, hn, h⟩ := Option.bind_eq_some_iff.1 h
    obtain ⟨rest, hrest, -⟩ := Option.bind_eq_some_iff.1 h
    intro q hq
    rcases List.mem_cons.1 hq with rfl | hq
    · exact List.all_eq_true.1 (parseDecimal_eq_some_iff.1 hn).2.1
    · exact ih hrest q hq

theorem chars_of_dotted (h : dotted v = some ns) {c : Char} (hc : c ∈ v.toList) : c = '.' ∨ c.isDigit = true := by
  rcases mem_splitChars hc with hdot | ⟨p, hp, hcp⟩
  · exact .inl hdot
  · exact .inr (mapM_digits h p hp c hcp)

theorem not_mem_of_digits {cs : List Char} (h : ∀ c ∈ cs, c.isDigit = true) : '.' ∉ cs := fun hmem =>
  absurd (h _ hmem) (by decide)

theorem dotted_pair {s t : String} (hs : ∀ c ∈ s.toList, c.isDigit = true)
    (ht : ∀ c ∈ t.toList, c.isDigit = true) : dotted (s ++ "." ++ t) =
      (parseDecimal s.toList).bind fun m => (parseDecimal t.toList).map fun n => [m, n] := by
  unfold dotted
  rw [show (s ++ "." ++ t).toList = s.toList ++ '.' :: t.toList by simp,
    splitChars_append (not_mem_of_digits hs), splitChars_of_not_mem (not_mem_of_digits ht), List.mapM_cons]
  cases parseDecimal s.toList with
  | none => rfl
  | some m =>
    rw [List.mapM_cons]
    cases parseDecimal t.toList <;> rfl

/-- **A version that is written** is the one that was read exactly if its numbers are written back. -/
theorem sameVersion_iff {u : ℕ × ℕ} (h : versionOf v = some u) :
    SameVersion v ((readVersion u).1.wholeText ++ "." ++ (readVersion u).2.wholeText) ↔
      WrittenBack u.1 ∧ WrittenBack u.2 := by
  have hdotted := dotted_of_versionOf h
  show SameVersion v ((JsDouble.ofNat u.1).wholeText ++ "." ++ (JsDouble.ofNat u.2).wholeText) ↔ _
  constructor
  · rintro ⟨ms, ns, hms, hns, hsame⟩
    obtain rfl : [u.1, u.2] = ms := Option.some.inj (hdotted.symm.trans hms)
    have hall : ∀ n, (∀ c ∈ (JsDouble.ofNat n).wholeText.toList,
        c ∈ ((JsDouble.ofNat u.1).wholeText ++ "." ++ (JsDouble.ofNat u.2).wholeText).toList) →
          ∀ c ∈ (JsDouble.ofNat n).wholeText.toList, c.isDigit = true := by
      intro n hin
      rcases wholeText_chars n with hdigits | ⟨c, hc, hdigit, hdot⟩
      · exact hdigits
      · rcases chars_of_dotted hns (hin c hc) with hc' | hc'
        · exact absurd hc' hdot
        · rw [hdigit] at hc'
          cases hc'
    have h1 := hall u.1 fun c hc => by simp [hc]
    have h2 := hall u.2 fun c hc => by simp [hc]
    rw [dotted_pair h1 h2] at hns
    obtain ⟨m, hm, hns⟩ := Option.bind_eq_some_iff.1 hns
    obtain ⟨n, hn, rfl⟩ := Option.map_eq_some_iff.1 hns
    have hm' : u.1 = m := hsame 0
    have hn' : u.2 = n := hsame 1
    exact ⟨hm.trans (by rw [hm']), hn.trans (by rw [hn'])⟩
  · rintro ⟨h1, h2⟩
    have hdigits1 := List.all_eq_true.1 (parseDecimal_eq_some_iff.1 h1).2.1
    have hdigits2 := List.all_eq_true.1 (parseDecimal_eq_some_iff.1 h2).2.1
    refine ⟨_, [u.1, u.2], hdotted, ?_, fun i => rfl⟩
    rw [dotted_pair hdigits1 hdigits2]
    have h1 : parseDecimal (JsDouble.ofNat u.1).wholeText.toList = some u.1 := h1
    have h2 : parseDecimal (JsDouble.ofNat u.2).wholeText.toList = some u.2 := h2
    rw [h1, h2]
    rfl

theorem compareParts_ne_nan (hxs : ∀ i, xs.getD i 0 ≠ .nan) (hys : ∀ i, ys.getD i 0 ≠ .nan) :
    compareParts xs ys ≠ .nan := by
  unfold compareParts
  split
  · rename_i i hfind
    intro hnan
    have hdiffer := List.find?_some hfind
    rw [JsDouble.eq_of_sub_eq_nan (hxs i) (hys i) hnan, (JsDouble.eq_iff (hys i)).2 rfl] at hdiffer
    cases hdiffer
  · decide

def lowerVersion (clientVersion serverVersion : String) : String :=
  if compareVersions clientVersion serverVersion ≤ 0 then clientVersion else serverVersion

theorem lowerVersion_of_accepts {smin smax cmin cmax : ℕ × ℕ} {stable : String}
    (h : Accepts server client smin smax cmin cmax stable) :
    ∃ u, versionOf (lowerVersion client.npsVersion server.npsVersion) = some u ∧
      minVersion (readVersion smax) (readVersion cmax) = readVersion u := by
  have hpos : ∀ {v w : String} {u u' : ℕ × ℕ}, versionOf v = some u → versionOf w = some u' →
      (0 < compareVersions v w ↔ 0 < compare (readVersion u) (readVersion u')) := fun hv hw => by
    rw [← readAbove_pair hv hw, ← compareParts_pos]
    rfl
  have hnumber : ∀ {ns : List ℕ} (i : ℕ), (ns.map JsDouble.ofNat).getD i 0 ≠ .nan := fun i => by
    rw [getD_read]
    exact JsDouble.ofNat_ne_nan
  have hnan : compareVersions client.npsVersion server.npsVersion ≠ .nan := by
    unfold compareVersions
    rw [parseParts_of_dotted (dotted_of_versionOf h.clientMax),
      parseParts_of_dotted (dotted_of_versionOf h.serverMax)]
    exact compareParts_ne_nan hnumber hnumber
  rw [minVersion_eq read_readVersion read_readVersion]
  unfold lowerVersion
  split
  · rename_i hle
    refine ⟨cmax, h.clientMax, ?_⟩
    have hclient : ¬ 0 < compare (readVersion cmax) (readVersion smax) := by
      rw [← hpos h.clientMax h.serverMax]
      exact fun hlt => JsDouble.lt_irrefl (JsDouble.lt_of_le_of_lt hle hlt)
    split
    · rfl
    · rename_i hserver
      exact eq_of_not_compare_pos read_readVersion read_readVersion hserver hclient
  · rename_i hle
    refine ⟨smax, h.serverMax, ?_⟩
    have hclient : 0 < compare (readVersion cmax) (readVersion smax) :=
      (hpos h.clientMax h.serverMax).1 ((JsDouble.le_or_lt hnan (by decide)).resolve_left hle)
    rw [if_neg (not_compare_pos_of_lt hclient)]

/-- **The two negotiators.**  What `negotiateVersion` takes to be compatible are dotted numbers, the minimum
not above the version, exactly if the minimum is read as greater where the two are first read apart, or both are
dotted numbers and not read as one where the minimum is above.  Where `negotiateHandshake` accepts, it is
compatible with the same session version exactly if the numbers of the lower version are written back. -/
theorem negotiators_agree_iff (nps_version : String) (min_version : Option String) (serverVersion : String)
    (server : NcpHandshakeProfile) (client : HelloFrame) :
    (((negotiateVersion nps_version min_version serverVersion).compatible = true →
        NotAbove (min_version.getD nps_version) serverVersion) ↔
      (ReadAbove (parseParts (min_version.getD nps_version)) (parseParts serverVersion) ∨
        ∃ ms ns, dotted (min_version.getD nps_version) = some ms ∧ dotted serverVersion = some ns ∧
          ¬ ReadAsOne ms ns)) ∧
    ∀ d : Negotiation, negotiateHandshake server client = .ok d →
      (((negotiateVersion client.npsVersion client.minVersion server.npsVersion).compatible = true ∧
        SameVersion (negotiateVersion client.npsVersion client.minVersion server.npsVersion).session_version
          d.sessionVersion) ↔
        ∀ ns, dotted (lowerVersion client.npsVersion server.npsVersion) = some ns →
          ∀ n ∈ ns, WrittenBack n) := by
  refine ⟨notAbove_iff, fun d hd => ?_⟩
  obtain ⟨smin, smax, cmin, cmax, stable, h, rfl⟩ := negotiateHandshake_ok_iff.1 hd
  have hcompatible :
      (negotiateVersion client.npsVersion client.minVersion server.npsVersion).compatible = true := by
    rw [compatible_iff, readAbove_pair h.clientMin h.serverMax]
    exact minimum_of_accepts h
  have hsession : (negotiateVersion client.npsVersion client.minVersion server.npsVersion).session_version =
      lowerVersion client.npsVersion server.npsVersion := by
    rw [compatible_iff, ← compareParts_pos] at hcompatible
    have hcompatible : ¬ 0 < compareVersions (client.minVersion.getD client.npsVersion) server.npsVersion :=
      hcompatible
    unfold negotiateVersion
    rw [if_neg hcompatible]
    rfl
  obtain ⟨u, hu, htop⟩ := lowerVersion_of_accepts h
  have hiff := sameVersion_iff hu
  rw [hsession, dotted_of_versionOf hu]
  show _ ∧ SameVersion _ ((minVersion (readVersion smax) (readVersion cmax)).1.wholeText ++ "." ++
    (minVersion (readVersion smax) (readVersion cmax)).2.wholeText) ↔ _
  rw [htop, hiff]
  constructor
  · rintro ⟨-, h1, h2⟩ ns hns n hn
    cases hns
    rcases List.mem_cons.1 hn with rfl | hn
    · exact h1
    · rw [List.mem_singleton.1 hn]
      exact h2
  · intro hall
    exact ⟨hcompatible, hall _ rfl u.1 (by simp), hall _ rfl u.2 (by simp)⟩

theorem versions_evaluated : ((negotiateVersion "latest" none "0.11").compatible = true ∧
    dotted "latest" = none) ∧
    (decisionOf (negotiateHandshake {} jsonClient)).sessionVersion = some "0.10" ∧
      dotted (lowerVersion jsonClient.npsVersion "0.11") = some [0, 10] := by decide +kernel

/-- A version that is no number is compatible with every server. -/
theorem no_number_compatible :
    ¬ ∀ (nps_version : String) (min_version : Option String) (serverVersion : String),
    (negotiateVersion nps_version min_version serverVersion).compatible = true →
      NotAbove (min_version.getD nps_version) serverVersion := by
  intro h
  obtain ⟨ms, ns, hms, -⟩ := h "latest" none "0.11" versions_evaluated.1.1
  cases versions_evaluated.1.2.symm.trans hms

theorem jsonClient_agrees :
    (negotiateVersion jsonClient.npsVersion jsonClient.minVersion "0.11").compatible = true ∧
      SameVersion (negotiateVersion jsonClient.npsVersion jsonClient.minVersion "0.11").session_version
        "0.10" := by
  obtain ⟨d, hd, hversion⟩ : ∃ d, negotiateHandshake {} jsonClient = .ok d ∧ d.sessionVersion = "0.10" := by
    have hrun := versions_evaluated.2.1
    cases hd : negotiateHandshake {} jsonClient with
    | error err =>
      rw [hd] at hrun
      cases hrun
    | ok d =>
      rw [hd] at hrun
      exact ⟨d, rfl, Option.some.inj hrun⟩
  rw [← hversion]
  refine ((negotiators_agree_iff "0.10" none "0.11" {} jsonClient).2 d hd).2 fun ns hns n hn => writtenBack_of_lt ?_
  cases versions_evaluated.2.2.symm.trans hns
  revert n
  decide

end NpsSdk.Ncp
