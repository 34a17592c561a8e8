import NpsSdk.Lib.JsString

/-!
# Lower case

What the development uses of the lower case of a text: it is formed between slashes, and it keeps the
number of code units except for `İ`, whose lower case is an `i` with a combining dot.
-/

namespace NpsSdk.Lib

/-- The one character whose lower case is longer than itself. -/
def dottedI : Char := '\u0130'

def combiningDot : Char := '\u0307'

/-- A text in which lower case keeps every length. -/
def KeepsLength (s : String) : Prop := dottedI ∉ s.toList ∧ combiningDot ∉ s.toList

instance (s : String) : Decidable (KeepsLength s) := inferInstanceAs (Decidable (_ ∧ _))

/-- `s.toLowerCase()`. -/
structure LowerCasing (lower : String → String) : Prop where
  /-- A slash is not a letter, so what stands before it and after it is formed apart. -/
  slash : ∀ a b, lower (a ++ "/" ++ b) = lower a ++ "/" ++ lower b
  noSlash : ∀ s : String, '/' ∉ s.toList → '/' ∉ (lower s).toList
  length : ∀ s : String, dottedI ∉ s.toList → utf16Length (lower s) = utf16Length s
  dotted : ∀ s : String, dottedI ∈ s.toList → combiningDot ∈ (lower s).toList
  undotted : ∀ s : String, KeepsLength s → combiningDot ∉ (lower s).toList

/-! ### Code units -/

theorem utf16Length_append (a b : String) : utf16Length (a ++ b) = utf16Length a + utf16Length b := by
  simp [utf16Length]

theorem utf16_append (a b : String) : utf16 (a ++ b) = utf16 a ++ utf16 b := by
  simp [utf16]

theorem length_utf16 (s : String) : (utf16 s).length = utf16Length s := by
  have hunits : ∀ c : Char, (if c.toNat < 0x10000 then [c.toNat]
      else [0xd800 + (c.toNat - 0x10000) / 0x400, 0xdc00 + (c.toNat - 0x10000) % 0x400]).length =
        if 0x10000 ≤ c.toNat then 2 else 1 := by
    intro c
    by_cases h : c.toNat < 0x10000
    · simp [h]
    · simp [h, not_lt.1 h]
  simp only [utf16, utf16Length, List.length_flatMap, hunits]

theorem utf16Length_of_isPrefix {a b : String} (h : a.toList <+: b.toList) : utf16Length a ≤ utf16Length b := by
  obtain ⟨r, hr⟩ := h
  have hb : b = a ++ String.ofList r := by
    apply String.toList_inj.1
    simp [← hr]
  rw [hb, utf16Length_append]
  omega

/-- The slash at a place of a text, and the two sides of it. -/
theorem utf16_slash_iff (s : String) (n : ℕ) : (utf16 s)[n]? = some 0x2f ↔
    ∃ x y, s = x ++ "/" ++ y ∧ utf16Length x = n := by
  constructor
  · have hlist : ∀ (cs : List Char) (n : ℕ), (utf16 (String.ofList cs))[n]? = some 0x2f →
        ∃ xs ys, cs = xs ++ '/' :: ys ∧ utf16Length (String.ofList xs) = n := by
      intro cs
      induction cs with
      | nil =>
        intro n h
        simp [utf16] at h
      | cons c cs ih =>
        intro n h
        by_cases hc : c.toNat < 0x10000
        · cases n with
          | zero =>
            have hslash : c.toNat = 0x2f := by simpa [utf16, hc] using h
            have hchar : c = '/' := Char.toNat_inj.1 hslash
            exact ⟨[], cs, by rw [hchar]; rfl, rfl⟩
          | succ n =>
            obtain ⟨xs, ys, rfl, hn⟩ := ih n (by simpa [utf16, hc] using h)
            refine ⟨c :: xs, ys, rfl, ?_⟩
            have hone : ¬ 0x10000 ≤ c.toNat := by omega
            simp only [utf16Length, String.toList_ofList] at hn
            simp [utf16Length, hone, hn]
            omega
        · match n with
          | 0 =>
            have hunit : 0xd800 + (c.toNat - 0x10000) / 0x400 = 0x2f := by simpa [utf16, hc] using h
            omega
          | 1 =>
            have hunit : 0xdc00 + (c.toNat - 0x10000) % 0x400 = 0x2f := by simpa [utf16, hc] using h
            omega
          | n + 2 =>
            obtain ⟨xs, ys, rfl, hn⟩ := ih n (by simpa [utf16, hc] using h)
            refine ⟨c :: xs, ys, rfl, ?_⟩
            have htwo : 0x10000 ≤ c.toNat := by omega
            simp only [utf16Length, String.toList_ofList] at hn
            simp [utf16Length, htwo, hn]
            omega
    intro h
    obtain ⟨xs, ys, hs, hn⟩ := hlist s.toList n (by simpa using h)
    refine ⟨String.ofList xs, String.ofList ys, ?_, hn⟩
    apply String.toList_inj.1
    simp [hs]
  · rintro ⟨x, y, rfl, rfl⟩
    have hunit : utf16 "/" = [0x2f] := by decide
    rw [utf16_append, utf16_append, hunit, List.append_assoc, ← length_utf16]
    simp

/-! ### Slashes -/

theorem exists_first_slash {s : String} (h : '/' ∈ s.toList) : ∃ a b, '/' ∉ a.toList ∧ s = a ++ "/" ++ b := by
  obtain ⟨xs, ys, hs, hx⟩ := List.eq_append_cons_of_mem h
  refine ⟨String.ofList xs, String.ofList ys, by simpa using hx, ?_⟩
  apply String.toList_inj.1
  simp [hs]

namespace LowerCasing

variable {lower : String → String}

/-- **Lower case is formed between slashes**: a text whose lower case goes on with a slash after the lower
case of `s` has a slash there, after a text with the same lower case. -/
theorem exists_slash (h : LowerCasing lower) {path s : String} {rest : List Char}
    (heq : (lower path).toList = (lower s).toList ++ '/' :: rest) :
    ∃ x y, path = x ++ "/" ++ y ∧ lower x = lower s := by
  -- by induction on the part of `s` that is left, slash after slash
  induction hn : s.toList.length using Nat.strong_induction_on generalizing s path rest with
  | h n ih =>
    have hpath : '/' ∈ path.toList := by
      by_contra hno
      apply h.noSlash path hno
      rw [heq]
      simp
    obtain ⟨x, y, hx, rfl⟩ := exists_first_slash hpath
    have hlower : (lower x).toList ++ '/' :: (lower y).toList = (lower s).toList ++ '/' :: rest := by
      rw [← heq, h.slash]
      simp
    by_cases hs : '/' ∈ s.toList
    · obtain ⟨a, b, ha, rfl⟩ := exists_first_slash hs
      have hsplit : (lower x).toList ++ '/' :: (lower y).toList =
          (lower a).toList ++ '/' :: ((lower b).toList ++ '/' :: rest) := by
        rw [hlower, h.slash]
        simp
      obtain ⟨hxa, hyb⟩ := append_sep_cancel (h.noSlash x hx) (h.noSlash a ha) hsplit
      have hlt : b.toList.length < n := by
        rw [← hn]
        simp
        omega
      obtain ⟨x', y', rfl, hx'⟩ := ih _ hlt hyb rfl
      refine ⟨x ++ "/" ++ x', y', by simp only [String.append_assoc], ?_⟩
      rw [h.slash, h.slash, String.toList_inj.1 hxa, hx']
    · obtain ⟨hxs, -⟩ := append_sep_cancel (h.noSlash x hx) (h.noSlash s hs) hlower
      exact ⟨x, y, rfl, String.toList_inj.1 hxs⟩

/-- A text with the lower case of a text that keeps its length is as long. -/
theorem length_eq (h : LowerCasing lower) {x s : String} (hs : KeepsLength s) (heq : lower x = lower s) :
    utf16Length x = utf16Length s := by
  have hx : dottedI ∉ x.toList := by
    intro hmem
    apply h.undotted s hs
    rw [← heq]
    exact h.dotted x hmem
  rw [← h.length x hx, heq, h.length s hs.1]

end LowerCasing

/-! ### The letters of one alphabet -/

def lowerLatinChar (c : Char) : List Char :=
  if c = dottedI then ['i', combiningDot] else [c.toLower]

/-- The lower case of a text whose letters are `A` to `Z`, `a` to `z` and `İ`. -/
def lowerLatin (s : String) : String := String.ofList (s.toList.flatMap lowerLatinChar)

theorem toLower_cases (c : Char) : c.toLower = c ∨ 'A' ≤ c ∧ c ≤ 'Z' ∧ 'a' ≤ c.toLower ∧ c.toLower ≤ 'z' := by
  by_cases hc : c.toNat < 128
  · have hall : ∀ n < 128, (Char.ofNat n).toLower = Char.ofNat n ∨ 'A' ≤ Char.ofNat n ∧ Char.ofNat n ≤ 'Z' ∧
        'a' ≤ (Char.ofNat n).toLower ∧ (Char.ofNat n).toLower ≤ 'z' := by decide
    have := hall c.toNat hc
    rwa [Char.ofNat_toNat] at this
  · left
    unfold Char.toLower
    rw [dif_neg]
    rintro ⟨-, hz⟩
    have hle : c.toNat ≤ 90 := by simpa [UInt32.le_iff_toNat_le] using hz
    omega

theorem eq_of_toLower {c d : Char} (hd : d < 'a' ∨ 'z' < d) (h : c.toLower = d) : c = d := by
  rcases toLower_cases c with hsame | ⟨-, -, ha, hz⟩
  · rw [← h, hsame]
  · rw [h] at ha hz
    rcases hd with hd | hd
    · exact absurd ha (Char.not_le.2 hd)
    · exact absurd hz (Char.not_le.2 hd)

theorem lowerCasing_lowerLatin : LowerCasing lowerLatin where
  slash a b := by
    have hslash : lowerLatinChar '/' = ['/'] := by decide
    apply String.toList_inj.1
    simp [lowerLatin, hslash]
  noSlash s h := by
    simp only [lowerLatin, String.toList_ofList, List.mem_flatMap, not_exists, not_and]
    intro c hc hmem
    unfold lowerLatinChar at hmem
    split at hmem
    · simp [combiningDot] at hmem
    · have hc' : c = '/' := eq_of_toLower (by decide) (List.mem_singleton.1 hmem).symm
      exact h (hc' ▸ hc)
  length s h := by
    have hunits : ∀ c : Char, c ≠ dottedI →
        ((lowerLatinChar c).map fun c => if 0x10000 ≤ c.toNat then 2 else 1) =
          [if 0x10000 ≤ c.toNat then 2 else 1] := by
      intro c hc
      rw [lowerLatinChar, if_neg hc]
      rcases toLower_cases c with hsame | ⟨-, hz, -, hz'⟩
      · rw [hsame]
        rfl
      · have h1 : c.toNat ≤ 'Z'.toNat := hz
        have h2 : c.toLower.toNat ≤ 'z'.toNat := hz'
        have h3 : 'Z'.toNat < 0x10000 := by decide
        have h4 : 'z'.toNat < 0x10000 := by decide
        simp only [List.map_cons, List.map_nil]
        rw [if_neg (by omega), if_neg (by omega)]
    have hsum : ∀ cs : List Char, dottedI ∉ cs →
        ((cs.flatMap lowerLatinChar).map fun c => if 0x10000 ≤ c.toNat then 2 else 1).sum =
          (cs.map fun c => if 0x10000 ≤ c.toNat then 2 else 1).sum := by
      intro cs
      induction cs with
      | nil => simp
      | cons c cs ih =>
        intro hcs
        rw [List.mem_cons, not_or] at hcs
        rw [List.flatMap_cons, List.map_append, hunits c (Ne.symm hcs.1), List.sum_append, ih hcs.2]
        simp
    simpa [utf16Length, lowerLatin] using hsum s.toList h
  dotted s h := by
    simp only [lowerLatin, String.toList_ofList, List.mem_flatMap]
    exact ⟨dottedI, h, by decide⟩
  undotted s h := by
    simp only [lowerLatin, String.toList_ofList, List.mem_flatMap, not_exists, not_and]
    intro c hc hmem
    unfold lowerLatinChar at hmem
    split at hmem
    · rename_i hdotted
      exact h.1 (hdotted ▸ hc)
    · have hc' : c = combiningDot := eq_of_toLower (by decide) (List.mem_singleton.1 hmem).symm
      exact h.2 (hc' ▸ hc)

/-! ### ASCII texts -/

/-- `s.toLowerCase()`, of texts of ASCII characters: letter by letter. -/
def LowersAscii (lower : String → String) : Prop :=
  ∀ s : String, (∀ c ∈ s.toList, c.toNat < 128) → lower s = String.ofList (s.toList.map Char.toLower)

theorem lowersAscii_lowerLatin : LowersAscii lowerLatin := by
  intro s hs
  rw [lowerLatin]
  congr 1
  rw [List.map_eq_flatMap]
  refine List.flatMap_congr fun c hc => ?_
  have hne : c ≠ dottedI := by
    rintro rfl
    exact absurd (hs _ hc) (by decide)
  rw [lowerLatinChar, if_neg hne]

/-! ### Characters of one lower case -/

/-- The one character beyond ASCII whose lower case is an ASCII character. -/
def kelvin : Char := '\u212a'

/-- The lower case of a character, if it is ASCII. -/
def lowerChar (c : Char) : Char := if c = kelvin then 'k' else c.toLower

/-- `s.toLowerCase()`, of ASCII characters at the start of a text. -/
structure LowersStarts (lower : String → String) : Prop where
  start : ∀ (s : String) (x y : List Char), s.toList = x ++ y → (∀ c ∈ x, c.toNat < 128) →
    ∃ r, (lower s).toList = x.map Char.toLower ++ r
  /-- Only of an `i` at the end of such a start it may be that it comes from an `İ`. -/
  origin : ∀ (s : String) (t : List Char) (c : Char) (r : List Char), (lower s).toList = t ++ c :: r →
    (∀ d ∈ t ++ [c], d.toNat < 128) → c ≠ 'i' → ∃ x y, s.toList = x ++ y ∧ x.map lowerChar = t ++ [c]

/-- What is the same of an ASCII character and of its lower case is so of every character, if it is the same
of the kelvin sign and of `k`. -/
theorem congr_lowerChar {α : Type} {f : Char → α}
    (hascii : ∀ n < 128, f (lowerChar (Char.ofNat n)) = f (Char.ofNat n)) (hkelvin : f 'k' = f kelvin) (c : Char) :
    f (lowerChar c) = f c := by
  by_cases hc : c.toNat < 128
  · have := hascii c.toNat hc
    rwa [Char.ofNat_toNat] at this
  · rw [lowerChar]
    split
    · rename_i hk
      rw [hkelvin, hk]
    · rcases toLower_cases c with h | ⟨-, hZ, -, -⟩
      · rw [h]
      · have h1 : c.toNat ≤ 'Z'.toNat := hZ
        have h2 : 'Z'.toNat < 128 := by decide
        omega

theorem lowerChar_eq_iff {c d : Char} (hd : d < 'a' ∧ d ≠ kelvin ∧ d.toLower = d) : lowerChar c = d ↔ c = d := by
  unfold lowerChar
  constructor
  · intro h
    split at h
    · rw [← h] at hd
      exact absurd hd.1 (by decide)
    · exact eq_of_toLower (.inl hd.1) h
  · rintro rfl
    rw [if_neg hd.2.1, hd.2.2]

theorem lowerChar_idem (c : Char) : lowerChar (lowerChar c) = lowerChar c :=
  @congr_lowerChar _ lowerChar (by decide) (by decide) c

theorem lowersStarts_lowerLatin : LowersStarts lowerLatin := by
  have horigin : ∀ (cs t : List Char) (c : Char) (r : List Char), cs.flatMap lowerLatinChar = t ++ c :: r →
      (∀ d ∈ t ++ [c], d.toNat < 128) → c ≠ 'i' → ∃ x y, cs = x ++ y ∧ x.map lowerChar = t ++ [c] := by
    intro cs
    induction cs with
    | nil =>
      intro t c r h
      simp at h
    | cons a cs ih =>
      intro t c r h hascii hi
      rw [List.flatMap_cons] at h
      by_cases ha : a = dottedI
      · -- the dot is not ASCII
        rw [ha, lowerLatinChar, if_pos rfl] at h
        match t with
        | [] => exact absurd (List.cons.inj h).1.symm hi
        | [d] =>
          have hdot : combiningDot = c := (List.cons.inj (List.cons.inj h).2).1
          refine absurd (hascii c (by simp)) ?_
          rw [← hdot]
          decide
        | d :: e :: t =>
          have hdot : combiningDot = e := (List.cons.inj (List.cons.inj h).2).1
          refine absurd (hascii e (by simp)) ?_
          rw [← hdot]
          decide
      · rw [lowerLatinChar, if_neg ha, List.singleton_append] at h
        have hhead : a.toLower.toNat < 128 := by
          cases t with
          | nil => exact (List.cons.inj h).1 ▸ hascii c (by simp)
          | cons d t => exact (List.cons.inj h).1 ▸ hascii d (by simp)
        have hlower : lowerChar a = a.toLower := by
          rw [lowerChar, if_neg]
          rintro rfl
          exact absurd hhead (by decide)
        cases t with
        | nil => exact ⟨[a], cs, rfl, by rw [List.map_singleton, hlower, (List.cons.inj h).1]; rfl⟩
        | cons d t =>
          obtain ⟨x, y, rfl, hx⟩ := ih t c r (List.cons.inj h).2
            (fun e he => hascii e (List.mem_cons_of_mem d he)) hi
          exact ⟨a :: x, y, rfl, by rw [List.map_cons, hlower, hx, (List.cons.inj h).1]; rfl⟩
  refine ⟨fun s x y hs hx => ?_, fun s t c r h => ?_⟩
  · have hascii := lowersAscii_lowerLatin (String.ofList x) (by simpa using hx)
    rw [lowerLatin, String.toList_ofList, String.ofList_inj] at hascii
    refine ⟨y.flatMap lowerLatinChar, ?_⟩
    rw [lowerLatin, String.toList_ofList, hs, List.flatMap_append, hascii]
  · exact horigin s.toList t c r (by simpa [lowerLatin] using h)

end NpsSdk.Lib
