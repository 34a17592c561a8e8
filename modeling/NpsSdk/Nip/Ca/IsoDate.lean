import NpsSdk.Nip.Ca.Signer

/-!
# Reading the text of a date

The inverse of `toISOString`: the day of a year, month and day, and the date of a text.
-/

namespace NpsSdk.Nip.Ca

open NpsSdk.Lib

/-! ### The calendar -/

def dayOf (y : ℤ) (m d : ℕ) : ℤ :=
  let year := if m ≤ 2 then y - 1 else y
  let yoe := (year % 400).toNat
  let mp := if m ≤ 2 then m + 9 else m - 3
  let doy := (153 * mp + 2) / 5 + d - 1
  year / 400 * 146097 + ((365 * yoe + yoe / 4 - yoe / 100 + doy : ℕ) : ℤ) - 719468

theorem centuryOfEra {doe e f yoe : ℕ} (h : doe < 146097) (he : doe / 36524 = e) (hf : doe / 146096 = f)
    (hyoe : (doe - doe / 1460 + e - f) / 365 = yoe) : yoe / 100 = e - f ∧ yoe < 400 ∧ f ≤ e := by
  have hcentury : e = 0 ∨ e = 1 ∨ e = 2 ∨ e = 3 ∨ e = 4 := by omega
  have hlast : f = 0 ∨ f = 1 := by omega
  rcases hlast with rfl | rfl
  · rcases hcentury with rfl | rfl | rfl | rfl | rfl
    · omega
    · omega
    · omega
    · omega
    · omega
  · omega

theorem yearOfEra_bounds {doe yoe : ℕ} (h : doe < 146097)
    (hyoe : (doe - doe / 1460 + doe / 36524 - doe / 146096) / 365 = yoe) :
    yoe < 400 ∧ 365 * yoe + yoe / 4 - yoe / 100 ≤ doe ∧ doe - (365 * yoe + yoe / 4 - yoe / 100) ≤ 365 := by
  obtain ⟨hcentury, h400, hlast⟩ := centuryOfEra h rfl rfl hyoe
  rw [hcentury]
  refine ⟨h400, ?_, ?_⟩
  · have hleap : yoe / 4 ≤ doe / 1460 := by omega
    omega
  · have hleap : doe / 1460 ≤ yoe / 4 + 1 := by omega
    omega

theorem monthOfYear_bounds {doy mp : ℕ} (h : doy ≤ 365) (hmp : (5 * doy + 2) / 153 = mp) :
    mp < 12 ∧ (153 * mp + 2) / 5 ≤ doy ∧ doy - (153 * mp + 2) / 5 < 31 := by
  omega

/-- **The calendar reads back**: the day of the year, month and day of a day. -/
theorem dayOf_civil (day : ℤ) : dayOf (civil day).1 (civil day).2.1 (civil day).2.2 = day := by
  obtain ⟨doe, hdoe⟩ : ∃ doe, doe = ((day + 719468) % 146097).toNat := ⟨_, rfl⟩
  obtain ⟨yoe, hyoe⟩ : ∃ yoe, (doe - doe / 1460 + doe / 36524 - doe / 146096) / 365 = yoe := ⟨_, rfl⟩
  obtain ⟨doy, hdoy⟩ : ∃ doy, doe - (365 * yoe + yoe / 4 - yoe / 100) = doy := ⟨_, rfl⟩
  obtain ⟨mp, hmp⟩ : ∃ mp, (5 * doy + 2) / 153 = mp := ⟨_, rfl⟩
  obtain ⟨h400, hstart, hyear⟩ := yearOfEra_bounds (by omega) hyoe
  obtain ⟨h12, hmonth, -⟩ := monthOfYear_bounds (hdoy ▸ hyear) hmp
  have hciv : civil day = ((yoe : ℤ) + (day + 719468) / 146097 * 400 +
      (if (if mp < 10 then mp + 3 else mp - 9) ≤ 2 then 1 else 0),
      if mp < 10 then mp + 3 else mp - 9, doy - (153 * mp + 2) / 5 + 1) := by
    simp only [civil, ← hdoe, hyoe, hdoy, hmp]
  rw [hciv]
  unfold dayOf
  dsimp only
  by_cases hlate : mp < 10
  · have hm : ¬ mp + 3 ≤ 2 := by omega
    simp only [if_pos hlate, if_neg hm]
    have hy : ((yoe : ℤ) + (day + 719468) / 146097 * 400 + 0) / 400 = (day + 719468) / 146097 := by omega
    have hr : (((yoe : ℤ) + (day + 719468) / 146097 * 400 + 0) % 400).toNat = yoe := by omega
    rw [hy, hr]
    omega
  · have hm : mp - 9 ≤ 2 := by omega
    simp only [if_neg hlate, if_pos hm]
    have hy : ((yoe : ℤ) + (day + 719468) / 146097 * 400 + 1 - 1) / 400 = (day + 719468) / 146097 := by omega
    have hr : (((yoe : ℤ) + (day + 719468) / 146097 * 400 + 1 - 1) % 400).toNat = yoe := by omega
    rw [hy, hr]
    have hmp9 : mp - 9 + 9 = mp := by omega
    rw [hmp9]
    omega

theorem civil_bounds {day : ℤ} (h : -100000001 ≤ day ∧ day ≤ 100000000) :
    (civil day).2.1 < 100 ∧ (civil day).2.2 < 100 ∧ (civil day).1.natAbs < 1000000 := by
  obtain ⟨doe, hdoe⟩ : ∃ doe, doe = ((day + 719468) % 146097).toNat := ⟨_, rfl⟩
  obtain ⟨yoe, hyoe⟩ : ∃ yoe, (doe - doe / 1460 + doe / 36524 - doe / 146096) / 365 = yoe := ⟨_, rfl⟩
  obtain ⟨doy, hdoy⟩ : ∃ doy, doe - (365 * yoe + yoe / 4 - yoe / 100) = doy := ⟨_, rfl⟩
  obtain ⟨mp, hmp⟩ : ∃ mp, (5 * doy + 2) / 153 = mp := ⟨_, rfl⟩
  obtain ⟨h400, hstart, hyear⟩ := yearOfEra_bounds (by omega) hyoe
  obtain ⟨h12, hmonth, hday⟩ := monthOfYear_bounds (hdoy ▸ hyear) hmp
  simp only [civil, ← hdoe, hyoe, hdoy, hmp]
  refine ⟨?_, by omega, ?_⟩
  · split <;> omega
  · split <;> split <;> omega

/-! ### Texts -/

def readDigits (cs : List Char) : Option ℕ :=
  if cs.all Char.isDigit then some (Nat.ofDigitChars 10 cs 0) else none

/-- A year: a sign and six digits, or four digits. -/
def readYear : List Char → Option (ℤ × List Char)
  | '+' :: cs => (readDigits (cs.take 6)).map fun n : ℕ => ((n : ℤ), cs.drop 6)
  | '-' :: cs => (readDigits (cs.take 6)).map fun n : ℕ => (-(n : ℤ), cs.drop 6)
  | cs => (readDigits (cs.take 4)).map fun n : ℕ => ((n : ℤ), cs.drop 4)

def readField (separator : Char) (width : ℕ) : List Char → Option (ℕ × List Char)
  | [] => none
  | c :: cs =>
    if c = separator then (readDigits (cs.take width)).map fun n => (n, cs.drop width) else none

/-- `new Date(text)`, for a text in the form of `toISOString`. -/
def parseISOString (text : String) : Option ℤ := do
  let (y, cs) ← readYear text.toList
  let (m, cs) ← readField '-' 2 cs
  let (d, cs) ← readField '-' 2 cs
  let (hour, cs) ← readField 'T' 2 cs
  let (minute, cs) ← readField ':' 2 cs
  let (second, cs) ← readField ':' 2 cs
  let (ms, cs) ← readField '.' 3 cs
  guard (cs = ['Z'])
  some (dayOf y m d * 86400000 + ((hour * 3600000 + minute * 60000 + second * 1000 + ms : ℕ) : ℤ))

section

variable {width n : ℕ} {separator c : Char} {rest : List Char}

theorem isDigit_of_mem_padStart (h : c ∈ (padStart width n).toList) : c.isDigit = true := by
  simp only [padStart, String.toList_ofList, List.mem_append, List.mem_replicate] at h
  rcases h with ⟨-, rfl⟩ | h
  · rfl
  · exact Nat.isDigit_of_mem_toDigits (by decide) (by decide) h

theorem length_padStart (hn : n < 10 ^ width) (hw : 0 < width) : (padStart width n).toList.length = width := by
  have hlen : (Nat.toDigits 10 n).length ≤ width := (Nat.length_toDigits_le_iff (by decide) hw).2 hn
  simp only [padStart, String.toList_ofList, List.length_append, List.length_replicate]
  omega

theorem readDigits_padStart : readDigits (padStart width n).toList = some n := by
  have hall : (padStart width n).toList.all Char.isDigit = true :=
    List.all_eq_true.2 fun c hc => isDigit_of_mem_padStart hc
  unfold readDigits
  rw [if_pos hall]
  simp [padStart, Nat.ofDigitChars_append]

theorem readField_padStart (hn : n < 10 ^ width) (hw : 0 < width) :
    readField separator width (separator :: ((padStart width n).toList ++ rest)) = some (n, rest) := by
  have hlen := length_padStart hn hw
  simp only [readField, if_true, List.take_left' hlen, List.drop_left' hlen, readDigits_padStart, Option.map_some]

theorem readYear_plus (hn : n < 1000000) :
    readYear ('+' :: ((padStart 6 n).toList ++ rest)) = some ((n : ℤ), rest) := by
  have hlen : (padStart 6 n).toList.length = 6 := length_padStart hn (by decide)
  simp only [readYear, List.take_left' hlen, List.drop_left' hlen, readDigits_padStart, Option.map_some]

theorem readYear_minus (hn : n < 1000000) :
    readYear ('-' :: ((padStart 6 n).toList ++ rest)) = some (-(n : ℤ), rest) := by
  have hlen : (padStart 6 n).toList.length = 6 := length_padStart hn (by decide)
  simp only [readYear, List.take_left' hlen, List.drop_left' hlen, readDigits_padStart, Option.map_some]

theorem readYear_plain (hn : n < 10000) : readYear ((padStart 4 n).toList ++ rest) = some ((n : ℤ), rest) := by
  have hlen : (padStart 4 n).toList.length = 4 := length_padStart hn (by decide)
  obtain ⟨c, cs, hcs⟩ : ∃ c cs, (padStart 4 n).toList = c :: cs := by
    cases hlist : (padStart 4 n).toList with
    | nil =>
      rw [hlist] at hlen
      cases hlen
    | cons c cs => exact ⟨c, cs, rfl⟩
  have hdigit : c.isDigit = true := isDigit_of_mem_padStart (show c ∈ (padStart 4 n).toList by simp [hcs])
  unfold readYear
  split
  · -- a digit is no sign
    rename_i heq
    rw [hcs] at heq
    cases heq
    cases hdigit
  · rename_i heq
    rw [hcs] at heq
    cases heq
    cases hdigit
  · rw [List.take_left' hlen, readDigits_padStart, Option.map_some, List.drop_left' hlen]

def yearText (y : ℤ) : String :=
  if 0 ≤ y ∧ y ≤ 9999 then padStart 4 y.toNat else (if y < 0 then "-" else "+") ++ padStart 6 y.natAbs

theorem readYear_yearText {y : ℤ} (hy : y.natAbs < 1000000) :
    readYear ((yearText y).toList ++ rest) = some (y, rest) := by
  unfold yearText
  split
  · have hcast : ((y.toNat : ℕ) : ℤ) = y := by omega
    rw [readYear_plain (by omega), hcast]
  · by_cases hneg : y < 0
    · have hcast : -((y.natAbs : ℕ) : ℤ) = y := by omega
      rw [if_pos hneg, String.toList_append]
      show readYear ('-' :: ((padStart 6 y.natAbs).toList ++ rest)) = _
      rw [readYear_minus hy, hcast]
    · have hcast : ((y.natAbs : ℕ) : ℤ) = y := by omega
      rw [if_neg hneg, String.toList_append]
      show readYear ('+' :: ((padStart 6 y.natAbs).toList ++ rest)) = _
      rw [readYear_plus hy, hcast]

def dateText (y : ℤ) (m d ms : ℕ) : String :=
  yearText y ++ "-" ++ padStart 2 m ++ "-" ++ padStart 2 d ++ "T" ++ padStart 2 (ms / 3600000) ++ ":" ++
    padStart 2 (ms / 60000 % 60) ++ ":" ++ padStart 2 (ms / 1000 % 60) ++ "." ++ padStart 3 (ms % 1000) ++ "Z"

theorem toList_dateText {y : ℤ} {m d ms : ℕ} : (dateText y m d ms).toList =
    (yearText y).toList ++ ('-' :: ((padStart 2 m).toList ++ ('-' :: ((padStart 2 d).toList ++
      ('T' :: ((padStart 2 (ms / 3600000)).toList ++ (':' :: ((padStart 2 (ms / 60000 % 60)).toList ++
        (':' :: ((padStart 2 (ms / 1000 % 60)).toList ++ ('.' :: ((padStart 3 (ms % 1000)).toList ++
          ['Z'])))))))))))) := by
  simp [dateText]

theorem parseISOString_dateText {y : ℤ} {m d ms : ℕ} (hy : y.natAbs < 1000000) (hm : m < 100) (hd : d < 100)
    (hms : ms < 86400000) : parseISOString (dateText y m d ms) = some (dayOf y m d * 86400000 + ms) := by
  unfold parseISOString
  rw [toList_dateText, readYear_yearText hy]
  simp (disch := omega) only [Option.bind_eq_bind, Option.bind_some, readField_padStart, guard, if_true,
    Option.pure_def, Option.some.injEq]
  omega

/-- **A date reads back** from the text that `toISOString` writes. -/
theorem parseISOString_toISOString {t : ℤ} {text : String} (h : toISOString t = some text) :
    parseISOString text = some t := by
  unfold toISOString at h
  split at h
  · cases h
  rename_i hrange
  unfold maxTime at hrange
  obtain ⟨hm, hd, hy⟩ :=
    civil_bounds (show -100000001 ≤ t / 86400000 ∧ t / 86400000 ≤ 100000000 by omega)
  have htext : text = dateText (civil (t / 86400000)).1 (civil (t / 86400000)).2.1 (civil (t / 86400000)).2.2
      (t % 86400000).toNat := (Option.some.inj h).symm
  rw [htext, parseISOString_dateText hy hm hd (by omega), dayOf_civil]
  congr 1
  omega

/-- A date within the range has a text. -/
def ValidDate (t : ℤ) : Prop := -maxTime ≤ t ∧ t ≤ maxTime

theorem toISOString_of_valid {t : ℤ} (h : ValidDate t) : ∃ text, toISOString t = some text := by
  obtain ⟨hlow, hhigh⟩ := h
  have hrange : ¬ (t < -maxTime ∨ maxTime < t) := by omega
  unfold toISOString
  rw [if_neg hrange]
  exact ⟨_, rfl⟩

example : parseISOString "2026-07-09T12:34:56.789Z" = some 1783600496789 := by decide

end

end NpsSdk.Nip.Ca
