import NpsSdk.Nip.StapleWalk

/-!
# Freshness of a staple

The OCSP step compares the checking time with the date that `Date.UTC` counts the digits of `nextUpdate` to.  That
date is the one the text denotes if its fields exist in the calendar and its year has more than two digits; other
fields are carried over into a later date, and a year below a hundred is moved into the twentieth century.
-/

namespace NpsSdk.Nip

open NpsSdk.Lib

open X509 X509.Reading X509.DerReader

/-! ### The calendar -/

def IsLeapYear (year : ℕ) : Prop := year % 4 = 0 ∧ (year % 100 ≠ 0 ∨ year % 400 = 0)

instance (year : ℕ) : Decidable (IsLeapYear year) := inferInstanceAs (Decidable (_ ∧ _))

def daysInMonth (year month : ℕ) : ℕ :=
  if month = 2 then if IsLeapYear year then 29 else 28
  else if month = 4 ∨ month = 6 ∨ month = 9 ∨ month = 11 then 30
  else 31

namespace X509.TimeFields

variable {t : TimeFields} {now : ℤ}

/-- The fields are those of a time of the calendar. -/
structure Exists (t : TimeFields) : Prop where
  month : 1 ≤ t.month ∧ t.month ≤ 12
  day : 1 ≤ t.day ∧ t.day ≤ daysInMonth t.year t.month
  hour : t.hour < 24
  minute : t.minute < 60
  second : t.second < 60

def secondStart (t : TimeFields) : ℤ :=
  (Ca.dayOf t.year t.month 1 + t.day - 1) * 86400000 + t.hour * 3600000 + t.minute * 60000 + t.second * 1000

/-- The instant that a time of the calendar denotes, in milliseconds. -/
def denotes (t : TimeFields) : ℚ := t.secondStart + 1000 * t.fraction

/-- The fields have the digits that the expression asks for. -/
structure Digits (t : TimeFields) : Prop where
  year : t.year < 10000
  month : t.month < 100
  day : t.day < 100
  hour : t.hour < 100
  minute : t.minute < 100
  second : t.second < 100
  fraction : 0 ≤ t.fraction ∧ t.fraction < 1

end X509.TimeFields

/-! ### The fraction of a second -/

theorem X509.milliseconds_bounds {q : ℚ} (h0 : 0 ≤ q) (h1 : q < 1) :
    0 ≤ milliseconds q ∧ ∀ m : ℤ, 1000 * q ≤ m → milliseconds q ≤ m := by
  obtain ⟨a, ha, ha0, hale⟩ := JsDouble.ofRat_le h0 (Nat.zero_le 52) (by simpa using h1)
  have hbound : a * 1000 < 2 ^ 10 := by
    norm_num at hale ⊢
    linarith
  obtain ⟨b, hb, hb0, hble⟩ := JsDouble.ofRat_le (mul_nonneg ha0 (by norm_num)) (show 10 ≤ 52 by decide) hbound
  simp only [milliseconds, ha, hb, mathRound]
  refine ⟨Rat.le_floor_iff.2 ?_, fun m hm => ?_⟩
  · push_cast
    linarith
  · have hlt : b + 1 / 2 < (m : ℚ) + 1 := by
      norm_num at hale hble ⊢
      linarith
    have hfloor : (b + 1 / 2).floor < m + 1 := Rat.floor_lt_iff.2 (by exact_mod_cast hlt)
    omega

/-! ### Digits -/

theorem X509.ofDigitChars_lt {cs : List Char} (h : cs.all Char.isDigit = true) :
    Nat.ofDigitChars 10 cs 0 < 10 ^ cs.length := by
  induction cs with
  | nil => decide
  | cons c cs ih =>
    rw [List.all_cons, Bool.and_eq_true] at h
    have hc := toNat_of_isDigit h.1
    have hdigit : c.toNat - '0'.toNat ≤ 9 := Nat.sub_le_iff_le_add.2 hc.2
    rw [Nat.ofDigitChars_cons, Nat.ofDigitChars_eq_ofDigitChars_zero, List.length_cons, pow_succ]
    have hhead : 10 ^ cs.length * (10 * 0 + (c.toNat - '0'.toNat)) ≤ 10 ^ cs.length * 9 :=
      Nat.mul_le_mul_left _ (by omega)
    have htail := ih h.2
    omega

theorem X509.digits_lt {width n : ℕ} {cs rest : List Char} (h : digits width cs = some (n, rest)) : n < 10 ^ width := by
  unfold digits at h
  split_ifs at h with hlength
  obtain ⟨m, hm, heq⟩ := Option.map_eq_some_iff.1 h
  cases heq
  unfold Ca.readDigits at hm
  split_ifs at hm with hdigits
  cases hm
  calc Nat.ofDigitChars 10 (cs.take width) 0 < 10 ^ (cs.take width).length := ofDigitChars_lt hdigits
    _ = 10 ^ width := by rw [hlength]

theorem X509.fraction_bounds {cs : List Char} {q : ℚ} (h : fraction cs = some q) : 0 ≤ q ∧ q < 1 := by
  unfold fraction at h
  split at h
  · cases h
    norm_num
  · rename_i cs
    dsimp only at h
    split_ifs at h
    cases h
    have hdigits : (cs.takeWhile Char.isDigit).all Char.isDigit = true := List.all_takeWhile
    have hlt := ofDigitChars_lt hdigits
    have hpos : (0 : ℚ) < ((10 ^ (cs.takeWhile Char.isDigit).length : ℕ) : ℚ) := by positivity
    refine ⟨div_nonneg (Nat.cast_nonneg _) hpos.le, (div_lt_one hpos).2 ?_⟩
    exact_mod_cast hlt
  · cases h

namespace X509.TimeFields

variable {t : TimeFields} {now : ℤ}

theorem digits_of_match {cs : List Char} (h : matchTime cs = some t) : t.Digits := by
  simp only [matchTime, Option.bind_eq_bind, Option.bind_eq_some_iff, Prod.exists] at h
  obtain ⟨year, _, hyear, month, _, hmonth, day, _, hday, hour, _, hhour, minute, _, hminute, second, _, hsecond, q, hq,
    heq⟩ := h
  cases heq
  exact ⟨digits_lt hyear, digits_lt hmonth, digits_lt hday, digits_lt hhour, digits_lt hminute, digits_lt hsecond,
    fraction_bounds hq⟩

theorem dayOf_bounds {y : ℤ} {m : ℕ} (hy : 0 ≤ y ∧ y < 11000) (hm : m ≤ 12) :
    -1000000 ≤ Ca.dayOf y m 1 ∧ Ca.dayOf y m 1 ≤ 5000000 := by
  unfold Ca.dayOf
  dsimp only
  split_ifs
  · omega
  · omega

theorem Digits.instant_bounds (h : t.Digits) : -Ca.maxTime ≤ t.instant ∧ t.instant ≤ Ca.maxTime := by
  have hlow := (milliseconds_bounds h.fraction.1 h.fraction.2).1
  have hhigh : milliseconds t.fraction ≤ 1000 := by
    refine (milliseconds_bounds h.fraction.1 h.fraction.2).2 _ ?_
    have := h.fraction.2
    push_cast
    linarith
  obtain ⟨hyear, hmonth, hday, hhour, hminute, hsecond, -⟩ := h
  unfold instant dateUTC Ca.maxTime
  dsimp only
  obtain ⟨year, hyearEq⟩ : ∃ year, year = if t.year ≤ 99 then 1900 + t.year else t.year := ⟨_, rfl⟩
  have hmoved : 100 ≤ year ∧ year < 10000 := by split_ifs at hyearEq <;> omega
  rw [← hyearEq]
  have hmonths : (((t.month : ℤ) - 1) % 12).toNat + 1 ≤ 12 := by omega
  have hyears : 0 ≤ (year : ℤ) + ((t.month : ℤ) - 1) / 12 ∧ (year : ℤ) + ((t.month : ℤ) - 1) / 12 < 11000 := by omega
  have hdays := dayOf_bounds hyears hmonths
  omega

/-- The date of a time of the calendar, unless its year is moved. -/
theorem Exists.instant_eq (h : t.Exists) (hyear : 100 ≤ t.year) : t.instant = t.secondStart + milliseconds t.fraction := by
  have hmonth := h.month
  have hcarry : ((t.month : ℤ) - 1) / 12 = 0 := by omega
  have hwithin : (((t.month : ℤ) - 1) % 12).toNat + 1 = t.month := by omega
  unfold instant dateUTC secondStart
  dsimp only
  rw [if_neg (by omega), hcarry, hwithin, add_zero]

theorem Exists.lt_denotes (h : t.Exists) (hdigits : t.Digits) (hyear : 100 ≤ t.year) (hlt : now < t.instant) :
    now < t.denotes := by
  rw [h.instant_eq hyear] at hlt
  by_contra hnot
  have hle : 1000 * t.fraction ≤ ((now - t.secondStart : ℤ) : ℚ) := by
    unfold denotes at hnot
    push_cast
    linarith
  have hround := (milliseconds_bounds hdigits.fraction.1 hdigits.fraction.2).2 _ hle
  omega

end X509.TimeFields

/-! ### The staple -/

/-- The text of the `nextUpdate` of a staple. -/
def nextUpdateText (staple : Option String) : Option (List Char) := do
  let staple ← truthy staple
  let der ← fromBase64Url staple
  match (walkResponse der).result with
  | .ok (some wrap) =>
    match (wrap.readText TAG_GENERALIZED_TIME).result with
    | .ok (time, _) => some (decodeReplacing time)
    | .error _ => none
  | _ => none

section

variable {staple : Option String} {now : ℤ} {text : List Char} {t : TimeFields}

theorem nextUpdateText_eq_some_iff : nextUpdateText staple = some text ↔
    ∃ s der wrap time next, truthy staple = some s ∧ fromBase64Url s = some der ∧
      (walkResponse der).result = .ok (some wrap) ∧ (wrap.readText TAG_GENERALIZED_TIME).result = .ok (time, next) ∧
      decodeReplacing time = text := by
  constructor
  · intro h
    obtain ⟨s, hs, h⟩ := Option.bind_eq_some_iff.1 h
    obtain ⟨der, hder, h⟩ := Option.bind_eq_some_iff.1 h
    split at h
    · rename_i wrap hwrap
      split at h
      · rename_i time next htime
        cases h
        exact ⟨s, der, wrap, time, next, hs, hder, hwrap, htime, rfl⟩
      · cases h
    · cases h
  · rintro ⟨s, der, wrap, time, next, hs, hder, hwrap, htime, rfl⟩
    simp [nextUpdateText, hs, hder, hwrap, htime]

theorem parseGeneralizedTime_eq_ok_iff {instant : ℤ} :
    parseGeneralizedTime text = .ok instant ↔ ∃ t, matchTime text = some t ∧ t.instant = instant := by
  unfold parseGeneralizedTime
  cases h : matchTime text with
  | none => simp
  | some t =>
    have hbounds := (TimeFields.digits_of_match h).instant_bounds
    simp only [if_neg (not_or.2 ⟨not_lt.2 hbounds.1, not_lt.2 hbounds.2⟩), Except.ok.injEq, Option.some.injEq,
      exists_eq_left']

theorem orNull_of_some {α : Type} {x : Reading (Option α)} {a : α} (h : x.result = .ok (some a)) :
    (Reading.orNull x).result = .ok (some a) := by
  unfold Reading.orNull
  simp only [h]

theorem tryGetOcspNextUpdate_eq_some_iff {der : Bytes} {instant : ℤ} :
    (tryGetOcspNextUpdate der).result = .ok (some instant) ↔
      ∃ wrap time next, (walkResponse der).result = .ok (some wrap) ∧
        (wrap.readText TAG_GENERALIZED_TIME).result = .ok (time, next) ∧
        parseGeneralizedTime (decodeReplacing time) = .ok instant := by
  constructor
  · intro h
    obtain ⟨wrap, hwrap, hok⟩ := bind_ok_iff.1 (orNull_some h)
    cases wrap with
    | none => cases hok
    | some wrap =>
      obtain ⟨⟨t, next⟩, hread, heq⟩ := bind_ok_iff.1 hok
      cases heq
      obtain ⟨⟨time, next'⟩, htime, hparse⟩ := bind_ok_iff.1 hread
      cases hinstant : parseGeneralizedTime (decodeReplacing time) with
      | ok t' =>
        simp only [hinstant] at hparse
        cases hparse
        exact ⟨wrap, time, _, hwrap, htime, hinstant⟩
      | error e =>
        simp only [hinstant] at hparse
        cases hparse
  · rintro ⟨wrap, time, next, hwrap, htime, hinstant⟩
    refine orNull_of_some (bind_ok_iff.2 ⟨some wrap, hwrap, bind_ok_iff.2 ⟨(instant, next), ?_, rfl⟩⟩)
    refine bind_ok_iff.2 ⟨(time, next), htime, ?_⟩
    simp only [hinstant]
    rfl

/-- **The OCSP step**: a staple passes if its next update has the form of a time, and the checking time is before what
`Date.UTC` makes of it. -/
theorem checkStaple_eq_ok_iff : checkStaple staple now = .ok ↔
    ∃ text t, nextUpdateText staple = some text ∧ matchTime text = some t ∧ now < t.instant := by
  unfold checkStaple
  constructor
  · intro h
    cases hs : truthy staple with
    | none => simp only [hs] at h; cases h
    | some s =>
      cases hder : fromBase64Url s with
      | none => simp only [hs, hder] at h; cases h
      | some der =>
        simp only [hs, hder] at h
        split at h
        · rename_i instant hinstant
          obtain ⟨wrap, time, next, hwrap, htime, hparse⟩ := tryGetOcspNextUpdate_eq_some_iff.1 hinstant
          obtain ⟨t, ht, rfl⟩ := parseGeneralizedTime_eq_ok_iff.1 hparse
          split_ifs at h with helapsed
          · cases h
          · exact ⟨_, t, nextUpdateText_eq_some_iff.2 ⟨s, der, wrap, time, next, hs, hder, hwrap, htime, rfl⟩, ht,
              not_le.1 helapsed⟩
        · cases h
  · rintro ⟨text, t, htext, ht, hlt⟩
    obtain ⟨s, der, wrap, time, next, hs, hder, hwrap, htime, rfl⟩ := nextUpdateText_eq_some_iff.1 htext
    have hinstant := tryGetOcspNextUpdate_eq_some_iff.2
      ⟨wrap, time, next, hwrap, htime, parseGeneralizedTime_eq_ok_iff.2 ⟨t, ht, rfl⟩⟩
    simp only [hs, hder, hinstant, if_neg (not_le.2 hlt)]

theorem checkStaple_of_enforcePhase3 {leaf : List RawExtension} {frame : IdentFrame}
    (h : enforcePhase3 leaf now frame = .ok) : checkStaple frame.ocspStaple now = .ok := by
  unfold enforcePhase3 at h
  dsimp only at h
  split_ifs at h
  · cases h
  · cases h
  · exact h

end

/-- A staple passes only with a time of the calendar that is still to come. -/
def PassesOnRealDates (staple : Option String) (now : ℤ) : Prop :=
  checkStaple staple now = .ok →
    ∃ text t, nextUpdateText staple = some text ∧ matchTime text = some t ∧ t.Exists ∧ now < t.denotes

/-- The fields that `Date.UTC` counts past the checking time are those of a time of the calendar, and their year has
more than two digits or is itself late enough. -/
def CountsToRealDate (staple : Option String) (now : ℤ) : Prop :=
  ∀ text t, nextUpdateText staple = some text → matchTime text = some t →
    now < dateUTC t.year t.month t.day t.hour t.minute t.second (milliseconds t.fraction) →
      t.Exists ∧ (100 ≤ t.year ∨ now < t.denotes)

/-- **Freshness** is decided on real dates just where the fields of the next update need not be moved into a later
date to be late enough. -/
theorem passesOnRealDates_iff (staple : Option String) (now : ℤ) :
    (∀ leaf frame, frame.ocspStaple = staple → enforcePhase3 leaf now frame = .ok → checkStaple staple now = .ok) ∧
      (PassesOnRealDates staple now ↔ CountsToRealDate staple now) := by
  refine ⟨fun leaf frame hstaple hok => hstaple ▸ checkStaple_of_enforcePhase3 hok, ?_⟩
  constructor
  · intro h text t htext ht hlt
    obtain ⟨text', t', htext', ht', hexists, hdenotes⟩ := h (checkStaple_eq_ok_iff.2 ⟨text, t, htext, ht, hlt⟩)
    rw [htext] at htext'
    cases htext'
    rw [ht] at ht'
    cases ht'
    exact ⟨hexists, .inr hdenotes⟩
  · intro h hok
    obtain ⟨text, t, htext, ht, hlt⟩ := checkStaple_eq_ok_iff.1 hok
    obtain ⟨hexists, hyear | hdenotes⟩ := h text t htext ht hlt
    · exact ⟨text, t, htext, ht, hexists, hexists.lt_denotes (TimeFields.digits_of_match ht) hyear hlt⟩
    · exact ⟨text, t, htext, ht, hexists, hdenotes⟩

/-- The thirteenth month of 2030 is taken for the first one of 2031. -/
theorem thirteenthMonth_passes :
    ¬ PassesOnRealDates (some (String.ofList (base64urlOfBytes (stapleOf "20301301000000Z")))) 1900000000000 := by
  intro h
  obtain ⟨text, t, htext, ht, hexists, -⟩ := h (by decide +kernel)
  have hmonth : ((nextUpdateText (some (String.ofList (base64urlOfBytes (stapleOf "20301301000000Z"))))).bind
      matchTime).map TimeFields.month = some 13 := by decide +kernel
  rw [htext, Option.bind_some, ht, Option.map_some, Option.some.injEq] at hmonth
  have := hexists.month
  omega

end NpsSdk.Nip
