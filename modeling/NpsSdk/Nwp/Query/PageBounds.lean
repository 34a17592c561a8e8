import NpsSdk.Nwp.Query.EmittedSql
import NpsSdk.Nwp.Query.SqlMemoryNodeProvider

/-!
# The bounds of a page

Neither the limit of a frame nor the number in its cursor is checked: a limit is lowered to the greatest one, and
nothing raises a negative limit or a negative offset.
-/

namespace NpsSdk.Nwp.Query.SqlQueryBuilder

open NpsSdk.Lib

/-- The number that a cursor carries. -/
def cursorNumber (host : Host) (cursor : Option String) : Option ℚ :=
  (truthy cursor).bind fun cursor =>
    match host.parse (host.utf8Text (bytesOfBase64 (padCursor cursor.toList))) with
    | some (.obj members) =>
      match JsMap.find "o" members with
      | some (.num o) => some o
      | _ => none
    | _ => none

/-- The parameters ask for at least one row and at most `maxLimit`, from a row that there can be. -/
structure Bounded (maxLimit : ℕ) (params : SqlParameters) : Prop where
  limit : ∃ n : ℕ, JsMap.get params "_limit" = some (.num n) ∧ 1 ≤ n ∧ n ≤ maxLimit
  offset : ∃ n : ℕ, JsMap.get params "_offset" = some (.num n)

/-- The limit is none, or a positive integer, or lowered to one; the cursor does not lead before the first row. -/
structure Pageable (host : Host) (maxLimit : ℕ) (frame : QueryFrame) : Prop where
  limit : ∀ l, frame.limit = some l → l = 0 ∨ (maxLimit : ℚ) ≤ l ∨ ∃ n : ℕ, 1 ≤ n ∧ l = n
  cursor : ∀ o, cursorNumber host frame.cursor = some o → -1 < o

/-- The host prints the integers that a double holds exactly in decimal, and reads them back. -/
structure ReadsSafeCursors (host : Host) : Prop where
  utf8Text : ∀ s : List Char, host.utf8Text (s.flatMap String.utf8EncodeChar) = String.ofList s
  print : ∀ n : ℕ, n < 2 ^ 53 → (host.print n).text = Nat.toDigits 10 n
  parse : ∀ n : ℕ, n < 2 ^ 53 →
    host.parse (String.ofList ("\x7b\"o\":".toList ++ Nat.toDigits 10 n ++ ['\x7d'])) = some (.obj [("o", .num n)])

variable {host : Host} {schema : SqlMemoryNodeSchema} {dialect : DatabaseDialect} {frame : QueryFrame} {d m : ℕ}

theorem decodeCursor_eq (cursor : Option String) : decodeCursor host cursor =
    (cursorNumber host cursor).elim 0 fun o => Int.tdiv o.num o.den := by
  unfold decodeCursor cursorNumber
  cases truthy cursor with
  | none => rfl
  | some cursor =>
    dsimp only [Option.bind_some]
    generalize host.parse (host.utf8Text (bytesOfBase64 (padCursor cursor.toList))) = answer
    obtain _ | value := answer
    · rfl
    cases value with
    | obj members =>
      dsimp only
      obtain _ | value := JsMap.find "o" members
      · rfl
      · cases value <;> rfl
    | _ => rfl

theorem tdiv_nonneg_iff (q : ℚ) : 0 ≤ Int.tdiv q.num q.den ↔ -1 < q := by
  have hden : (0 : ℤ) < q.den := by exact_mod_cast q.den_pos
  have hlt : -1 < q ↔ -(q.den : ℤ) < q.num := by
    have hpos : (0 : ℚ) < q.den := by exact_mod_cast q.den_pos
    conv_lhs => rw [← Rat.num_div_den q, lt_div_iff₀ hpos, neg_one_mul]
    exact_mod_cast Iff.rfl
  rw [hlt]
  obtain hnum | hnum := le_or_gt 0 q.num
  · exact iff_of_true (Int.tdiv_nonneg hnum hden.le) (by omega)
  · have hneg : Int.tdiv q.num q.den = -(-q.num / q.den) := by
      rw [← Int.tdiv_eq_ediv_of_nonneg (by omega), Int.neg_tdiv, neg_neg]
    have hquot : 0 ≤ -q.num / q.den := Int.ediv_nonneg (by omega) hden.le
    rw [hneg]
    constructor
    · intro h
      have hzero : -q.num / q.den = 0 := by omega
      have hlt := Int.lt_ediv_add_one_mul_self (-q.num) hden
      rw [hzero] at hlt
      omega
    · intro h
      rw [Int.ediv_eq_zero_of_lt (by omega) (by omega)]
      rfl

theorem offset_iff : (∃ n : ℕ, ((decodeCursor host frame.cursor : ℤ) : ℚ) = n) ↔
    ∀ o, cursorNumber host frame.cursor = some o → -1 < o := by
  have hnat : (∃ n : ℕ, ((decodeCursor host frame.cursor : ℤ) : ℚ) = n) ↔ 0 ≤ decodeCursor host frame.cursor := by
    constructor
    · rintro ⟨n, hn⟩
      have hint : decodeCursor host frame.cursor = n := by exact_mod_cast hn
      omega
    · intro h
      obtain ⟨n, hn⟩ := Int.eq_ofNat_of_zero_le h
      exact ⟨n, by rw [hn]; rfl⟩
  rw [hnat, decodeCursor_eq]
  cases cursorNumber host frame.cursor with
  | none => exact iff_of_true le_rfl fun o ho => nomatch ho
  | some o =>
    refine (tdiv_nonneg_iff o).trans ⟨?_, fun h => h o rfl⟩
    rintro h _ ⟨⟩
    exact h

theorem limit_iff (hd : 0 < d) (hm : 0 < m) :
    (∃ n : ℕ, SqlQueryOptions.limitOf ⟨d, m⟩ frame = n ∧ 1 ≤ n ∧ n ≤ m) ↔
      ∀ l, frame.limit = some l → l = 0 ∨ (m : ℚ) ≤ l ∨ ∃ n : ℕ, 1 ≤ n ∧ l = n := by
  unfold SqlQueryOptions.limitOf
  have hdefault : ∃ n : ℕ, min (d : ℚ) m = n ∧ 1 ≤ n ∧ n ≤ m :=
    ⟨min d m, (Nat.cast_min d m).symm, by omega, by omega⟩
  cases frame.limit with
  | none => exact iff_of_true hdefault fun l hl => nomatch hl
  | some l =>
    dsimp only [Option.getD_some]
    by_cases hzero : l = 0
    · rw [if_pos hzero]
      refine iff_of_true hdefault ?_
      rintro _ ⟨⟩
      exact .inl hzero
    rw [if_neg hzero]
    constructor
    · rintro ⟨n, hn, hone, -⟩ _ ⟨⟩
      obtain hle | hle := le_total (m : ℚ) l
      · exact .inr (.inl hle)
      · exact .inr (.inr ⟨n, hone, (min_eq_left hle).symm.trans hn⟩)
    · intro h
      obtain rfl | hle | ⟨n, hone, rfl⟩ := h l rfl
      · exact absurd rfl hzero
      · exact ⟨m, min_eq_right hle, hm, le_rfl⟩
      · exact ⟨min n m, (Nat.cast_min n m).symm, by omega, by omega⟩

theorem decodeCursor_encodeCursor_of_safe (hhost : ReadsSafeCursors host) {n : ℕ} (hn : n < 2 ^ 53) :
    decodeCursor host (encodeCursor host n) = n := by
  refine decodeCursor_encodeCursor_of_reads hhost.utf8Text ?_
  rw [cursorText, hhost.print n hn]
  exact hhost.parse n hn

theorem sampleHost_readsSafeCursors : ReadsSafeCursors sampleHost where
  utf8Text := sampleHost_readsCursors.utf8Text
  print n _ := by simp [sampleHost, decimal, JsNumber.ofNat]
  parse n _ := by
    have hparse := sampleHost_readsCursors.parse n
    rw [cursorText, show (sampleHost.print n).text = Nat.toDigits 10 n by simp [sampleHost, decimal, JsNumber.ofNat]] at hparse
    exact hparse

/-- A table of one column. -/
def loneSchema : SqlMemoryNodeSchema where
  tableName := "t"
  primaryKey := "id"
  fields := [{ name := "id" }]

end NpsSdk.Nwp.Query.SqlQueryBuilder
