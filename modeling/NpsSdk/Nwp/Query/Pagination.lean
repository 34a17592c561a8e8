import NpsSdk.Lib.Paging
import NpsSdk.Nwp.Query.EmittedSql
import NpsSdk.Nwp.Query.SqlMemoryNodeProvider

/-!
# Pagination

Following the cursors of a query, and its stream, yield every matching row once, however the database breaks
ties in each query, if the page size is a number of rows and rows that tie across the border of two pages look
alike; and in no other case.
-/

namespace NpsSdk.Nwp.Query

open NpsSdk.Lib NpsSdk.Lib.Sql SqlQueryBuilder SqlMemoryNodeProvider

/-- A table, how its values are sorted, and how they compare with parameters. -/
structure Database (Row V : Type) where
  rows : List Row
  cell : Row → String → V
  cmp : V → V → Ordering
  trans : Std.TransCmp cmp
  atoms : Atoms V FilterValue

namespace Database

variable {Row V : Type} (db : Database Row V) (sel : Select) (p : SqlParameters)

instance : Std.TransCmp db.cmp := db.trans

/-- The rows that satisfy the condition of a query. -/
def matching : List Row :=
  db.rows.filter fun r => sel.filter.selects db.atoms (db.cell r) fun name => (JsMap.get p name).getD .null

/-- The columns of a row that a query selects. -/
def project (r : Row) : SqlRow V := sel.columns.map fun c => (c.2.getD c.1, db.cell r c.1)

/-- The order that a query asks for. -/
abbrev order : Row → Row → Ordering := Select.rowOrder db.cmp db.cell sel.orderBy

/-- What may be answered to a query for a part of the rows: that part of the rows in some order that agrees with
the one asked for, and an error if a limit or an offset is not a number of rows. -/
inductive Answers (limit : ℚ) (offset : ℤ) : Option (List (SqlRow V)) → Prop
  | rows (L o : ℕ) (xs : List Row) (hlimit : limit = L) (hoffset : offset = o)
      (hxs : Arranges (db.order sel) (db.matching sel p) xs) :
      Answers limit offset (some (((xs.drop o).take L).map (db.project sel)))
  | refused (h : ¬ ∃ L o : ℕ, limit = L ∧ offset = o) : Answers limit offset none

/-- An executor that has a query answered by the database; ties are broken anew each time. -/
def Executes (dialect : DatabaseDialect) (executor : SqlExecutor V) : Prop :=
  ∀ n limit offset, db.Answers sel p limit offset
    (executor n (sel.text dialect.quote (paging dialect)) (pageParameters p limit offset))

end Database

section

variable {Row V : Type} (host : Host) (schema : SqlMemoryNodeSchema) (dialect : DatabaseDialect)
  (executor : SqlExecutor V) (opts : SqlMemoryNodeProviderOptions) (frame : QueryFrame)

/-- A client that asks for the next page with the cursor it has got. -/
def followed (n : ℕ) (cursor : Option String) : Option (List (SqlRow V) × Option (Option String)) :=
  (query host schema dialect executor opts n { frame with cursor }).toOption.map fun r => (r.1, r.2.map some)

/-- The loop of `stream`, turn by turn. -/
def streamed (n : ℕ) (cursor : Option String) : Option (List (SqlRow V) × Option (Option String)) :=
  (streamTurn host schema dialect executor opts frame n cursor).toOption

/-- **Completeness**: from the first page on, the client that follows the cursors and the one that reads the
stream get to an end with every matching row once. -/
def Complete (db : Database Row V) (sel : Select) (p : SqlParameters) : Prop :=
  ∀ executor, db.Executes sel p dialect executor →
    (∃ rows, Delivers (followed host schema dialect executor opts frame) 0 none rows ∧
      rows.Perm ((db.matching sel p).map (db.project sel))) ∧
    ∃ rows, Delivers (streamed host schema dialect executor opts frame) 0 none rows ∧
      rows.Perm ((db.matching sel p).map (db.project sel))

end

variable {Row V : Type} {host : Host} {schema : SqlMemoryNodeSchema} {dialect : DatabaseDialect}
  {opts : SqlMemoryNodeProviderOptions} {frame : QueryFrame} {db : Database Row V} {sel : Select} {p : SqlParameters}
  {executor : SqlExecutor V}

/-! ### What is executed -/

theorem execute_page (hplan : plan host schema frame = .ok (sel, p)) (n : ℕ) (cursor : Option String)
    (limit : Option ℚ) : (execute host schema dialect executor opts n { frame with cursor, limit }).toOption =
      executor n (sel.text dialect.quote (paging dialect))
        (pageParameters p (opts.resolveLimits.limitOf { frame with limit }) (decodeCursor host cursor)) := by
  have hpage : plan host schema { frame with cursor, limit } = .ok (sel, p) := hplan
  unfold execute
  rw [build_eq, hpage]
  cases h : executor n (sel.text dialect.quote (paging dialect))
    (pageParameters p (opts.resolveLimits.limitOf { frame with limit }) (decodeCursor host cursor)) with
  | none => simp only [SqlQueryOptions.limitOf] at h ⊢; simp [Except.map, Except.toOption, h]
  | some rows => simp only [SqlQueryOptions.limitOf] at h ⊢; simp [Except.map, Except.toOption, h]

theorem followed_eq (hplan : plan host schema frame = .ok (sel, p)) (n : ℕ) (cursor : Option String) :
    followed host schema dialect executor opts frame n cursor =
      (executor n (sel.text dialect.quote (paging dialect)) (pageParameters p (opts.resolveLimits.limitOf frame)
        (decodeCursor host cursor))).map fun rows => (rows,
          (if (rows.length : ℚ) = opts.resolveLimits.limitOf frame then
            encodeCursor host (decodeCursor host cursor + opts.resolveLimits.limitOf frame) else none).map some) := by
  have hexec : (execute host schema dialect executor opts n { frame with cursor }).toOption = _ :=
    execute_page hplan n cursor frame.limit
  rw [← hexec]
  unfold followed query
  show Option.map _ (Except.toOption (Except.bind (execute host schema dialect executor opts n { frame with cursor }) _)) =
    Option.map _ (Except.toOption (execute host schema dialect executor opts n { frame with cursor }))
  cases execute host schema dialect executor opts n { frame with cursor } <;> rfl

theorem limitOf_page {options : SqlQueryOptions} (hzero : options.limitOf frame = 0 → 0 ≤ options.defaultLimit) :
    options.limitOf { frame with limit := some (options.limitOf frame) } = options.limitOf frame := by
  have hle : options.limitOf frame ≤ options.maxLimit := min_le_right _ _
  have hlimit : options.limitOf frame =
    min (if frame.limit.getD 0 = 0 then options.defaultLimit else frame.limit.getD 0) options.maxLimit := rfl
  generalize options.limitOf frame = l at hzero hle hlimit ⊢
  show min (if l = 0 then options.defaultLimit else l) options.maxLimit = l
  by_cases hl0 : l = 0
  · rw [if_pos hl0]
    by_cases h0 : frame.limit.getD 0 = 0
    · rw [hlimit, if_pos h0]
    · rw [if_neg h0] at hlimit
      have hmin : min (frame.limit.getD 0) options.maxLimit = 0 := hlimit.symm.trans hl0
      have hmax : options.maxLimit = 0 := by
        rcases min_choice (frame.limit.getD 0) options.maxLimit with h | h
        · exact absurd (h.symm.trans hmin) h0
        · exact h.symm.trans hmin
      rw [hmax, hl0, min_eq_right (hzero hl0)]
  · rw [if_neg hl0, min_eq_left hle]

theorem streamed_eq (hplan : plan host schema frame = .ok (sel, p)) (n : ℕ) (cursor : Option String) :
    streamed host schema dialect executor opts frame n cursor =
      (executor n (sel.text dialect.quote (paging dialect)) (pageParameters p
        (opts.resolveLimits.limitOf { frame with limit := some (opts.resolveLimits.limitOf frame) })
        (decodeCursor host cursor))).map fun rows =>
          if rows.isEmpty then ([], none)
          else if (rows.length : ℚ) = opts.resolveLimits.limitOf frame then
            (rows, some (encodeCursor host (decodeCursor host cursor + rows.length)))
          else (rows, none) := by
  have hexec : (execute host schema dialect executor opts n
      { frame with cursor, limit := some (opts.resolveLimits.limitOf frame) }).toOption = _ :=
    execute_page hplan n cursor _
  rw [← hexec]
  unfold streamed streamTurn
  dsimp only
  show Except.toOption (Except.bind (execute host schema dialect executor opts n
    { frame with cursor, limit := some (opts.resolveLimits.limitOf frame) }) _) = _
  cases execute host schema dialect executor opts n
    { frame with cursor, limit := some (opts.resolveLimits.limitOf frame) } with
  | error e => rfl
  | ok rows =>
    show Except.toOption (if rows.isEmpty then _ else _) = some (if rows.isEmpty then _ else _)
    split_ifs <;> rfl

/-! ### The pages of a database -/

/-- An executor that answers out of the `n`-th order in the `n`-th query. -/
def executorOf (db : Database Row V) (sel : Select) (arr : ℕ → List Row) : SqlExecutor V := fun n _ params =>
  match JsMap.get params "_limit", JsMap.get params "_offset" with
  | some (.num limit), some (.num offset) =>
    if limit = limit.num.toNat ∧ offset = offset.num.toNat then
      some ((((arr n).drop offset.num.toNat).take limit.num.toNat).map (db.project sel))
    else none
  | _, _ => none

theorem executorOf_executes {arr : ℕ → List Row} (harr : ∀ n, Arranges (db.order sel) (db.matching sel p) (arr n)) :
    db.Executes sel p dialect (executorOf db sel arr) := by
  intro n limit offset
  unfold executorOf
  rw [(get_pageParameters p limit offset).1, (get_pageParameters p limit offset).2]
  dsimp only
  split_ifs with h
  · have hoffset : (offset : ℚ) = ((offset : ℚ).num.toNat : ℤ) := by exact_mod_cast h.2
    exact .rows _ _ _ h.1 (by exact_mod_cast hoffset) (harr n)
  · refine .refused fun ⟨L, o, hL, ho⟩ => h ?_
    subst hL ho
    simp

theorem executorOf_page (arr : ℕ → List Row) (sql : String) (n L : ℕ) :
    executorOf db sel arr n sql (pageParameters p L (n * L : ℕ)) =
      some ((((arr n).drop (n * L)).take L).map (db.project sel)) := by
  unfold executorOf
  rw [(get_pageParameters _ _ _).1, (get_pageParameters _ _ _).2]
  have hnat : ∀ m : ℕ, (m : ℚ) = (m : ℚ).num.toNat ∧ (m : ℚ).num.toNat = m := fun m => by simp
  dsimp only
  rw [Int.cast_natCast, if_pos ⟨(hnat L).1, (hnat (n * L)).1⟩, (hnat L).2, (hnat (n * L)).2]

theorem refused_of_not_nat (hexec : db.Executes sel p dialect executor) {limit : ℚ} (hlimit : ¬ ∃ L : ℕ, limit = L)
    (n : ℕ) (offset : ℤ) :
    executor n (sel.text dialect.quote (paging dialect)) (pageParameters p limit offset) = none := by
  have hanswer := hexec n limit offset
  generalize executor n (sel.text dialect.quote (paging dialect)) (pageParameters p limit offset) = answer
    at hanswer ⊢
  cases hanswer with
  | rows L _ _ hL => exact absurd ⟨L, hL⟩ hlimit
  | refused => rfl

theorem exists_arr {L : ℕ} (hexec : db.Executes sel p dialect executor) :
    ∃ arr : ℕ → List Row, (∀ n, Arranges (db.order sel) (db.matching sel p) (arr n)) ∧
      ∀ n, executor n (sel.text dialect.quote (paging dialect)) (pageParameters p L (n * L : ℕ)) =
        some ((((arr n).drop (n * L)).take L).map (db.project sel)) := by
  have hpage : ∀ n, ∃ xs, Arranges (db.order sel) (db.matching sel p) xs ∧
      executor n (sel.text dialect.quote (paging dialect)) (pageParameters p L (n * L : ℕ)) =
        some (((xs.drop (n * L)).take L).map (db.project sel)) := by
    intro n
    have hanswer := hexec n L (n * L : ℕ)
    generalize executor n (sel.text dialect.quote (paging dialect)) (pageParameters p L (n * L : ℕ)) = answer
      at hanswer ⊢
    cases hanswer with
    | rows L' o xs hlimit hoffset hxs =>
      have hL : L = L' := by exact_mod_cast hlimit
      have ho : n * L = o := by exact_mod_cast hoffset
      exact ⟨xs, hxs, by rw [ho, hL]⟩
    | refused h => exact absurd ⟨L, n * L, rfl, rfl⟩ h
  choose arr harr using hpage
  exact ⟨arr, fun n => (harr n).1, fun n => (harr n).2⟩

section Pages

variable {L : ℕ} {arr : ℕ → List Row} (hhost : ReadsCursors host) (hplan : plan host schema frame = .ok (sel, p))
  (hlimit : opts.resolveLimits.limitOf frame = L) (hL : 0 < L)
  (harr : ∀ n, Arranges (db.order sel) (db.matching sel p) (arr n))
  (hexec : ∀ n, executor n (sel.text dialect.quote (paging dialect)) (pageParameters p L (n * L : ℕ)) =
    some ((((arr n).drop (n * L)).take L).map (db.project sel)))

/-- Page `k` of the answers. -/
def pageRows (db : Database Row V) (sel : Select) (arr : ℕ → List Row) (L k : ℕ) : List (SqlRow V) :=
  (((arr k).drop (k * L)).take L).map (db.project sel)

include harr in
theorem length_pageRows (k : ℕ) : (pageRows db sel arr L k).length = min L ((db.matching sel p).length - k * L) := by
  rw [pageRows, List.length_map, List.length_take, List.length_drop, (harr k).perm.length_eq]

theorem flatMap_pageRows (m : ℕ) :
    (List.range m).flatMap (pageRows db sel arr L) = (pages arr L m).map (db.project sel) := by
  rw [pages, List.map_flatMap]
  rfl

include hL harr in
/-- A page is full unless it is the last one. -/
theorem length_page_of_lt {k : ℕ} (hk : k < (db.matching sel p).length / L) :
    (pageRows db sel arr L k).length = L := by
  have hmul : (k + 1) * L ≤ (db.matching sel p).length := (Nat.le_div_iff_mul_le hL).1 hk
  rw [Nat.add_mul, Nat.one_mul] at hmul
  rw [length_pageRows harr]
  omega

include hL harr in
theorem length_last_page : (pageRows db sel arr L ((db.matching sel p).length / L)).length < L := by
  have hmod := Nat.mod_lt (db.matching sel p).length hL
  have hdiv := Nat.div_add_mod' (db.matching sel p).length L
  rw [length_pageRows harr]
  omega

include hhost hplan hlimit hL harr hexec in
theorem followed_delivers : Delivers (followed host schema dialect executor opts frame) 0 none
    ((pages arr L ((db.matching sel p).length / L + 1)).map (db.project sel)) := by
  have hanswer : ∀ k : ℕ, followed host schema dialect executor opts frame k (encodeCursor host (k * L : ℕ)) =
      some (pageRows db sel arr L k, (if ((pageRows db sel arr L k).length : ℚ) = L then
        encodeCursor host ((k + 1) * L : ℕ) else none).map some) := by
    intro k
    have hoffset : (((k * L : ℕ) : ℤ) : ℚ) + (L : ℚ) = ((k + 1) * L : ℕ) := by push_cast; ring
    rw [followed_eq hplan, decodeCursor_encodeCursor hhost, hlimit, hexec, hoffset]
    rfl
  have hzero : encodeCursor host ((0 * L : ℕ) : ℚ) = none := by simp [encodeCursor]
  rw [← flatMap_pageRows, ← hzero]
  refine @delivers_of_pages _ _ _ _ (fun k : ℕ => encodeCursor host (k * L : ℕ)) _ (fun k hk => ?_) ?_
  · have hfull := length_page_of_lt hL harr hk
    have hpos : ¬ (((k + 1) * L : ℕ) : ℚ) ≤ 0 := by
      have : 0 < (k + 1) * L := Nat.mul_pos (Nat.succ_pos k) hL
      exact_mod_cast Nat.not_le.2 this
    rw [hanswer, if_pos (by rw [hfull]), encodeCursor, if_neg hpos]
    rfl
  · have hshort := length_last_page hL harr
    rw [hanswer, if_neg (by exact_mod_cast Nat.ne_of_lt hshort)]
    rfl

include hhost hplan hlimit hL harr hexec in
theorem streamed_delivers : Delivers (streamed host schema dialect executor opts frame) 0 none
    ((pages arr L ((db.matching sel p).length / L + 1)).map (db.project sel)) := by
  have hpageLimit : opts.resolveLimits.limitOf { frame with limit := some (opts.resolveLimits.limitOf frame) } = L := by
    rw [limitOf_page, hlimit]
    intro h0
    rw [hlimit] at h0
    exact absurd (by exact_mod_cast h0) (Nat.ne_of_gt hL)
  have hanswer : ∀ k : ℕ, streamed host schema dialect executor opts frame k (encodeCursor host (k * L : ℕ)) =
      some (if (pageRows db sel arr L k).isEmpty then ([], none)
        else if ((pageRows db sel arr L k).length : ℚ) = L then (pageRows db sel arr L k,
          some (encodeCursor host ((k * L : ℕ) + (pageRows db sel arr L k).length : ℚ)))
        else (pageRows db sel arr L k, none)) := by
    intro k
    rw [streamed_eq hplan, decodeCursor_encodeCursor hhost, hpageLimit, hexec, hlimit]
    rfl
  have hzero : encodeCursor host ((0 * L : ℕ) : ℚ) = none := by simp [encodeCursor]
  rw [← flatMap_pageRows, ← hzero]
  refine @delivers_of_pages _ _ _ _ (fun k : ℕ => encodeCursor host (k * L : ℕ)) _ (fun k hk => ?_) ?_
  · have hfull := length_page_of_lt hL harr hk
    have hoffset : ((k * L : ℕ) : ℚ) + (L : ℚ) = ((k + 1) * L : ℕ) := by push_cast; ring
    have hne : ¬ (pageRows db sel arr L k).isEmpty = true := by
      rw [List.isEmpty_iff_length_eq_zero]
      omega
    rw [hanswer, if_neg hne, if_pos (by rw [hfull]), hfull, hoffset]
  · have hshort := length_last_page hL harr
    rw [hanswer]
    by_cases hempty : (pageRows db sel arr L ((db.matching sel p).length / L)).isEmpty = true
    · rw [if_pos hempty, List.isEmpty_iff.1 hempty]
    · rw [if_neg hempty, if_neg (by exact_mod_cast Nat.ne_of_lt hshort)]

end Pages

/-! ### Pages without rows -/

section Empty

variable (hplan : plan host schema frame = .ok (sel, p)) (hlimit : opts.resolveLimits.limitOf frame = (0 : ℕ))
  (hexec : db.Executes sel p dialect executor)

include hexec in
theorem executor_zero : executor 0 (sel.text dialect.quote (paging dialect)) (pageParameters p (0 : ℕ) 0) = some [] := by
  obtain ⟨arr, -, hpages⟩ := exists_arr (L := 0) hexec
  rw [Nat.cast_zero, ← Nat.cast_zero (R := ℤ), ← Nat.zero_mul 0, ← Nat.cast_zero (R := ℚ), hpages 0]
  rfl

include hplan hlimit hexec in
theorem followed_empty : Delivers (followed host schema dialect executor opts frame) 0 none [] := by
  refine .last ?_
  have hcursor : decodeCursor host none = 0 := rfl
  rw [followed_eq hplan, hcursor, hlimit, executor_zero hexec]
  simp [encodeCursor]

include hplan hlimit hexec in
theorem streamed_empty (hdefault : 0 ≤ opts.resolveLimits.defaultLimit) :
    Delivers (streamed host schema dialect executor opts frame) 0 none [] := by
  refine .last ?_
  have hcursor : decodeCursor host none = 0 := rfl
  rw [streamed_eq hplan, hcursor, limitOf_page (fun _ => hdefault), hlimit, executor_zero hexec]
  rfl

end Empty

theorem not_delivers_of_refused {answer : ℕ → Option String → Option (List (SqlRow V) × Option (Option String))}
    {n : ℕ} {c : Option String} {rows : List (SqlRow V)} (h : answer n c = none) : ¬ Delivers answer n c rows := by
  rintro (hlast | ⟨hnext, -⟩)
  · rw [h] at hlast
    cases hlast
  · rw [h] at hnext
    cases hnext

/-- **Pagination**: the rows are complete if and only if the page size is a number of rows, which is zero only
where there is no row to deliver, and the rows that tie across the border of two pages look alike. -/
theorem complete_iff_steady (hhost : ReadsCursors host) (hplan : plan host schema frame = .ok (sel, p)) :
    Complete host schema dialect opts frame db sel p ↔ ∃ L : ℕ, opts.resolveLimits.limitOf frame = L ∧
      (L = 0 → db.matching sel p = [] ∧ 0 ≤ opts.resolveLimits.defaultLimit) ∧
      ∀ k, Steady (db.order sel) (db.project sel) (db.matching sel p) (k * L) := by
  constructor
  · intro h
    have harr := fun arr : ℕ → List Row => fun harr : ∀ n, Arranges (db.order sel) (db.matching sel p) (arr n) =>
      h _ (executorOf_executes harr)
    obtain ⟨xs, hxs⟩ : ∃ xs, Arranges (db.order sel) (db.matching sel p) xs := exists_sorted _
    have hsorted : db.Executes sel p dialect (executorOf db sel fun _ => xs) := executorOf_executes fun _ => hxs
    obtain ⟨⟨rows, hfollowed, hperm⟩, ⟨_, hstreamed, -⟩⟩ := harr (fun _ => xs) fun _ => hxs
    obtain ⟨L, hlimit⟩ : ∃ L : ℕ, opts.resolveLimits.limitOf frame = L := by
      by_contra hno
      refine not_delivers_of_refused ?_ hfollowed
      rw [followed_eq hplan, refused_of_not_nat hsorted hno]
      rfl
    refine ⟨L, hlimit, ?_, fun k => ?_⟩
    · rintro rfl
      have hnone := hfollowed.unique (followed_empty hplan hlimit hsorted)
      subst hnone
      refine ⟨List.map_eq_nil_iff.1 (List.nil_perm.1 hperm), ?_⟩
      -- a negative default would be the page size of the stream
      by_contra hneg
      refine not_delivers_of_refused ?_ hstreamed
      rw [streamed_eq hplan, hlimit, refused_of_not_nat hsorted]
      · rfl
      · rintro ⟨L, hL⟩
        have hle : opts.resolveLimits.limitOf { frame with limit := some ((0 : ℕ) : ℚ) } ≤
            opts.resolveLimits.defaultLimit := by
          simp [SqlQueryOptions.limitOf]
        rw [hL] at hle
        exact hneg ((Nat.cast_nonneg L).trans hle)
    · rcases Nat.eq_zero_or_pos L with rfl | hL
      · rw [Nat.mul_zero]
        exact steady_zero
      · refine steady_of_pages (m := (db.matching sel p).length / L + 1) (fun arr harr' => ?_) ?_ k
        · obtain ⟨⟨rows, hfollowed, hperm⟩, -⟩ := harr arr harr'
          have hrows := hfollowed.unique (followed_delivers hhost hplan hlimit hL harr' fun n =>
            executorOf_page arr _ n L)
          rwa [hrows] at hperm
        · have := Nat.lt_div_mul_add (a := (db.matching sel p).length) hL
          rw [Nat.add_mul]
          omega
  · rintro ⟨L, hlimit, hempty, hsteady⟩ executor hexec
    rcases Nat.eq_zero_or_pos L with rfl | hL
    · obtain ⟨hnone, hdefault⟩ := hempty rfl
      rw [hnone]
      exact ⟨⟨[], followed_empty hplan hlimit hexec, List.Perm.refl _⟩,
        ⟨[], streamed_empty hplan hlimit hexec hdefault, List.Perm.refl _⟩⟩
    · obtain ⟨arr, harr, hpages⟩ := exists_arr (L := L) hexec
      have hm : (db.matching sel p).length ≤ ((db.matching sel p).length / L + 1) * L := by
        have := Nat.lt_div_mul_add (a := (db.matching sel p).length) hL
        rw [Nat.add_mul]
        omega
      have hperm := pages_perm harr hsteady hm
      exact ⟨⟨_, followed_delivers hhost hplan hlimit hL harr hpages, hperm⟩,
        ⟨_, streamed_delivers hhost hplan hlimit hL harr hpages, hperm⟩⟩

/-! ### A table of orders -/

def ordersSchema : SqlMemoryNodeSchema where
  tableName := "orders"
  primaryKey := "id"
  fields := [{ name := "id" }, { name := "state" }]

/-- Orders with their identifiers and states. -/
def orders (rows : List (ℕ × ℕ)) : Database (ℕ × ℕ) ℕ where
  rows := rows
  cell r column := if column = "id" then r.1 else r.2
  cmp := compare
  trans := inferInstance
  atoms := ⟨fun _ _ _ => none, fun _ _ => none⟩

/-- Two orders a page, by a field of theirs. -/
def ordersBy (field : String) (limit : ℚ) : QueryFrame where
  limit := some limit
  orderBy := some [{ field, dir := "asc" }]

def ordersSelect (field : String) : Select where
  columns := [("id", none), ("state", none)]
  table := "orders"
  filter := .blank
  orderBy := [{ column := field, direction := some .ascending }]

theorem plan_ordersBy {field : String} (h : field = "id" ∨ field = "state") (limit : ℚ) :
    plan sampleHost ordersSchema (ordersBy field limit) = .ok (ordersSelect field, JsMap.empty) := by
  rcases h with rfl | rfl <;> rfl

/-- By identifier no two orders tie. -/
theorem orders_by_id_complete : Complete sampleHost ordersSchema .postgreSql {} (ordersBy "id" 2)
    (orders [(1, 0), (2, 0), (3, 0)]) (ordersSelect "id") JsMap.empty := by
  have hids : ∀ x ∈ [(1, 0), (2, 0), (3, 0)], ∀ y ∈ [(1, 0), (2, 0), (3, 0)],
      (orders [(1, 0), (2, 0), (3, 0)]).order (ordersSelect "id") x y = .eq → x = y := by decide
  have hall : (orders [(1, 0), (2, 0), (3, 0)]).matching (ordersSelect "id") JsMap.empty =
      [(1, 0), (2, 0), (3, 0)] := by decide
  refine (complete_iff_steady sampleHost_readsCursors (plan_ordersBy (.inl rfl) 2)).2
    ⟨2, by decide, by decide, fun k x hx y hy hxy _ _ => ?_⟩
  rw [hall] at hx hy
  exact congrArg _ (hids x hx y hy hxy)

/-- **Rows lost at a border**: one order a page, by a state that both orders have. -/
theorem orders_by_state_incomplete : ¬ Complete sampleHost ordersSchema .postgreSql {} (ordersBy "state" 1)
    (orders [(1, 0), (2, 0)]) (ordersSelect "state") JsMap.empty := by
  intro h
  have harr : ∀ n, Arranges ((orders [(1, 0), (2, 0)]).order (ordersSelect "state"))
      ((orders [(1, 0), (2, 0)]).matching (ordersSelect "state") JsMap.empty)
      (if n = 0 then [(1, 0), (2, 0)] else [(2, 0), (1, 0)]) := by
    intro n
    split
    · exact ⟨by decide, by decide⟩
    · exact ⟨by decide, by decide⟩
  obtain ⟨⟨rows, hfollowed, hperm⟩, -⟩ := h _ (executorOf_executes harr)
  have hrows := hfollowed.unique (followed_delivers sampleHost_readsCursors (plan_ordersBy (.inr rfl) 1)
    (L := 1) (by decide) Nat.one_pos harr fun n => executorOf_page _ _ n 1)
  rw [hrows] at hperm
  revert hperm
  decide

end NpsSdk.Nwp.Query
