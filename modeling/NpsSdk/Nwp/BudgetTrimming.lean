import NpsSdk.Nwp.MemoryServer
import NpsSdk.Nwp.Query.SqlMemoryNodeProvider

/-!
# Trimmed pages

A memory node trims the page of its provider to a token budget and hands on the cursor of the provider, which is
that of the next page.  What is trimmed is not asked for again, so a client gets every matching row if no page is
beyond the budget, and only then.
-/

namespace NpsSdk.Nwp

open NpsSdk.Lib Query

/-- A client of a provider: it asks for the next page with the cursor it has got. -/
def asked (provider : IMemoryNodeProvider) (frame : QueryFrame) (_ : ℕ) (cursor : Option String) :
    Option (List MemoryNodeRow × Option (Option String)) :=
  (provider { frame with cursor }).toOption.map fun r => (r.rows, r.nextCursor.map some)

/-- What an answer has for a client: the rows, and the cursor to go on with. -/
def MemoryNodeResponse.page : MemoryNodeResponse → Option (List MemoryNodeRow × Option (Option String))
  | .errorResponse .. => none
  | .caps frame => some (frame.data, frame.nextCursor.map some)

section

variable (host : Host) (budgetHeader : Option String) (frame : QueryFrame)

def MemoryNodeApp.followed (app : MemoryNodeApp) (_ : ℕ) (cursor : Option String) :
    Option (List MemoryNodeRow × Option (Option String)) :=
  (app.handleQuery host budgetHeader (.ok { frame with cursor })).page

def MemoryNodeServer.followed (server : MemoryNodeServer) (_ : ℕ) (cursor : Option String) :
    Option (List MemoryNodeRow × Option (Option String)) :=
  (server.handleQuery host budgetHeader (some { frame with cursor })).page

end

/-- A client that starts without a cursor gets to an end, and has every matching row once. -/
def Complete (answer : ℕ → Option String → Option (List MemoryNodeRow × Option (Option String)))
    (matching : List MemoryNodeRow) : Prop := ∃ rows, Delivers answer 0 none rows ∧ rows.Perm matching

/-- All rows of a page are within the budget of a request to the app. -/
def MemoryNodeApp.Fits (host : Host) (budgetHeader : Option String) (app : MemoryNodeApp)
    (rows : List MemoryNodeRow) : Prop :=
  0 < app.budget budgetHeader → (measureRows host rows : ℚ) ≤ app.budget budgetHeader

/-- The page is within the budget of a request to the server, or its rows are one by one. -/
def MemoryNodeServer.Fits (host : Host) (budgetHeader : Option String) (server : MemoryNodeServer)
    (rows : List MemoryNodeRow) : Prop :=
  0 < server.budget budgetHeader → (measureRows host rows : ℚ) ≤ server.budget budgetHeader ∨
    ((rows.map (rowTokens host)).sum : ℚ) ≤ server.budget budgetHeader

variable {host : Host} {budgetHeader : Option String} {frame : QueryFrame}

/-! ### Pages that are cut -/

theorem complete_cut {answer answer' : ℕ → Option String → Option (List MemoryNodeRow × Option (Option String))}
    {cut : List MemoryNodeRow → List MemoryNodeRow} {matching : List MemoryNodeRow}
    (hcut : ∀ page, (cut page).Sublist page)
    (hanswer : ∀ n c, answer' n c = (answer n c).map fun r => (cut r.1, r.2)) (h : Complete answer matching) :
    Complete answer' matching ↔ ∀ page, Meets answer 0 none page → cut page = page := by
  obtain ⟨rows, hrows, hperm⟩ := h
  obtain ⟨kept, hkept, hsub, hiff⟩ := hrows.cut hcut hanswer
  rw [← hiff]
  constructor
  · rintro ⟨kept', hkept', hperm'⟩
    rw [hkept'.unique hkept] at hperm'
    exact hsub.eq_of_length (hperm'.trans hperm.symm).length_eq
  · intro heq
    exact ⟨kept, hkept, heq ▸ hperm⟩

namespace MemoryNodeApp

variable {app : MemoryNodeApp}

theorem pageOf_longest (rows : List MemoryNodeRow) :
    (app.pageOf host budgetHeader rows).1 <+: rows ∧
      (app.pageOf host budgetHeader rows).2 = measureRows host (app.pageOf host budgetHeader rows).1 ∧
      (0 < app.budget budgetHeader → ((app.pageOf host budgetHeader rows).2 : ℚ) ≤ app.budget budgetHeader ∧
        ∀ page, page <+: rows → (measureRows host page : ℚ) ≤ app.budget budgetHeader →
          page <+: (app.pageOf host budgetHeader rows).1) := by
  unfold pageOf
  dsimp only
  split_ifs with hover
  · have hzero : ((0 : ℕ) : ℚ) ≤ app.budget budgetHeader := by exact_mod_cast hover.1.le
    have hlongest := trimBy_longest (rowTokens host) _ hzero rows
    simp only [Nat.zero_add] at hlongest
    exact ⟨trimBy_begins _ _ _ _, hlongest.1, fun _ => hlongest.2⟩
  · exact ⟨List.prefix_rfl, rfl, fun hpos => ⟨not_lt.1 fun hlt => hover ⟨hpos, hlt⟩, fun _ hpage _ => hpage⟩⟩

theorem pageOf_sublist (rows : List MemoryNodeRow) : (app.pageOf host budgetHeader rows).1.Sublist rows :=
  (pageOf_longest rows).1.sublist

theorem pageOf_eq_iff (rows : List MemoryNodeRow) :
    (app.pageOf host budgetHeader rows).1 = rows ↔ app.Fits host budgetHeader rows := by
  obtain ⟨hbegins, hcost, hlongest⟩ := @pageOf_longest host budgetHeader app rows
  constructor
  · intro h hpos
    rw [← h, ← hcost]
    exact (hlongest hpos).1
  · intro hfits
    by_cases hpos : 0 < app.budget budgetHeader
    · exact hbegins.eq_of_length_le ((hlongest hpos).2 rows List.prefix_rfl (hfits hpos)).length_le
    · exact congrArg Prod.fst (if_neg fun hover => hpos hover.1)

theorem followed_eq (n : ℕ) (cursor : Option String) : app.followed host budgetHeader frame n cursor =
    (asked app.provider frame n cursor).map fun r => ((app.pageOf host budgetHeader r.1).1, r.2) := by
  unfold followed handleQuery asked
  dsimp only
  cases app.provider { frame with cursor } with
  | error e => cases e <;> rfl
  | ok result => rfl

end MemoryNodeApp

namespace MemoryNodeServer

variable {server : MemoryNodeServer}

theorem pageOf_sublist (rows : List MemoryNodeRow) : (server.pageOf host budgetHeader rows).1.Sublist rows := by
  unfold pageOf
  dsimp only
  split_ifs
  · exact (trimBy_begins _ _ _ _).sublist
  · exact List.Sublist.refl _

theorem pageOf_eq_iff (rows : List MemoryNodeRow) :
    (server.pageOf host budgetHeader rows).1 = rows ↔ server.Fits host budgetHeader rows := by
  unfold pageOf Fits
  dsimp only
  by_cases hpos : 0 < server.budget budgetHeader
  · have hzero : ((0 : ℕ) : ℚ) ≤ server.budget budgetHeader := by exact_mod_cast hpos.le
    have htrim := trimBy_eq_iff (rowTokens host) _ hzero rows
    rw [Nat.zero_add] at htrim
    split_ifs with hover
    · exact htrim.trans ⟨fun h _ => .inr h, fun h => (h hpos).resolve_left (not_le.2 hover.2)⟩
    · have hle : (measureRows host rows : ℚ) ≤ server.budget budgetHeader := not_lt.1 fun hlt => hover ⟨hpos, hlt⟩
      exact ⟨fun _ _ => .inl hle, fun _ => rfl⟩
  · rw [if_neg fun hover => hpos hover.1]
    exact ⟨fun _ h => absurd h hpos, fun _ => rfl⟩

theorem clamp_of_not_clamps (h : ¬ server.Clamps frame) : server.clamp frame = frame := by
  unfold clamp
  cases hlimit : frame.limit with
  | none => rfl
  | some limit =>
    have hle : limit ≤ server.maxLimit.getD 1000 := not_lt.1 fun hlt => h ⟨limit, hlimit, hlt⟩
    exact if_pos (min_eq_left hle)

theorem clamp_of_clamps (h : server.Clamps frame) (cursor : Option String) :
    server.clamp { frame with cursor } = { frame with limit := some (server.maxLimit.getD 1000), cursor := none } := by
  obtain ⟨limit, hlimit, hlt⟩ := h
  have hne : ¬ min limit (server.maxLimit.getD 1000) = limit := by
    rw [min_eq_right hlt.le]
    exact hlt.ne
  unfold clamp
  rw [hlimit]
  dsimp only
  rw [if_neg hne, min_eq_right hlt.le]

theorem followed_eq (n : ℕ) (cursor : Option String) : server.followed host budgetHeader frame n cursor =
    ((server.provider (server.clamp { frame with cursor })).toOption.map fun r => (r.rows, r.nextCursor.map some)).map
      fun r => ((server.pageOf host budgetHeader r.1).1, r.2) := by
  unfold followed handleQuery
  dsimp only
  cases server.provider (server.clamp { frame with cursor }) with
  | error e => cases e <;> rfl
  | ok result => rfl

theorem followed_of_not_clamps (h : ¬ server.Clamps frame) (n : ℕ) (cursor : Option String) :
    server.followed host budgetHeader frame n cursor =
      (asked server.provider (server.clamp frame) n cursor).map fun r =>
        ((server.pageOf host budgetHeader r.1).1, r.2) := by
  have hframe : server.clamp { frame with cursor } = { frame with cursor } := clamp_of_not_clamps h
  rw [followed_eq, hframe, clamp_of_not_clamps h]
  rfl

theorem followed_of_clamps (h : server.Clamps frame) (n : ℕ) (cursor : Option String) :
    server.followed host budgetHeader frame n cursor =
      (asked server.provider (server.clamp frame) 0 none).map fun r => ((server.pageOf host budgetHeader r.1).1, r.2) := by
  have hself : server.clamp frame = { frame with limit := some (server.maxLimit.getD 1000), cursor := none } :=
    clamp_of_clamps h frame.cursor
  rw [followed_eq, clamp_of_clamps h, hself]
  rfl

/-- The first page of a client is the last one. -/
def OnePage (server : MemoryNodeServer) (frame : QueryFrame) : Prop :=
  ∀ rows next, asked server.provider (server.clamp frame) 0 none = some (rows, next) → next = none

/-- What is complete of the pages of a provider is complete of the pages of the server, if they stay whole, and
if the client gets further than to the first page where there are more. -/
theorem complete_iff {matching : List MemoryNodeRow}
    (h : Complete (asked server.provider (server.clamp frame)) matching) :
    Complete (server.followed host budgetHeader frame) matching ↔
      (server.Clamps frame → server.OnePage frame) ∧
        ∀ page, Meets (asked server.provider (server.clamp frame)) 0 none page →
          server.Fits host budgetHeader page := by
  by_cases hclamps : server.Clamps frame
  · have hfirst : ∀ n c, server.followed host budgetHeader frame n c = _ := followed_of_clamps hclamps
    by_cases hone : server.OnePage frame
    · -- the client has the only page, and no other is asked for
      obtain ⟨rows, hrows, hperm⟩ := h
      have hlast : asked server.provider (server.clamp frame) 0 none = some (rows, none) := by
        cases hrows with
        | last hlast => exact hlast
        | next hnext => exact absurd (hone _ _ hnext) (by simp)
      have hanswer : server.followed host budgetHeader frame 0 none =
          some ((server.pageOf host budgetHeader rows).1, none) := by
        rw [hfirst, hlast]
        rfl
      constructor
      · rintro ⟨kept, hkept, hperm'⟩
        refine ⟨fun _ => hone, fun page hpage => (pageOf_eq_iff page).1 ?_⟩
        have hpage : page = rows := by
          cases hpage with
          | here hhere =>
            rw [hlast] at hhere
            cases hhere
            rfl
          | later hlater =>
            rw [hlast] at hlater
            cases hlater
        rw [hkept.unique (.last hanswer)] at hperm'
        rw [hpage]
        exact (pageOf_sublist rows).eq_of_length (hperm'.trans hperm.symm).length_eq
      · rintro ⟨-, hall⟩
        refine ⟨rows, .last ?_, hperm⟩
        rw [hanswer, (pageOf_eq_iff rows).2 (hall rows (.here hlast))]
    · -- the first page is asked for again and again
      obtain ⟨rows, next, hpage, hnext⟩ : ∃ rows next,
          asked server.provider (server.clamp frame) 0 none = some (rows, next) ∧ next ≠ none := by
        unfold OnePage at hone
        push Not at hone
        exact hone
      obtain ⟨cursor, rfl⟩ := Option.ne_none_iff_exists'.1 hnext
      have hendless : ∀ n c, ∃ rows c', server.followed host budgetHeader frame n c = some (rows, some c') :=
        fun n c => ⟨_, _, (hfirst n c).trans (congrArg _ hpage)⟩
      constructor
      · rintro ⟨kept, hkept, -⟩
        exact absurd hkept (not_delivers_of_endless hendless)
      · rintro ⟨hone', -⟩
        exact absurd (hone' hclamps) hone
  · have hcut : Complete (server.followed host budgetHeader frame) matching ↔ _ :=
      complete_cut (fun page => pageOf_sublist page) (followed_of_not_clamps hclamps) h
    rw [hcut]
    constructor
    · intro hall
      exact ⟨fun hclamps' => absurd hclamps' hclamps, fun page hpage => (pageOf_eq_iff page).1 (hall page hpage)⟩
    · rintro ⟨-, hall⟩ page hpage
      exact (pageOf_eq_iff page).2 (hall page hpage)

end MemoryNodeServer

/-! ### The rows in memory -/

namespace InMemoryMemoryNodeProvider

theorem relativeIndex_le (length : ℕ) (q : ℚ) : relativeIndex length q ≤ length := by
  unfold relativeIndex
  dsimp only
  split_ifs
  · omega
  · exact min_le_right _ _
  · omega
  · exact min_le_right _ _

theorem slice_sublist {α : Type} (rows : List α) (first last : ℚ) : (slice rows first last).Sublist rows :=
  (List.drop_sublist _ _).trans (List.take_sublist _ _)

theorem slice_eq_iff {α : Type} (rows : List α) (first last : ℚ) : slice rows first last = rows ↔
    rows.length = 0 ∨ relativeIndex rows.length first = 0 ∧ relativeIndex rows.length last = rows.length := by
  have hlast := relativeIndex_le rows.length last
  have hlength : (slice rows first last).length =
      relativeIndex rows.length last - relativeIndex rows.length first := by
    rw [slice, List.length_drop, List.length_take, min_eq_left hlast]
  constructor
  · intro h
    rw [h] at hlength
    omega
  · intro h
    refine (slice_sublist rows first last).eq_of_length ?_
    rw [hlength]
    omega

variable {data : List MemoryNodeRow} {options : MemoryNodeOptions}

/-- The one page of a frame goes from the first of its rows to the last. -/
def OnePage (options : MemoryNodeOptions) (frame : QueryFrame) (length : ℕ) : Prop :=
  length = 0 ∨ relativeIndex length (frame.offset.getD 0) = 0 ∧
    relativeIndex length (frame.offset.getD 0 + limitOf options frame) = length

theorem asked_query {matching : List MemoryNodeRow} (h : orderedRows host data options frame = .ok matching) (n : ℕ)
    (cursor : Option String) : asked (query host data options) frame n cursor =
      some ((slice matching (frame.offset.getD 0) (frame.offset.getD 0 + limitOf options frame)).map
        (projectRow frame.fields), none) := by
  have hpage : orderedRows host data options { frame with cursor } = .ok matching := h
  unfold asked query
  rw [hpage]
  rfl

theorem complete_iff {matching : List MemoryNodeRow} (h : orderedRows host data options frame = .ok matching)
    (anchorId : String) :
    Complete (MemoryNodeApp.followed host budgetHeader frame ⟨query host data options, options, anchorId⟩)
        (matching.map (projectRow frame.fields)) ↔
      OnePage options frame matching.length ∧
        MemoryNodeApp.Fits host budgetHeader ⟨query host data options, options, anchorId⟩
          (matching.map (projectRow frame.fields)) := by
  generalize happ : (⟨query host data options, options, anchorId⟩ : MemoryNodeApp) = app
  have hprovider : app.provider = query host data options := by rw [← happ]
  have hanswer : app.followed host budgetHeader frame 0 none = some ((app.pageOf host budgetHeader
      ((slice matching (frame.offset.getD 0) (frame.offset.getD 0 + limitOf options frame)).map
        (projectRow frame.fields))).1, none) := by
    rw [MemoryNodeApp.followed_eq, hprovider, asked_query h]
    rfl
  have hslice := slice_sublist matching (frame.offset.getD 0) (frame.offset.getD 0 + limitOf options frame)
  have hiff := slice_eq_iff matching (frame.offset.getD 0) (frame.offset.getD 0 + limitOf options frame)
  constructor
  · rintro ⟨rows, hrows, hperm⟩
    rw [hrows.unique (.last hanswer)] at hperm
    have hpage : (app.pageOf host budgetHeader ((slice matching (frame.offset.getD 0)
        (frame.offset.getD 0 + limitOf options frame)).map (projectRow frame.fields))).1.Sublist _ :=
      MemoryNodeApp.pageOf_sublist _
    have hlength := hperm.length_eq
    have hle := hpage.length_le
    rw [List.length_map] at hlength hle
    have hall := hslice.eq_of_length (le_antisymm hslice.length_le (hlength ▸ hle))
    rw [hall] at hpage hperm
    refine ⟨hiff.1 hall, (MemoryNodeApp.pageOf_eq_iff _).1 ?_⟩
    exact hpage.eq_of_length hperm.length_eq
  · rintro ⟨hone, hfits⟩
    rw [hiff.2 hone, (MemoryNodeApp.pageOf_eq_iff _).2 hfits] at hanswer
    exact ⟨_, .last hanswer, List.Perm.refl _⟩

end InMemoryMemoryNodeProvider

theorem MemoryNodeApp.complete_iff {app : MemoryNodeApp} {matching : List MemoryNodeRow}
    (h : Complete (asked app.provider frame) matching) : Complete (app.followed host budgetHeader frame) matching ↔
      ∀ page, Meets (asked app.provider frame) 0 none page → app.Fits host budgetHeader page := by
  have hcut : Complete (app.followed host budgetHeader frame) matching ↔ _ :=
    complete_cut (fun page => pageOf_sublist page) followed_eq h
  rw [hcut]
  exact forall₂_congr fun page _ => pageOf_eq_iff page

/-- **Trimming**: what a provider delivers, a client of either server gets if every page is within the budget, and
only then; a client of `MemoryNodeServer` must not ask for more rows a page than it allows, unless there is only
one page; and of the rows in memory there is only ever one page. -/
theorem nothing_lost_iff (host : Host) (budgetHeader : Option String) (frame : QueryFrame) :
    (∀ (app : MemoryNodeApp) (matching : List MemoryNodeRow), Complete (asked app.provider frame) matching →
      (Complete (app.followed host budgetHeader frame) matching ↔
        ∀ page, Meets (asked app.provider frame) 0 none page → app.Fits host budgetHeader page)) ∧
    (∀ (server : MemoryNodeServer) (matching : List MemoryNodeRow),
      Complete (asked server.provider (server.clamp frame)) matching →
        (Complete (server.followed host budgetHeader frame) matching ↔
          (server.Clamps frame → server.OnePage frame) ∧
            ∀ page, Meets (asked server.provider (server.clamp frame)) 0 none page →
              server.Fits host budgetHeader page)) ∧
    ∀ (data : List MemoryNodeRow) (options : MemoryNodeOptions) (anchorId : String) (matching : List MemoryNodeRow),
      InMemoryMemoryNodeProvider.orderedRows host data options frame = .ok matching →
        let app : MemoryNodeApp := ⟨InMemoryMemoryNodeProvider.query host data options, options, anchorId⟩
        let rows := matching.map (InMemoryMemoryNodeProvider.projectRow frame.fields)
        (Complete (app.followed host budgetHeader frame) rows ↔
          InMemoryMemoryNodeProvider.OnePage options frame matching.length ∧ app.Fits host budgetHeader rows) :=
  ⟨fun _ _ h => MemoryNodeApp.complete_iff h, fun _ _ h => MemoryNodeServer.complete_iff h,
    fun _ _ anchorId _ h => InMemoryMemoryNodeProvider.complete_iff h anchorId⟩

/-- **The answer to a query** has the longest beginning of its provider's page that is within the budget, with what
it costs. -/
theorem answered_with_longest {app : MemoryNodeApp} {result : MemoryNodeQueryResult}
    (h : app.provider frame = .ok result) : ∃ caps,
      app.handleQuery host budgetHeader (.ok frame) = .caps caps ∧ caps.nextCursor = result.nextCursor ∧
      caps.count = caps.data.length ∧ caps.data <+: result.rows ∧
      caps.tokenEst = MemoryNodeApp.measureRows host caps.data ∧
      (0 < app.budget budgetHeader → (caps.tokenEst : ℚ) ≤ app.budget budgetHeader ∧
        ∀ page, page <+: result.rows → (MemoryNodeApp.measureRows host page : ℚ) ≤ app.budget budgetHeader →
          page <+: caps.data) := by
  have hanswer : ∃ caps, app.handleQuery host budgetHeader (.ok frame) = .caps caps ∧
      caps.nextCursor = result.nextCursor ∧ caps.count = caps.data.length ∧
      (caps.data, caps.tokenEst) = app.pageOf host budgetHeader result.rows := by
    unfold MemoryNodeApp.handleQuery
    dsimp only
    rw [h]
    exact ⟨_, rfl, rfl, rfl, rfl⟩
  obtain ⟨caps, hcaps, hcursor, hcount, hpage⟩ := hanswer
  obtain ⟨hbegins, hcost, hlongest⟩ := @MemoryNodeApp.pageOf_longest host budgetHeader app result.rows
  rw [← hpage] at hbegins hcost hlongest
  exact ⟨caps, hcaps, hcursor, hcount, hbegins, hcost, hlongest⟩

/-! ### Two products -/

def products : List MemoryNodeRow := [[("id", .num 1)], [("id", .num 2)]]

def productOptions : MemoryNodeOptions where
  schema := ⟨[⟨"id"⟩]⟩

def productApp : MemoryNodeApp :=
  ⟨InMemoryMemoryNodeProvider.query SqlQueryBuilder.sampleHost products productOptions, productOptions, "sha256:0"⟩

/-- A budget of four tokens is enough for both. -/
theorem products_complete :
    Complete (productApp.followed SqlQueryBuilder.sampleHost (some "4") {}) products := by
  have hiff := (nothing_lost_iff SqlQueryBuilder.sampleHost (some "4") {}).2.2 products productOptions "sha256:0" products rfl
  refine hiff.2 ⟨.inr (by decide +kernel), fun _ => ?_⟩
  decide

theorem products_answered : ∃ caps, ({ productApp with provider := fun _ => .ok { rows := products } }).handleQuery
    SqlQueryBuilder.sampleHost (some "3") (.ok {}) = .caps caps ∧ (caps.tokenEst : ℚ) ≤ 3 := by
  obtain ⟨caps, hcaps, -, -, -, -, hlongest⟩ := @answered_with_longest SqlQueryBuilder.sampleHost (some "3") {}
    { productApp with provider := fun _ => .ok { rows := products } } { rows := products } rfl
  exact ⟨caps, hcaps, (hlongest (by decide)).1⟩

/-- **A row lost**: with a budget of three tokens the second product is on no page. -/
theorem second_product_lost :
    InMemoryMemoryNodeProvider.orderedRows SqlQueryBuilder.sampleHost products productOptions {} = .ok products ∧
      ¬ Complete (productApp.followed SqlQueryBuilder.sampleHost (some "3") {}) products := by
  refine ⟨rfl, fun h => ?_⟩
  have hiff := @InMemoryMemoryNodeProvider.complete_iff SqlQueryBuilder.sampleHost (some "3") {} products productOptions
    products rfl "sha256:0"
  have hfits := (hiff.1 h).2
  have hover : ¬ MemoryNodeApp.Fits SqlQueryBuilder.sampleHost (some "3") productApp products := by
    intro hfits
    exact absurd (hfits (by decide)) (by decide)
  exact hover hfits

end NpsSdk.Nwp
