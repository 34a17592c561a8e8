import Mathlib.Data.Rat.Floor
import NpsSdk.Lib.Paging
import NpsSdk.Nwp.Query.MatchFilter

/-!
# The memory node app

`InMemoryMemoryNodeProvider` and the `/query` of `MemoryNodeApp`: the app asks its provider for a page and trims
the page to the token budget of the request.
-/

namespace NpsSdk.Nwp

open NpsSdk.Lib Query

structure MemoryNodeField where
  name : String

structure MemoryNodeSchema where
  fields : List MemoryNodeField

/-- The first field with the name, whatever the case of its letters. -/
def getSchemaField (host : Host) (schema : MemoryNodeSchema) (name : String) : Option MemoryNodeField :=
  schema.fields.find? fun f => host.toLowerCase f.name == host.toLowerCase name

structure MemoryNodeOptions where
  schema : MemoryNodeSchema
  defaultLimit : Option ℚ := none
  maxLimit : Option ℚ := none
  defaultTokenBudget : Option ℚ := none

structure MemoryNodeQueryResult where
  rows : List MemoryNodeRow
  nextCursor : Option String := none

/-- What is behind a memory node: it answers the same frame in the same way. -/
abbrev IMemoryNodeProvider := QueryFrame → Except ProviderError MemoryNodeQueryResult

/-! ### The provider in memory -/

namespace InMemoryMemoryNodeProvider

variable (host : Host)

/-- Which of two rows comes first under the clauses of an order. -/
def compareRows : List QueryOrderClause → MemoryNodeRow → MemoryNodeRow → Except ProviderError Ordering
  | [], _, _ => .ok .eq
  | clause :: clauses, a, b => do
    let cmp ← compareValues host (a.get clause.field) (b.get clause.field)
    if cmp = .eq then compareRows clauses a b
    else pure (if host.toLowerCase clause.dir = "desc" then cmp.swap else cmp)

def insertRow (clauses : List QueryOrderClause) (a : MemoryNodeRow) :
    List MemoryNodeRow → Except ProviderError (List MemoryNodeRow)
  | [] => .ok [a]
  | b :: rows => do
    let cmp ← compareRows host clauses a b
    if cmp = .gt then (insertRow clauses a rows).map (b :: ·) else pure (a :: b :: rows)

/-- `rows.sort(…)`: stable, and it fails where a comparison does. -/
def sortRows (clauses : List QueryOrderClause) : List MemoryNodeRow → Except ProviderError (List MemoryNodeRow)
  | [] => .ok []
  | row :: rows => do
    let sorted ← sortRows clauses rows
    insertRow host clauses row sorted

def filterRows (filter : Option FilterValue) : List MemoryNodeRow → Except ProviderError (List MemoryNodeRow)
  | [] => .ok []
  | row :: rows => do
    let holds ← matchesFrame host row filter
    let rest ← filterRows filter rows
    pure (if holds then row :: rest else rest)

/-- `ToIntegerOrInfinity(q)`, counted from the end if it is negative, and kept between the ends. -/
def relativeIndex (length : ℕ) (q : ℚ) : ℕ :=
  let i := if 0 ≤ q then ⌊q⌋ else ⌈q⌉
  if i < 0 then (length + i).toNat else min i.toNat length

/-- `rows.slice(first, last)`. -/
def slice {α : Type} (rows : List α) (first last : ℚ) : List α :=
  (rows.take (relativeIndex rows.length last)).drop (relativeIndex rows.length first)

/-- The fields of a row that a frame asks for; a field that the row does not have is left out. -/
def projectRow (fields : Option (List String)) (row : MemoryNodeRow) : MemoryNodeRow :=
  match fields with
  | none => row
  | some fields => (fields.filterMap fun f => (row.get f).map fun v => (f, v)).foldl (fun out e => JsMap.upsert e.1 e.2 out) []

variable (data : List MemoryNodeRow) (options : MemoryNodeOptions)

/-- The fields of a frame are looked up before anything else. -/
def validateFields : List String → Except ProviderError PUnit
  | [] => .ok ⟨⟩
  | f :: fields =>
    if (getSchemaField host options.schema f).isSome then validateFields fields
    else .error (.filter ⟨"NWP-QUERY-FIELD-UNKNOWN", "Unknown field '" ++ f ++ "'."⟩)

def orderedRows (frame : QueryFrame) : Except ProviderError (List MemoryNodeRow) := do
  validateFields host options (frame.fields.getD [])
  let rows ← filterRows host frame.filter data
  match frame.orderBy with
  | some (clause :: clauses) => sortRows host (clause :: clauses) rows
  | _ => pure rows

def limitOf (frame : QueryFrame) : ℚ :=
  min (frame.limit.getD (options.defaultLimit.getD 20)) (options.maxLimit.getD 1000)

/-- One page; there is never a next cursor. -/
def query : IMemoryNodeProvider := fun frame => do
  let rows ← orderedRows host data options frame
  let offset := frame.offset.getD 0
  let page := slice rows offset (offset + limitOf options frame)
  pure { rows := page.map (projectRow frame.fields) }

end InMemoryMemoryNodeProvider

/-! ### Token budgets -/

/-- The budget that a request has in its header; an unreadable one is none. -/
def parseBudget (raw : Option String) : ℤ :=
  match truthy raw with
  | none => 0
  | some raw => (parseInt raw).getD 0

/-- The smaller of two budgets, where one that is not positive is none. -/
def effectiveBudget (agentBudget cgnLimit : ℚ) : ℚ :=
  if cgnLimit ≤ 0 then agentBudget else if agentBudget ≤ 0 then cgnLimit else min cgnLimit agentBudget

def rowText (host : Host) (row : MemoryNodeRow) : String := (FilterValue.obj row).stringify host.print

/-- The page of an answer. -/
structure CapsFrame where
  anchorRef : String
  count : ℕ
  data : List MemoryNodeRow
  nextCursor : Option String
  tokenEst : ℕ

inductive MemoryNodeResponse where
  | errorResponse (httpStatus : ℕ) (npsStatus errorCode message : String)
  | caps (frame : CapsFrame)

structure MemoryNodeApp where
  provider : IMemoryNodeProvider
  options : MemoryNodeOptions
  anchorId : String

namespace MemoryNodeApp

variable (host : Host)

/-- A quarter of the bytes of a row, rounded up. -/
def rowTokens (row : MemoryNodeRow) : ℕ := (((rowText host row).toList.flatMap String.utf8EncodeChar).length + 3) / 4

def measureRows (rows : List MemoryNodeRow) : ℕ := (rows.map (rowTokens host)).sum

def trimToBudget (rows : List MemoryNodeRow) (budget : ℚ) : List MemoryNodeRow × ℕ :=
  trimBy (rowTokens host) budget 0 rows

variable (app : MemoryNodeApp) (budgetHeader : Option String)

def budget : ℚ := effectiveBudget (parseBudget budgetHeader) (app.options.defaultTokenBudget.getD 0)

/-- What is sent of a page, and what it is said to cost. -/
def pageOf (rows : List MemoryNodeRow) : List MemoryNodeRow × ℕ :=
  let tokenEst := measureRows host rows
  if 0 < app.budget budgetHeader ∧ app.budget budgetHeader < tokenEst then
    trimToBudget host rows (app.budget budgetHeader)
  else (rows, tokenEst)

/-- The answer to a request whose body is a frame, or the text of the error that reading it has thrown. -/
def handleQuery (body : Except String QueryFrame) : MemoryNodeResponse :=
  match body with
  | .error e => .errorResponse 400 "NPS-CLIENT-BAD-REQUEST" "NWP-QUERY-FILTER-INVALID" e
  | .ok frame =>
    match app.provider frame with
    | .error (.filter e) => .errorResponse 400 "NPS-CLIENT-BAD-REQUEST" e.nwpErrorCode e.message
    | .error (.other _) => .errorResponse 500 "NPS-SERVER-INTERNAL" "NWP-NODE-UNAVAILABLE" "Internal server error."
    | .ok result =>
      let page := app.pageOf host budgetHeader result.rows
      .caps {
        anchorRef := app.anchorId
        count := page.1.length
        data := page.1
        nextCursor := result.nextCursor
        tokenEst := page.2
      }

end MemoryNodeApp

/-!
## The memory node server

The `/query` of `MemoryNodeServer`, the second server of memory nodes: it caps the limit of a frame before it asks
its provider, and measures the text of a page as a whole.
-/

structure MemoryNodeServer where
  provider : IMemoryNodeProvider
  maxLimit : Option ℚ := none
  cgnLimit : Option ℚ := none
  anchorId : String

namespace MemoryNodeServer

variable (host : Host)

/-- A quarter of the length of the text of a row, rounded up. -/
def rowTokens (row : MemoryNodeRow) : ℕ := (utf16Length (rowText host row) + 3) / 4

/-- A quarter of the length of the text of all rows, rounded up. -/
def measureRows (rows : List MemoryNodeRow) : ℕ :=
  (utf16Length ((FilterValue.arr (rows.map .obj)).stringify host.print) + 3) / 4

def trimToBudget (rows : List MemoryNodeRow) (budget : ℚ) : List MemoryNodeRow × ℕ :=
  trimBy (rowTokens host) budget 0 rows

variable (server : MemoryNodeServer) (budgetHeader : Option String)

def budget : ℚ := effectiveBudget (parseBudget budgetHeader) (server.cgnLimit.getD 0)

/-- What is sent of a page, and what it is said to cost. -/
def pageOf (rows : List MemoryNodeRow) : List MemoryNodeRow × ℕ :=
  let tokenEst := measureRows host rows
  if 0 < server.budget budgetHeader ∧ server.budget budgetHeader < tokenEst then
    trimToBudget host rows (server.budget budgetHeader)
  else (rows, tokenEst)

/-- Whether the limit of a frame is lowered. -/
def Clamps (frame : QueryFrame) : Prop := ∃ limit, frame.limit = some limit ∧ server.maxLimit.getD 1000 < limit

/-- The frame that the provider is asked for; one with a lowered limit is built anew, and without a cursor. -/
def clamp (frame : QueryFrame) : QueryFrame :=
  match frame.limit with
  | none => frame
  | some limit =>
    let clamped := min limit (server.maxLimit.getD 1000)
    if clamped = limit then frame
    else {
      filter := frame.filter
      limit := some clamped
      offset := frame.offset
      orderBy := frame.orderBy
      fields := frame.fields
    }

def handleQuery (body : Option QueryFrame) : MemoryNodeResponse :=
  match body with
  | none => .errorResponse 400 "NPS-CLIENT-BAD-REQUEST" "NWP-QUERY-FILTER-INVALID" "Invalid QueryFrame body."
  | some frame =>
    match server.provider (server.clamp frame) with
    | .error (.filter e) => .errorResponse 500 "NPS-SERVER-INTERNAL" "NWP-NODE-UNAVAILABLE" e.message
    | .error (.other message) => .errorResponse 500 "NPS-SERVER-INTERNAL" "NWP-NODE-UNAVAILABLE" message
    | .ok result =>
      let page := server.pageOf host budgetHeader result.rows
      .caps {
        anchorRef := server.anchorId
        count := page.1.length
        data := page.1
        nextCursor := result.nextCursor
        tokenEst := page.2
      }

end MemoryNodeServer

end NpsSdk.Nwp
