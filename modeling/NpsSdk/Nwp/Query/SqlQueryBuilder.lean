import NpsSdk.Lib.Buffer
import NpsSdk.Nwp.Query.FilterTranslator

/-!
# Queries as SQL texts

`SqlQueryBuilder`: the SELECT query of a frame, its parameters, and the cursors, which are row offsets in
URL-safe base64.
-/

namespace NpsSdk.Nwp.Query

open NpsSdk.Lib

structure SqlQueryOptions where
  defaultLimit : ℚ
  maxLimit : ℚ

/-- The page size of a frame: a limit of zero stands for none. -/
def SqlQueryOptions.limitOf (options : SqlQueryOptions) (frame : QueryFrame) : ℚ :=
  let frameLimit := frame.limit.getD 0
  min (if frameLimit = 0 then options.defaultLimit else frameLimit) options.maxLimit

structure BuiltQuery where
  sql : String
  params : SqlParameters

namespace SqlQueryBuilder

variable (host : Host) (schema : SqlMemoryNodeSchema) (dialect : DatabaseDialect)

def cursorText (nextOffset : ℚ) : List Char :=
  "\x7b\"o\":".toList ++ (host.print nextOffset).text ++ ['\x7d']

def encodeCursor (nextOffset : ℚ) : Option String :=
  if nextOffset ≤ 0 then none
  else some (String.ofList (base64urlOfBytes ((cursorText host nextOffset).flatMap String.utf8EncodeChar)))

/-- The text with the letters and the padding of the other alphabet. -/
def padCursor (cursor : List Char) : List Char :=
  let padded := cursor.map fun c => if c = '-' then '+' else if c = '_' then '/' else c
  match padded.length % 4 with
  | 2 => padded ++ ['=', '=']
  | 3 => padded ++ ['=']
  | _ => padded

/-- The offset of a cursor, and zero for one that cannot be read. -/
def decodeCursor (cursor : Option String) : ℤ :=
  match truthy cursor with
  | none => 0
  | some cursor =>
    match host.parse (host.utf8Text (bytesOfBase64 (padCursor cursor.toList))) with
    | some (.obj members) =>
      match JsMap.find "o" members with
      | some (.num o) => Int.tdiv o.num o.den
      | _ => 0
    | _ => 0

def unknownField (what name : String) : Thrown :=
  .filterError { message := what ++ " '" ++ name ++ "'.", nwpErrorCode := "NWP-QUERY-FIELD-UNKNOWN" }

def selectColumn (name : String) : Except Thrown String :=
  match schema.getField host name with
  | none => .error (unknownField "Unknown field" name)
  | some f =>
    let col := dialect.quote (resolvedColumnName f)
    .ok (if f.columnName.isSome then col ++ " AS " ++ dialect.quote f.name else col)

def buildSelectList (fields : Option (List String)) : Except Thrown String :=
  match fields.getD [] with
  | [] => .ok (join ", " (schema.fields.map fun f => dialect.quote (resolvedColumnName f)))
  | fields => (join ", ") <$> fields.mapM (selectColumn host schema dialect)

def orderTerm (o : QueryOrderClause) : Except Thrown String :=
  match schema.getField host o.field with
  | none => .error (unknownField "Unknown order field" o.field)
  | some field =>
    let dir := if host.toUpperCase o.dir = "DESC" then "DESC" else "ASC"
    .ok (dialect.quote (resolvedColumnName field) ++ " " ++ dir)

def buildOrderBy (order : List QueryOrderClause) : Except Thrown String :=
  (join ", ") <$> order.mapM (orderTerm host schema dialect)

/-- What a query is ordered by: without any clause by the primary key. -/
def orderOf : List QueryOrderClause → Except Thrown String
  | [] => .ok (dialect.quote schema.primaryKey)
  | order => buildOrderBy host schema dialect order

/-- The full query of a frame with its parameters. -/
def build (frame : QueryFrame) (options : SqlQueryOptions) : Except Thrown BuiltQuery := do
  let limit := options.limitOf frame
  let offset := decodeCursor host frame.cursor
  let select ← buildSelectList host schema dialect frame.fields
  let (filter, p) ← NwpFilterTranslator.translate host schema dialect frame.filter JsMap.empty
  let orderBy ← orderOf host schema dialect (frame.orderBy.getD [])
  let page := match dialect with
    | .sqlServer => " OFFSET @_offset ROWS FETCH NEXT @_limit ROWS ONLY"
    | .postgreSql => " LIMIT @_limit OFFSET @_offset"
  let where_ := if filter.isEmpty then "" else " WHERE " ++ filter
  let p := SqlParameters.add (SqlParameters.add p "_limit" (.num limit)) "_offset" (.num offset)
  pure ⟨"SELECT " ++ select ++ (" FROM " ++ dialect.quote schema.tableName) ++ where_ ++ (" ORDER BY " ++ orderBy) ++
    page, p⟩

def buildCount (frame : QueryFrame) : Except Thrown BuiltQuery := do
  let (filter, p) ← NwpFilterTranslator.translate host schema dialect frame.filter JsMap.empty
  let where_ := if filter.isEmpty then "" else " WHERE " ++ filter
  pure ⟨"SELECT COUNT(*) FROM " ++ dialect.quote schema.tableName ++ where_, p⟩

end SqlQueryBuilder

end NpsSdk.Nwp.Query
