import Mathlib.Control.Lawful
import NpsSdk.Lib.JsString
import NpsSdk.Nwp.Query.SqlSchema

/-!
# Translating filters to SQL

`NwpFilterTranslator`: a filter becomes the text of a condition over quoted columns, with a named parameter in
the place of every value.
-/

namespace NpsSdk.Nwp.Query

open NpsSdk.Lib

structure NwpFilterError where
  message : String
  nwpErrorCode : String := "NWP-QUERY-FILTER-INVALID"

/-- What is thrown instead of a translation: an error of the translator, or the `TypeError` of the host for
reading the members of `null`. -/
inductive Thrown where
  | filterError (e : NwpFilterError)
  | typeError

/-- Named parameters, in the order in which they were added. -/
abbrev SqlParameters := JsMap String FilterValue

def SqlParameters.add (p : SqlParameters) (name : String) (value : FilterValue) : SqlParameters :=
  JsMap.set p name value

/-- A translation under way. -/
structure Translation where
  paramIndex : ℕ
  parameters : SqlParameters

abbrev Translate := StateT Translation (Except Thrown)

namespace NwpFilterTranslator

/-- `new NwpFilterError(message, code)`, thrown. -/
def fail {α : Type} (e : NwpFilterError) : Translate α := throw (.filterError e)

def paramName (i : ℕ) : String := "p" ++ toString i

/-- Counts a parameter: `p${this.paramIndex++}`. -/
def nextParam : Translate String := fun t =>
  .ok (paramName t.paramIndex, { t with paramIndex := t.paramIndex + 1 })

def addParam (name : String) (value : FilterValue) : Translate PUnit := fun t =>
  .ok (⟨⟩, { t with parameters := SqlParameters.add t.parameters name value })

section

variable (host : Host)

def extractValue : FilterValue → FilterValue
  | .null => .null
  | .bool b => .bool b
  | .num q => .num q
  | .str s => .str s
  | v => .str (v.stringify host.print)

/-- `String(value)`, of a primitive value. -/
def printValue : FilterValue → String
  | .null => "null"
  | .bool b => if b then "true" else "false"
  | .num q => String.ofList (host.print q).text
  | .str s => s
  | v => v.stringify host.print

def simpleOperator (op : String) (value : FilterValue) : Option (String × FilterValue) :=
  if op = "$eq" then some ("=", extractValue host value)
  else if op = "$ne" then some ("<>", extractValue host value)
  else if op = "$lt" then some ("<", extractValue host value)
  else if op = "$lte" then some ("<=", extractValue host value)
  else if op = "$gt" then some (">", extractValue host value)
  else if op = "$gte" then some (">=", extractValue host value)
  else if op = "$contains" then some ("LIKE", .str ("%" ++ printValue host (extractValue host value) ++ "%"))
  else none

def buildSimple (col op fieldName : String) (value : FilterValue) : Translate String := do
  let paramName ← nextParam
  match simpleOperator host op value with
  | some (symbol, value) =>
    addParam paramName value
    pure (col ++ " " ++ symbol ++ " @" ++ paramName)
  | none => fail { message := "Unknown filter operator '" ++ op ++ "' on field '" ++ fieldName ++ "'." }

def buildIn (col : String) (arr : FilterValue) (negate : Bool) : Translate String :=
  match arr with
  | .arr items =>
    let values := items.map (extractValue host)
    if values.isEmpty then pure (if negate then "1=1" else "1=0")
    else do
      let paramName ← nextParam
      addParam paramName (.arr values)
      pure (if negate then col ++ " NOT IN @" ++ paramName else col ++ " IN @" ++ paramName)
  | _ => fail { message := "$in/$nin requires an array value." }

def buildBetween (col : String) (arr : FilterValue) : Translate String :=
  match arr with
  | .arr [low, high] => do
    let pLow ← nextParam
    let pHigh ← nextParam
    addParam pLow (extractValue host low)
    addParam pHigh (extractValue host high)
    pure (col ++ " BETWEEN @" ++ pLow ++ " AND @" ++ pHigh)
  | _ => fail { message := "$between requires an array of exactly two values [low, high]." }

variable (schema : SqlMemoryNodeSchema) (dialect : DatabaseDialect)

def validateField (name : String) : Translate SqlMemoryNodeField :=
  match schema.getField host name with
  | some field => pure field
  | none => fail { message := "Unknown field '" ++ name ++ "'.", nwpErrorCode := "NWP-QUERY-FIELD-UNKNOWN" }

def buildOperator (col fieldName op : String) (value : FilterValue) : Translate String :=
  if op = "$in" then buildIn host col value false
  else if op = "$nin" then buildIn host col value true
  else if op = "$between" then buildBetween host col value
  else buildSimple host col op fieldName value

/-- Parts in parentheses, unless there is only one. -/
def parenthesise (separator : String) (parts : List String) : String :=
  match parts with
  | [part] => part
  | parts => "(" ++ join separator parts ++ ")"

def buildFieldCondition (field : SqlMemoryNodeField) (condition : FilterValue) : Translate String :=
  match condition with
  | .obj members => do
    let col := dialect.quote (resolvedColumnName field)
    let parts ← members.mapM fun entry => buildOperator host col field.name entry.1 entry.2
    pure (parenthesise " AND " parts)
  | _ => fail { message := "Field '" ++ field.name ++ "' condition must be an object (e.g. \x7b\"$eq\": value\x7d)." }

def buildField (name : String) (value : FilterValue) : Translate String := do
  let field ← validateField host schema name
  buildFieldCondition host dialect field value

/-- `Object.entries` of an array and of a string: each item under its index. -/
def indexed (items : List FilterValue) : List (String × FilterValue) :=
  (List.range items.length).map toString |>.zip items

/-- How the operator of a list of filters is written. -/
def separatorOf (op : String) : Option String :=
  if op = "$and" then some " AND " else if op = "$or" then some " OR " else none

def buildList (separator : String) (texts : List String) : String :=
  match texts.filter fun s => !s.isEmpty with
  | [] => ""
  | parts => parenthesise separator parts

/-- The text of an object: no clause is left out. -/
def buildClauses : List String → String
  | [] => ""
  | clauses => parenthesise " AND " clauses

mutual
def buildObject : FilterValue → Translate String
  | .obj members => buildClauses <$> buildMembers members
  -- an index never starts with the sign of an operator
  | .arr items => buildClauses <$> (indexed items).mapM fun entry => buildField host schema dialect entry.1 entry.2
  | .str s => buildClauses <$> (indexed (s.toList.map fun c => .str (String.singleton c))).mapM
      fun entry => buildField host schema dialect entry.1 entry.2
  | .null => throw .typeError
  | .bool _ | .num _ => pure ""
def buildMembers : List (String × FilterValue) → Translate (List String)
  | [] => pure []
  | (name, value) :: members => do
    let clause ← if startsWith name "$" then buildLogical name value
      else buildField host schema dialect name value
    let clauses ← buildMembers members
    pure (clause :: clauses)
def buildLogical (op : String) : FilterValue → Translate String
  | .arr items =>
    match separatorOf op with
    | some separator => buildList separator <$> buildParts items
    | none => fail { message := "Unknown logical operator '" ++ op ++ "'." }
  | _ => fail { message := "Logical operator '" ++ op ++ "' requires an array value." }
def buildParts : List FilterValue → Translate (List String)
  | [] => pure []
  | el :: items => do
    let part ← buildObject el
    let parts ← buildParts items
    pure (part :: parts)
end

def translate (filter : Option FilterValue) (p : SqlParameters) : Except Thrown (String × SqlParameters) :=
  match filter with
  | none | some .null => .ok ("", p)
  | some filter => (buildObject host schema dialect filter ⟨0, p⟩).map fun r => (r.1, r.2.parameters)

end

end NwpFilterTranslator

end NpsSdk.Nwp.Query
