import NpsSdk.Lib.Bytes
import NpsSdk.Lib.Json

/-!
# Queries and what they ask of

A query frame as it is read from JSON, with numbers by their values, and the schema of a table.
-/

namespace NpsSdk.Nwp.Query

open NpsSdk.Lib

/-- A JSON value in a filter; the members of an object are in the order in which they are enumerated. -/
inductive FilterValue where
  | null
  | bool (b : Bool)
  | num (q : ℚ)
  | str (s : String)
  | arr (items : List FilterValue)
  | obj (members : List (String × FilterValue))

namespace FilterValue

section

variable (print : ℚ → JsNumber)

mutual
/-- The value as it is written; `print` is how the host prints a number. -/
def json : FilterValue → Json
  | .null => .null
  | .bool b => .bool b
  | .num q => .num (print q)
  | .str s => .str s
  | .arr items => .arr (jsonItems items)
  | .obj members => .obj (jsonMembers members)
def jsonItems : List FilterValue → List Json
  | [] => []
  | v :: vs => json v :: jsonItems vs
def jsonMembers : List (String × FilterValue) → List (String × Json)
  | [] => []
  | (k, v) :: ms => (k, json v) :: jsonMembers ms
end

/-- `JSON.stringify(v)`. -/
def stringify (v : FilterValue) : String := String.ofList (v.json print).text

end

end FilterValue

structure QueryOrderClause where
  field : String
  dir : String

structure QueryFrame where
  filter : Option FilterValue := none
  limit : Option ℚ := none
  offset : Option ℚ := none
  orderBy : Option (List QueryOrderClause) := none
  fields : Option (List String) := none
  cursor : Option String := none

/-- What the providers use of the host language: the case of letters, the printing of numbers, the text of bytes
in UTF-8 and `JSON.parse`. -/
structure Host where
  toLowerCase : String → String
  toUpperCase : String → String
  print : ℚ → JsNumber
  utf8Text : Bytes → String
  parse : String → Option FilterValue

/-! ### Schemas -/

inductive DatabaseDialect where
  | sqlServer
  | postgreSql

structure SqlMemoryNodeField where
  name : String
  columnName : Option String := none

def resolvedColumnName (field : SqlMemoryNodeField) : String := field.columnName.getD field.name

structure SqlMemoryNodeSchema where
  tableName : String
  primaryKey : String
  fields : List SqlMemoryNodeField

namespace SqlMemoryNodeSchema

variable (host : Host) (schema : SqlMemoryNodeSchema)

/-- The first field with the name, whatever the case of its letters. -/
def getField (name : String) : Option SqlMemoryNodeField :=
  schema.fields.find? fun f => host.toLowerCase f.name == host.toLowerCase name

def hasField (name : String) : Bool := (schema.getField host name).isSome

theorem getField_mem {name : String} {f : SqlMemoryNodeField} (h : schema.getField host name = some f) :
    f ∈ schema.fields := List.mem_of_find?_eq_some h

end SqlMemoryNodeSchema

def DatabaseDialect.quote : DatabaseDialect → String → String
  | .sqlServer, name => "[" ++ name ++ "]"
  | .postgreSql, name => "\"" ++ name ++ "\""

end NpsSdk.Nwp.Query
