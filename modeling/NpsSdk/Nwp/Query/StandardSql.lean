import NpsSdk.Nwp.Query.Injection
import NpsSdk.Nwp.Query.MatchFilter

/-!
# What the operators mean in SQL

Comparisons as standard SQL has them: with NULL they are unknown, and values of one kind are compared as the host
language compares them.  What a comparison of values of different kinds says is left to the database.  Each
operator of a filter means the same in SQL and in memory where the operand is of the kind of the value.
-/

namespace NpsSdk.Nwp.Query

open NpsSdk.Lib NpsSdk.Lib.Sql NwpFilterTranslator

section

variable (mixed : CompareOp → FilterValue → FilterValue → Option Bool)

/-- A comparison of a value with a parameter; texts are compared by their code units. -/
def standardCompare (op : CompareOp) (v p : FilterValue) : Option Bool :=
  match op, v, p with
  | .like, v, p => mixed .like v p
  | _, .null, _ => none
  | _, _, .null => none
  | op, .num a, .num b => some (op.holds (decide (a = b)) (compare a b))
  | op, .str a, .str b => some (op.holds (a == b) (compareTexts a b))
  | op, .bool a, .bool b => some (op.holds (a == b) (compare a b))
  | op, v, p => mixed op v p

def standardAtoms : Atoms FilterValue FilterValue where
  compare := standardCompare mixed
  among v p :=
    match p with
    | .arr items => among3 (items.map (standardCompare mixed .eq v))
    | _ => none

end

/-- Two numbers, two texts or two truth values. -/
def sameKind : FilterValue → FilterValue → Bool
  | .num _, .num _ => true
  | .str _, .str _ => true
  | .bool _, .bool _ => true
  | _, _ => false

def Comparable (v : FilterValue) (op : String) (operand : FilterValue) : Prop :=
  if op = "$eq" then operand = .null ∨ sameKind v operand = true
  else if op = "$in" then ∀ items, operand = .arr items → ∀ item ∈ items, item = .null ∨ sameKind v item = true
  else if op = "$nin" then ∀ items, operand = .arr items → ∀ item ∈ items, sameKind v item = true
  else if op = "$between" then ∀ low high, operand = .arr [low, high] → sameKind v low = true ∧ sameKind v high = true
  else sameKind v operand = true

/-- The operators of a field. -/
def filterOperators : List String := ["$eq", "$ne", "$lt", "$lte", "$gt", "$gte", "$between", "$in", "$nin"]

variable {host : Host} {mixed : CompareOp → FilterValue → FilterValue → Option Bool} {v operand : FilterValue}

/-! ### Values of one kind -/

theorem extractValue_sameKind (h : sameKind v operand = true) : extractValue host operand = operand := by
  cases operand <;> first | rfl | (cases v <;> cases h)

variable (host mixed) in
theorem standardCompare_sameKind (h : sameKind v operand = true) :
    ∃ order, compareValues host (some v) (some operand) = .ok order ∧
      ∀ op ≠ CompareOp.like,
        standardCompare mixed op v operand = some (op.holds (deepEqual host (some v) operand) order) := by
  cases v with
  | num a =>
    cases operand with
    | num b => exact ⟨compare a b, rfl, fun op hop => by cases op <;> first | rfl | exact absurd rfl hop⟩
    | _ => cases h
  | str a =>
    cases operand with
    | str b => exact ⟨compareTexts a b, rfl, fun op hop => by cases op <;> first | rfl | exact absurd rfl hop⟩
    | _ => cases h
  | bool a =>
    cases operand with
    | bool b =>
      -- the texts of truth values are ordered as they are
      have horder : compareTexts (if a then "true" else "false") (if b then "true" else "false") = compare a b := by
        cases a <;> cases b <;> decide
      exact ⟨compare a b, congrArg Except.ok horder, fun op hop => by
        cases op <;> first | rfl | exact absurd rfl hop⟩
    | _ => cases h
  | _ => cases h

theorem standardCompare_null (hop : op ≠ CompareOp.like) : standardCompare mixed op v .null = none := by
  cases op <;> cases v <;> first | rfl | exact absurd rfl hop

end NpsSdk.Nwp.Query
