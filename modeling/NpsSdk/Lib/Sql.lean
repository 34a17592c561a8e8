import NpsSdk.Lib.JsString

/-!
# SQL queries

Conditions and SELECT queries as trees, over columns and named parameters: the text of each, and what it means.
A condition is evaluated in three-valued logic, where `none` is unknown.  A comparison of a column with a
parameter is given by `Atoms`, since values and their order belong to the database.
-/

namespace NpsSdk.Lib.Sql

inductive CompareOp where
  | eq
  | ne
  | lt
  | le
  | gt
  | ge
  | like
deriving DecidableEq

def CompareOp.symbol : CompareOp → String
  | .eq => "="
  | .ne => "<>"
  | .lt => "<"
  | .le => "<="
  | .gt => ">"
  | .ge => ">="
  | .like => "LIKE"

inductive Condition where
  /-- Nothing, in the place of a condition. -/
  | blank
  /-- `1=1` or `1=0`. -/
  | constant (b : Bool)
  | compare (column : String) (op : CompareOp) (param : String)
  | among (column : String) (negate : Bool) (param : String)
  | between (column : String) (low high : String)
  | all (cs : List Condition)
  | any (cs : List Condition)

namespace Condition

theorem ind {motive : Condition → Prop} (blank : motive .blank) (constant : ∀ b, motive (.constant b))
    (compare : ∀ column op param, motive (.compare column op param))
    (among : ∀ column negate param, motive (.among column negate param))
    (between : ∀ column low high, motive (.between column low high))
    (all : ∀ cs, (∀ c ∈ cs, motive c) → motive (.all cs))
    (any : ∀ cs, (∀ c ∈ cs, motive c) → motive (.any cs)) (c : Condition) : motive c :=
  @Condition.rec motive (fun cs => ∀ c ∈ cs, motive c) blank constant compare among between all any
    (fun _ h => absurd h List.not_mem_nil)
    (fun _ _ hhead htail _ hmem => (List.mem_cons.1 hmem).elim (fun h => h ▸ hhead) (htail _)) c

/-- A conjunction as it is written: one part stands for itself, and none for nothing. -/
def conjoin : List Condition → Condition
  | [] => .blank
  | [c] => c
  | cs => .all cs

/-- A disjunction as it is written. -/
def disjoin : List Condition → Condition
  | [] => .blank
  | [c] => c
  | cs => .any cs

def isBlank : Condition → Bool
  | .blank => true
  | _ => false

/-! ### Texts -/

section

variable (quote : String → String)

mutual
def text : Condition → String
  | .blank => ""
  | .constant b => if b then "1=1" else "1=0"
  | .compare column op param => quote column ++ " " ++ op.symbol ++ " @" ++ param
  | .among column negate param => quote column ++ (if negate then " NOT IN @" else " IN @") ++ param
  | .between column low high => quote column ++ " BETWEEN @" ++ low ++ " AND @" ++ high
  | .all cs => "(" ++ join " AND " (texts cs) ++ ")"
  | .any cs => "(" ++ join " OR " (texts cs) ++ ")"
def texts : List Condition → List String
  | [] => []
  | c :: cs => text c :: texts cs
end

theorem texts_eq (cs : List Condition) : texts quote cs = cs.map (text quote) := by
  induction cs with
  | nil => rfl
  | cons c cs ih => rw [texts, ih, List.map_cons]

theorem text_eq_empty_iff (c : Condition) : text quote c = "" ↔ c.isBlank = true := by
  cases c with
  | constant b => cases b <;> simp [text, isBlank]
  | among column negate param => cases negate <;> simp [text, isBlank]
  | _ => simp [text, isBlank]

end

/-! ### Meaning -/

mutual
/-- No part is missing. -/
def wellFormed : Condition → Bool
  | .blank => false
  | .all cs => !cs.isEmpty && wellFormedParts cs
  | .any cs => !cs.isEmpty && wellFormedParts cs
  | _ => true
def wellFormedParts : List Condition → Bool
  | [] => true
  | c :: cs => wellFormed c && wellFormedParts cs
end

theorem wellFormedParts_iff (cs : List Condition) : wellFormedParts cs = true ↔ ∀ c ∈ cs, c.wellFormed = true := by
  induction cs with
  | nil => simp [wellFormedParts]
  | cons c cs ih => rw [wellFormedParts, Bool.and_eq_true, ih, List.forall_mem_cons]

end Condition

/-! ### Three-valued logic -/

def and3 : Option Bool → Option Bool → Option Bool
  | some false, _ | _, some false => some false
  | some true, b => b
  | a, some true => a
  | none, none => none

def or3 : Option Bool → Option Bool → Option Bool
  | some true, _ | _, some true => some true
  | some false, b => b
  | a, some false => a
  | none, none => none

def not3 (a : Option Bool) : Option Bool := a.map not

@[simp] theorem and3_eq_true {a b : Option Bool} : and3 a b = some true ↔ a = some true ∧ b = some true := by
  rcases a with _ | _ | _ <;> rcases b with _ | _ | _ <;> decide

@[simp] theorem or3_eq_true {a b : Option Bool} : or3 a b = some true ↔ a = some true ∨ b = some true := by
  rcases a with _ | _ | _ <;> rcases b with _ | _ | _ <;> decide

@[simp] theorem or3_eq_false {a b : Option Bool} : or3 a b = some false ↔ a = some false ∧ b = some false := by
  rcases a with _ | _ | _ <;> rcases b with _ | _ | _ <;> decide

/-- `IN`: some comparison is true; if none is, but one is unknown, so is the result. -/
def among3 (found : List (Option Bool)) : Option Bool := found.foldr or3 (some false)

theorem among3_eq_true {found : List (Option Bool)} : among3 found = some true ↔ some true ∈ found := by
  induction found with
  | nil => simp [among3]
  | cons a found ih =>
    show or3 a (among3 found) = some true ↔ _
    rw [or3_eq_true, ih, List.mem_cons, eq_comm]

theorem among3_eq_false {found : List (Option Bool)} : among3 found = some false ↔ ∀ a ∈ found, a = some false := by
  induction found with
  | nil => simp [among3]
  | cons a found ih =>
    show or3 a (among3 found) = some false ↔ _
    rw [or3_eq_false, ih, List.forall_mem_cons]

/-- What a comparison says of two values, from whether they are equal and which of them comes first. -/
def CompareOp.holds (equal : Bool) (order : Ordering) : CompareOp → Bool
  | .eq => equal
  | .ne => !equal
  | .lt => order == .lt
  | .le => order.isLE
  | .gt => order == .gt
  | .ge => order.isGE
  | .like => false

/-- How a database compares a value with a parameter. -/
structure Atoms (V P : Type) where
  compare : CompareOp → V → P → Option Bool
  among : V → P → Option Bool

namespace Condition

section

variable {V P : Type} (atoms : Atoms V P) (cell : String → V) (arg : String → P)

mutual
def eval : Condition → Option Bool
  | .blank => some true
  | .constant b => some b
  | .compare column op param => atoms.compare op (cell column) (arg param)
  | .among column negate param =>
    let found := atoms.among (cell column) (arg param)
    if negate then not3 found else found
  | .between column low high =>
    and3 (atoms.compare .ge (cell column) (arg low)) (atoms.compare .le (cell column) (arg high))
  | .all cs => evalAll cs
  | .any cs => evalAny cs
def evalAll : List Condition → Option Bool
  | [] => some true
  | c :: cs => and3 (eval c) (evalAll cs)
def evalAny : List Condition → Option Bool
  | [] => some false
  | c :: cs => or3 (eval c) (evalAny cs)
end

def selects (c : Condition) : Bool := c.eval atoms cell arg == some true

theorem evalAll_eq_true (cs : List Condition) :
    evalAll atoms cell arg cs = some true ↔ ∀ c ∈ cs, c.eval atoms cell arg = some true := by
  induction cs with
  | nil => simp [evalAll]
  | cons c cs ih => rw [evalAll, and3_eq_true, ih, List.forall_mem_cons]

theorem evalAny_eq_true (cs : List Condition) :
    evalAny atoms cell arg cs = some true ↔ ∃ c ∈ cs, c.eval atoms cell arg = some true := by
  induction cs with
  | nil => simp [evalAny]
  | cons c cs ih => rw [evalAny, or3_eq_true, ih, List.exists_mem_cons_iff]

end

end Condition

/-! ### Queries -/

inductive Direction where
  | ascending
  | descending

def Direction.text : Direction → String
  | .ascending => " ASC"
  | .descending => " DESC"

/-- A column to sort by; without a direction the order is ascending. -/
structure OrderTerm where
  column : String
  direction : Option Direction := none

/-- How a dialect writes which part of the rows is asked for. -/
inductive Paging where
  | limitOffset (limit offset : String)
  | offsetFetch (offset limit : String)

def Paging.text : Paging → String
  | .limitOffset limit offset => " LIMIT @" ++ limit ++ " OFFSET @" ++ offset
  | .offsetFetch offset limit => " OFFSET @" ++ offset ++ " ROWS FETCH NEXT @" ++ limit ++ " ROWS ONLY"

structure Select where
  columns : List (String × Option String)
  table : String
  filter : Condition
  orderBy : List OrderTerm

namespace Select

section

variable (quote : String → String)

def columnText (c : String × Option String) : String :=
  match c.2 with
  | none => quote c.1
  | some name => quote c.1 ++ " AS " ++ quote name

def orderText (t : OrderTerm) : String := quote t.column ++ (t.direction.map Direction.text).getD ""

def text (s : Select) (paging : Paging) : String :=
  "SELECT " ++ join ", " (s.columns.map (columnText quote)) ++ (" FROM " ++ quote s.table) ++
    (if s.filter.isBlank then "" else " WHERE " ++ s.filter.text quote) ++
    (" ORDER BY " ++ join ", " (s.orderBy.map (orderText quote))) ++ paging.text

/-- How many rows of a table satisfy a condition. -/
def countText (table : String) (filter : Condition) : String :=
  "SELECT COUNT(*) FROM " ++ quote table ++ (if filter.isBlank then "" else " WHERE " ++ filter.text quote)

end

section

variable {Row V : Type} (cmp : V → V → Ordering) (cell : Row → String → V)

def termOrder (t : OrderTerm) (a b : Row) : Ordering :=
  match t.direction with
  | some .descending => cmp (cell b t.column) (cell a t.column)
  | _ => cmp (cell a t.column) (cell b t.column)

/-- The order of rows: by the first column, then by the next, and so on. -/
def rowOrder : List OrderTerm → Row → Row → Ordering
  | [] => fun _ _ => .eq
  | t :: ts => compareLex (termOrder cmp cell t) (rowOrder ts)

instance [Std.TransCmp cmp] (t : OrderTerm) : Std.TransCmp (termOrder cmp cell t) := by
  have hasc : Std.TransCmp fun a b : Row => cmp (cell a t.column) (cell b t.column) :=
    { eq_swap := Std.OrientedCmp.eq_swap
      isLE_trans := Std.TransCmp.isLE_trans }
  unfold termOrder
  rcases t.direction with _ | _ | _
  · exact hasc
  · exact hasc
  · exact @Std.TransCmp.opposite _ (fun a b : Row => cmp (cell a t.column) (cell b t.column)) hasc

instance [Std.TransCmp cmp] (ts : List OrderTerm) : Std.TransCmp (rowOrder cmp cell ts) := by
  induction ts with
  | nil => exact { eq_swap := rfl, isLE_trans := fun _ _ => rfl }
  | cons t ts ih => exact inferInstanceAs (Std.TransCmp (compareLex _ _))

end

end Select

end NpsSdk.Lib.Sql
