import NpsSdk.Nwp.Query.FilterTranslator

/-!
# Matching filters in memory

`matchFilter` and what it calls: a filter is evaluated on a row that is in memory.
-/

namespace NpsSdk.Nwp.Query

open NpsSdk.Lib NwpFilterTranslator

structure MemoryFilterError where
  nwpErrorCode : String
  message : String

inductive ProviderError where
  | filter (e : MemoryFilterError)
  | other (message : String)

/-- A row: its members by name. -/
abbrev MemoryNodeRow := List (String × FilterValue)

namespace MemoryNodeRow

def get (row : MemoryNodeRow) (field : String) : Option FilterValue := JsMap.find field row

end MemoryNodeRow

section

variable (host : Host)

/-- `a === b` up to the text of arrays and objects; an absent member is `none`. -/
def deepEqual (a : Option FilterValue) (b : FilterValue) : Bool :=
  match a, b with
  | some .null, .null => true
  | some (.bool a), .bool b => a == b
  | some (.num a), .num b => decide (a = b)
  | some (.str a), .str b => a == b
  | some (.arr a), .arr b => (FilterValue.arr a).stringify host.print == (FilterValue.arr b).stringify host.print
  | some (.arr a), .obj b => (FilterValue.arr a).stringify host.print == (FilterValue.obj b).stringify host.print
  | some (.obj a), .arr b => (FilterValue.obj a).stringify host.print == (FilterValue.arr b).stringify host.print
  | some (.obj a), .obj b => (FilterValue.obj a).stringify host.print == (FilterValue.obj b).stringify host.print
  | _, _ => false

mutual
/-- `String(v)`; an object that has a member in the place of its method `toString` has no text. -/
def valueText : FilterValue → Except ProviderError String
  | .null => .ok "null"
  | .bool b => .ok (if b then "true" else "false")
  | .num q => .ok (String.ofList (host.print q).text)
  | .str s => .ok s
  | .arr items => (itemTexts items).map (join ",")
  | .obj members =>
    if (JsMap.find "toString" members).isSome then .error (.other "Cannot convert object to primitive value")
    else .ok "[object Object]"
/-- The texts of the items of an array: that of `null` is empty. -/
def itemTexts : List FilterValue → Except ProviderError (List String)
  | [] => .ok []
  | .null :: items => (itemTexts items).map ("" :: ·)
  | item :: items => do
    let text ← valueText item
    let texts ← itemTexts items
    pure (text :: texts)
end

/-- `String(v)`, also of what is absent. -/
def textOf : Option FilterValue → Except ProviderError String
  | none => .ok "undefined"
  | some v => valueText host v

/-- The order of texts, by their code units. -/
def compareTexts (a b : String) : Ordering :=
  if unitsLe (utf16 b) (utf16 a) = false then .lt else if unitsLe (utf16 a) (utf16 b) = false then .gt else .eq

/-- The sign of `compareValues(a, b)`: numbers by their values, everything else by its text. -/
def compareValues (a b : Option FilterValue) : Except ProviderError Ordering :=
  match a, b with
  | some (.num a), some (.num b) => .ok (compare a b)
  | a, b => do
    let textA ← textOf host a
    let textB ← textOf host b
    pure (compareTexts textA textB)

/-- `value.includes(operand)`. -/
def includes (value operand : String) : Bool := value.toList.tails.any operand.toList.isPrefixOf

/-- Whether one operator of a field holds. -/
def matchOperator (value : Option FilterValue) (op : String) (operand : FilterValue) :
    Except ProviderError Bool :=
  if op = "$eq" then .ok (deepEqual host value operand)
  else if op = "$ne" then .ok (!deepEqual host value operand)
  else if op = "$lt" then (compareValues host value (some operand)).map (· == .lt)
  else if op = "$lte" then (compareValues host value (some operand)).map Ordering.isLE
  else if op = "$gt" then (compareValues host value (some operand)).map (· == .gt)
  else if op = "$gte" then (compareValues host value (some operand)).map Ordering.isGE
  else if op = "$in" then
    match operand with
    | .arr items => .ok (items.any (deepEqual host value))
    | _ => .ok false
  else if op = "$nin" then
    match operand with
    | .arr items => .ok (!items.any (deepEqual host value))
    | _ => .ok true
  else if op = "$contains" then
    match value, operand with
    | some (.str value), .str operand => .ok (includes value operand)
    | some (.arr items), operand => .ok (items.any fun v => deepEqual host (some v) operand)
    | _, _ => .ok false
  else if op = "$between" then
    match operand with
    | .arr [low, high] => do
      -- the upper bound is looked at only above the lower one
      let above ← compareValues host value (some low)
      if above.isGE then (compareValues host value (some high)).map Ordering.isLE else pure false
    | _ => .ok false
  else .error (.filter ⟨"NWP-QUERY-FILTER-INVALID", "Unsupported filter operator '" ++ op ++ "'."⟩)

/-- Whether all operators of a field hold; those after the first that does not are not looked at. -/
def matchOperators (value : Option FilterValue) : List (String × FilterValue) → Except ProviderError Bool
  | [] => .ok true
  | (op, operand) :: rest => do
    let holds ← matchOperator host value op operand
    if holds then matchOperators value rest else pure false

def matchFieldCondition (value : Option FilterValue) (cond : FilterValue) : Except ProviderError Bool :=
  match cond with
  | .obj members => matchOperators host value members
  -- a bare value stands for `$eq`
  | cond => .ok (deepEqual host value cond)

variable (row : MemoryNodeRow)

/-- The entries of an array and of a string are under indices, which are names of fields. -/
def matchFields : List (String × FilterValue) → Except ProviderError Bool
  | [] => .ok true
  | (key, cond) :: rest => do
    let holds ← matchFieldCondition host (row.get key) cond
    if holds then matchFields rest else pure false

mutual
def matchFilter : FilterValue → Except ProviderError Bool
  | .obj members => matchMembers members
  | .arr items => matchFields host row (indexed items)
  | .str s => matchFields host row (indexed (s.toList.map fun c => .str (String.singleton c)))
  -- nothing to look at
  | .null | .bool _ | .num _ => .ok true
def matchMembers : List (String × FilterValue) → Except ProviderError Bool
  | [] => .ok true
  | (key, cond) :: members => do
    let holds ← if key = "$and" then matchEvery cond
      else if key = "$or" then matchSome cond
      else if key = "$not" then (matchFilter cond).map not
      else matchFieldCondition host (row.get key) cond
    if holds then matchMembers members else pure false
/-- `Array.isArray(cond) && cond.every(…)`. -/
def matchEvery : FilterValue → Except ProviderError Bool
  | .arr items => matchEveryOf items
  | _ => .ok false
/-- `Array.isArray(cond) && cond.some(…)`. -/
def matchSome : FilterValue → Except ProviderError Bool
  | .arr items => matchSomeOf items
  | _ => .ok false
def matchEveryOf : List FilterValue → Except ProviderError Bool
  | [] => .ok true
  | c :: cs => do
    let holds ← matchFilter c
    if holds then matchEveryOf cs else pure false
def matchSomeOf : List FilterValue → Except ProviderError Bool
  | [] => .ok false
  | c :: cs => do
    let holds ← matchFilter c
    if holds then pure true else matchSomeOf cs
end

def matchesFrame (filter : Option FilterValue) : Except ProviderError Bool :=
  match filter with
  | none => .ok true
  | some filter => matchFilter host row filter

end

end NpsSdk.Nwp.Query
