import NpsSdk.Wire.Dict

/-!
# The frames of NWP

The classes of `nwp/frames.ts`: queries, whose search by vectors has two sets of names, and actions.
-/

namespace NpsSdk.Wire

open NpsSdk.Lib

/-- The names of two versions: `topK` and `top_k`, `minScore` and `threshold`, `vectorField` and `field`. -/
structure VectorSearchOptions where
  vector : List Json
  topK : Option Json
  minScore : Option Json
  vectorField : Option Json
  field : Option Json
  top_k : Option Json
  threshold : Option Json
  metric : Option Json

/-- `x ?? y ?? null`, inside an object. -/
def valueOrNull (x y : Option Json) : Json := (coalesce x y).getD .null

def normalizeVectorSearch : Option VectorSearchOptions → Json
  | none => .null
  | some v => .obj
    [("field", valueOrNull v.field v.vectorField),
      ("vector", .arr v.vector),
      ("top_k", valueOrNull v.top_k v.topK),
      ("threshold", valueOrNull v.threshold v.minScore),
      ("metric", valueOrNull v.metric none)]

/-- A member of a value that is not `null`. -/
def member (v : Json) (name : String) : Option Json :=
  match v with
  | .obj members => JsMap.find name members
  | _ => none

def denormalizeVectorSearch : Option Json → Except String (Option VectorSearchOptions)
  | none => .ok none
  | some .null => .ok none
  | some v => do
    let vector ← array? (member v "vector")
    .ok (some
      { vector := vector.getD []
        topK := coalesce (member v "topK") (member v "top_k")
        minScore := coalesce (member v "minScore") (member v "threshold")
        vectorField := coalesce (member v "vectorField") (member v "field")
        field := coalesce (member v "field") (member v "vectorField")
        top_k := coalesce (member v "top_k") (member v "topK")
        threshold := coalesce (member v "threshold") (member v "minScore")
        metric := member v "metric" })

structure QueryFrame where
  anchorRef : Option Json
  filter : Option Json
  limit : Option Json
  offset : Option Json
  orderBy : Option Json
  fields : Option Json
  vectorSearch : Option VectorSearchOptions
  depth : Option Json
  cursor : Option Json
  autoAnchor : Option Json
  stream : Option Json
  aggregate : Option Json
  /-- Written only where there is one. -/
  tokenBudget : Option Present
  tokenizer : Option Present
  requestId : Option Json

namespace QueryFrame

def toDict (f : QueryFrame) : Dict :=
  [("anchor_ref", orNull f.anchorRef),
    ("filter", orNull f.filter),
    ("limit", orNull f.limit),
    ("offset", orNull f.offset),
    ("cursor", orNull f.cursor),
    ("order", orNull f.orderBy),
    ("order_by", orNull f.orderBy),
    ("fields", orNull f.fields),
    ("vector_search", some (normalizeVectorSearch f.vectorSearch)),
    ("depth", orNull f.depth),
    ("auto_anchor", orNull f.autoAnchor),
    ("stream", orNull f.stream),
    ("aggregate", orNull f.aggregate),
    ("request_id", orNull f.requestId)] ++
  (f.tokenBudget.toList.map fun n => ("token_budget", some n.1)) ++
  f.tokenizer.toList.map fun s => ("tokenizer", some s.1)

def fromDict (data : Dict) : Except String QueryFrame := do
  let order := coalesce (data.get "order") (data.get "order_by")
  let vectorSearch ← denormalizeVectorSearch (orUndefined (data.get "vector_search"))
  .ok
    { anchorRef := orUndefined (data.get "anchor_ref")
      filter := orUndefined (data.get "filter")
      limit := orUndefined (data.get "limit")
      offset := orUndefined (data.get "offset")
      orderBy := orUndefined order
      fields := orUndefined (data.get "fields")
      vectorSearch
      depth := orUndefined (data.get "depth")
      cursor := orUndefined (data.get "cursor")
      autoAnchor := orUndefined (data.get "auto_anchor")
      stream := orUndefined (data.get "stream")
      aggregate := orUndefined (data.get "aggregate")
      tokenBudget  := Present.read (data.get "token_budget")
      tokenizer  := Present.read (data.get "tokenizer")
      requestId := orUndefined (data.get "request_id") }

end QueryFrame

structure ActionFrame where
  actionId : Option Json
  params : Option Json
  async_ : Option Json
  idempotencyKey : Option Json
  timeoutMs : Option Json
  requestId : Option Json

namespace ActionFrame

def toDict (f : ActionFrame) : Dict :=
  [("action_id", f.actionId),
    ("action", f.actionId),
    ("params", orNull f.params),
    ("async", coalesce f.async_ (some (.bool false))),
    ("idempotency_key", orNull f.idempotencyKey),
    ("timeout_ms", orNull f.timeoutMs),
    ("request_id", orNull f.requestId)]

def fromDict (data : Dict) : ActionFrame where
  actionId := coalesce (data.get "action_id") (data.get "action")
  params := orUndefined (data.get "params")
  async_ := orUndefined (data.get "async")
  idempotencyKey := orUndefined (data.get "idempotency_key")
  timeoutMs := orUndefined (data.get "timeout_ms")
  requestId := orUndefined (data.get "request_id")

end ActionFrame

/-! ### What is read of what was written -/

@[simp] theorem valueOrNull_both (v : Json) : valueOrNull (coalesce (some v) none) (some v) = v := by
  cases v <;> rfl

@[simp] theorem valueOrNull_alone (v : Json) : valueOrNull (some v) none = v := by
  cases v <;> rfl

theorem normalize_denormalize (v : Option VectorSearchOptions) :
    ∃ w, denormalizeVectorSearch (orUndefined (some (normalizeVectorSearch v))) = .ok w ∧
      normalizeVectorSearch w = normalizeVectorSearch v := by
  cases v with
  | none => exact ⟨none, rfl, rfl⟩
  | some v =>
    refine ⟨some _, rfl, ?_⟩
    simp [normalizeVectorSearch, member, JsMap.find]

section

attribute [local simp] Dict.get JsMap.find

namespace QueryFrame

variable (f : QueryFrame)

theorem get_tokenBudget : Present.read (f.toDict.get "token_budget") = f.tokenBudget := by
  unfold toDict
  cases f.tokenBudget <;> cases f.tokenizer <;> simp [Present.read]

theorem get_tokenizer : Present.read (f.toDict.get "tokenizer") = f.tokenizer := by
  unfold toDict
  cases f.tokenBudget <;> cases f.tokenizer <;> simp [Present.read]

theorem get_order : orUndefined (coalesce (f.toDict.get "order") (f.toDict.get "order_by")) = orUndefined f.orderBy := by
  simp [toDict]

theorem settles : Settles toDict fromDict := by
  intro f
  obtain ⟨w, hw, hsame⟩ := normalize_denormalize f.vectorSearch
  have hvector : f.toDict.get "vector_search" = some (normalizeVectorSearch f.vectorSearch) := by simp [toDict]
  refine ⟨{ f with
    anchorRef := orUndefined f.anchorRef
    filter := orUndefined f.filter
    limit := orUndefined f.limit
    offset := orUndefined f.offset
    orderBy := orUndefined f.orderBy
    fields := orUndefined f.fields
    vectorSearch := w
    depth := orUndefined f.depth
    cursor := orUndefined f.cursor
    autoAnchor := orUndefined f.autoAnchor
    stream := orUndefined f.stream
    aggregate := orUndefined f.aggregate
    requestId := orUndefined f.requestId }, ?_, ?_⟩
  · unfold fromDict
    dsimp only
    rw [hvector, hw, get_tokenBudget, get_tokenizer, get_order]
    simp [toDict, bind, Except.bind]
  · simp [toDict, hsame]

end QueryFrame

theorem ActionFrame.toDict_fromDict (f : ActionFrame) : (fromDict f.toDict).toDict = f.toDict := by
  have hasync : coalesce (orUndefined (coalesce f.async_ (some (.bool false)))) (some (.bool false)) =
      coalesce f.async_ (some (.bool false)) := by
    unfold orUndefined
    rw [coalesce_assoc, coalesce_assoc]
    rfl
  simp [fromDict, toDict, hasync]

end

end NpsSdk.Wire
