import NpsSdk.Nop.Models

/-!
# Input mappings

`nop/input-mapper.ts`: the paths `$.node.field.sub` are resolved against the outputs of the nodes
that completed.  A path fails for its syntax alone: whatever the context, the same paths are refused.
-/

namespace NpsSdk.Nop

open NpsSdk.Lib

/-- The outputs of the completed nodes; an output may be `undefined`. -/
abbrev Context := JsMap String (Option Json)

/-- The deepest path. -/
def maxInputMappingDepth : ℕ := 8

/-- A refused mapping. -/
structure NopMappingError where
  message : String
  errorCode : String

/-- `obj[name]` for a name that is not an own member of a plain object. -/
def inherited (name : String) : Resolved :=
  if name = "__proto__" then .objectPrototype
  else if name ∈ inheritedNames then .builtin name
  else .undefined

/-- One step of a path: `undefined` unless the value is an object that has the name. -/
def followPart (current : Resolved) (part : String) : Resolved :=
  match current with
  | .json (.obj members) =>
    match JsMap.find part members with
    | some v => .json v
    | none => inherited part
  | .objectPrototype => if part = "__proto__" then .json .null else inherited part
  | _ => .undefined

/-- The segments of a path, the first of which is `$`. -/
def pathParts (path : String) : List String := (split path '.').filter fun p => p ≠ ""

/-- Why a path is refused, if it is. -/
def pathError (path : String) : Option NopMappingError :=
  if isBlank path then some ⟨"Input mapping path must not be empty.", nopInputMappingError⟩
  else if ¬ startsWith path "$." then
    some ⟨s!"Input mapping path must start with '$.' — got: {path}", nopInputMappingError⟩
  else if maxInputMappingDepth + 1 < (pathParts path).length then
    some ⟨s!"Input mapping path depth {(pathParts path).length - 1} exceeds maximum {maxInputMappingDepth}: {path}",
      nopInputMappingError⟩
  else none

/-- The value a well-formed path leads to. -/
def pathValue (path : String) (context : Context) : Resolved :=
  match pathParts path with
  | [] | [_] => .context (context.entries.foldl (fun m e => m.assign e.1 e.2) JsMap.empty).entries
  | _ :: nodeId :: rest =>
    match context.get nodeId with
    | none | some none => .undefined
    | some (some v) => rest.foldl followPart (.json v)

def resolvePath (path : String) (context : Context) : Except NopMappingError Resolved :=
  match pathError path with
  | some e => .error e
  | none => .ok (pathValue path context)

/-- Resolves the members of an array of paths; what is not a string stands for itself. -/
def resolveAll (context : Context) : List Json → Except NopMappingError (List Resolved)
  | [] => .ok []
  | .str p :: ps =>
    match resolvePath p context with
    | .error e => .error e
    | .ok v =>
      match resolveAll context ps with
      | .error e => .error e
      | .ok vs => .ok (v :: vs)
  | p :: ps =>
    match resolveAll context ps with
    | .error e => .error e
    | .ok vs => .ok (.json p :: vs)

def resolveParam (context : Context) : Json → Except NopMappingError Param
  | .str path => (resolvePath path context).map .one
  | .arr paths => (resolveAll context paths).map .many
  | v => .ok (.one (.json v))

/-- Resolves the entries of the mapping one after the other into `out`. -/
def buildEntries (context : Context) :
    List (String × Json) → JsMap String Param → Except NopMappingError (JsMap String Param)
  | [], out => .ok out
  | (name, value) :: rest, out =>
    match resolveParam context value with
    | .error e => .error e
    | .ok v => buildEntries context rest (out.assign name v)

/-- The parameters of a delegation. -/
def buildParams (inputMapping : List (String × Json)) (context : Context) :
    Except NopMappingError (List (String × Param)) :=
  (buildEntries context inputMapping JsMap.empty).map JsMap.entries

/-! ### Refusal depends on the mapping alone -/

/-- The paths in a value of the mapping. -/
def paramPaths : Json → List String
  | .str path => [path]
  | .arr paths => paths.filterMap fun | .str p => some p | _ => none
  | _ => []

/-- Every path of the mapping is well formed. -/
def MappingResolves (inputMapping : List (String × Json)) : Prop :=
  ∀ e ∈ inputMapping, ∀ p ∈ paramPaths e.2, pathError p = none

theorem resolvePath_isOk (path : String) (context : Context) :
    (∃ v, resolvePath path context = .ok v) ↔ pathError path = none := by
  unfold resolvePath
  cases h : pathError path <;> simp

theorem resolveAll_isOk (context : Context) (paths : List Json) :
    (∃ vs, resolveAll context paths = .ok vs) ↔ ∀ p ∈ paramPaths (.arr paths), pathError p = none := by
  induction paths with
  | nil => simp [resolveAll, paramPaths]
  | cons p ps ih =>
    simp only [paramPaths] at ih ⊢
    cases p with
    | str s =>
      simp only [resolveAll, List.filterMap_cons, List.mem_cons, forall_eq_or_imp, ← ih, ← resolvePath_isOk s context]
      cases resolvePath s context <;> cases resolveAll context ps <;> simp
    | _ =>
      simp only [resolveAll, List.filterMap_cons]
      rw [← ih]
      cases resolveAll context ps <;> simp

theorem resolveParam_isOk (context : Context) (v : Json) :
    (∃ p, resolveParam context v = .ok p) ↔ ∀ p ∈ paramPaths v, pathError p = none := by
  cases v with
  | str s =>
    simp only [resolveParam, paramPaths, List.mem_singleton, forall_eq, ← resolvePath_isOk s context]
    cases resolvePath s context <;> simp [Except.map]
  | arr paths =>
    rw [← resolveAll_isOk context paths]
    simp only [resolveParam]
    cases resolveAll context paths <;> simp [Except.map]
  | _ => simp [resolveParam, paramPaths]

theorem buildEntries_isOk (context : Context) (inputMapping : List (String × Json)) (out : JsMap String Param) :
    (∃ m, buildEntries context inputMapping out = .ok m) ↔ MappingResolves inputMapping := by
  induction inputMapping generalizing out with
  | nil => simp [buildEntries, MappingResolves]
  | cons e es ih =>
    obtain ⟨name, value⟩ := e
    simp only [MappingResolves, List.mem_cons, forall_eq_or_imp, buildEntries]
    rw [← resolveParam_isOk context value]
    cases resolveParam context value with
    | error err => simp
    | ok v =>
      simp only [ih, Except.ok.injEq, exists_eq', true_and]
      rfl

/-- **Mappings fail for their syntax.**  Whether the parameters can be built does not depend on the
outputs. -/
theorem buildParams_isOk (inputMapping : List (String × Json)) (context : Context) :
    (∃ ps, buildParams inputMapping context = .ok ps) ↔ MappingResolves inputMapping := by
  rw [← buildEntries_isOk context inputMapping JsMap.empty]
  unfold buildParams
  cases buildEntries context inputMapping JsMap.empty <;> simp [Except.map]

end NpsSdk.Nop
