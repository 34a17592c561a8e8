import NpsSdk.Lib.JsonReplacer

/-!
# Identity frames

`nip/frames.ts` and `nip/assurance-level.ts`: the frame an identity is presented in, and the
dictionary its signature is computed over.
-/

namespace NpsSdk.Nip

open NpsSdk.Lib

/-! ### Assurance levels -/

/-- How far the holder of an identity was checked. -/
inductive AssuranceLevel
  | anonymous | attested | verified
  deriving DecidableEq

namespace AssuranceLevel

/-- The name on the wire. -/
def wire : AssuranceLevel → String
  | anonymous => "anonymous"
  | attested => "attested"
  | verified => "verified"

def rank : AssuranceLevel → ℕ
  | anonymous => 0
  | attested => 1
  | verified => 2

/-- Does the level reach the required one? -/
def meetsOrExceeds (level required : AssuranceLevel) : Bool := decide (required.rank ≤ level.rank)

/-- Reads a level from the wire; nothing and the empty string mean the lowest level. -/
def fromWire (wire : Option String) : Option AssuranceLevel :=
  match truthy wire with
  | none => some anonymous
  | some "anonymous" => some anonymous
  | some "attested" => some attested
  | some "verified" => some verified
  | some _ => none

theorem wire_injective : Function.Injective wire := by
  intro a b h
  cases a <;> cases b <;> first | rfl | exact absurd h (by decide)

end AssuranceLevel

/-! ### Frames -/

structure IdentFrame where
  nid : String
  pubKey : String
  metadata : Json
  signature : String
  assuranceLevel : Option AssuranceLevel := none
  certFormat : Option String := none
  certChain : Option (List String) := none
  ocspStaple : Option String := none
  nodeRoles : Option (List String) := none

/-- The dictionary the signature is computed over. -/
def IdentFrame.unsignedDict (frame : IdentFrame) : List (String × Json) :=
  [("nid", .str frame.nid), ("pub_key", .str frame.pubKey), ("metadata", frame.metadata)] ++
    match frame.assuranceLevel with
    | none => []
    | some level => [("assurance_level", .str level.wire)]

def stringField (name : String) (data : List (String × Json)) : Option String :=
  match JsMap.find name data with
  | some (.str s) => some s
  | _ => none

/-- A field that is an array of strings. -/
def stringItems (name : String) (data : List (String × Json)) : Option (List String) :=
  match JsMap.find name data with
  | some (.arr items) => some (items.filterMap fun | .str s => some s | _ => none)
  | _ => none

/-- The level of a frame, if it names one. -/
def readLevel : Option String → Option (Option AssuranceLevel)
  | some lvl => (AssuranceLevel.fromWire (some lvl)).map some
  | none => some none

/-- Reads a frame out of a dictionary whose fields have their declared types; the metadata that is absent
behaves as null does.  An assurance level that is not known throws. -/
def IdentFrame.fromDict (data : List (String × Json)) : Option IdentFrame := do
  let assuranceLevel ← readLevel (stringField "assurance_level" data)
  let nid ← stringField "nid" data
  let pubKey ← stringField "pub_key" data
  let signature ← stringField "signature" data
  some
    { nid, pubKey, metadata := (JsMap.find "metadata" data).getD .null, signature, assuranceLevel
      certFormat := stringField "cert_format" data
      certChain := stringItems "cert_chain" data
      ocspStaple := stringField "ocsp_staple" data
      nodeRoles := stringItems "node_roles" data }

variable {frame : IdentFrame}

theorem fromDict_signature {data : List (String × Json)}
    (h : IdentFrame.fromDict data = some frame) : stringField "signature" data = some frame.signature := by
  unfold IdentFrame.fromDict at h
  simp only [Option.bind_eq_bind, Option.bind_eq_some_iff] at h
  obtain ⟨level, -, nid, -, pubKey, -, signature, hsignature, hframe⟩ := h
  cases hframe
  exact hsignature

/-- The text that is signed: the names of the dictionary, sorted, are passed to the serialiser as
the list of the members to write, at every depth. -/
def canonicalJson (payload : List (String × Json)) : List Char :=
  (Json.obj payload).stringify (sortKeys (payload.map Prod.fst))

def IdentFrame.signedNames (frame : IdentFrame) : List String :=
  sortKeys (frame.unsignedDict.map Prod.fst)

theorem signedNames_none (h : frame.assuranceLevel = none) : frame.signedNames = ["metadata", "nid", "pub_key"] := by
  simp only [IdentFrame.signedNames, IdentFrame.unsignedDict, h, List.append_nil, List.map_cons, List.map_nil]
  decide

theorem signedNames_some {level : AssuranceLevel} (h : frame.assuranceLevel = some level) :
    frame.signedNames = ["assurance_level", "metadata", "nid", "pub_key"] := by
  simp only [IdentFrame.signedNames, IdentFrame.unsignedDict, h, List.cons_append, List.nil_append,
    List.map_cons, List.map_nil]
  decide

theorem shown_none (h : frame.assuranceLevel = none) :
    (Json.obj frame.unsignedDict).shown frame.signedNames =
      .obj [("metadata", frame.metadata.shown frame.signedNames), ("nid", .str frame.nid),
        ("pub_key", .str frame.pubKey)] := by
  rw [signedNames_none h]
  simp only [IdentFrame.unsignedDict, h, List.append_nil]
  rfl

theorem shown_some {level : AssuranceLevel} (h : frame.assuranceLevel = some level) :
    (Json.obj frame.unsignedDict).shown frame.signedNames =
      .obj [("assurance_level", .str level.wire),
        ("metadata", frame.metadata.shown frame.signedNames), ("nid", .str frame.nid),
        ("pub_key", .str frame.pubKey)] := by
  rw [signedNames_some h]
  simp only [IdentFrame.unsignedDict, h]
  rfl

theorem canonicalJson_eq_iff {f g : IdentFrame} :
    canonicalJson f.unsignedDict = canonicalJson g.unsignedDict ↔
      f.nid = g.nid ∧ f.pubKey = g.pubKey ∧ f.assuranceLevel = g.assuranceLevel ∧
        f.metadata.stringify f.signedNames = g.metadata.stringify f.signedNames := by
  have htext : canonicalJson f.unsignedDict = canonicalJson g.unsignedDict ↔
      (Json.obj f.unsignedDict).shown f.signedNames =
        (Json.obj g.unsignedDict).shown g.signedNames := Json.text_injective.eq_iff
  have hmeta : f.metadata.stringify f.signedNames = g.metadata.stringify f.signedNames ↔
      f.metadata.shown f.signedNames = g.metadata.shown f.signedNames :=
    Json.text_injective.eq_iff
  rw [htext, hmeta]
  cases hf : f.assuranceLevel with
  | none =>
    cases hg : g.assuranceLevel with
    | none =>
      have hn : g.signedNames = f.signedNames := by rw [signedNames_none hf, signedNames_none hg]
      rw [shown_none hf, shown_none hg, hn]
      simp only [Json.obj.injEq, List.cons.injEq, Prod.mk.injEq, Json.str.injEq, true_and, and_true]
      tauto
    | some level =>
      rw [shown_none hf, shown_some hg]
      simp
  | some level =>
    cases hg : g.assuranceLevel with
    | none =>
      rw [shown_some hf, shown_none hg]
      simp
    | some level' =>
      have hn : g.signedNames = f.signedNames := by rw [signedNames_some hf, signedNames_some hg]
      rw [shown_some hf, shown_some hg, hn]
      simp only [Json.obj.injEq, List.cons.injEq, Prod.mk.injEq, Json.str.injEq, true_and, and_true,
        AssuranceLevel.wire_injective.eq_iff, Option.some.injEq]
      tauto

end NpsSdk.Nip
