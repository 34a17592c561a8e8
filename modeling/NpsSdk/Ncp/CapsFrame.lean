import NpsSdk.Lib.JsMap
import NpsSdk.Lib.Except
import NpsSdk.Ncp.Session

/-!
# The frame of capabilities

How a server writes what was negotiated, and how a client reads it.
-/

namespace NpsSdk.Ncp

open NpsSdk.Lib

/-- A value that a frame holds. -/
inductive WireValue
  | null
  | bool (b : Bool)
  | num (n : JsDouble)
  | str (s : String)
  | arr (items : List WireValue)
  | obj (members : List (String × WireValue))

namespace WireValue

mutual
/-- `JSON.parse(JSON.stringify(v))`: numbers that are not finite are written as `null`. -/
def jsonWritten : WireValue → WireValue
  | .null => .null
  | .bool b => .bool b
  | .num n => match n with
    | .fin q => .num (.fin q)
    | _ => .null
  | .str s => .str s
  | .arr items => .arr (jsonWrittenItems items)
  | .obj members => .obj (jsonWrittenMembers members)
def jsonWrittenItems : List WireValue → List WireValue
  | [] => []
  | v :: vs => jsonWritten v :: jsonWrittenItems vs
def jsonWrittenMembers : List (String × WireValue) → List (String × WireValue)
  | [] => []
  | (k, v) :: ms => (k, jsonWritten v) :: jsonWrittenMembers ms
end

mutual
/-- No object has a member named `__proto__`, which MessagePack does not read. -/
def noProto : WireValue → Bool
  | .arr items => noProtoItems items
  | .obj members => noProtoMembers members
  | _ => true
def noProtoItems : List WireValue → Bool
  | [] => true
  | v :: vs => noProto v && noProtoItems vs
def noProtoMembers : List (String × WireValue) → Bool
  | [] => true
  | (k, v) :: ms => k ≠ "__proto__" && noProto v && noProtoMembers ms
end

def strings (items : List String) : WireValue := .arr (items.map .str)

/-- `value ?? null`. -/
def orNull {α : Type} (f : α → WireValue) (value : Option α) : WireValue := (value.map f).getD .null

/-- The member of a dictionary; nothing for `null` or a member that is missing. -/
def field (dict : WireValue) (name : String) : Option WireValue :=
  match dict with
  | .obj members => match JsMap.find name members with
    | some .null => none
    | v => v
  | _ => none

/-! A member of another type than its frame declares is no member of such a frame. -/

def stringField (dict : WireValue) (name : String) : Except String (Option String) :=
  match dict.field name with
  | none => .ok none
  | some (.str s) => .ok (some s)
  | some _ => .error name

def requiredString (dict : WireValue) (name : String) : Except String String :=
  match dict.field name with
  | some (.str s) => .ok s
  | _ => .error name

def numberField (dict : WireValue) (name : String) : Except String (Option JsDouble) :=
  match dict.field name with
  | none => .ok none
  | some (.num n) => .ok (some n)
  | some _ => .error name

def boolField (dict : WireValue) (name : String) : Except String (Option Bool) :=
  match dict.field name with
  | none => .ok none
  | some (.bool b) => .ok (some b)
  | some _ => .error name

/-- The strings of an array. -/
def stringItems : List WireValue → Option (List String)
  | [] => some []
  | .str s :: vs => (stringItems vs).map (s :: ·)
  | _ => none

def stringsField (dict : WireValue) (name : String) : Except String (Option (List String)) :=
  match dict.field name with
  | none => .ok none
  | some (.arr items) => match stringItems items with
    | some strings => .ok (some strings)
    | none => .error name
  | some _ => .error name

end WireValue

open WireValue

namespace NcpHandshakeCapsFrame

def toDict (f : NcpHandshakeCapsFrame WireValue) : WireValue := .obj
  [("node_id", .str f.nodeId),
    ("caps", strings f.caps),
    ("negotiated_encoding", orNull .str f.negotiatedEncoding),
    ("enabled_encodings", orNull strings f.enabledEncodings),
    ("session_version", orNull .str f.sessionVersion),
    ("supported_protocols", orNull strings f.supportedProtocols),
    ("max_frame_payload", orNull .num f.maxFramePayload),
    ("ext_support", orNull .bool f.extSupport),
    ("max_concurrent_streams", orNull .num f.maxConcurrentStreams),
    ("anchor_ref", orNull .str f.anchorRef),
    ("payload", orNull id f.payload)]

def fromDict (data : WireValue) : Except String (NcpHandshakeCapsFrame WireValue) := do
  let nodeId ← data.requiredString "node_id"
  let caps ← data.stringsField "caps"
  let negotiatedEncoding ← data.stringField "negotiated_encoding"
  let enabledEncodings ← data.stringsField "enabled_encodings"
  let anchorRef ← data.stringField "anchor_ref"
  let sessionVersion ← data.stringField "session_version"
  let supportedProtocols ← data.stringsField "supported_protocols"
  let maxFramePayload ← data.numberField "max_frame_payload"
  let extSupport ← data.boolField "ext_support"
  let maxConcurrentStreams ← data.numberField "max_concurrent_streams"
  .ok
    { nodeId, caps := caps.getD [], negotiatedEncoding, enabledEncodings, anchorRef
      payload := data.field "payload"
      sessionVersion, supportedProtocols, maxFramePayload, extSupport, maxConcurrentStreams }

end NcpHandshakeCapsFrame

/-- `ErrorFrame.fromDict`: its error and its message. -/
def errorFromDict (data : WireValue) : Except String (String × Option String) := do
  let error ← data.requiredString "error"
  let message ← data.stringField "message"
  .ok (error, message)

def handshakeFrames : HandshakeFrames WireValue where
  toDict := NcpHandshakeCapsFrame.toDict
  fromDict := NcpHandshakeCapsFrame.fromDict
  errorFromDict := errorFromDict

/-! ### What is read of what was written -/

theorem stringItems_strings (items : List String) : stringItems (items.map .str) = some items := by
  induction items with
  | nil => rfl
  | cons s items ih => rw [List.map_cons, stringItems, ih, Option.map_some]

theorem jsonWritten_strings (items : List String) : jsonWritten (strings items) = strings items := by
  rw [strings, jsonWritten]
  congr 1
  induction items with
  | nil => rfl
  | cons s items ih => rw [List.map_cons, jsonWrittenItems, ih, jsonWritten]

/-- A number that JSON writes as a number. -/
def finiteOnly (n : Option JsDouble) : Option JsDouble :=
  n.bind fun
    | .fin q => some (.fin q)
    | _ => none

section

variable {members : List (String × WireValue)} {name : String}

theorem find_jsonWrittenMembers : JsMap.find name (jsonWrittenMembers members) =
    (JsMap.find name members).map jsonWritten := by
  induction members with
  | nil => rfl
  | cons m ms ih =>
    obtain ⟨k, v⟩ := m
    rw [jsonWrittenMembers, JsMap.find, JsMap.find]
    split
    · rfl
    · exact ih

/-- A dictionary as the tier delivers it. -/
def arrived (json : Bool) (v : WireValue) : WireValue := if json then jsonWritten v else v

theorem field_arrived (json : Bool) (h : ∃ v, JsMap.find name members = some v) :
    field (arrived json (.obj members)) name = match JsMap.find name members with
      | some v => match arrived json v with
        | .null => none
        | v => some v
      | none => none := by
  obtain ⟨v, hv⟩ := h
  cases json with
  | false =>
    rw [hv]
    show (match JsMap.find name members with | some .null => none | v => v) = _
    rw [hv]
    cases v <;> rfl
  | true =>
    rw [hv]
    show (match JsMap.find name (jsonWrittenMembers members) with | some .null => none | v => v) = _
    rw [find_jsonWrittenMembers, hv]
    show (match some (jsonWritten v) with | some .null => none | v => v) =
      match jsonWritten v with | .null => none | v => some v
    cases jsonWritten v <;> rfl

theorem requiredString_arrived (json : Bool) {s : String} (h : JsMap.find name members = some (.str s)) :
    requiredString (arrived json (.obj members)) name = .ok s := by
  rw [requiredString, field_arrived json ⟨_, h⟩, h]
  cases json <;> rfl

theorem stringField_arrived (json : Bool) {o : Option String} (h : JsMap.find name members = some (orNull .str o)) :
    stringField (arrived json (.obj members)) name = .ok o := by
  rw [stringField, field_arrived json ⟨_, h⟩, h]
  cases json <;> cases o <;> rfl

theorem boolField_arrived (json : Bool) {o : Option Bool} (h : JsMap.find name members = some (orNull .bool o)) :
    boolField (arrived json (.obj members)) name = .ok o := by
  rw [boolField, field_arrived json ⟨_, h⟩, h]
  cases json <;> cases o <;> rfl

theorem numberField_arrived (json : Bool) {o : Option JsDouble}
    (h : JsMap.find name members = some (orNull .num o)) :
    numberField (arrived json (.obj members)) name = .ok (if json then finiteOnly o else o) := by
  rw [numberField, field_arrived json ⟨_, h⟩, h]
  cases json with
  | false => cases o <;> rfl
  | true =>
    rcases o with _ | (_ | _ | _ | _) <;> rfl

theorem stringsField_arrived (json : Bool) {o : Option (List String)}
    (h : JsMap.find name members = some (orNull strings o)) :
    stringsField (arrived json (.obj members)) name = .ok o := by
  rw [stringsField, field_arrived json ⟨_, h⟩, h]
  cases o with
  | none => cases json <;> rfl
  | some items =>
    have harrived : arrived json (orNull strings (some items)) = .arr (items.map .str) := by
      cases json with
      | false => rfl
      | true => exact jsonWritten_strings items
    dsimp only
    rw [harrived]
    dsimp only
    rw [stringItems_strings]

end

/-- **What a client reads** of a frame that arrives. -/
theorem fromDict_arrived (json : Bool) (f : NcpHandshakeCapsFrame WireValue) :
    ∃ payload, NcpHandshakeCapsFrame.fromDict (arrived json f.toDict) = .ok
      { f with
        payload
        maxFramePayload := if json then finiteOnly f.maxFramePayload else f.maxFramePayload
        maxConcurrentStreams :=
          if json then finiteOnly f.maxConcurrentStreams else f.maxConcurrentStreams } := by
  unfold NcpHandshakeCapsFrame.fromDict NcpHandshakeCapsFrame.toDict
  rw [requiredString_arrived json (s := f.nodeId) rfl, stringsField_arrived json (o := some f.caps) rfl,
    stringField_arrived json (o := f.negotiatedEncoding) rfl,
    stringsField_arrived json (o := f.enabledEncodings) rfl, stringField_arrived json (o := f.anchorRef) rfl,
    stringField_arrived json (o := f.sessionVersion) rfl,
    stringsField_arrived json (o := f.supportedProtocols) rfl,
    numberField_arrived json (o := f.maxFramePayload) rfl, boolField_arrived json (o := f.extSupport) rfl,
    numberField_arrived json (o := f.maxConcurrentStreams) rfl]
  exact ⟨_, rfl⟩

end NpsSdk.Ncp
