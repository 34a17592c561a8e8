import NpsSdk.Lib.Buffer
import NpsSdk.Lib.JsDouble
import NpsSdk.Lib.JsMap
import NpsSdk.Lib.JsString

/-!
# The bytes of an invocation context

Decoding a projection from its one carrier, checking its signature, and the digest of a request.
-/

namespace NpsSdk.Alpha20

open NpsSdk.Lib

/-- A value read from JSON text, its numbers by value. -/
inductive JsonValue
  | null
  | bool (b : Bool)
  | num (n : JsDouble)
  | str (s : String)
  | arr (items : List JsonValue)
  | obj (members : List (String × JsonValue))

/-- The members of an object, no name twice. -/
abbrev JsonObject := List (String × JsonValue)

/-- What an admission fails with: an admission error, a format error, or another one. -/
inductive Failure
  | admission (code : String)
  | format
  | other

structure KeyObject where
  type : String
  asymmetricKeyType : Option String
  spki : List UInt8

inductive PathPart
  | key (name : String)
  | index (i : ℕ)

/-- What the functions use of the JSON reader and of other packages. -/
structure Host where
  /-- `parseStrictJson(raw, maxBytes, decimalIntegerPaths)`; nothing where it throws. -/
  parseStrictJson : String → ℕ → List (List PathPart) → Option JsonValue
  /-- `jcsStringify`; nothing where it throws. -/
  jcsStringify : JsonValue → Option String
  /-- `verify(null, message, key, signature)`; nothing where it throws. -/
  verify : ByteArray → KeyObject → List UInt8 → Option Bool
  /-- The hexadecimal SHA-256 digest of some bytes. -/
  sha256 : ByteArray → String

variable (host : Host)

def base64url (raw : String) (maximum : ℕ) : Except Failure (List UInt8) :=
  if maximum < utf16Length raw ∨ raw = "" ∨ ¬ raw.toList.all isBase64urlChar then .error .format
  else
    let bytes := bytesOfBase64 raw.toList
    if base64urlOfBytes bytes ≠ raw.toList then .error .format else .ok bytes

structure UnadmittedProjection where
  payload : JsonObject
  signature : String

def PROJECTION_INTEGERS : List (List PathPart) :=
  [[.key "payload", .key "revision"], [.key "payload", .key "issued_at"],
    [.key "payload", .key "expires_at"]]

def projectionOf : Option JsonValue → Except Failure UnadmittedProjection
  | some (.obj envelope) =>
    match envelope.length, JsMap.find "payload" envelope, JsMap.find "signature" envelope with
    | 2, some (.obj payload), some (.str signature) => do
      let bytes ← base64url signature 86
      if bytes.length = 64 then .ok { payload, signature } else .error .format
    | _, _, _ => .error .format
  | _ => .error .format

def decodeProjectionBytes : List String → Except Failure UnadmittedProjection
  | [carrier] => do
    let bytes ← base64url carrier 21846
    if 16384 < bytes.length then .error .format
    else match String.fromUTF8? ⟨bytes.toArray⟩ with
      | none => .error .format
      | some raw => projectionOf (host.parseStrictJson raw 16384 PROJECTION_INTEGERS)
  | _ => .error .format

def checkProjectionSignature (projection : UnadmittedProjection) (configuredKey : KeyObject) : Bool :=
  if configuredKey.type ≠ "public" ∨ configuredKey.asymmetricKeyType ≠ some "ed25519" then false
  else match host.jcsStringify (.obj projection.payload), base64url projection.signature 86 with
    | some payload, .ok signature =>
      (host.verify ("NPS-CONTEXT-PROJECTION/1\x00" ++ payload).toUTF8 configuredKey signature).getD false
    | _, _ => false

structure RequestDigest where
  value : JsonObject
  digest : String

def REQUEST_INTEGERS : List (List PathPart) :=
  (List.range 32).map fun index => [.key "required_features", .index index, .key "revision"]

def requestDigestBytes (raw : String) : Except Failure RequestDigest :=
  match host.parseStrictJson raw 1048576 REQUEST_INTEGERS with
  | some (.obj value) =>
    match host.jcsStringify (.obj value) with
    | none => .error .other
    | some canonical =>
      if 1048576 < canonical.utf8ByteSize then .error .format
      else .ok { value, digest := "sha256:" ++ host.sha256 ("NPS-INVOKE-REQUEST/1\x00" ++ canonical).toUTF8 }
  | _ => .error .format

end NpsSdk.Alpha20
