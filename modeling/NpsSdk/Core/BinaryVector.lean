import NpsSdk.Lib.StringToNumber
import NpsSdk.Lib.MsgPack

/-!
# Payloads with a vector

`core/codecs/tier3-binary-vector-codec.ts`: the metadata of a payload in MessagePack, and the vector of its vector
search as 32-bit floats.  A member `__proto__` of an object that is copied becomes the prototype of the copy: here the
copy keeps it under that name, and properties are looked up through it.
-/

namespace NpsSdk.Core.BinaryVector

open NpsSdk.Lib

/-- What a view stores for a number in four bytes, and what it reads there. -/
structure DataView where
  setFloat32 : JsNumber → Bytes
  getFloat32 : Bytes → JsNum
  length_setFloat32 (n : JsNumber) : (setFloat32 n).length = 4

def MAGIC : Bytes := [0x4e, 0x50, 0x42, 0x56]
def VERSION : UInt8 := 1
def PREFIX_SIZE : ℕ := 16
def MARKER_KEY : String := "$nps_binary_vector"

/-- `String(new Error(message))`. -/
def newError (message : String) : String := "Error: " ++ message

/-! ### Copies -/

mutual
def cloneMetadata : JsValue → JsValue
  | .arr items => .arr (cloneItems items)
  | .obj members => .obj (cloneMembers members)
  | v => v
def cloneItems : List JsValue → List JsValue
  | [] => []
  | v :: vs => cloneMetadata v :: cloneItems vs
def cloneMembers : List (String × JsValue) → List (String × JsValue)
  | [] => []
  | (k, v) :: ms =>
    if k = "__proto__" then
      -- the assignment sets the prototype; what is no object has no property to inherit
      match v with
      | .obj members => (k, .obj (cloneMembers members)) :: cloneMembers ms
      | _ => cloneMembers ms
    else (k, cloneMetadata v) :: cloneMembers ms
end

mutual
/-- The members that a copy has of its own, which are those that are written. -/
def own : JsValue → JsValue
  | .arr items => .arr (ownItems items)
  | .obj members => .obj (ownMembers members)
  | v => v
def ownItems : List JsValue → List JsValue
  | [] => []
  | v :: vs => own v :: ownItems vs
def ownMembers : List (String × JsValue) → List (String × JsValue)
  | [] => []
  | (k, v) :: ms => if k = "__proto__" then ownMembers ms else (k, own v) :: ownMembers ms
end

mutual
/-- A property of a copy, its own or inherited. -/
def property (key : String) : JsValue → Option JsValue
  | .obj members => (JsMap.find key members).or (inherited key members)
  | _ => none
def inherited (key : String) : List (String × JsValue) → Option JsValue
  | [] => none
  | (k, v) :: ms => if k = "__proto__" then property key v else inherited key ms
end

mutual
/-- A copy with another value where a property is found. -/
def withProperty (key : String) (value : JsValue) : JsValue → JsValue
  | .obj members =>
    if (JsMap.find key members).isSome then .obj (JsMap.upsert key value members)
    else .obj (withInherited key value members)
  | v => v
def withInherited (key : String) (value : JsValue) : List (String × JsValue) → List (String × JsValue)
  | [] => []
  | (k, v) :: ms =>
    if k = "__proto__" then (k, withProperty key value v) :: ms else (k, v) :: withInherited key value ms
end

/-! ### Encoding -/

def number (n : ℕ) : JsValue := .num (.finite (.ofNat n))

def marker (index dim : ℕ) : JsValue :=
  .obj [(MARKER_KEY, number index), ("dtype", .str "float32"), ("dim", number dim)]

/-- The items, if all of them are finite numbers. -/
def finiteNumbers : List JsValue → Option (List JsNumber)
  | [] => some []
  | .num (.finite n) :: vs => (finiteNumbers vs).map (n :: ·)
  | _ :: _ => none

def extractVectorSearchVector (metadata : JsValue) (vectors : List (List JsNumber)) :
    JsValue × List (List JsNumber) :=
  match property "vector_search" metadata with
  | some (.obj vectorSearch) => match property "vector" (.obj vectorSearch) with
    | some (.arr items) => match finiteNumbers items with
      | some vector =>
        (withProperty "vector_search"
          (.obj (JsMap.upsert "vector" (marker vectors.length vector.length) vectorSearch)) metadata,
          vectors ++ [vector])
      | none => (metadata, vectors)
    | _ => (metadata, vectors)
  | _ => (metadata, vectors)

variable (msgpack : MsgPack) (view : DataView)

def segment (vector : List JsNumber) : Bytes := beBytes 4 vector.length ++ vector.flatMap view.setFloat32

def frameOf (metadataBytes : Bytes) (vectors : List (List JsNumber)) : Bytes :=
  MAGIC ++ VERSION :: 0 :: (beBytes 2 vectors.length ++ (beBytes 4 metadataBytes.length ++
    (beBytes 4 0 ++ (metadataBytes ++ vectors.flatMap (segment view)))))

def encodeBinaryVectorPayload (payload : JsValue) : Except String Bytes :=
  match cloneMetadata payload with
  | .obj members =>
    let (metadata, vectors) := extractVectorSearchVector (.obj members) []
    if 0xffff < vectors.length then
      .error (newError "Tier-3 BinaryVector supports at most 65535 vectors per frame.")
    else match msgpack.encode (own metadata) with
      | .ok metadataBytes => .ok (frameOf view metadataBytes vectors)
      | .error err => .error err
  | _ => .error (newError "Tier-3 BinaryVector metadata root must be an object.")

/-! ### Decoding -/

/-- So many numbers of four bytes each. -/
def readFloats : ℕ → Bytes → List JsNum
  | 0, _ => []
  | dim + 1, bytes => view.getFloat32 (bytes.take 4) :: readFloats dim (bytes.drop 4)

/-- So many vectors, and the bytes after them. -/
def readVectors : ℕ → Bytes → Except String (List (List JsNum) × Bytes)
  | 0, bytes => .ok ([], bytes)
  | count + 1, bytes =>
    if bytes.length < 4 then .error (newError "Tier-3 BinaryVector vector segment missing dimension.")
    else
      let dim := getUint 4 0 bytes
      let segments := bytes.drop 4
      if segments.length < dim * 4 then .error (newError "Tier-3 BinaryVector vector segment is truncated.")
      else match readVectors count (segments.drop (dim * 4)) with
        | .ok (vectors, rest) => .ok (readFloats view dim segments :: vectors, rest)
        | .error err => .error err

def wholeNumber (key : String) (members : List (String × JsValue)) : Option (JsNumber × ℤ) :=
  match JsMap.find key members with
  | some (.num (.finite n)) => match n.value with
    | .fin q => if q.den = 1 then some (n, q.num) else none
    | _ => none
  | _ => none

def noVector (index : JsNumber) (count : ℕ) : String :=
  newError ("Tier-3 BinaryVector marker references vector " ++ String.ofList index.text ++ ", but only " ++
    toString count ++ " vectors are present.")

def restoreVectorSearchVector (metadata : List (String × JsValue)) (vectors : List (List JsNum)) :
    Except String JsValue :=
  match JsMap.find "vector_search" metadata with
  | some (.obj vectorSearch) => match JsMap.find "vector" vectorSearch with
    | none => .ok (.obj metadata)
    | some (.obj marker) => match wholeNumber MARKER_KEY marker with
      | none => .error (newError "Tier-3 BinaryVector marker missing vector index.")
      | some (n, index) =>
        if index < 0 then .error (noVector n vectors.length)
        else match vectors[index.toNat]? with
          | none => .error (noVector n vectors.length)
          | some vector =>
            if JsMap.find "dtype" marker ≠ some (.str "float32") then
              .error (newError "Tier-3 BinaryVector v1 only supports dtype=float32.")
            else if (wholeNumber "dim" marker).map Prod.snd ≠ some (vector.length : ℤ) then
              .error (newError "Tier-3 BinaryVector marker dimension does not match vector segment.")
            else .ok (.obj (JsMap.upsert "vector_search"
              (.obj (JsMap.upsert "vector" (.arr (vector.map .num)) vectorSearch)) metadata))
    | some _ => .error (newError "Tier-3 BinaryVector marker must be an object.")
  | _ => .ok (.obj metadata)

def decodeBinaryVectorPayload (bytes : Bytes) : Except String JsValue :=
  if bytes.length < PREFIX_SIZE then
    .error (newError ("Tier-3 BinaryVector payload too short: " ++ toString bytes.length ++ " bytes."))
  else if bytes.take 4 ≠ MAGIC then .error (newError "Tier-3 BinaryVector payload magic mismatch.")
  else if bytes.getD 4 0 ≠ VERSION then
    .error (newError ("Unsupported Tier-3 BinaryVector version: " ++ toString (bytes.getD 4 0) ++ "."))
  else if bytes.getD 5 0 ≠ 0 ∨ getUint 4 12 bytes ≠ 0 then
    .error (newError "Tier-3 BinaryVector reserved fields must be zero.")
  else
    let vectorCount := getUint 2 6 bytes
    let metadataLength := getUint 4 8 bytes
    if bytes.length - PREFIX_SIZE < metadataLength then
      .error (newError "Tier-3 BinaryVector metadata length exceeds payload length.")
    else match msgpack.decode ((bytes.drop PREFIX_SIZE).take metadataLength) with
      | .error err => .error err
      | .ok (.obj metadata) => match readVectors view vectorCount (bytes.drop (PREFIX_SIZE + metadataLength)) with
        | .error err => .error err
        | .ok (vectors, rest) =>
          if rest ≠ [] then .error (newError "Tier-3 BinaryVector payload has trailing bytes.")
          else restoreVectorSearchVector metadata vectors
      | .ok _ => .error (newError "Tier-3 BinaryVector metadata root must be a map.")

/-- `decodeBinaryVectorPayload` after the prefix. -/
def decodeBody (metadataBytes : Bytes) (vectorCount : ℕ) (segments : Bytes) : Except String JsValue :=
  match msgpack.decode metadataBytes with
  | .error err => .error err
  | .ok (.obj metadata) => match readVectors view vectorCount segments with
    | .error err => .error err
    | .ok (vectors, rest) =>
      if rest ≠ [] then .error (newError "Tier-3 BinaryVector payload has trailing bytes.")
      else restoreVectorSearchVector metadata vectors
  | .ok _ => .error (newError "Tier-3 BinaryVector metadata root must be a map.")

end NpsSdk.Core.BinaryVector
