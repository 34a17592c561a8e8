import NpsSdk.Lib.Buffer
import NpsSdk.Lib.JsonReplacer
import NpsSdk.Ndp.AnnounceFrame

/-!
# NDP error codes
-/

namespace NpsSdk.Ndp

def NDP_ANNOUNCE_CONFLICT : String := "NDP-ANNOUNCE-CONFLICT"
def NDP_ANNOUNCE_NID_MISMATCH : String := "NDP-ANNOUNCE-NID-MISMATCH"
def NDP_ANNOUNCE_PROFILE_VIOLATION : String := "NDP-ANNOUNCE-PROFILE-VIOLATION"
def NDP_ANNOUNCE_SIGNATURE_INVALID : String := "NDP-ANNOUNCE-SIGNATURE-INVALID"
def NDP_ANNOUNCE_STALE : String := "NDP-ANNOUNCE-STALE"
def NDP_CLUSTER_SPLIT : String := "NDP-CLUSTER-SPLIT"
def NDP_GRAPH_SEQ_ROLLBACK : String := "NDP-GRAPH-SEQ-ROLLBACK"

/-!
## Validation of an announce

`NdpAnnounceValidator.validate`: a signature over the canonical body under a base64url key, or else,
in the legacy form, over a text that writes every object through the names of the signed dictionary
under a hexadecimal key.
-/

open NpsSdk.Lib

structure NdpAnnounceResult where
  isValid : Bool
  errorCode : Option String := none
  message : Option String := none

def NdpAnnounceResult.ok : NdpAnnounceResult := { isValid := true }

def NdpAnnounceResult.fail (errorCode message : String) : NdpAnnounceResult :=
  { isValid := false, errorCode := some errorCode, message := some message }

/-- The two implementations of Ed25519 that are used. -/
structure Crypto where
  /-- `verify` of the host, on a message, the bytes of a key and a signature; false if it throws. -/
  verify : ByteArray → List UInt8 → List UInt8 → Bool
  /-- `ed25519.verify`, on a signature, a message and the bytes of a key; nothing if it throws. -/
  ed25519Verify : List UInt8 → ByteArray → List UInt8 → Option Bool

def ED25519 : String := "ed25519:"

/-- The text after the name of the scheme. -/
def bodyOf (encoded : String) : List Char := encoded.toList.drop ED25519.length

def verifyAnnounceSignature (crypto : Crypto) (frame : RawFrame)
    (encodedPublicKey encodedSignature : String) : Bool :=
  if ¬ startsWith encodedPublicKey ED25519 ∨ ¬ startsWith encodedSignature ED25519 then false
  else
    let raw := bytesOfBase64 (bodyOf encodedPublicKey)
    if raw.length ≠ 32 then false
    else
      crypto.verify (canonicalAnnounceJson frame).toUTF8 raw (bytesOfBase64 (bodyOf encodedSignature))

def legacyKey (encoded : String) : List UInt8 :=
  bytesOfHex (if startsWith encoded ED25519 then bodyOf encoded else encoded.toList)

/-- The text that is signed in the legacy form. -/
def legacyJson (frame : AnnounceFrame) : String :=
  let unsigned := frame.unsignedDict
  String.ofList (Json.stringify (sortKeys (unsigned.map Prod.fst)) (JsValue.obj unsigned).json)

/-- `keys` holds the registered key of each NID. -/
def validate (crypto : Crypto) (keys : JsMap String String) (frame : AnnounceFrame) :
    NdpAnnounceResult :=
  match keys.get frame.nid with
  | none =>
    .fail NDP_ANNOUNCE_NID_MISMATCH ("No public key registered for NID: " ++ frame.nid)
  | some encoded =>
    if verifyAnnounceSignature crypto frame.toDict encoded frame.signature then .ok
    else
      let pubKey := legacyKey encoded
      if ¬ startsWith frame.signature ED25519 then
        .fail NDP_ANNOUNCE_SIGNATURE_INVALID "Signature must start with 'ed25519:'"
      else
        let sigBytes := bytesOfBase64 (bodyOf frame.signature)
        match crypto.ed25519Verify sigBytes (legacyJson frame).toUTF8 pubKey with
        | some true => .ok
        | _ => .fail NDP_ANNOUNCE_SIGNATURE_INVALID "Ed25519 signature verification failed."

theorem verified_of_valid {crypto : Crypto} {keys : JsMap String String} {frame : AnnounceFrame}
    {key : String} (hkey : keys.get frame.nid = some key) (hvalid : (validate crypto keys frame).isValid = true) :
    ((bytesOfBase64 (bodyOf key)).length = 32 ∧ startsWith key ED25519 = true ∧
      crypto.verify (canonicalAnnounceJson frame.toDict).toUTF8 (bytesOfBase64 (bodyOf key))
        (bytesOfBase64 (bodyOf frame.signature)) = true) ∨
    crypto.ed25519Verify (bytesOfBase64 (bodyOf frame.signature)) (legacyJson frame).toUTF8
      (legacyKey key) = some true := by
  simp only [validate, hkey] at hvalid
  split at hvalid
  · rename_i hcanonical
    left
    unfold verifyAnnounceSignature at hcanonical
    split at hcanonical
    · cases hcanonical
    · rename_i hstart
      dsimp only at hcanonical
      split at hcanonical
      · cases hcanonical
      · rename_i hlength
        rw [not_or, not_not, not_not] at hstart
        exact ⟨not_not.1 hlength, hstart.1, hcanonical⟩
  · right
    split at hvalid
    · cases hvalid
    · split at hvalid
      · assumption
      · cases hvalid

/-! ### What both texts write -/

/-- A way of writing values that leaves scalars and arrays of strings as they are. -/
structure Plain (write : JsValue → Json) : Prop where
  str : ∀ s, write (.str s) = .str s
  num : ∀ n, write (.num n) = n.json
  strings : ∀ items, write (.strings items) = (JsValue.strings items).json

theorem plain_sorted : Plain fun v => (sortObject v).json where
  str _ := rfl
  num _ := rfl
  strings items := by
    have hsort : sortObject (.strings items) = .strings items := by
      simp only [JsValue.strings, sortObject, sortObjectItems_eq, List.map_map]
      rfl
    rw [hsort]

theorem plain_shown (names : List String) : Plain fun v => Json.shown names v.json where
  str _ := rfl
  num n := by cases n <;> rfl
  strings items := by
    simp only [JsValue.strings, JsValue.json, JsValue.jsonItems_eq, Json.shown, Json.shownItems_eq, List.map_map]
    rfl

variable {f g : AnnounceFrame} {write write' : JsValue → Json}

theorem option_eq_of_map {α β : Type*} {o o' : Option α} {p q : α → β} (h : o.map p = o'.map q)
    (hinj : ∀ a b, p a = q b → a = b) : o = o' := by
  cases o <;> cases o' <;> simp only [Option.map_none, Option.map_some, reduceCtorEq, Option.some.injEq] at h ⊢
  exact hinj _ _ h

/-- The same members are written for two frames. -/
def SameWritten (f g : AnnounceFrame) (write write' : JsValue → Json) : Prop :=
  ∀ k, (JsMap.find k f.unsignedDict).map write = (JsMap.find k g.unsignedDict).map write'

theorem SameWritten.field (h : SameWritten f g write write') (k : String) :
    (JsMap.find k f.unsignedFields).join.map write = (JsMap.find k g.unsignedFields).join.map write' := by
  rw [← AnnounceFrame.find_unsigned, ← AnnounceFrame.find_unsigned]
  exact h k

variable (hw : Plain write) (hw' : Plain write')
include hw hw'

theorem str_eq {o o' : Option String} (h : (o.map JsValue.str).map write = (o'.map .str).map write') : o = o' := by
  rw [Option.map_map, Option.map_map] at h
  refine option_eq_of_map h fun a b hab => ?_
  simpa only [Function.comp, hw.str, hw'.str, Json.str.injEq] using hab

theorem strings_eq {o o' : Option (List String)}
    (h : (o.map JsValue.strings).map write = (o'.map .strings).map write') : o = o' := by
  rw [Option.map_map, Option.map_map] at h
  refine option_eq_of_map h fun a b hab => JsValue.json_strings_injective ?_
  simpa only [Function.comp, hw.strings, hw'.strings] using hab

theorem num_eq {o o' : Option JsNum} (h : (o.map JsValue.num).map write = (o'.map .num).map write')
    (hfin : ∀ a b, o = some a → o' = some b → a.isFinite = false → b.isFinite = false → a = b) : o = o' := by
  rw [Option.map_map, Option.map_map] at h
  cases ho : o with
  | none => cases ho' : o' <;> simp_all
  | some a =>
    cases ho' : o' with
    | none => simp_all
    | some b =>
      simp only [ho, ho', Option.map_some, Function.comp, hw.num, hw'.num, Option.some.injEq] at h
      rw [JsNum.eq_of_json h (hfin a b ho ho')]

omit hw hw'

end NpsSdk.Ndp
