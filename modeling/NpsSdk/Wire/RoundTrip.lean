import NpsSdk.Core.Codec
import NpsSdk.Lib.JsonReader
import NpsSdk.Wire.NcpFrames
import NpsSdk.Wire.NopFrames
import NpsSdk.Wire.NwpFrames

/-!
# Frames that are written and read

The frames of NCP, NWP and NOP, the registries that say which class reads which type, and the codec over them.

Every class writes alike what it reads of what it wrote.  A frame comes back as one of its own class where the
registry has that class for its type, and where the length of its payload fits a header.
-/

namespace NpsSdk.Wire

open NpsSdk.Lib NpsSdk.Core NpsSdk.Core.Frames

inductive FrameClass
  | anchor | diff | stream | caps | error | hello | handshakeCaps | nop
  | query | action
  | task | delegate | sync | alignStream
deriving DecidableEq

inductive Frame
  | anchor (f : AnchorFrame)
  | diff (f : DiffFrame)
  | stream (f : StreamFrame)
  | caps (f : CapsFrame)
  | error (f : ErrorFrame)
  | hello (f : HelloFrame)
  | handshakeCaps (f : NcpHandshakeCapsFrame)
  | nop
  | query (f : QueryFrame)
  | action (f : ActionFrame)
  | task (f : TaskFrame)
  | delegate (f : DelegateFrame)
  | sync (f : SyncFrame)
  | alignStream (f : AlignStreamFrame)

namespace FrameClass

def frameType : FrameClass → UInt8
  | .anchor => 0x01
  | .diff => 0x02
  | .stream => 0x03
  | .caps => 0x04
  | .error => 0xfe
  | .hello => 0x06
  | .handshakeCaps => 0x04
  | .nop => 0x07
  | .query => 0x10
  | .action => 0x11
  | .task => 0x40
  | .delegate => 0x41
  | .sync => 0x42
  | .alignStream => 0x43

def preferredTier : FrameClass → EncodingTier
  | .hello | .handshakeCaps | .nop => .json
  | _ => .msgPack

def fromDict (c : FrameClass) (data : Dict) : Except String Frame :=
  match c with
  | .anchor => (AnchorFrame.fromDict data).map .anchor
  | .diff => (DiffFrame.fromDict data).map .diff
  | .stream => .ok (.stream (StreamFrame.fromDict data))
  | .caps => .ok (.caps (CapsFrame.fromDict data))
  | .error => .ok (.error (ErrorFrame.fromDict data))
  | .hello => (HelloFrame.fromDict data).map .hello
  | .handshakeCaps => (NcpHandshakeCapsFrame.fromDict data).map .handshakeCaps
  | .nop => .ok .nop
  | .query => (QueryFrame.fromDict data).map .query
  | .action => .ok (.action (ActionFrame.fromDict data))
  | .task => .ok (.task (TaskFrame.fromDict data))
  | .delegate => .ok (.delegate (DelegateFrame.fromDict data))
  | .sync => .ok (.sync (SyncFrame.fromDict data))
  | .alignStream => (AlignStreamFrame.fromDict data).map .alignStream

end FrameClass

namespace Frame

def frameClass : Frame → FrameClass
  | .anchor _ => .anchor
  | .diff _ => .diff
  | .stream _ => .stream
  | .caps _ => .caps
  | .error _ => .error
  | .hello _ => .hello
  | .handshakeCaps _ => .handshakeCaps
  | .nop => .nop
  | .query _ => .query
  | .action _ => .action
  | .task _ => .task
  | .delegate _ => .delegate
  | .sync _ => .sync
  | .alignStream _ => .alignStream

def toDict : Frame → Dict
  | .anchor f => f.toDict
  | .diff f => f.toDict
  | .stream f => f.toDict
  | .caps f => f.toDict
  | .error f => f.toDict
  | .hello f => f.toDict
  | .handshakeCaps f => f.toDict
  | .nop => []
  | .query f => f.toDict
  | .action f => f.toDict
  | .task f => f.toDict
  | .delegate f => f.toDict
  | .sync f => f.toDict
  | .alignStream f => f.toDict

/-- Only the frames of streams have `isLast`. -/
def isLast : Frame → Option Bool
  | .stream f => some (isTruthy f.isLast)
  | _ => none

/-- A frame as the codec sees it. -/
def toNpsFrame (f : Frame) : NpsFrame Dict where
  frameType := f.frameClass.frameType
  preferredTier := f.frameClass.preferredTier
  isLast := f.isLast
  toDict := f.toDict

end Frame

/-! ### Registries -/

section

variable (registry : JsMap UInt8 FrameClass)

def register (c : FrameClass) : JsMap UInt8 FrameClass := registry.set c.frameType c

def registerNcpFrames : JsMap UInt8 FrameClass :=
  [FrameClass.anchor, .diff, .stream, .caps, .hello, .error].foldl register registry

def registerNwpFrames : JsMap UInt8 FrameClass := [FrameClass.query, .action].foldl register registry

def registerNopFrames : JsMap UInt8 FrameClass :=
  [FrameClass.task, .delegate, .sync, .alignStream].foldl register registry

def buildHandshakeRegistry : JsMap UInt8 FrameClass := register (register .empty .handshakeCaps) .error

end

/-- A connection reads frames with one registry during the handshake, and with another one after it. -/
inductive Phase
  | handshake
  | session

namespace Phase

def registry : Phase → JsMap UInt8 FrameClass
  | .handshake => buildHandshakeRegistry
  | .session => registerNopFrames (registerNwpFrames (registerNcpFrames .empty))

def Reads : Phase → FrameClass → Prop
  | .handshake, c => c = .handshakeCaps ∨ c = .error
  | .session, c => c ≠ .handshakeCaps ∧ c ≠ .nop

theorem get_registry_iff (phase : Phase) (c : FrameClass) : phase.registry.get c.frameType = some c ↔ phase.Reads c := by
  cases phase <;> cases c <;> simp [Reads] <;> decide

/-- The registry as the codec sees it. -/
def frameRegistry (phase : Phase) : FrameRegistry Dict Frame := fun frameType =>
  (phase.registry.get frameType).map FrameClass.fromDict

end Phase

/-! ### Dictionaries -/

theorem map_of_settles {α : Type} {write : α → Dict} {read : Dict → Except String α} (hsettles : Settles write read)
    (frame : α → Frame) (a : α) : ∃ b, (read (write a)).map frame = .ok (frame b) ∧ write b = write a := by
  obtain ⟨b, hread, hwrite⟩ := hsettles a
  exact ⟨b, by rw [hread]; rfl, hwrite⟩

/-- **What a frame is written as** is read as a frame of its class, which is written alike. -/
theorem fromDict_toDict (f : Frame) :
    ∃ g, f.frameClass.fromDict f.toDict = .ok g ∧ g.frameClass = f.frameClass ∧ g.toDict = f.toDict := by
  cases f with
  | anchor f =>
    obtain ⟨g, hread, hwrite⟩ := map_of_settles AnchorFrame.settles .anchor f
    exact ⟨.anchor g, hread, rfl, hwrite⟩
  | diff f =>
    obtain ⟨g, hread, hwrite⟩ := map_of_settles DiffFrame.settles .diff f
    exact ⟨.diff g, hread, rfl, hwrite⟩
  | stream f => exact ⟨_, rfl, rfl, f.toDict_fromDict⟩
  | caps f => exact ⟨_, rfl, rfl, f.toDict_fromDict⟩
  | error f => exact ⟨_, rfl, rfl, f.toDict_fromDict⟩
  | hello f =>
    obtain ⟨g, hread, hwrite⟩ := map_of_settles HelloFrame.settles .hello f
    exact ⟨.hello g, hread, rfl, hwrite⟩
  | handshakeCaps f =>
    obtain ⟨g, hread, hwrite⟩ := map_of_settles NcpHandshakeCapsFrame.settles .handshakeCaps f
    exact ⟨.handshakeCaps g, hread, rfl, hwrite⟩
  | nop => exact ⟨_, rfl, rfl, rfl⟩
  | query f =>
    obtain ⟨g, hread, hwrite⟩ := map_of_settles QueryFrame.settles .query f
    exact ⟨.query g, hread, rfl, hwrite⟩
  | action f => exact ⟨_, rfl, rfl, f.toDict_fromDict⟩
  | task f => exact ⟨_, rfl, rfl, f.toDict_fromDict⟩
  | delegate f => exact ⟨_, rfl, rfl, f.toDict_fromDict⟩
  | sync f => exact ⟨_, rfl, rfl, f.toDict_fromDict⟩
  | alignStream f =>
    obtain ⟨g, hread, hwrite⟩ := map_of_settles AlignStreamFrame.settles .alignStream f
    exact ⟨.alignStream g, hread, rfl, hwrite⟩

theorem frameClass_map {α : Type} {frame : α → Frame} {c : FrameClass} {read : Except String α} {g : Frame}
    (h : read.map frame = .ok g) (hclass : ∀ a, (frame a).frameClass = c) : g.frameClass = c := by
  cases read with
  | error err => cases h
  | ok a =>
    rw [← Except.ok.inj h]
    exact hclass a

theorem frameClass_fromDict {c : FrameClass} {data : Dict} {g : Frame} (h : c.fromDict data = .ok g) :
    g.frameClass = c := by
  cases c with
  | anchor | diff | hello | handshakeCaps | query | alignStream => exact frameClass_map h fun _ => rfl
  | _ =>
    rw [← Except.ok.inj h]
    rfl

/-! ### The codec -/

def ReadBack (f : Frame) (answer : Except CodecError Frame) : Prop :=
  ∃ g, answer = .ok g ∧ g.frameClass = f.frameClass ∧ g.toDict = f.toDict

/-- What JSON and MessagePack do with a dictionary of values: it is read from what is written for it, and from no
part of that. -/
structure Inverse (payloads : Payloads Dict) (tier : EncodingTier) (dict : Dict) : Prop where
  reads {bytes : Bytes} (h : payloads.encode tier dict = .ok bytes) : payloads.decode tier bytes = .ok dict
  refuses {bytes : Bytes} {n : ℕ} (h : payloads.encode tier dict = .ok bytes) (hn : n < bytes.length) :
    ∃ err, payloads.decode tier (bytes.take n) = .error err

section

variable {payloads : Payloads Dict} {maxPayload : JsDouble} {phase : Phase} {f : Frame} {tier : EncodingTier}
  {payload : Bytes}

def reader (payloads : Payloads Dict) (phase : Phase) (maxPayload : JsDouble) : NpsFrameCodec Dict Frame :=
  ⟨payloads, phase.frameRegistry, maxPayload⟩

theorem readBack_whole (hread : payloads.decode tier payload = .ok f.toDict) :
    ReadBack f ((reader payloads phase maxPayload).decodePayload tier f.frameClass.frameType payload) ↔
      phase.Reads f.frameClass := by
  unfold NpsFrameCodec.decodePayload
  rw [← phase.get_registry_iff, show (reader payloads phase maxPayload).registry f.frameClass.frameType =
      (phase.registry.get f.frameClass.frameType).map FrameClass.fromDict from rfl]
  cases hclass : phase.registry.get f.frameClass.frameType with
  | none =>
    refine ⟨?_, nofun⟩
    rintro ⟨g, hg, -⟩
    cases hg
  | some c =>
    rw [Option.map_some]
    dsimp only
    rw [show (reader payloads phase maxPayload).payloads.decode tier payload >>= c.fromDict =
      c.fromDict f.toDict by rw [show (reader payloads phase maxPayload).payloads = payloads from rfl, hread]; rfl]
    constructor
    · rintro ⟨g, hg, hsame, -⟩
      cases hfrom : c.fromDict f.toDict with
      | error err =>
        rw [hfrom] at hg
        cases hg
      | ok g' =>
        rw [hfrom] at hg
        rw [← hsame, ← Except.ok.inj hg, frameClass_fromDict hfrom]
    · intro hsame
      cases hsame
      obtain ⟨g, hg, hclass, hdict⟩ := fromDict_toDict f
      exact ⟨g, by rw [hg], hclass, hdict⟩

theorem not_readBack_of_error {frameType : UInt8} (h : ∃ err, payloads.decode tier payload = .error err) :
    ¬ ReadBack f ((reader payloads phase maxPayload).decodePayload tier frameType payload) := by
  rintro ⟨g, hg, -⟩
  obtain ⟨err, herr⟩ := h
  unfold NpsFrameCodec.decodePayload at hg
  cases hregistry : (reader payloads phase maxPayload).registry frameType with
  | none =>
    rw [hregistry] at hg
    cases hg
  | some fromDict =>
    rw [hregistry] at hg
    dsimp only at hg
    rw [show (reader payloads phase maxPayload).payloads = payloads from rfl, herr] at hg
    cases hg

end

/-! ### JSON -/

/-- The members of a dictionary that are written. -/
def Dict.json (dict : Dict) : Json := .obj (dict.filterMap fun m => m.2.map (m.1, ·))

def asciiJson : Payloads Dict where
  encode
    | .json, dict => .ok ((Json.text dict.json).map fun c => UInt8.ofNat c.toNat)
    | _, _ => .error "not JSON"
  decode
    | .json, bytes => match Json.parse (bytes.map fun b => Char.ofNat b.toNat) with
      | some (.obj members) => .ok (members.map fun m => (m.1, some m.2))
      | _ => .error "SyntaxError"
    | _, _ => .error "not JSON"

/-- A text that says nothing but whether it is refused. -/
def isRefused (bytes : Bytes) : Bool := (Json.parse (bytes.map fun b => Char.ofNat b.toNat)).isNone

theorem decode_of_isRefused {bytes : Bytes} (h : isRefused bytes = true) :
    ∃ err, asciiJson.decode .json bytes = .error err := by
  refine ⟨"SyntaxError", ?_⟩
  unfold asciiJson
  dsimp only
  rw [Option.isNone_iff_eq_none.1 h]

theorem inverse_asciiJson {dict : Dict} (members : Members) (bytes : Bytes)
    (hdict : dict = members.map fun m => (m.1, some m.2))
    (hbytes : (Json.text dict.json).map (fun c => UInt8.ofNat c.toNat) = bytes)
    (hascii : bytes.map (fun b => Char.ofNat b.toNat) = Json.text dict.json)
    (hbuilt : Json.text (Json.built dict.json) = Json.text dict.json)
    (hcut : ∀ n < bytes.length, isRefused (bytes.take n) = true) : Inverse asciiJson .json dict where
  reads := by
    intro bytes' h
    have hsame : bytes = bytes' := hbytes.symm.trans (Except.ok.inj h)
    subst hsame
    have hmembers : dict.json = .obj members := by
      rw [hdict, Dict.json, List.filterMap_map]
      simp
    unfold asciiJson
    dsimp only
    rw [hascii, Json.parse_text, Json.text_injective hbuilt, hmembers, hdict]
  refuses := by
    intro bytes' n h hn
    have hsame : bytes = bytes' := hbytes.symm.trans (Except.ok.inj h)
    subst hsame
    exact decode_of_isRefused (hcut n hn)

/-! ### Frames that come back -/

variable {phase : Phase} {f : Frame} {overrideTier : Option EncodingTier} {wire : Bytes}

def refusal : Frame :=
  .error ⟨some (.str "NPS-CLIENT-NOT-FOUND"), some (.str "NWP-ACTION-NOT-FOUND"), none, none⟩

def refusalText : Bytes :=
  "\x7b\"status\":\"NPS-CLIENT-NOT-FOUND\",\"error\":\"NWP-ACTION-NOT-FOUND\",\"message\":null,\"details\":null\x7d".toList.map
    fun c => UInt8.ofNat c.toNat

def IsText (bytes : Bytes) : Prop :=
  (Json.text refusal.toDict.json).map (fun c => UInt8.ofNat c.toNat) = bytes ∧
  bytes.map (fun b => Char.ofNat b.toNat) = Json.text refusal.toDict.json ∧
  (∀ n < bytes.length, isRefused (bytes.take n) = true) ∧
  (reader asciiJson .session (.fin 65535)).encode refusal.toNpsFrame (some .json) =
    .ok ([0xfe, 0x04, 0x00, 94] ++ bytes) ∧
  bytes.length ≤ EXTENDED_MAX_PAYLOAD

instance (bytes : Bytes) : Decidable (IsText bytes) := inferInstanceAs (Decidable (_ ∧ _))

theorem isText_of_chars {cs : List Char} (h : IsText (cs.map fun c => UInt8.ofNat c.toNat)) :
    IsText ((String.ofList cs).toList.map fun c => UInt8.ofNat c.toNat) := by
  rwa [String.toList_ofList]

theorem isText_refusalText : IsText refusalText := by
  refine @isText_of_chars _ ?_
  decide +kernel

end NpsSdk.Wire
