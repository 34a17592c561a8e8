import NpsSdk.Lib.StringToNumber
import NpsSdk.Lib.TextDecoder

/-!
# The topology stream of an anchor node

The events of a topology source, and the body of lines that `AnchorNodeApp` writes for a subscription.
-/

namespace NpsSdk.Nwp

open NpsSdk.Lib

/-! ### Events -/

/-- `TopologyEvent`; a `resync_required` event has the version 0.  Members and changes are plain objects. -/
inductive TopologyEvent
  | member_joined (version : JsNum) (member : JsValue)
  | member_left (version : JsNum) (nid : String)
  | member_updated (version : JsNum) (nid : String) (changes : JsValue)
  | anchor_state (version : JsNum) (field : String) (details : Option JsValue)
  | resync_required (reason : String)
deriving DecidableEq

inductive FieldType
  | string
  | strings
  | number
  | boolean
  | unknown

structure FieldSpec where
  name : String
  type : FieldType
  optional : Bool := false

def memberInfo : List FieldSpec :=
  [{ name := "nid", type := .string }, { name := "node_roles", type := .strings },
    { name := "activation_mode", type := .string }, { name := "child_anchor", type := .boolean, optional := true },
    { name := "member_count", type := .number, optional := true },
    { name := "tags", type := .strings, optional := true },
    { name := "joined_at", type := .string, optional := true },
    { name := "last_seen", type := .string, optional := true },
    { name := "capabilities", type := .unknown, optional := true },
    { name := "metrics", type := .unknown, optional := true }]

def memberChanges : List FieldSpec :=
  [{ name := "node_roles", type := .strings, optional := true },
    { name := "activation_mode", type := .string, optional := true },
    { name := "tags", type := .strings, optional := true },
    { name := "member_count", type := .number, optional := true },
    { name := "last_seen", type := .string, optional := true },
    { name := "capabilities", type := .unknown, optional := true },
    { name := "metrics", type := .unknown, optional := true }]

def isStringValue : JsValue → Bool
  | .str _ => true
  | _ => false

def hasType : FieldType → JsValue → Bool
  | .string, .str _ => true
  | .strings, .arr items => items.all isStringValue
  | .number, .num _ => true
  | .boolean, .bool _ => true
  | .unknown, _ => true
  | _, _ => false

/-- The value is of an interface with these fields. -/
def conforms (fields : List FieldSpec) : JsValue → Bool
  | .obj members => fields.all fun field =>
      match JsMap.find field.name members with
      | none => field.optional
      | some v => hasType field.type v
  | _ => false

namespace TopologyEvent

/-- The event is of its declared type; the details of an anchor state may be anything. -/
def wellTyped : TopologyEvent → Bool
  | .member_joined _ member => conforms memberInfo member
  | .member_updated _ _ changes => conforms memberChanges changes
  | .member_left .. | .anchor_state .. | .resync_required _ => true

def kind : TopologyEvent → String
  | .member_joined .. => "member_joined"
  | .member_left .. => "member_left"
  | .member_updated .. => "member_updated"
  | .anchor_state .. => "anchor_state"
  | .resync_required _ => "resync_required"

def isResync : TopologyEvent → Bool
  | .resync_required _ => true
  | _ => false

end TopologyEvent

def upToResync : List TopologyEvent → List TopologyEvent
  | [] => []
  | ev :: events => if ev.isResync then [ev] else ev :: upToResync events

/-! ### The server -/

def payloadMembers : TopologyEvent → List (String × JsValue)
  | .member_left _ nid => [("nid", .str nid)]
  | .member_updated _ nid changes => [("nid", .str nid), ("changes", changes)]
  | .anchor_state _ field details => ("field", .str field) :: details.toList.map fun d => ("details", d)
  | .resync_required reason => [("reason", .str reason)]
  | .member_joined .. => []

def payloadOf : TopologyEvent → JsValue
  | .member_joined _ member => member
  | ev => .obj (payloadMembers ev)

def seqOf : TopologyEvent → Option JsNum
  | .member_joined version _ | .member_left version _ | .member_updated version ..
  | .anchor_state version .. => some version
  | .resync_required _ => none

def cgnEst (payload : JsValue) : ℕ := max 1 ((encodeText payload.json.text).length / 4)

/-- `eventToEnvelope`, at the time `timestamp`. -/
def eventToEnvelope (streamId timestamp : String) (ev : TopologyEvent) : JsValue :=
  .obj ([("stream_id", .str streamId), ("event_type", .str ev.kind), ("timestamp", .str timestamp),
    ("payload", payloadOf ev), ("cgn_est", .num (.finite (.ofNat (cgnEst (payloadOf ev)))))] ++
    (seqOf ev).toList.map fun seq => ("seq", .num seq))

/-- What the source throws after its last event. -/
inductive SourceError
  | protocol (status code message : String)
  | other

/-- What `topology.subscribe` yields. -/
structure TopologySource where
  events : List TopologyEvent
  failure : Option SourceError := none

structure Subscription where
  streamId : String
  sinceVersion : Option JsNum := none
  /-- Of a node with an epoch fence. -/
  clusterEpoch : Option JsNum := none

def ackLine (sub : Subscription) : JsValue :=
  .obj ([("kind", .str "ack"), ("stream_id", .str sub.streamId), ("status", .str "subscribed"),
    ("last_seq", .num (.finite (.ofNat 0))), ("resumed", .bool sub.sinceVersion.isSome)] ++
    sub.clusterEpoch.toList.map fun epoch => ("cluster_epoch", .num epoch))

def errorLine : SourceError → List JsValue
  | .protocol status code message =>
    [.obj [("status", .str status), ("error", .str code), ("message", .str message)]]
  | .other => []

/-- The lines for the events, of which the `i`-th is written at the time `now i`; the loop ends with an event
that requires a resync. -/
def eventLines (streamId : String) (now : ℕ → String) (failure : Option SourceError) :
    ℕ → List TopologyEvent → List JsValue
  | _, [] => failure.toList.flatMap errorLine
  | i, ev :: events =>
    eventToEnvelope streamId (now i) ev ::
      if ev.isResync then [] else eventLines streamId now failure (i + 1) events

def subscribeLines (sub : Subscription) (now : ℕ → String) (source : TopologySource) : List JsValue :=
  ackLine sub :: eventLines sub.streamId now source.failure 0 source.events

def writeLine (obj : JsValue) : Bytes := encodeText (obj.json.text ++ ['\n'])

/-- The body of the answer of `handleSubscribe`. -/
def subscribeBody (sub : Subscription) (now : ℕ → String) (source : TopologySource) : Bytes :=
  (subscribeLines sub now source).flatMap writeLine

/-!
## Subscribing to an anchor node

The lines of a body that comes in chunks, and the events that `AnchorNodeClient.subscribe` yields for them.
-/

/-! ### Lines -/

/-- A line without a trailing carriage return, unless nothing is left. -/
def lineOf (raw : List Char) : List (List Char) :=
  let line := if raw.getLast? = some '\r' then raw.dropLast else raw
  if line.length > 0 then [line] else []

/-- The loop over the lines in the buffer, in at most so many turns: the lines and what is left. -/
def bufferLines : ℕ → List Char → List (List Char) × List Char
  | 0, buffer => ([], buffer)
  | fuel + 1, buffer =>
    match buffer.idxOf? '\n' with
    | none => ([], buffer)
    | some newlineIdx =>
      let (lines, rest) := bufferLines fuel (buffer.drop (newlineIdx + 1))
      (lineOf (buffer.take newlineIdx) ++ lines, rest)

def linesFrom : List Bytes → TextDecoder → List Char → List (List Char)
  | [], decoder, buffer => lineOf (buffer ++ decoder.flush)
  | chunk :: body, decoder, buffer =>
    let (decoder, text) := decoder.decode chunk
    let (lines, buffer) := bufferLines (buffer ++ text).length (buffer ++ text)
    lines ++ linesFrom body decoder buffer

def readNdjsonLines (body : List Bytes) : List (List Char) := linesFrom body {} []

/-! ### Parsing -/

structure AnchorTopologyError where
  nwpErrorCode : String
  npsStatus : String
  message : Option String
deriving DecidableEq

def textMember (members : List (String × Json)) (k : String) : Option String :=
  match JsMap.find k members with
  | some (.str s) => some s
  | _ => none

def tryParseStreamError (line : List Char) : Option AnchorTopologyError :=
  match Json.parse line with
  | some (.obj obj) =>
    if (JsMap.find "event_type" obj).isSome then none
    else match textMember obj "error", textMember obj "status" with
      | some error, some status => some ⟨error, status, textMember obj "message"⟩
      | _, _ => none
  | _ => none

/-- The members of a value whose properties are read. -/
def propertiesOf : Json → List (String × Json)
  | .obj members => members
  | _ => []

/-- `members[k] ?? default`. -/
def memberOr (members : List (String × Json)) (k : String) (default : Json) : Json :=
  match JsMap.find k members with
  | none | some .null => default
  | some v => v

def natJson (n : ℕ) : Json := .num (.ofNat n)

variable (numberOfText : String → JsNum)

/-- The details of an `anchor_state` event, typed for the sub-types that are known; `none` if a conversion
throws. -/
def anchorDetails (field : String) (details : Option Json) : Option (Option JsValue) :=
  match details with
  | some (.obj members) =>
    if field = "anchor_failover" then do
      let successor ← (memberOr members "successor_nid" (.str "")).toText
      let epoch ← (memberOr members "cluster_epoch" (natJson 1)).toNumber numberOfText
      let reason ← (memberOr members "reason" (.str "planned")).toText
      return some (.obj [("successor_nid", .str successor), ("cluster_epoch", .num epoch),
        ("reason", .str reason)])
    else if field = "anchor_quorum_lost" then do
      let quorum ← (memberOr members "quorum_size" (natJson 0)).toNumber numberOfText
      let available ← (memberOr members "available" (natJson 0)).toNumber numberOfText
      return some (.obj [("quorum_size", .num quorum), ("available", .num available)])
    else some (some (.ofJson (.obj members)))
  | details => some (details.map .ofJson)

/-- The event of a type, version and payload; `none` if a conversion throws, and no event for an unknown
type. -/
def eventOf (eventType : String) (version : JsNum) (payload : Json) : Option (Option TopologyEvent) :=
  let members := propertiesOf payload
  match eventType with
  | "member_joined" => some (some (.member_joined version (.ofJson payload)))
  | "member_left" => some (some (.member_left version ((textMember members "nid").getD "")))
  | "member_updated" => some (some (.member_updated version ((textMember members "nid").getD "")
      (.ofJson (memberOr members "changes" (.obj [])))))
  | "anchor_state" =>
    let field := (textMember members "field").getD ""
    (anchorDetails numberOfText field (JsMap.find "details" members)).map
      fun details => some (.anchor_state version field details)
  | "resync_required" => some (some (.resync_required ((textMember members "reason").getD "unknown")))
  | _ => some none

def versionOf (obj : List (String × Json)) : JsNum :=
  match JsMap.find "seq" obj with
  | some (.num n) => .finite n
  | _ => .finite (.ofNat 0)

/-- The event a line stands for, if any; `none` if a conversion throws. -/
def parseTopologyEvent (line : List Char) : Option (Option TopologyEvent) :=
  match Json.parse line with
  | some (.obj obj) =>
    match textMember obj "event_type" with
    | none => some none
    | some eventType => eventOf numberOfText eventType (versionOf obj) (memberOr obj "payload" (.obj []))
  | _ => some none

/-! ### The subscription -/

/-- How the iteration ends. -/
inductive StreamEnd
  | returned
  | topologyError (err : AnchorTopologyError)
  | typeError
deriving DecidableEq

/-- The loop over the lines after the acknowledgement. -/
def consume : List (List Char) → List TopologyEvent × StreamEnd
  | [] => ([], .returned)
  | line :: lines =>
    match tryParseStreamError line with
    | some maybeErr => ([], .topologyError maybeErr)
    | none =>
      match parseTopologyEvent numberOfText line with
      | none => ([], .typeError)
      | some none => consume lines
      | some (some ev) =>
        if ev.isResync then ([ev], .returned)
        else (ev :: (consume lines).1, (consume lines).2)

/-- What iterating `subscribe` yields for the chunks of a body, and how it ends. -/
def subscribe (body : List Bytes) : List TopologyEvent × StreamEnd :=
  consume numberOfText ((readNdjsonLines body).drop 1)

end NpsSdk.Nwp
