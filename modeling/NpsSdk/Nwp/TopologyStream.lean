import NpsSdk.Lib.Framing
import NpsSdk.Nwp.AnchorServer

/-!
# Topology events from end to end

What `subscribe` yields of the body that the node writes: the events as JSON carries them, up to the first
one that requires a resync, however the body is split.
-/

namespace NpsSdk.Nwp

open NpsSdk.Lib

/-! ### Lines of a body -/

/-- A line and its newline. -/
def lineFraming : Framing Char := .upTo '\n'

def frameLine (frame : List Char) : List (List Char) := lineOf frame.dropLast

theorem bufferLines_eq {fuel : ℕ} {buffer : List Char} (h : buffer.length ≤ fuel) :
    bufferLines fuel buffer = ((lineFraming.cut buffer).1.flatMap frameLine, (lineFraming.cut buffer).2) := by
  induction fuel generalizing buffer with
  | zero =>
    have hnil : buffer = [] := List.eq_nil_of_length_eq_zero (by omega)
    subst hnil
    rfl
  | succ fuel ih =>
    rw [bufferLines]
    cases hidx : buffer.idxOf? '\n' with
    | none =>
      have hnone : lineFraming.length buffer = none := by
        show (buffer.idxOf? '\n').map (· + 1) = none
        rw [hidx]
        rfl
      rw [Framing.cut_of_none hnone]
      rfl
    | some newlineIdx =>
      have hsome : lineFraming.length buffer = some (newlineIdx + 1) := by
        show (buffer.idxOf? '\n').map (· + 1) = _
        rw [hidx]
        rfl
      have hle := (lineFraming.fits hsome).2
      have hdrop : (buffer.drop (newlineIdx + 1)).length ≤ fuel := by
        rw [List.length_drop]
        omega
      have hline : (buffer.take (newlineIdx + 1)).dropLast = buffer.take newlineIdx := by
        rw [List.dropLast_eq_take, List.length_take, Nat.min_eq_left hle, Nat.add_sub_cancel, List.take_take,
          Nat.min_eq_left (Nat.le_succ _)]
      rw [Framing.cut_of_some hsome]
      simp only [ih hdrop, List.flatMap_cons, frameLine, hline]

/-- **The lines do not depend on the chunks.** -/
theorem linesFrom_eq (body : List Bytes) (decoder : TextDecoder) {buffer : List Char}
    (h : lineFraming.length buffer = none) :
    linesFrom body decoder buffer =
      (lineFraming.cut (buffer ++ (decoder.decode body.flatten).2)).1.flatMap frameLine ++
        lineOf ((lineFraming.cut (buffer ++ (decoder.decode body.flatten).2)).2 ++
          (decoder.decode body.flatten).1.flush) := by
  induction body generalizing decoder buffer with
  | nil =>
    simp only [List.flatten_nil, TextDecoder.decode, List.append_nil, Framing.cut_of_none h, List.flatMap_nil,
      List.nil_append]
    rfl
  | cons chunk body ih =>
    rw [linesFrom]
    simp only [bufferLines_eq (le_refl _)]
    have hsplit := Framing.cut_append (F := lineFraming) (buffer ++ (decoder.decode chunk).2)
      ((decoder.decode chunk).1.decode body.flatten).2
    rw [ih _ (lineFraming.length_rest _), List.flatten_cons, TextDecoder.decode_append]
    simp only
    rw [← List.append_assoc buffer, hsplit, List.flatMap_append, List.append_assoc]

theorem lineOf_of_line {line : List Char} (hne : line ≠ []) (hcr : '\r' ∉ line) : lineOf line = [line] := by
  have hlast : line.getLast? ≠ some '\r' := fun h => hcr (List.mem_of_getLast? h)
  have hpos := List.length_pos_iff.2 hne
  simp only [lineOf, hlast, if_false, hpos, if_true]

/-- The lines of an encoded text, in whatever chunks it comes. -/
theorem readNdjsonLines_encodeText {lines : List (List Char)} {body : List Bytes}
    (hbody : body.flatten = encodeText (lines.flatMap fun line => line ++ ['\n']))
    (hlines : ∀ line ∈ lines, line ≠ [] ∧ ∀ c ∈ line, 32 ≤ c.toNat)
    (hmark : ∀ line ∈ lines, line.head? ≠ some '\ufeff') : readNdjsonLines body = lines := by
  have hcontrol : ∀ c : Char, c.toNat < 32 → ∀ line ∈ lines, c ∉ line := fun c hc line hline hmem => by
    have := (hlines line hline).2 c hmem
    omega
  have hdecode : TextDecoder.decode {} (encodeText (lines.flatMap fun line => line ++ ['\n'])) =
      ({ bomSeen := !lines.isEmpty }, lines.flatMap fun line => line ++ ['\n']) := by
    cases lines with
    | nil => rfl
    | cons line lines =>
      have hne := (hlines line (by simp)).1
      apply TextDecoder.decode_encodeText
      · right
        obtain ⟨c, cs, rfl⟩ := List.exists_cons_of_ne_nil hne
        exact hmark (c :: cs) (by simp)
      · simp
  have hlast : lineOf [] = [] := rfl
  rw [readNdjsonLines, linesFrom_eq body {} rfl, hbody, hdecode, List.nil_append, lineFraming,
    Framing.cut_upTo (hcontrol '\n' (by decide)), List.flatMap_map]
  have hframes : lines.flatMap (fun line => frameLine (line ++ ['\n'])) = lines := by
    have hline : ∀ line ∈ lines, frameLine (line ++ ['\n']) = [line] := fun line hline => by
      rw [frameLine, List.dropLast_concat]
      exact lineOf_of_line (hlines line hline).1 (hcontrol '\r' (by decide) line hline)
    rw [List.flatMap_congr hline]
    exact List.flatMap_singleton' lines
  rw [hframes]
  exact List.append_nil lines

/-! ### Events through JSON -/

/-- The members of an object that was written and read. -/
def readMembers (members : List (String × JsValue)) : List (String × Json) :=
  Json.ownMembers (Json.builtMembers (JsValue.jsonMembers members))

theorem built_json_obj (members : List (String × JsValue)) :
    (JsValue.obj members).json.built = .obj (readMembers members) := rfl

theorem find_readMembers {members : List (String × JsValue)} (h : (members.map Prod.fst).Nodup) (k : String) :
    JsMap.find k (readMembers members) = (JsMap.find k members).map fun v => v.json.built := by
  have hnames : ∀ ms : List (String × JsValue), (JsValue.jsonMembers ms).map Prod.fst = ms.map Prod.fst := by
    intro ms
    induction ms with
    | nil => rfl
    | cons m ms ih => simp only [JsValue.jsonMembers, List.map_cons, ih]
  have hnodup : ((JsValue.jsonMembers members).map Prod.fst).Nodup := by
    rw [hnames]
    exact h
  rw [readMembers, Json.find_built hnodup, JsValue.find_jsonMembers, Option.map_map]
  rfl

theorem obj_of_conforms {fields : List FieldSpec} {v : JsValue} (h : conforms fields v = true) :
    ∃ members, v = .obj members := by
  cases v with
  | obj members => exact ⟨members, rfl⟩
  | null | bool _ | num _ | str _ | arr _ => cases h

def seqNumber (version : JsNum) : JsNum :=
  match version with
  | .finite n => .finite n
  | _ => .finite (.ofNat 0)

variable (numberOfText : String → JsNum)

/-- The event that is received for an event that was sent; `none` if the details cannot be converted. -/
def received : TopologyEvent → Option TopologyEvent
  | .member_joined version member => some (.member_joined (seqNumber version) member.throughJson)
  | .member_left version nid => some (.member_left (seqNumber version) nid)
  | .member_updated version nid changes =>
    some (.member_updated (seqNumber version) nid changes.throughJson)
  | .anchor_state version field details =>
    (anchorDetails numberOfText field (details.map fun d => d.json.built)).map
      (.anchor_state (seqNumber version) field)
  | .resync_required reason => some (.resync_required reason)

def envelopeMembers (streamId timestamp : String) (ev : TopologyEvent) : List (String × JsValue) :=
  [("stream_id", .str streamId), ("event_type", .str ev.kind), ("timestamp", .str timestamp),
    ("payload", payloadOf ev), ("cgn_est", .num (.finite (.ofNat (cgnEst (payloadOf ev)))))] ++
    (seqOf ev).toList.map fun seq => ("seq", .num seq)

theorem parse_envelope (streamId timestamp : String) (ev : TopologyEvent) :
    Json.parse (eventToEnvelope streamId timestamp ev).json.text =
      some (.obj (readMembers (envelopeMembers streamId timestamp ev))) := Json.parse_text _

section Envelope

variable (streamId timestamp : String) (ev : TopologyEvent)

theorem names_envelope : ((envelopeMembers streamId timestamp ev).map Prod.fst).Nodup := by
  rw [envelopeMembers]
  cases seqOf ev with
  | none =>
    show ["stream_id", "event_type", "timestamp", "payload", "cgn_est"].Nodup
    decide
  | some version =>
    show ["stream_id", "event_type", "timestamp", "payload", "cgn_est", "seq"].Nodup
    decide

theorem find_envelope (k : String) :
    JsMap.find k (readMembers (envelopeMembers streamId timestamp ev)) =
      (JsMap.find k (envelopeMembers streamId timestamp ev)).map fun v => v.json.built :=
  find_readMembers (names_envelope streamId timestamp ev) k

theorem eventType_envelope :
    textMember (readMembers (envelopeMembers streamId timestamp ev)) "event_type" = some ev.kind := by
  rw [textMember, find_envelope]
  rfl

theorem tryParseStreamError_envelope :
    tryParseStreamError (eventToEnvelope streamId timestamp ev).json.text = none := by
  have htype : (JsMap.find "event_type" (readMembers (envelopeMembers streamId timestamp ev))).isSome = true := by
    rw [find_envelope]
    rfl
  simp only [tryParseStreamError, parse_envelope, htype, if_true]

theorem version_envelope : versionOf (readMembers (envelopeMembers streamId timestamp ev)) =
    ((seqOf ev).map seqNumber).getD (.finite (.ofNat 0)) := by
  have hseq : JsMap.find "seq" (readMembers (envelopeMembers streamId timestamp ev)) =
      (seqOf ev).map fun n => n.json.built := by
    rw [find_envelope]
    cases ev <;> rfl
  rw [versionOf, hseq]
  cases seqOf ev with
  | none => rfl
  | some version => cases version <;> rfl

theorem find_payload (k : String) : JsMap.find k (readMembers (payloadMembers ev)) =
    (JsMap.find k (payloadMembers ev)).map fun v => v.json.built := by
  apply find_readMembers
  cases ev with
  | member_joined _ _ => exact List.nodup_nil
  | member_left _ _ | resync_required _ => exact List.nodup_singleton _
  | member_updated _ _ _ =>
    show ["nid", "changes"].Nodup
    decide
  | anchor_state _ _ details =>
    cases details with
    | none => exact List.nodup_singleton _
    | some d =>
      show ["field", "details"].Nodup
      decide

/-- **One event from end to end.** -/
theorem parseTopologyEvent_envelope (hev : ev.wellTyped = true) :
    parseTopologyEvent numberOfText (eventToEnvelope streamId timestamp ev).json.text =
      (received numberOfText ev).map some := by
  have hpayload : memberOr (readMembers (envelopeMembers streamId timestamp ev)) "payload" (.obj []) =
      (payloadOf ev).json.built := by
    have hfind : JsMap.find "payload" (readMembers (envelopeMembers streamId timestamp ev)) =
        some (payloadOf ev).json.built := by
      rw [find_envelope]
      rfl
    cases ev with
    | member_joined version member =>
      obtain ⟨members, rfl⟩ := obj_of_conforms hev
      rw [memberOr, hfind]
      rfl
    | member_left _ _ | member_updated _ _ _ | anchor_state _ _ _ | resync_required _ =>
      rw [memberOr, hfind]
      rfl
  simp only [parseTopologyEvent, parse_envelope, eventType_envelope, version_envelope, hpayload]
  cases ev with
  | member_joined version member => rfl
  | member_left version nid =>
    have hnid := find_payload (.member_left version nid) "nid"
    show some (some (TopologyEvent.member_left _ ((textMember (readMembers _) "nid").getD ""))) = _
    rw [textMember, hnid]
    rfl
  | member_updated version nid changes =>
    obtain ⟨members, rfl⟩ := obj_of_conforms hev
    have hnid := find_payload (.member_updated version nid (.obj members)) "nid"
    have hchanges := find_payload (.member_updated version nid (.obj members)) "changes"
    show some (some (TopologyEvent.member_updated _ ((textMember (readMembers _) "nid").getD "")
      (.ofJson (memberOr (readMembers _) "changes" (.obj []))))) = _
    rw [textMember, hnid, memberOr, hchanges]
    rfl
  | anchor_state version field details =>
    have hfield := find_payload (.anchor_state version field details) "field"
    have hdetails := find_payload (.anchor_state version field details) "details"
    have hname : textMember (readMembers (payloadMembers (.anchor_state version field details))) "field" =
        some field := by
      rw [textMember, hfield]
      rfl
    have hvalue : JsMap.find "details" (payloadMembers (.anchor_state version field details)) = details := by
      cases details <;> rfl
    show (anchorDetails numberOfText ((textMember (readMembers _) "field").getD "")
      (JsMap.find "details" (readMembers _))).map
        (fun d => some (TopologyEvent.anchor_state _ ((textMember (readMembers _) "field").getD "") d)) = _
    rw [hname, hdetails, hvalue, received, Option.map_map]
    rfl
  | resync_required reason =>
    have hreason := find_payload (.resync_required reason) "reason"
    show some (some (TopologyEvent.resync_required ((textMember (readMembers _) "reason").getD "unknown"))) = _
    rw [textMember, hreason]
    rfl

end Envelope

/-! ### The whole stream -/

/-- What is yielded for the events of a source, and how the iteration ends. -/
def delivered : List TopologyEvent → List TopologyEvent × StreamEnd
  | [] => ([], .returned)
  | ev :: events =>
    match received numberOfText ev with
    | none => ([], .typeError)
    | some ev' => if ev.isResync then ([ev'], .returned) else (ev' :: (delivered events).1, (delivered events).2)

theorem isResync_received {ev ev' : TopologyEvent} (h : received numberOfText ev = some ev') :
    ev'.isResync = ev.isResync := by
  cases ev with
  | anchor_state version field details =>
    obtain ⟨d, -, rfl⟩ := Option.map_eq_some_iff.1 h
    rfl
  | member_joined _ _ | member_left _ _ | member_updated _ _ _ | resync_required _ =>
    cases h
    rfl

theorem consume_eventLines (streamId : String) (now : ℕ → String) (i : ℕ) (events : List TopologyEvent)
    (hevents : ∀ ev ∈ events, ev.wellTyped = true) :
    consume numberOfText ((eventLines streamId now none i events).map fun line => line.json.text) =
      delivered numberOfText events := by
  induction events generalizing i with
  | nil => rfl
  | cons ev events ih =>
    have hrest := ih (i + 1) fun e he => hevents e (List.mem_cons_of_mem _ he)
    have hparse := parseTopologyEvent_envelope numberOfText streamId (now i) ev (hevents ev (by simp))
    rw [eventLines, List.map_cons, consume, tryParseStreamError_envelope, delivered]
    simp only [hparse]
    cases hreceived : received numberOfText ev with
    | none => rfl
    | some ev' =>
      simp only [Option.map_some, isResync_received numberOfText hreceived]
      split
      · rfl
      · rw [hrest]

theorem writeLine_lines (lines : List JsValue) : lines.flatMap writeLine =
    encodeText ((lines.map fun line => line.json.text).flatMap fun line => line ++ ['\n']) := by
  induction lines with
  | nil => rfl
  | cons line lines ih =>
    simp only [List.flatMap_cons, ih, List.map_cons, writeLine, encodeText, List.flatMap_append]

variable {events : List TopologyEvent}

theorem line_of_mem {streamId : String} {now : ℕ → String} {i : ℕ} {line : JsValue}
    (h : line ∈ eventLines streamId now none i events) : ∃ members, line = .obj members := by
  induction events generalizing i with
  | nil => cases h
  | cons ev events ih =>
    rcases List.mem_cons.1 h with rfl | h
    · exact ⟨_, rfl⟩
    · split at h
      · cases h
      · exact ih h

theorem text_obj (members : List (String × JsValue)) : ∃ text, (JsValue.obj members).json.text = '{' :: text := by
  rw [JsValue.json, Json.text]
  exact ⟨_, rfl⟩

/-- **From the source to the subscriber**: in whatever chunks the body comes. -/
theorem subscribe_body (sub : Subscription) (now : ℕ → String)
    (hevents : ∀ ev ∈ events, ev.wellTyped = true) {body : List Bytes}
    (hbody : body.flatten = subscribeBody sub now { events }) :
    subscribe numberOfText body = delivered numberOfText events := by
  have hobj : ∀ line ∈ subscribeLines sub now { events }, ∃ members, line = .obj members := by
    intro line hline
    rcases List.mem_cons.1 hline with rfl | hline
    · exact ⟨_, rfl⟩
    · exact line_of_mem hline
  have htext : ∀ line ∈ (subscribeLines sub now { events }).map fun line => line.json.text,
      ∃ text, line = '{' :: text := by
    intro line hline
    obtain ⟨obj, hobj', rfl⟩ := List.mem_map.1 hline
    obtain ⟨members, rfl⟩ := hobj obj hobj'
    exact text_obj members
  have hlines : readNdjsonLines body = (subscribeLines sub now { events }).map fun line => line.json.text := by
    apply readNdjsonLines_encodeText
    · rw [hbody, subscribeBody, writeLine_lines]
    · intro line hline
      obtain ⟨text, rfl⟩ := htext line hline
      obtain ⟨obj, -, hobj'⟩ := List.mem_map.1 hline
      refine ⟨List.cons_ne_nil _ _, ?_⟩
      rw [← hobj']
      exact Json.ne_control_text _
    · intro line hline
      obtain ⟨text, rfl⟩ := htext line hline
      intro hmark
      cases hmark
  rw [subscribe, hlines, subscribeLines, List.map_cons, List.drop_one, List.tail_cons]
  exact consume_eventLines numberOfText sub.streamId now 0 events hevents

/-! ### Events that are received as they were sent -/

/-- The details that a known sub-type declares, in the order in which they are decoded. -/
def declaredDetails (field : String) (members : List (String × JsValue)) : Prop :=
  (field = "anchor_failover" → ∃ successor epoch reason, members =
    [("successor_nid", .str successor), ("cluster_epoch", .num epoch), ("reason", .str reason)]) ∧
  (field = "anchor_quorum_lost" → ∃ quorum available, members =
    [("quorum_size", .num quorum), ("available", .num available)])

/-- JSON can carry the event, and the details of a known sub-type are the declared ones. -/
def Carried : TopologyEvent → Prop
  | .member_joined version member => version.isFinite = true ∧ member.Plain
  | .member_left version _ => version.isFinite = true
  | .member_updated version _ changes => version.isFinite = true ∧ changes.Plain
  | .anchor_state version field details => version.isFinite = true ∧
      ∀ d ∈ details, d.Plain ∧ ∀ members, d = .obj members → declaredDetails field members
  | .resync_required _ => True

theorem seqNumber_of_finite {version : JsNum} (h : version.isFinite = true) : seqNumber version = version := by
  cases version with
  | finite n => rfl
  | nan | infinity | negInfinity => cases h

theorem exists_of_finite {n : JsNum} (h : n.isFinite = true) : ∃ m, n = .finite m := by
  cases n with
  | finite m => exact ⟨m, rfl⟩
  | nan | infinity | negInfinity => cases h

theorem find_details {members : List (String × JsValue)} {k : String} {v : JsValue}
    (hnames : (members.map Prod.fst).Nodup) (hfind : JsMap.find k members = some v) (default : Json)
    (hnull : v.json.built ≠ .null) : memberOr (readMembers members) k default = v.json.built := by
  rw [memberOr, find_readMembers hnames, hfind]
  cases hv : v.json.built with
  | null => exact absurd hv hnull
  | bool _ | num _ | str _ | arr _ | obj _ => simp only [Option.map_some, hv]

theorem anchorDetails_of_carried {field : String} {d : JsValue} (hplain : d.Plain)
    (hdeclared : ∀ members, d = .obj members → declaredDetails field members) :
    anchorDetails numberOfText field (some d.json.built) = some (some d) := by
  have hthrough : JsValue.ofJson d.json.built = d := JsValue.throughJson_of_plain d hplain
  cases d with
  | obj members =>
    obtain ⟨hfailover, hquorum⟩ := hdeclared members rfl
    rw [built_json_obj] at hthrough ⊢
    by_cases h1 : field = "anchor_failover"
    · obtain ⟨successor, epoch, reason, rfl⟩ := hfailover h1
      obtain ⟨⟨hnames, -⟩, -, hfinite, -⟩ := hplain
      obtain ⟨n, rfl⟩ := exists_of_finite hfinite
      have hsuccessor := find_details hnames (k := "successor_nid") rfl (.str "") nofun
      have hepoch := find_details hnames (k := "cluster_epoch") rfl (natJson 1) nofun
      have hreason := find_details hnames (k := "reason") rfl (.str "planned") nofun
      simp only [anchorDetails, if_true, h1, hsuccessor, hepoch, hreason]
      rfl
    · by_cases h2 : field = "anchor_quorum_lost"
      · obtain ⟨quorum, available, rfl⟩ := hquorum h2
        obtain ⟨⟨hnames, -⟩, hfinite, hfinite', -⟩ := hplain
        obtain ⟨n, rfl⟩ := exists_of_finite hfinite
        obtain ⟨n', rfl⟩ := exists_of_finite hfinite'
        have hquorum := find_details hnames (k := "quorum_size") rfl (natJson 0) nofun
        have havailable := find_details hnames (k := "available") rfl (natJson 0) nofun
        simp only [anchorDetails, if_true, h2, hquorum, havailable]
        rfl
      · simp only [anchorDetails, h1, h2, if_false, hthrough]
  | num n =>
    cases n with
    | finite n => rfl
    | nan | infinity | negInfinity => cases hplain
  | arr items =>
    show some (some (JsValue.ofJson (JsValue.arr items).json.built)) = _
    rw [hthrough]
  | null | bool _ | str _ => rfl

theorem received_of_carried {ev : TopologyEvent} (h : Carried ev) : received numberOfText ev = some ev := by
  cases ev with
  | member_joined version member =>
    rw [received, seqNumber_of_finite h.1, JsValue.throughJson_of_plain member h.2]
  | member_left version nid => rw [received, seqNumber_of_finite h]
  | member_updated version nid changes =>
    rw [received, seqNumber_of_finite h.1, JsValue.throughJson_of_plain changes h.2]
  | anchor_state version field details =>
    rw [received, seqNumber_of_finite h.1]
    cases details with
    | none => rfl
    | some d =>
      obtain ⟨hplain, hdeclared⟩ := h.2 d rfl
      rw [Option.map_some, anchorDetails_of_carried numberOfText hplain hdeclared]
      rfl
  | resync_required reason => rfl

theorem delivered_of_carried (h : ∀ ev ∈ events, Carried ev) :
    delivered numberOfText events = (upToResync events, .returned) := by
  induction events with
  | nil => rfl
  | cons ev events ih =>
    have hrest := ih fun e he => h e (List.mem_cons_of_mem _ he)
    rw [delivered, received_of_carried numberOfText (h ev (by simp)), upToResync, hrest]
    simp only
    split <;> rfl

/-- **Topology subscription**: in whatever chunks the body comes, the subscriber gets the events as `received`
says, and exactly the events of the source where JSON can carry them. -/
theorem subscribe_delivers (sub : Subscription) (now : ℕ → String) (events : List TopologyEvent)
    (hevents : ∀ ev ∈ events, ev.wellTyped = true) (body : List Bytes)
    (hbody : body.flatten = subscribeBody sub now { events }) :
    subscribe numberOfText body = delivered numberOfText events ∧
      ((∀ ev ∈ events, Carried ev) → subscribe numberOfText body = (upToResync events, .returned)) := by
  have hsubscribe := subscribe_body numberOfText sub now hevents hbody
  refine ⟨hsubscribe, fun hcarried => ?_⟩
  rw [hsubscribe, delivered_of_carried numberOfText hcarried]

def sampleEvents : List TopologyEvent :=
  [.member_joined (.finite (.ofNat 7)) (.obj [("nid", .str "urn:nps:node:a"), ("node_roles", .strings ["memory"]),
      ("activation_mode", .str "resident")]),
    .member_left (.finite (.ofNat 8)) "urn:nps:node:a", .resync_required "rebased",
    .member_left (.finite (.ofNat 9)) "urn:nps:node:b"]

def sampleBody : Bytes :=
  subscribeBody { streamId := "s" } (fun _ => "2026-01-01T00:00:00.000Z") { events := sampleEvents }

theorem sample_delivered :
    subscribe (fun _ => .nan) [sampleBody.take 100, sampleBody.drop 100] =
      (sampleEvents.take 3, .returned) := by
  refine (subscribe_delivers (fun _ => .nan) { streamId := "s" } (fun _ => "2026-01-01T00:00:00.000Z")
    sampleEvents (by decide) _ ?_).2 ?_
  · rw [List.flatten_cons, List.flatten_singleton]
    exact List.take_append_drop 100 sampleBody
  · intro ev hev
    simp only [sampleEvents, List.mem_cons, List.not_mem_nil, or_false] at hev
    rcases hev with rfl | rfl | rfl | rfl
    · refine ⟨rfl, ⟨by decide, rfl⟩, trivial, ⟨trivial, trivial⟩, trivial, trivial⟩
    · rfl
    · trivial
    · rfl

/-- Details that are not the declared ones are completed, and a version that is not finite is lost. -/
theorem details_completed :
    (∀ ev ∈ [TopologyEvent.anchor_state (.finite (.ofNat 1)) "anchor_failover" (some (.obj [])),
      .member_left .nan "urn:nps:node:a"], ev.wellTyped = true) ∧
    subscribe (fun _ => .nan) [subscribeBody { streamId := "s" } (fun _ => "") { events :=
        [.anchor_state (.finite (.ofNat 1)) "anchor_failover" (some (.obj [])),
          .member_left .nan "urn:nps:node:a"] }] =
      ([.anchor_state (.finite (.ofNat 1)) "anchor_failover" (some (.obj [("successor_nid", .str ""),
          ("cluster_epoch", .num (.finite (.ofNat 1))), ("reason", .str "planned")])),
        .member_left (.finite (.ofNat 0)) "urn:nps:node:a"], .returned) := by
  have htyped : ∀ ev ∈ [TopologyEvent.anchor_state (.finite (.ofNat 1)) "anchor_failover" (some (.obj [])),
      .member_left .nan "urn:nps:node:a"], ev.wellTyped = true := by decide
  refine ⟨htyped, ?_⟩
  rw [subscribe_body (fun _ => .nan) { streamId := "s" } (fun _ => "") htyped (List.flatten_singleton)]
  decide

end NpsSdk.Nwp
