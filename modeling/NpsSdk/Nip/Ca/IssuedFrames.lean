import NpsSdk.Nip.Ca.Revocation
import NpsSdk.Nip.SignatureCoverage

/-!
# Issued frames before the verifier

The CA signs a flat payload, and sends it with the signature and the metadata beside it.  The verifier reads
the expiry and the issuer out of the metadata, and checks the signature over a dictionary that has the metadata
as a member.  No text is both, so the verifier accepts no frame that the CA has issued.
-/

namespace NpsSdk.Nip.Ca

open NpsSdk.Lib

/-! ### The frame as it is signed and sent -/

namespace CaIdentFrame

variable (frame : CaIdentFrame)

/-- The payload the CA signs. -/
def payload : Json := .obj (
  [("capabilities", .arr (frame.capabilities.map .str)), ("expires_at", .str frame.expiresAt),
    ("frame", .str "0x20"), ("issued_at", .str frame.issuedAt), ("issued_by", .str frame.issuedBy),
    ("nid", .str frame.nid), ("pub_key", .str frame.pubKey), ("scope", frame.scope),
    ("serial", .str frame.serial)] ++
  (frame.assuranceLevel.map fun level => ("assurance_level", Json.str level)).toList ++
  (frame.lineage.map fun l => ("lineage", l)).toList)

/-- The members of the frame, in the order in which the CA sets them. -/
def members : List (String × Json) :=
  [("frame", .str frame.frame), ("nid", .str frame.nid), ("pub_key", .str frame.pubKey),
    ("capabilities", .arr (frame.capabilities.map .str)), ("scope", frame.scope),
    ("issued_by", .str frame.issuedBy), ("issued_at", .str frame.issuedAt),
    ("expires_at", .str frame.expiresAt), ("serial", .str frame.serial),
    ("signature", .str frame.signature)] ++
  (frame.metadata.map fun m => ("metadata", m)).toList ++
  (frame.assuranceLevel.map fun level => ("assurance_level", Json.str level)).toList ++
  (frame.lineage.map fun l => ("lineage", l)).toList ++
  (frame.certFormat.map fun f => ("cert_format", Json.str f)).toList ++
  (frame.certChain.map fun chain => ("cert_chain", Json.arr (chain.map .str))).toList

/-- `JSON.stringify(frame)`. -/
def json : List Char := (Json.obj frame.members).text

end CaIdentFrame

/-- The frame a node gets: the text is parsed, and read by `IdentFrame.fromDict`. -/
def received (text : List Char) : Option IdentFrame :=
  match Json.parse text with
  | some (.obj data) => IdentFrame.fromDict data
  | _ => none

/-- The verifier accepts the frame of the text at the time `t`, where nothing else is asked of it. -/
def acceptedAt (crypto : Crypto) (services : Services) (text : List Char) (t : ℤ) : Bool :=
  match received text with
  | none => false
  | some frame =>
    match verifyIdent crypto services frame { asOf := some t } with
    | none => false
    | some r => r.valid

def Issued (ca : NipCaService) (frame : CaIdentFrame) : Prop :=
  ∃ c : CaCall, (c.program ca).Answers (.ok (.ident frame))

def SignsWith (crypto : Crypto) (sign : String → String) (key text : String) : Prop :=
  ∀ pk, parsePubKeyString crypto key = .ok pk →
    crypto.ed25519Verify (decodeSignature crypto (sign text)) text.toUTF8 pk = some true

/-! ### What is signed -/

section

variable {ca : NipCaService} {frame : CaIdentFrame} {record : NipCertRecord} {level : Option String}
  {lineage : Option Json}

theorem issueFrame_signature
    (h : (ca.issueFrame record.nid record.pubKey record.capabilities record.scopeJson record.issuedAt
      record.expiresAt record.serial record.metadataJson level lineage).Answers (.ok frame)) :
    frame.signature = signArtifact ca.sign frame.payload := by
  unfold NipCaService.issueFrame at h
  obtain ⟨scope, -, h⟩ := h.bind
  obtain ⟨issuedAtStr, -, h⟩ := h.bind
  obtain ⟨expiresAtStr, -, h⟩ := h.bind
  dsimp only at h
  cases hmetadata : record.metadataJson with
  | none =>
    rw [hmetadata] at h
    cases h
    rfl
  | some text =>
    rw [hmetadata] at h
    obtain ⟨metadata, -, h⟩ := h.bind
    cases h
    rfl

theorem issue_signature (h : (ca.issue record level lineage).Answers (.ok frame)) :
    frame.signature = signArtifact ca.sign frame.payload := by
  unfold NipCaService.issue at h
  obtain ⟨frame', hframe, h⟩ := h.bind
  obtain ⟨u, -, h⟩ := h.bind
  cases h
  exact issueFrame_signature hframe

/-- **A frame bears the signature of its payload.** -/
theorem Issued.signature (h : Issued ca frame) : frame.signature = signArtifact ca.sign frame.payload := by
  obtain ⟨c, h⟩ := h
  cases c with
  | register entityType identifier pubKey capabilities scopeJson metadataJson =>
    obtain ⟨frame', h, hframe⟩ := Async.Answers.bind h
    cases hframe
    obtain ⟨u, -, h⟩ := h.bind
    obtain ⟨u', -, h⟩ := h.bind
    obtain ⟨now, -, h⟩ := h.bind
    obtain ⟨serial, -, h⟩ := h.bind
    exact issue_signature h
  | registerX509 entityType identifier pubKey capabilities scopeJson chain level metadataJson =>
    obtain ⟨frame', h, hframe⟩ := Async.Answers.bind h
    cases hframe
    unfold NipCaService.registerX509 at h
    split at h
    · cases h
    · obtain ⟨u, -, h⟩ := h.bind
      obtain ⟨u', -, h⟩ := h.bind
      obtain ⟨now, -, h⟩ := h.bind
      obtain ⟨serial, -, h⟩ := h.bind
      obtain ⟨v1Frame, hissue, hchain⟩ := h.bind
      cases hchain
      show v1Frame.signature = signArtifact ca.sign v1Frame.payload
      exact issue_signature hissue
  | registerGroup identifier pubKey capabilities scopeJson ownerUserId ownerKeyId metadataJson =>
    obtain ⟨frame', h, hframe⟩ := Async.Answers.bind h
    cases hframe
    obtain ⟨id, -, h⟩ := h.bind
    obtain ⟨u, -, h⟩ := h.bind
    obtain ⟨u', -, h⟩ := h.bind
    obtain ⟨now, -, h⟩ := h.bind
    obtain ⟨serial, -, h⟩ := h.bind
    exact issue_signature h
  | issueSession groupNid sessionPubKey validityMs purpose capabilities scopeJson metadataJson =>
    obtain ⟨frame', h, hframe⟩ := Async.Answers.bind h
    cases hframe
    obtain ⟨group, -, h⟩ := h.bind
    obtain ⟨u, -, h⟩ := h.bind
    obtain ⟨sessionCaps, -, h⟩ := h.bind
    obtain ⟨unixTime, -, h⟩ := h.bind
    obtain ⟨hex, -, h⟩ := h.bind
    obtain ⟨now, -, h⟩ := h.bind
    obtain ⟨serial, -, h⟩ := h.bind
    exact issue_signature h
  | renew nid =>
    obtain ⟨frame', h, hframe⟩ := Async.Answers.bind h
    cases hframe
    obtain ⟨record, -, h⟩ := h.bind
    obtain ⟨now, -, h⟩ := h.bind
    dsimp only at h
    split at h
    · obtain ⟨opens, -, h⟩ := h.bind
      cases h
    · obtain ⟨serial, -, h⟩ := h.bind
      exact issue_signature h
  | revoke nid reason =>
    obtain ⟨frame', -, hframe⟩ := Async.Answers.bind h
    cases hframe

/-! ### What is verified -/

theorem capabilities_signed : ∃ members, canonicalise frame.payload = .obj members ∧
    "capabilities" ∈ members.map Prod.fst := by
  have hname : (arrayIndex "capabilities").isNone = true := by decide
  refine ⟨_, rfl, List.mem_map.2 ⟨("capabilities", canonicalise (.arr (frame.capabilities.map .str))), ?_, rfl⟩⟩
  refine List.mem_append_right _ (List.mem_filter.2 ⟨List.mem_filter.2 ⟨?_, by simp⟩, hname⟩)
  rw [List.mem_insertionSort]
  exact List.mem_cons_self

theorem payload_ne_unsigned {g : IdentFrame} :
    String.ofList (Nip.canonicalJson g.unsignedDict) ≠ canonicalJson frame.payload := by
  intro h
  obtain ⟨members, hmembers, hmem⟩ := @capabilities_signed frame
  have htext := String.ofList_inj.1 h
  have hvalue : (Json.obj g.unsignedDict).shown g.signedNames = canonicalise frame.payload :=
    Json.text_injective htext
  rw [hmembers] at hvalue
  cases hlevel : g.assuranceLevel with
  | none =>
    rw [shown_none hlevel] at hvalue
    cases hvalue
    simp at hmem
  | some level =>
    rw [shown_some hlevel] at hvalue
    cases hvalue
    simp at hmem

theorem members_nodup : (frame.members.map Prod.fst).Nodup := by
  have hoptional : ∀ {α : Type} (name : String) (f : α → Json) (o : Option α),
      ((o.map fun v => (name, f v)).toList.map Prod.fst).Sublist [name] := by
    intro α name f o
    cases o with
    | none => exact List.nil_sublist _
    | some v => exact List.Sublist.refl _
  have hnames : (frame.members.map Prod.fst).Sublist ["frame", "nid", "pub_key", "capabilities", "scope",
      "issued_by", "issued_at", "expires_at", "serial", "signature", "metadata", "assurance_level", "lineage",
      "cert_format", "cert_chain"] := by
    simp only [CaIdentFrame.members, List.map_append]
    exact (((((List.Sublist.refl _).append (hoptional "metadata" id frame.metadata)).append
      (hoptional "assurance_level" Json.str frame.assuranceLevel)).append
        (hoptional "lineage" id frame.lineage)).append
          (hoptional "cert_format" Json.str frame.certFormat)).append
            (hoptional "cert_chain" (fun chain => Json.arr (chain.map .str)) frame.certChain)
  exact hnames.nodup (by decide)

theorem received_signature {g : IdentFrame} (h : received frame.json = some g) : g.signature = frame.signature := by
  unfold received CaIdentFrame.json at h
  rw [Json.parse_text] at h
  have hread := fromDict_signature h
  unfold stringField at hread
  rw [Json.find_built members_nodup] at hread
  have hfind : JsMap.find "signature" frame.members = some (.str frame.signature) := rfl
  rw [hfind] at hread
  exact (Option.some.inj hread).symm

theorem ed25519Body_append (body : String) : ed25519Body ("ed25519:" ++ body) = body := by
  unfold ed25519Body
  rw [String.toList_append]
  exact String.ofList_toList

theorem signedBytes_ne {g : IdentFrame} : signedBytes g ≠ (canonicalJson frame.payload).toUTF8 := fun h =>
  payload_ne_unsigned (String.toByteArray_inj.1 h)

end

/-- **No issued frame is accepted**, where the signature verifies the text it was made for and no other, and the
verifier trusts the CA only. -/
theorem issued_never_accepted (ca : NipCaService) (crypto : Crypto) (services : Services) (key : String)
    (frame : CaIdentFrame) (hissued : Issued ca frame)
    (hkeys : services.issuerKeys = JsMap.ofList [(ca.opts.caNid, key)])
    (hsign : SignsWith crypto ca.sign key (canonicalJson frame.payload))
    (hed : ∀ sig m m' pk, crypto.ed25519Verify sig m pk = some true →
      crypto.ed25519Verify sig m' pk = some true → m = m') (t : ℤ) :
    acceptedAt crypto services frame.json t = false := by
  by_contra haccepted
  unfold acceptedAt at haccepted
  cases hg : received frame.json with
  | none => simp [hg] at haccepted
  | some g =>
    cases hr : verifyIdent crypto services g { asOf := some t } with
    | none => simp [hg, hr] at haccepted
    | some r =>
      have hvalid : r.valid = true := by simpa [hg, hr] using haccepted
      -- the key that was found is the CA's
      obtain ⟨key', hkey'⟩ := verifyIdent_issuer hr hvalid
      obtain rfl : key' = key := by
        rw [hkeys] at hkey'
        have hmem := JsMap.mem_of_find hkey'
        simpa using (Prod.mk.inj (List.mem_singleton.1 hmem)).2
      obtain ⟨step, hchecked⟩ := Accepts.verified (.inr ⟨services, _, r, hkey', hr, hvalid⟩)
      obtain ⟨pk, hpk, hverified⟩ := checkSignature_verified hchecked
      rw [received_signature hg, hissued.signature, signArtifact, ed25519Body_append] at hverified
      exact signedBytes_ne (hed _ _ _ _ hverified (hsign pk hpk))

/-! ### A frame of an agent -/

/-- The signature of `issuedText`, under the key `caKey`. -/
def issuedSignature : String :=
  "PCSeUCI6MZaWYYhIStSzpMvlLTNa9FurlH9GmV4WkCjgOIWXNWvMXf__GS_fUPs9ZRzZ3KE0a6RPRjJLuAq_CQ"

def issuedSignatureBytes : List UInt8 :=
  [60, 36, 158, 80, 34, 58, 49, 150, 150, 97, 136, 72, 74, 212, 179, 164, 203, 229, 45, 51, 90, 244, 91, 171,
   148, 127, 70, 153, 94, 22, 144, 40, 224, 56, 133, 151, 53, 107, 204, 93, 255, 255, 25, 47, 223, 80, 251, 61,
   101, 28, 217, 220, 161, 52, 107, 164, 79, 70, 50, 75, 184, 10, 191, 9]

def caKey : String := "6kpsY-KcUgq-9VB7Ey7F-ZVHdq6-vnuSQh7qaRRG0iw"

def caKeyBytes : List UInt8 :=
  [234, 74, 108, 99, 226, 156, 82, 10, 190, 245, 80, 123, 19, 46, 197, 249, 149, 71, 118, 174, 190, 190, 123,
   146, 66, 30, 234, 105, 20, 70, 210, 44]

def signingCa : NipCaService :=
  { opts := sampleOptions, parseJson := fun text => Json.parse text.toList, sign := fun _ => issuedSignature }

/-- What the key signs in the registration of the agent `a` on day 0. -/
def issuedText : String :=
  "\x7b\"capabilities\":[],\"expires_at\":\"1970-01-31T00:00:00.0000000Z\",\"frame\":\"0x20\"," ++
  "\"issued_at\":\"1970-01-01T00:00:00.0000000Z\",\"issued_by\":\"urn:nps:org:ca.example\"," ++
  "\"nid\":\"urn:nps:agent:ca.example:a\",\"pub_key\":\"ed25519:a\",\"scope\":\x7b\x7d,\"serial\":\"0x1\"\x7d"

/-- A signature scheme that knows this one signature. -/
def caCrypto : Crypto where
  ed25519Verify := fun sig m pk =>
    some (sig == issuedSignatureBytes && pk == caKeyBytes && @decide _ (ByteArray.instDecidableEq m issuedText.toUTF8))
  base64 := fun s => if s = issuedSignature then issuedSignatureBytes else if s = caKey then caKeyBytes else []
  hex := fun _ => []

/-- A node that trusts the CA, and has no revocation source. -/
def caServices : Services where
  issuerKeys := JsMap.ofList [("urn:nps:org:ca.example", "ed25519:" ++ caKey)]
  verifyX509 := fun _ => { valid := false }
  enforcePhase3 := fun _ => .ok
  fetchOcsp := fun _ => .error "unreachable"
  dateParse := fun
    | .str "1970-01-31T00:00:00Z" => some 2592000000
    | _ => none
  stringOf := fun
    | .str s => s
    | _ => ""
  toLowerCase := fun s => s
  now := 0

def agentMetadata : String :=
  "\x7b\"issuer\":\"urn:nps:org:ca.example\",\"expiresAt\":\"1970-01-31T00:00:00Z\"\x7d"

def registerAgent (metadataJson : Option String) : CaCall :=
  .register "agent" "a" "ed25519:a" [] "{}" metadataJson

def issuedAgent (metadataJson : Option String) : Option CaIdentFrame :=
  match (((registerAgent metadataJson).program signingCa).finish (exec id) (onDay 0) {}).1 with
  | .ok (.ident frame) => some frame
  | _ => none

theorem issued_of_issuedAgent {metadataJson : Option String} {frame : CaIdentFrame}
    (h : issuedAgent metadataJson = some frame) : Issued signingCa frame := by
  refine ⟨registerAgent metadataJson, ?_⟩
  unfold issuedAgent at h
  split at h
  · rename_i frame' hrun
    cases h
    rw [← hrun]
    exact Async.answers_finish
  · cases h

theorem caKey_reads : parsePubKeyString caCrypto ("ed25519:" ++ caKey) = .ok caKeyBytes := by
  decide

theorem issuedSignature_reads : decodeSignature caCrypto issuedSignature = issuedSignatureBytes := by
  decide

theorem canonicalJson_of_pieces {frame : Option CaIdentFrame} {a b c : List Char}
    (h : frame.map (fun frame => (canonicalise frame.payload).text) = some (a ++ b ++ c)) :
    frame.map (fun frame => canonicalJson frame.payload) =
      some (String.ofList a ++ String.ofList b ++ String.ofList c) := by
  obtain ⟨frame, rfl, htext⟩ := Option.map_eq_some_iff.1 h
  rw [Option.map_some, canonicalJson, htext, String.ofList_append, String.ofList_append]

theorem issuedAgent_payload :
    (issuedAgent (some agentMetadata)).map (fun frame => canonicalJson frame.payload) = some issuedText := by
  refine @canonicalJson_of_pieces (issuedAgent (some agentMetadata)) _ _ _ ?_
  decide +kernel

theorem issuedAgent_received : (issuedAgent none).map (fun frame => (frame.expiresAt,
    (received frame.json).map fun g => verifyIdent caCrypto caServices g { asOf := some 0 })) =
      some ("1970-01-31T00:00:00.0000000Z", some none) := by decide +kernel

theorem signsWith_caCrypto : SignsWith caCrypto signingCa.sign ("ed25519:" ++ caKey) issuedText := by
  intro pk hpk
  rw [caKey_reads] at hpk
  cases hpk
  show caCrypto.ed25519Verify (decodeSignature caCrypto issuedSignature) _ _ = _
  rw [issuedSignature_reads]
  simp [caCrypto]

theorem caCrypto_unique (sig : List UInt8) (m m' : ByteArray) (pk : List UInt8)
    (h : caCrypto.ed25519Verify sig m pk = some true) (h' : caCrypto.ed25519Verify sig m' pk = some true) :
    m = m' := by
  simp only [caCrypto, Option.some.injEq, Bool.and_eq_true, decide_eq_true_eq] at h h'
  rw [h.2, h'.2]

/-- With metadata that names the issuer and the expiry, the signature does not verify. -/
theorem issuedAgent_never_accepted : ∃ frame, issuedAgent (some agentMetadata) = some frame ∧
    ∀ t, acceptedAt caCrypto caServices frame.json t = false := by
  obtain ⟨frame, hframe, hpayload⟩ := Option.map_eq_some_iff.1 issuedAgent_payload
  refine ⟨frame, hframe, ?_⟩
  refine issued_never_accepted signingCa caCrypto caServices ("ed25519:" ++ caKey) frame
    (issued_of_issuedAgent hframe) rfl ?_ caCrypto_unique
  rw [hpayload]
  exact signsWith_caCrypto

/-- A frame without metadata is not accepted on the day of its issue: the verifier throws. -/
theorem issuedAgent_refused : ∃ frame, issuedAgent none = some frame ∧
    frame.expiresAt = "1970-01-31T00:00:00.0000000Z" ∧
    (∃ g, received frame.json = some g ∧ verifyIdent caCrypto caServices g { asOf := some 0 } = none) ∧
    acceptedAt caCrypto caServices frame.json 0 = false := by
  obtain ⟨frame, hframe, hpair⟩ := Option.map_eq_some_iff.1 issuedAgent_received
  obtain ⟨hexpires, hreceived⟩ := Prod.mk.inj hpair
  obtain ⟨g, hg, hnone⟩ := Option.map_eq_some_iff.1 hreceived
  refine ⟨frame, hframe, hexpires, ⟨g, hg, hnone⟩, ?_⟩
  simp [acceptedAt, hg, hnone]

end NpsSdk.Nip.Ca
