import NpsSdk.Nip.Verifier

/-!
# What the signature of an identity covers

The text that is signed writes the members of the metadata through the list of the top-level names
of the frame, so that a member of the metadata is written only if it happens to bear one of these
names.  Two accepted frames with one signature agree on the fields beside the metadata; on the
metadata they agree exactly if they differ nowhere outside what is written.
-/

namespace NpsSdk.Nip

open NpsSdk.Lib

variable {crypto : Crypto} {services : Services} {key : String} {f g : IdentFrame}

/-! ### Acceptance -/

/-- The frame is accepted, by one of the entry points, under the issuer key `key`. -/
def Accepts (crypto : Crypto) (key : String) (frame : IdentFrame) : Prop :=
  (∃ services issuerNid, services.issuerKeys.get issuerNid = some key ∧
    (verify crypto services frame issuerNid).valid = true) ∨
  ∃ services context r, services.issuerKeys.get (issuedBy services frame) = some key ∧
    verifyIdent crypto services frame context = some r ∧ r.valid = true

theorem checkSignature_verified {step : ℕ} (h : (checkSignature crypto f key step).valid = true) :
    ∃ caPubBytes, parsePubKeyString crypto key = .ok caPubBytes ∧
      crypto.ed25519Verify (decodeSignature crypto (ed25519Body f.signature)) (signedBytes f)
        caPubBytes = some true := by
  unfold checkSignature at h
  split at h
  · cases h
  · split at h
    · cases h
    · rename_i caPubBytes hkey
      split at h
      · cases h
      · cases h
      · exact ⟨caPubBytes, hkey, ‹_›⟩

theorem Accepts.verified (h : Accepts crypto key f) : ∃ step, (checkSignature crypto f key step).valid = true := by
  rcases h with ⟨services, issuerNid, hkey, hv⟩ | ⟨services, context, r, hkey, hv, hr⟩
  · refine ⟨1, ?_⟩
    simp only [verify, hkey] at hv
    by_contra hs
    simp only [Bool.not_eq_true] at hs
    simp only [hs, Bool.not_false, if_true] at hv
    cases hv
  · refine ⟨3, ?_⟩
    by_contra hs
    simp only [Bool.not_eq_true] at hs
    unfold verifyIdent at hv
    split at hv
    · cases hv
    · dsimp only at hv
      split at hv
      · cases hv
        cases hr
      · split_ifs at hv
        · cases hv
          cases hr
        · simp only [hkey, hs, Bool.not_false, if_true, Option.some.injEq] at hv
          rw [← hv, hs] at hr
          cases hr

/-! ### Coverage -/

theorem signed_text_eq
    (hed : ∀ sig m m' pk, crypto.ed25519Verify sig m pk = some true →
      crypto.ed25519Verify sig m' pk = some true → m = m')
    (hf : Accepts crypto key f) (hg : Accepts crypto key g) (hsig : f.signature = g.signature) :
    canonicalJson f.unsignedDict = canonicalJson g.unsignedDict := by
  obtain ⟨_, hf⟩ := hf.verified
  obtain ⟨_, hg⟩ := hg.verified
  obtain ⟨k₁, hk₁, hv₁⟩ := checkSignature_verified hf
  obtain ⟨k₂, hk₂, hv₂⟩ := checkSignature_verified hg
  have hk : k₁ = k₂ := by
    rw [hk₁] at hk₂
    exact Except.ok.inj hk₂
  rw [← hsig, ← hk] at hv₂
  have hbytes : signedBytes f = signedBytes g := hed _ _ _ _ hv₁ hv₂
  exact String.ofList_inj.1 (String.toByteArray_inj.1 hbytes)

/-- **Coverage.**  Two accepted frames with the same signature under the same issuer key agree on
their fields and on the whole of their metadata exactly when the metadata differ at no path that
leaves the names of the signed dictionary. -/
theorem accepted_agree_iff
    (hed : ∀ sig m m' pk, crypto.ed25519Verify sig m pk = some true →
      crypto.ed25519Verify sig m' pk = some true → m = m')
    (hf : Accepts crypto key f) (hg : Accepts crypto key g) (hsig : f.signature = g.signature) :
    (f.nid = g.nid ∧ f.pubKey = g.pubKey ∧ f.assuranceLevel = g.assuranceLevel ∧
      Json.Same f.metadata g.metadata) ↔
    ∀ path, Json.shapeAt path f.metadata ≠ Json.shapeAt path g.metadata →
      Json.Visible f.signedNames path := by
  obtain ⟨h1, h2, h3, h4⟩ := canonicalJson_eq_iff.1 (signed_text_eq hed hf hg hsig)
  constructor
  · rintro ⟨-, -, -, hsame⟩ path hne
    exact absurd (hsame path) hne
  · intro hvis
    refine ⟨h1, h2, h3, fun path => ?_⟩
    by_contra hne
    exact hne (Json.stringify_eq_iff.1 h4 path (hvis path hne))

/-! ### One signature, two identities -/

/-- The body of a signature over the text of `signedFrame`. -/
def sampleSignature : String :=
  "YT8VNnciR2+cBIYXSAIk6SP92EfE6KqSNUL6zYmOtItb1Y/5FRD2XuzEYoohxZ3pYTDvLjOBdH4j+spRmBpkAQ=="

def sampleSignatureBytes : List UInt8 :=
  [97, 63, 21, 54, 119, 34, 71, 111, 156, 4, 134, 23, 72, 2, 36, 233, 35, 253, 216, 71, 196,
   232, 170, 146, 53, 66, 250, 205, 137, 142, 180, 139, 91, 213, 143, 249, 21, 16, 246, 94, 236,
   196, 98, 138, 33, 197, 157, 233, 97, 48, 239, 46, 51, 129, 116, 126, 35, 250, 202, 81, 152,
   26, 100, 1]

/-- The key of the issuer, in hexadecimal. -/
def sampleKey : String := "03a107bff3ce10be1d70dd18e74bc09967e4d6309ba50d5f1ddc8664125531b8"

def sampleKeyBytes : List UInt8 :=
  [3, 161, 7, 191, 243, 206, 16, 190, 29, 112, 221, 24, 231, 75, 192, 153, 103, 228, 214, 48,
   155, 165, 13, 95, 29, 220, 134, 100, 18, 85, 49, 184]

/-- A frame for an agent that may query, for a short time. -/
def signedFrame : IdentFrame where
  nid := "urn:nps:agent:ca.example:a1"
  pubKey := "ed25519:d75a980182b10ab7d54bfed3c964073a0ee172f3daa62325af021a68f707511a"
  signature := "ed25519:" ++ sampleSignature
  metadata := .obj [("issuer", .str "urn:nps:ca:ca.example:root"),
    ("issuedAt", .str "2026-01-01T00:00:00Z"), ("expiresAt", .str "2026-02-01T00:00:00Z"),
    ("capabilities", .arr [.str "nwp:query"])]

def alteredFrame : IdentFrame :=
  { signedFrame with
    metadata := .obj [("issuer", .str "urn:nps:ca:ca.example:root"),
      ("issuedAt", .str "2026-01-01T00:00:00Z"), ("expiresAt", .str "2036-02-01T00:00:00Z"),
      ("capabilities", .arr [.str "nwp:query", .str "nwp:admin"])] }

/-- The text that was signed; the metadata is written in it as an object without members. -/
def sampleText : List Char := canonicalJson signedFrame.unsignedDict

/-- A signature scheme that knows this one signature. -/
def sampleCrypto : Crypto where
  ed25519Verify := fun sig m pk =>
    some (sig == sampleSignatureBytes && pk == sampleKeyBytes &&
      @decide _ (ByteArray.instDecidableEq m (String.ofList sampleText).toUTF8))
  base64 := fun s => if s = sampleSignature then sampleSignatureBytes else []
  hex := fun s => if s = sampleKey then sampleKeyBytes else []

/-- A node that trusts the issuer, in January 2026. -/
def sampleServices : Services where
  issuerKeys := JsMap.ofList [("urn:nps:ca:ca.example:root", "ed25519:" ++ sampleKey)]
  verifyX509 := fun _ => { valid := false }
  enforcePhase3 := fun _ => .ok
  fetchOcsp := fun _ => .error "unreachable"
  dateParse := fun
    | .str "2026-02-01T00:00:00Z" => some 1769904000000
    | .str "2036-02-01T00:00:00Z" => some 2085436800000
    | _ => none
  stringOf := fun
    | .str s => s
    | _ => ""
  toLowerCase := fun s => s
  now := 1768000000000

theorem sampleCrypto_unique : ∀ sig m m' pk, sampleCrypto.ed25519Verify sig m pk = some true →
    sampleCrypto.ed25519Verify sig m' pk = some true → m = m' := by
  intro sig m m' pk h h'
  simp only [sampleCrypto, Option.some.injEq, Bool.and_eq_true, decide_eq_true_eq] at h h'
  rw [h.2, h'.2]

theorem sample_signature {frame : IdentFrame} (h : frame = signedFrame ∨ frame = alteredFrame) :
    checkSignature sampleCrypto frame ("ed25519:" ++ sampleKey) 3 = .ok := by
  have htext : canonicalJson frame.unsignedDict = sampleText := by
    rcases h with rfl | rfl
    · rfl
    · exact canonicalJson_eq_iff.2 ⟨rfl, rfl, rfl, by decide⟩
  have hkey : parsePubKeyString sampleCrypto ("ed25519:" ++ sampleKey) = .ok sampleKeyBytes := by
    decide
  have hsig : frame.signature = "ed25519:" ++ sampleSignature := by
    rcases h with rfl | rfl <;> rfl
  have hbody : decodeSignature sampleCrypto (ed25519Body ("ed25519:" ++ sampleSignature)) =
      sampleSignatureBytes := by decide
  have hverify : sampleCrypto.ed25519Verify sampleSignatureBytes (signedBytes frame)
      sampleKeyBytes = some true := by
    simp only [sampleCrypto, signedBytes, htext, beq_self_eq_true, decide_true, Bool.and_true]
  unfold checkSignature
  rw [hsig, if_neg (by decide), hkey]
  simp only [hbody, hverify]

theorem sample_accepted {frame : IdentFrame} (h : frame = signedFrame ∨ frame = alteredFrame) :
    Accepts sampleCrypto ("ed25519:" ++ sampleKey) frame := by
  have hissuer : sampleServices.issuerKeys.get (issuedBy sampleServices frame) = some ("ed25519:" ++ sampleKey) := by
    rcases h with rfl | rfl <;> decide
  refine .inr ⟨sampleServices, {}, .ok, hissuer, ?_, rfl⟩
  have hsig : (checkSignature sampleCrypto frame ("ed25519:" ++ sampleKey) 3).valid = true := by
    rw [sample_signature h]
    rfl
  rcases h with rfl | rfl
  · rw [verifyIdent_eq rfl rfl rfl (by decide) hissuer hsig]
    decide
  · rw [verifyIdent_eq rfl rfl rfl (by decide) hissuer hsig]
    decide

theorem sample_metadata_differ : ¬ Json.Same signedFrame.metadata alteredFrame.metadata := by
  intro h
  have := h [.name "capabilities"]
  simp [signedFrame, alteredFrame, Json.shapeAt, Json.child, JsMap.find, Json.shape] at this

/-- One signature, two accepted frames that differ in their expiry and capabilities, although no two
messages share a signature. -/
theorem signature_covers_two :
    (∀ sig m m' pk, sampleCrypto.ed25519Verify sig m pk = some true →
      sampleCrypto.ed25519Verify sig m' pk = some true → m = m') ∧
    Accepts sampleCrypto ("ed25519:" ++ sampleKey) signedFrame ∧
    Accepts sampleCrypto ("ed25519:" ++ sampleKey) alteredFrame ∧
    signedFrame.signature = alteredFrame.signature ∧
    ¬ Json.Same signedFrame.metadata alteredFrame.metadata :=
  ⟨sampleCrypto_unique, sample_accepted (.inl rfl), sample_accepted (.inr rfl), rfl, sample_metadata_differ⟩

/-- The altered frame differs from the signed one at a path that is not written. -/
theorem altered_not_visible :
    ¬ ∀ path, Json.shapeAt path signedFrame.metadata ≠ Json.shapeAt path alteredFrame.metadata →
      Json.Visible signedFrame.signedNames path := fun h =>
  sample_metadata_differ ((accepted_agree_iff sampleCrypto_unique (sample_accepted (.inl rfl))
    (sample_accepted (.inr rfl)) rfl).2 h).2.2.2

end NpsSdk.Nip
