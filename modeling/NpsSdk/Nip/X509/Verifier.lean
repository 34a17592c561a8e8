import Mathlib.Data.List.Chain
import NpsSdk.Nip.X509.Certificate

/-!
# Verifying certificate chains

`verify` of `nip/x509/verifier.ts`, and what an accepted chain has passed.
-/

namespace NpsSdk.Nip.X509

open NpsSdk.Lib

def CERT_FORMAT_INVALID : String := "NIP-CERT-FORMAT-INVALID"
def CERT_EKU_MISSING : String := "NIP-CERT-EKU-MISSING"
def CERT_SUBJECT_NID_MISMATCH : String := "NIP-CERT-SUBJECT-NID-MISMATCH"
def ASSURANCE_MISMATCH : String := "NIP-ASSURANCE-MISMATCH"
def ASSURANCE_UNKNOWN : String := "NIP-ASSURANCE-UNKNOWN"

structure NipX509VerifyResult where
  valid : Bool
  errorCode : Option String := none
  message : Option String := none
  leaf : Option X509Certificate := none

def ok (leaf : X509Certificate) : NipX509VerifyResult := { valid := true, leaf := some leaf }

def fail (errorCode message : String) : NipX509VerifyResult :=
  { valid := false, errorCode := some errorCode, message := some message }

structure VerifyOptions where
  certChainBase64UrlDer : List String
  assertedNid : String
  assertedAssuranceLevel : Option AssuranceLevel
  trustedRootCerts : List X509Certificate

/-- The certificate parser and Ed25519; an error is the message of an exception. -/
structure Crypto where
  /-- The certificate of a base64url DER text. -/
  decode : String → Except String X509Certificate
  /-- `publicKey.export()`. -/
  exportKey : String → Except String String
  ed25519Verify : (signature : String) → (tbs : TbsCertificate) → (key : String) → Except String Bool

/-! ### The leaf -/

def checkLeafEku (leaf : X509Certificate) : NipX509VerifyResult :=
  match leaf.tbs.extensions.find? fun e => e.type = OID_EXTENDED_KEY_USAGE with
  | none => fail CERT_EKU_MISSING "leaf has no ExtendedKeyUsage extension"
  | some ekuExt =>
    if ¬ ekuExt.critical then
      fail CERT_EKU_MISSING "ExtendedKeyUsage extension is not marked critical"
    else
      let usages := match ekuExt.value with
        | .extendedKeyUsage usages => usages
        | _ => []
      if EKU_AGENT_IDENTITY ∉ usages ∧ EKU_NODE_IDENTITY ∉ usages then
        fail CERT_EKU_MISSING "ExtendedKeyUsage does not contain agent-identity or node-identity OID"
      else ok leaf

def stripQuotes (value : List Char) : List Char :=
  if value.head? = some '"' ∧ value.getLast? = some '"' then value.tail.dropLast else value

def extractCn (dn : String) : Option String :=
  (split dn ',').findSome? fun rdn =>
    let trimmed := trim rdn
    if startsWith trimmed "CN=" then
      some (String.ofList (unescapeDn (stripQuotes (trimmed.toList.drop 3))))
    else none

def checkSubjectNid (leaf : X509Certificate) (assertedNid : String) : NipX509VerifyResult :=
  let cn := extractCn leaf.tbs.subject
  if cn ≠ some assertedNid then
    fail CERT_SUBJECT_NID_MISMATCH ("leaf subject CN (" ++ cn.getD "<missing>" ++
      ") does not match asserted NID (" ++ assertedNid ++ ")")
  else
    let sanExt := leaf.tbs.extensions.findSome? fun e => match e.value with
      | .subjectAlternativeName names => some names
      | _ => none
    match sanExt with
    | none => fail CERT_SUBJECT_NID_MISMATCH "leaf has no Subject Alternative Name extension"
    | some names =>
      let uris := (names.filter fun n => n.type = "url").map GeneralName.value
      if assertedNid ∉ uris then fail CERT_SUBJECT_NID_MISMATCH "no SAN URI matches asserted NID"
      else ok leaf

def hexDigit (n : ℕ) : Char := "0123456789abcdef".toList.getD n '0'

def hexOf (bytes : List ℕ) : String :=
  String.ofList (bytes.flatMap fun b => [hexDigit (b / 16), hexDigit (b % 16)])

def fromRank (rank : ℕ) : Option AssuranceLevel :=
  [AssuranceLevel.anonymous, .attested, .verified].find? fun level => level.rank = rank

def checkAssuranceLevel (leaf : X509Certificate) (asserted : Option AssuranceLevel) :
    NipX509VerifyResult :=
  match asserted with
  | none => ok leaf
  | some asserted =>
    match leaf.tbs.extensions.find? fun e => e.type = NID_ASSURANCE_LEVEL with
    | none => ok leaf
    | some ext =>
      let der := match ext.value with
        | .der bytes => bytes
        | _ => []
      match der with
      | [0x0a, 0x01, rank] =>
        match fromRank rank with
        | none =>
          fail ASSURANCE_UNKNOWN ("assurance-level extension contains unknown value: " ++ toString rank)
        | some certLevel =>
          if certLevel ≠ asserted then
            fail ASSURANCE_MISMATCH ("cert assurance-level (" ++ certLevel.wire ++
              ") does not match asserted (" ++ asserted.wire ++ ")")
          else ok leaf
      | der => fail CERT_FORMAT_INVALID ("malformed assurance-level extension: " ++ hexOf der)

/-! ### The signatures -/

variable (crypto : Crypto)

def verifySignature (cert issuer : X509Certificate) : Except String Bool := do
  let key ← crypto.exportKey issuer.tbs.publicKey
  crypto.ed25519Verify cert.signature cert.tbs key

/-- The first link of a chain that does not verify, counted from `i`. -/
def brokenLink (i : ℕ) : List X509Certificate → Except String (Option ℕ)
  | cert :: issuer :: rest => do
    let okStep ← verifySignature crypto cert issuer
    if okStep then brokenLink (i + 1) (issuer :: rest) else pure (some i)
  | _ => pure none

def anchorOf (last : X509Certificate) (trustedRoots : List X509Certificate) : Option X509Certificate :=
  trustedRoots.find? fun root =>
    last.rawData = root.rawData || verifySignature crypto last root matches .ok true

def checkChainSignature (chain trustedRoots : List X509Certificate) : NipX509VerifyResult :=
  if trustedRoots = [] then fail CERT_FORMAT_INVALID "no trusted X.509 roots configured"
  else match chain, chain.getLast? with
    | leaf :: _, some last =>
      match brokenLink crypto 0 chain with
      | .error message => fail CERT_FORMAT_INVALID ("chain signature verification error: " ++ message)
      | .ok (some i) =>
        fail CERT_FORMAT_INVALID ("chain link " ++ toString i ++ " signature did not verify")
      | .ok none =>
        match anchorOf crypto last trustedRoots with
        | some _ => ok leaf
        | none => fail CERT_FORMAT_INVALID "chain does not anchor to any trusted root"
    | _, _ => fail CERT_FORMAT_INVALID "chain signature verification error: "

def verify (opts : VerifyOptions) : NipX509VerifyResult :=
  if opts.certChainBase64UrlDer = [] then fail CERT_FORMAT_INVALID "cert_chain is empty"
  else match opts.certChainBase64UrlDer.mapM crypto.decode with
    | .error message => fail CERT_FORMAT_INVALID ("DER decode failed: " ++ message)
    | .ok [] => fail CERT_FORMAT_INVALID "cert_chain is empty"
    | .ok (leaf :: rest) =>
      let ekuResult := checkLeafEku leaf
      if ¬ ekuResult.valid then ekuResult
      else
        let subjectResult := checkSubjectNid leaf opts.assertedNid
        if ¬ subjectResult.valid then subjectResult
        else
          let assuranceResult := checkAssuranceLevel leaf opts.assertedAssuranceLevel
          if ¬ assuranceResult.valid then assuranceResult
          else
            let chainResult := checkChainSignature crypto (leaf :: rest) opts.trustedRootCerts
            if ¬ chainResult.valid then chainResult else ok leaf

/-! ### What an accepted chain has passed -/

def LinksVerify (chain : List X509Certificate) : Prop :=
  chain.IsChain fun cert issuer => verifySignature crypto cert issuer = .ok true

structure LeafAccepted (opts : VerifyOptions) (leaf : X509Certificate) : Prop where
  eku : (checkLeafEku leaf).valid = true
  subject : (checkSubjectNid leaf opts.assertedNid).valid = true
  assurance : (checkAssuranceLevel leaf opts.assertedAssuranceLevel).valid = true

/-- The certificates a request presents form a signed chain from a leaf it may assert to a root. -/
structure Anchored (opts : VerifyOptions) (leaf : X509Certificate) (rest : List X509Certificate)
    (last root : X509Certificate) : Prop where
  decoded : opts.certChainBase64UrlDer.mapM crypto.decode = .ok (leaf :: rest)
  accepted : LeafAccepted opts leaf
  links : LinksVerify crypto (leaf :: rest)
  ends : (leaf :: rest).getLast? = some last
  anchor : anchorOf crypto last opts.trustedRootCerts = some root

variable {crypto} {opts : VerifyOptions} {chain : List X509Certificate}

theorem brokenLink_eq_none {i : ℕ} : brokenLink crypto i chain = .ok none ↔ LinksVerify crypto chain := by
  unfold LinksVerify
  induction chain generalizing i with
  | nil => simp [brokenLink, pure, Except.pure]
  | cons cert rest ih =>
    cases rest with
    | nil => simp [brokenLink, pure, Except.pure]
    | cons issuer rest =>
      rw [brokenLink, List.isChain_cons_cons]
      cases hv : verifySignature crypto cert issuer with
      | error message => simp [bind, Except.bind]
      | ok verdict =>
        cases verdict with
        | false => simp [bind, Except.bind, pure, Except.pure]
        | true => simpa [bind, Except.bind] using ih

theorem checkChainSignature_valid {leaf : X509Certificate} {rest roots : List X509Certificate} :
    (checkChainSignature crypto (leaf :: rest) roots).valid = true ↔
      LinksVerify crypto (leaf :: rest) ∧
        ∃ last root, (leaf :: rest).getLast? = some last ∧ anchorOf crypto last roots = some root := by
  unfold checkChainSignature
  rw [← brokenLink_eq_none (i := 0)]
  split
  · rename_i hroots
    subst hroots
    simp [fail, anchorOf]
  · split
    · rename_i leaf' rest' last hchain hlast
      rw [hlast]
      split
      · rename_i message hlinks
        simp [fail, hlinks]
      · rename_i i hlinks
        simp [fail, hlinks]
      · rename_i hlinks
        split
        · rename_i root hroot
          simp [ok, hlinks, hroot]
        · rename_i hroot
          simp [fail, hroot]
    · rename_i hno
      exact absurd rfl (hno leaf rest _ rfl)

/-- **`verify` accepts exactly the anchored chains.** -/
theorem verify_valid_iff : (verify crypto opts).valid = true ↔
    ∃ leaf rest last root, Anchored crypto opts leaf rest last root := by
  constructor
  · intro h
    unfold verify at h
    split at h
    · cases h
    split at h
    · cases h
    · cases h
    rename_i leaf rest hdecoded
    dsimp only at h
    split at h
    · exact absurd h ‹_›
    rename_i heku
    split at h
    · exact absurd h ‹_›
    rename_i hsubject
    split at h
    · exact absurd h ‹_›
    rename_i hassurance
    split at h
    · exact absurd h ‹_›
    rename_i hchain
    obtain ⟨hlinks, last, root, hlast, hroot⟩ := checkChainSignature_valid.1 (not_not.1 hchain)
    exact ⟨leaf, rest, last, root, hdecoded,
      ⟨not_not.1 heku, not_not.1 hsubject, not_not.1 hassurance⟩, hlinks, hlast, hroot⟩
  · rintro ⟨leaf, rest, last, root, h⟩
    have hchain : (checkChainSignature crypto (leaf :: rest) opts.trustedRootCerts).valid = true :=
      checkChainSignature_valid.2 ⟨h.links, last, root, h.ends, h.anchor⟩
    have hne : opts.certChainBase64UrlDer ≠ [] := by
      intro hnil
      have hdecoded := h.decoded
      rw [hnil] at hdecoded
      cases hdecoded
    unfold verify
    rw [if_neg hne, h.decoded]
    simp [h.accepted.eku, h.accepted.subject, h.accepted.assurance, hchain, ok]

end NpsSdk.Nip.X509
