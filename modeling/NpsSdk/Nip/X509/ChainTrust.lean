import NpsSdk.Lib.Except
import NpsSdk.Lib.Trust
import NpsSdk.Nip.X509.Verifier

/-!
# Who may issue

`verify` follows the signatures of a chain, whatever the certificates of the chain allow.  So a leaf
certificate can issue; a chain whose issuers are all CA certificates leads to a leaf that the CA has
certified.
-/

namespace NpsSdk.Nip.X509

open NpsSdk.Lib

variable {crypto : Crypto} {opts : VerifyOptions}

/-- Each certificate that vouches for another one of the chain is a CA's: the certificates above the
leaf, and the root, unless it is the last certificate itself. -/
def IssuersAreCa (rest : List X509Certificate) (last root : X509Certificate) : Prop :=
  (∀ cert ∈ rest, cert.tbs.isCa = true) ∧ (last.rawData = root.rawData ∨ root.tbs.isCa = true)

/-- **Soundness** of an answer: it is valid only if all issuers are CAs. -/
def ChainSound (crypto : Crypto) (opts : VerifyOptions) : Prop :=
  (verify crypto opts).valid = true → ∀ leaf rest last root,
    opts.certChainBase64UrlDer.mapM crypto.decode = .ok (leaf :: rest) →
    (leaf :: rest).getLast? = some last → anchorOf crypto last opts.trustedRootCerts = some root →
    IssuersAreCa rest last root

/-- A signed and anchored chain has an ordinary certificate among its issuers. -/
def OrdinaryIssuer (crypto : Crypto) (opts : VerifyOptions) : Prop :=
  ∃ leaf rest last root, Anchored crypto opts leaf rest last root ∧ ¬ IssuersAreCa rest last root

theorem chainSound_iff : ChainSound crypto opts ↔ ¬ OrdinaryIssuer crypto opts := by
  constructor
  · rintro h ⟨leaf, rest, last, root, hanchored, hno⟩
    have hvalid : (verify crypto opts).valid = true :=
      verify_valid_iff.2 ⟨leaf, rest, last, root, hanchored⟩
    exact hno (h hvalid leaf rest last root hanchored.decoded hanchored.ends hanchored.anchor)
  · intro h hvalid leaf rest last root hdecoded hlast hroot
    obtain ⟨leaf', rest', last', root', ha⟩ := verify_valid_iff.1 hvalid
    obtain ⟨rfl, rfl⟩ := List.cons.inj (Except.ok.inj (ha.decoded.symm.trans hdecoded))
    obtain rfl := Option.some.inj (ha.ends.symm.trans hlast)
    obtain rfl := Option.some.inj (ha.anchor.symm.trans hroot)
    by_contra hno
    exact h ⟨leaf', rest', last', root', ha, hno⟩

/-! ### What the CA has certified -/

def CaRoot (crypto : Crypto) (caKeys : String → Prop) (tbs : TbsCertificate) : Prop :=
  ∃ o key, tbs = issueRoot o ∧ crypto.exportKey o.publicKey = .ok key ∧ caKeys key

def Certified (crypto : Crypto) (caKeys : String → Prop) (issued : List IssueLeafOptions)
    (tbs : TbsCertificate) : Prop :=
  CaRoot crypto caKeys tbs ∨ ∃ o ∈ issued, tbs = issueLeaf o

/-- A CA that signs only its roots and the leaves `issued`; `signed` is what each key has signed. -/
structure CaWorld (crypto : Crypto) (roots : List X509Certificate)
    (signed : String → TbsCertificate → Prop) (caKeys : String → Prop)
    (issued : List IssueLeafOptions) : Prop where
  /-- What verifies under a key has been signed. -/
  unforgeable : ∀ signature tbs key, crypto.ed25519Verify signature tbs key = .ok true → signed key tbs
  signs : ∀ key tbs, caKeys key → signed key tbs → Certified crypto caKeys issued tbs
  trusted : ∀ root ∈ roots, CaRoot crypto caKeys root.tbs
  /-- Certificates of the same bytes are the same. -/
  parsed : ∀ root ∈ roots, ∀ text cert, crypto.decode text = .ok cert →
    cert.rawData = root.rawData → cert = root

section World

variable {roots : List X509Certificate} {signed : String → TbsCertificate → Prop}
  {caKeys : String → Prop} {issued : List IssueLeafOptions}

theorem CaWorld.certified_of_issuer (hw : CaWorld crypto roots signed caKeys issued)
    {cert issuer : X509Certificate} (hissuer : Certified crypto caKeys issued issuer.tbs)
    (hca : issuer.tbs.isCa = true) (hv : verifySignature crypto cert issuer = .ok true) :
    Certified crypto caKeys issued cert.tbs := by
  rcases hissuer with ⟨o, key, htbs, hkey, hcaKey⟩ | ⟨o, -, htbs⟩
  · unfold verifySignature at hv
    have hexport : crypto.exportKey issuer.tbs.publicKey = .ok key := by
      rw [htbs]
      exact hkey
    rw [hexport] at hv
    exact hw.signs key _ hcaKey (hw.unforgeable _ _ _ hv)
  · rw [htbs, isCa_issueLeaf] at hca
    cases hca

theorem CaWorld.certified_last {leaf last root : X509Certificate} {rest : List X509Certificate}
    (hw : CaWorld crypto opts.trustedRootCerts signed caKeys issued)
    (ha : Anchored crypto opts leaf rest last root) (hca : IssuersAreCa rest last root) :
    Certified crypto caKeys issued last.tbs := by
  have hroot : root ∈ opts.trustedRootCerts := List.mem_of_find?_eq_some ha.anchor
  have hanchor := List.find?_some ha.anchor
  by_cases hraw : last.rawData = root.rawData
  · obtain ⟨text, -, htext⟩ := exists_of_mem_mapM ha.decoded (List.mem_of_getLast? ha.ends)
    rw [hw.parsed root hroot text last htext hraw]
    exact .inl (hw.trusted root hroot)
  · have hv : verifySignature crypto last root = .ok true := by
      simp only [hraw, decide_false, Bool.false_or] at hanchor
      split at hanchor
      · assumption
      · cases hanchor
    exact hw.certified_of_issuer (.inl (hw.trusted root hroot)) (hca.2.resolve_left hraw) hv

/-- **Only what the CA has certified verifies**, where the issuers of a chain are CAs. -/
theorem CaWorld.subject_certified (hw : CaWorld crypto opts.trustedRootCerts signed caKeys issued)
    (hno : ¬ OrdinaryIssuer crypto opts) (hvalid : (verify crypto opts).valid = true) :
    ∃ o ∈ issued, o.subjectNid = opts.assertedNid := by
  obtain ⟨leaf, rest, last, root, ha⟩ := verify_valid_iff.1 hvalid
  have hca : IssuersAreCa rest last root := by
    by_contra hca
    exact hno ⟨leaf, rest, last, root, ha, hca⟩
  have hleaf : Certified crypto caKeys issued leaf.tbs := by
    have hlast : ∀ c ∈ (leaf :: rest).getLast?, Certified crypto caKeys issued c.tbs := by
      intro c hc
      rw [ha.ends, Option.mem_some_iff] at hc
      subst hc
      exact hw.certified_last ha hca
    exact certified_of_chain ha.links hca.1 hlast
      (fun d c hd hauth hv => hw.certified_of_issuer hd hauth hv) leaf (List.mem_cons_self ..)
  rcases hleaf with ⟨o, key, htbs, -, -⟩ | ⟨o, ho, htbs⟩
  · -- a root has no identity usage
    have heku := ha.accepted.eku
    unfold checkLeafEku at heku
    rw [htbs] at heku
    cases heku
  · refine ⟨o, ho, ?_⟩
    have hsubject := ha.accepted.subject
    unfold checkSubjectNid at hsubject
    rw [htbs] at hsubject
    dsimp only at hsubject
    split at hsubject
    · cases hsubject
    · by_contra hne
      simp [issueLeaf, fail, Ne.symm hne] at hsubject

end World

/-- **Chain soundness**: an accepted chain has only CA certificates as issuers exactly where no
ordinary certificate is among the issuers of an anchored chain, and then the CA has certified the
asserted NID. -/
theorem chain_sound_iff (crypto : Crypto) (opts : VerifyOptions) :
    (ChainSound crypto opts ↔ ¬ OrdinaryIssuer crypto opts) ∧
      ∀ signed caKeys issued, CaWorld crypto opts.trustedRootCerts signed caKeys issued →
        ¬ OrdinaryIssuer crypto opts → (verify crypto opts).valid = true →
        ∃ o ∈ issued, o.subjectNid = opts.assertedNid :=
  ⟨chainSound_iff, fun _ _ _ hw => hw.subject_certified⟩

/-! ### A leaf that issues -/

def sampleRoot : IssueRootOptions :=
  { caNid := "urn:nps:ca:x", publicKey := "ca-key", notBefore := 0, notAfter := 1000, serialNumber := "01" }

/-- A leaf for the key `key`. -/
def sampleLeaf (subjectNid key : String) : IssueLeafOptions :=
  { subjectNid, subjectPublicKey := key, issuerNid := "urn:nps:ca:x", role := .agent,
    assuranceLevel := .anonymous, notBefore := 0, notAfter := 1000, serialNumber := "02" }

def mallory : String := "urn:nps:agent:x:mallory"
def victim : String := "urn:nps:agent:x:victim"

/-- The CA signs its root and a leaf for `mallory`, whose key signs a leaf for `victim`. -/
def sampleSigned : List (String × TbsCertificate) :=
  [("ca-key", issueRoot sampleRoot), ("ca-key", issueLeaf (sampleLeaf mallory "mallory-key")),
    ("mallory-key", issueLeaf (sampleLeaf victim "victim-key"))]

def sampleCert (rawData key : String) (tbs : TbsCertificate) : X509Certificate :=
  { rawData, tbs, signature := key }

def sampleCerts : List X509Certificate :=
  [sampleCert "root" "ca-key" (issueRoot sampleRoot),
    sampleCert "mallory" "ca-key" (issueLeaf (sampleLeaf mallory "mallory-key")),
    sampleCert "victim" "mallory-key" (issueLeaf (sampleLeaf victim "victim-key"))]

/-- The certificates above go by their bytes, and a signature names its key. -/
def sampleCrypto : Crypto where
  decode text := match sampleCerts.find? fun cert => cert.rawData = text with
    | some cert => .ok cert
    | none => .error "no certificate"
  exportKey := .ok
  ed25519Verify signature tbs key := .ok (decide (signature = key ∧ (key, tbs) ∈ sampleSigned))

/-- A request that presents the chain for the NID. -/
def sampleOptions (chain : List String) (nid : String) : VerifyOptions :=
  { certChainBase64UrlDer := chain, assertedNid := nid, assertedAssuranceLevel := none,
    trustedRootCerts := [sampleCert "root" "ca-key" (issueRoot sampleRoot)] }

theorem sample_world : CaWorld sampleCrypto [sampleCert "root" "ca-key" (issueRoot sampleRoot)]
    (fun key tbs => (key, tbs) ∈ sampleSigned) (fun key => key = "ca-key") [sampleLeaf mallory "mallory-key"] := by
  constructor
  · intro signature tbs key h
    simp only [sampleCrypto, Except.ok.injEq, decide_eq_true_eq] at h
    exact h.2
  · rintro key tbs rfl hsigned
    simp only [sampleSigned, List.mem_cons, Prod.mk.injEq, List.not_mem_nil, or_false] at hsigned
    rcases hsigned with ⟨-, rfl⟩ | ⟨-, rfl⟩ | ⟨hkey, -⟩
    · exact .inl ⟨sampleRoot, "ca-key", rfl, rfl, rfl⟩
    · exact .inr ⟨_, List.mem_singleton_self _, rfl⟩
    · exact absurd hkey (by decide)
  · intro root hroot
    obtain rfl := List.mem_singleton.1 hroot
    exact ⟨sampleRoot, "ca-key", rfl, rfl, rfl⟩
  · intro root hroot text cert hdecode hraw
    obtain rfl := List.mem_singleton.1 hroot
    unfold sampleCrypto at hdecode
    dsimp only at hdecode
    split at hdecode
    · rename_i cert' hfind
      cases hdecode
      have hmem := List.mem_of_find?_eq_some hfind
      simp only [sampleCerts, List.mem_cons, List.not_mem_nil, or_false] at hmem
      rcases hmem with rfl | rfl | rfl
      · rfl
      · exact absurd hraw (by decide)
      · exact absurd hraw (by decide)
    · cases hdecode

/-- The leaf of `mallory` verifies, and the CA has certified it. -/
theorem mallory_certified : ∃ o ∈ [sampleLeaf mallory "mallory-key"], o.subjectNid = mallory := by
  have hsound : ChainSound sampleCrypto (sampleOptions ["mallory"] mallory) := by
    rintro - leaf rest last root hdecoded hlast hroot
    have hchain : (sampleOptions ["mallory"] mallory).certChainBase64UrlDer.mapM sampleCrypto.decode =
        .ok [sampleCert "mallory" "ca-key" (issueLeaf (sampleLeaf mallory "mallory-key"))] := by
      decide
    obtain ⟨rfl, rfl⟩ := List.cons.inj (Except.ok.inj (hdecoded.symm.trans hchain))
    obtain rfl := List.mem_singleton.1 (List.mem_of_find?_eq_some hroot)
    exact ⟨by simp, .inr rfl⟩
  have h := chain_sound_iff sampleCrypto (sampleOptions ["mallory"] mallory)
  exact h.2 _ _ _ sample_world (h.1.1 hsound) (by decide)

/-- The chain in which `mallory` issues for `victim` is accepted, and no CA has certified `victim`. -/
theorem leaf_issues_for_victim :
    ¬ ChainSound sampleCrypto (sampleOptions ["victim", "mallory"] victim) ∧
      (verify sampleCrypto (sampleOptions ["victim", "mallory"] victim)).valid = true ∧
      CaWorld sampleCrypto (sampleOptions ["victim", "mallory"] victim).trustedRootCerts
        (fun key tbs => (key, tbs) ∈ sampleSigned) (fun key => key = "ca-key")
        [sampleLeaf mallory "mallory-key"] ∧
      ∀ o ∈ [sampleLeaf mallory "mallory-key"], o.subjectNid ≠ victim := by
  have hvalid : (verify sampleCrypto (sampleOptions ["victim", "mallory"] victim)).valid = true := by
    decide
  refine ⟨fun h => ?_, hvalid, sample_world, by decide⟩
  have hca := h hvalid _ _ _ _ (show _ = Except.ok
    [sampleCert "victim" "mallory-key" (issueLeaf (sampleLeaf victim "victim-key")),
      sampleCert "mallory" "ca-key" (issueLeaf (sampleLeaf mallory "mallory-key"))] by decide)
    rfl (show _ = some (sampleCert "root" "ca-key" (issueRoot sampleRoot)) by decide)
  exact absurd (hca.1 _ (List.mem_singleton_self _)) (by decide)

end NpsSdk.Nip.X509
