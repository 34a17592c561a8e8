import NpsSdk.Nip.IdentFrame

/-!
# X.509 certificates

`nip/x509/oids.ts` and `nip/x509/builder.ts`: certificates as their parser shows them, and the leaf
and root certificates the builder makes.
-/

namespace NpsSdk.Nip.X509

open NpsSdk.Lib

/-! ### Object identifiers -/

def LAB_ACACIA_PEN_ARC : String := "1.3.6.1.4.1.65715"
def EKU_ARC : String := LAB_ACACIA_PEN_ARC ++ ".1"
def EXTENSION_ARC : String := LAB_ACACIA_PEN_ARC ++ ".2"
def EKU_AGENT_IDENTITY : String := EKU_ARC ++ ".1"
def EKU_NODE_IDENTITY : String := EKU_ARC ++ ".2"
def NID_ASSURANCE_LEVEL : String := EXTENSION_ARC ++ ".1"
def OID_EXTENDED_KEY_USAGE : String := "2.5.29.37"
def OID_BASIC_CONSTRAINTS : String := "2.5.29.19"
def OID_KEY_USAGE : String := "2.5.29.15"
def OID_SUBJECT_ALTERNATIVE_NAME : String := "2.5.29.17"

/-! ### Certificates -/

structure GeneralName where
  type : String
  value : String
deriving DecidableEq

inductive ExtensionValue where
  | basicConstraints (ca : Bool)
  | keyUsages (flags : List String)
  | extendedKeyUsage (usages : List String)
  | subjectAlternativeName (names : List GeneralName)
  | der (bytes : List ℕ)
deriving DecidableEq

structure Extension where
  type : String
  critical : Bool
  value : ExtensionValue
deriving DecidableEq

/-- What a certificate's signature is over. -/
structure TbsCertificate where
  serialNumber : String
  issuer : String
  subject : String
  notBefore : ℤ
  notAfter : ℤ
  publicKey : String
  extensions : List Extension
deriving DecidableEq

structure X509Certificate where
  rawData : String
  tbs : TbsCertificate
  signature : String
deriving DecidableEq

def TbsCertificate.isCa (tbs : TbsCertificate) : Bool :=
  (tbs.extensions.findSome? fun e => match e.value with
    | .basicConstraints ca => some ca
    | _ => none).getD false

/-! ### Distinguished names -/

/-- The characters that are escaped in a distinguished name. -/
def dnSpecials : List Char := ['"', ',', '+', ';', '<', '>', '\\']

def escapeDn (value : String) : String :=
  String.ofList (value.toList.flatMap fun c => if c ∈ dnSpecials then ['\\', c] else [c])

/-- Undoes the escapes of a distinguished name. -/
def unescapeDn : List Char → List Char
  | '\\' :: c :: cs =>
    if c ∈ dnSpecials then c :: unescapeDn cs else '\\' :: unescapeDn (c :: cs)
  | c :: cs => c :: unescapeDn cs
  | [] => []

/-! ### The builder -/

inductive LeafRole
  | agent | node
  deriving DecidableEq

structure IssueLeafOptions where
  subjectNid : String
  subjectPublicKey : String
  issuerNid : String
  role : LeafRole
  assuranceLevel : AssuranceLevel
  notBefore : ℤ
  notAfter : ℤ
  serialNumber : String
deriving DecidableEq

structure IssueRootOptions where
  caNid : String
  publicKey : String
  notBefore : ℤ
  notAfter : ℤ
  serialNumber : String

/-- What `issueLeaf` has the CA sign. -/
def issueLeaf (opts : IssueLeafOptions) : TbsCertificate :=
  let ekuOid := match opts.role with
    | .node => EKU_NODE_IDENTITY
    | .agent => EKU_AGENT_IDENTITY
  -- an ASN.1 ENUMERATED
  let assuranceDer := [0x0a, 0x01, opts.assuranceLevel.rank]
  { serialNumber := opts.serialNumber
    issuer := "CN=" ++ escapeDn opts.issuerNid
    subject := "CN=" ++ escapeDn opts.subjectNid
    notBefore := opts.notBefore
    notAfter := opts.notAfter
    publicKey := opts.subjectPublicKey
    extensions :=
      [⟨OID_BASIC_CONSTRAINTS, true, .basicConstraints false⟩,
        ⟨OID_KEY_USAGE, true, .keyUsages ["digitalSignature"]⟩,
        ⟨OID_EXTENDED_KEY_USAGE, true, .extendedKeyUsage [ekuOid]⟩,
        ⟨OID_SUBJECT_ALTERNATIVE_NAME, false, .subjectAlternativeName [⟨"url", opts.subjectNid⟩]⟩,
        ⟨NID_ASSURANCE_LEVEL, false, .der assuranceDer⟩] }

/-- What `issueRoot` has the CA sign. -/
def issueRoot (opts : IssueRootOptions) : TbsCertificate :=
  { serialNumber := opts.serialNumber
    issuer := "CN=" ++ escapeDn opts.caNid
    subject := "CN=" ++ escapeDn opts.caNid
    notBefore := opts.notBefore
    notAfter := opts.notAfter
    publicKey := opts.publicKey
    extensions :=
      [⟨OID_BASIC_CONSTRAINTS, true, .basicConstraints true⟩,
        ⟨OID_KEY_USAGE, true, .keyUsages ["keyCertSign", "cRLSign"]⟩] }

@[simp] theorem isCa_issueLeaf (opts : IssueLeafOptions) : (issueLeaf opts).isCa = false := rfl

end NpsSdk.Nip.X509
