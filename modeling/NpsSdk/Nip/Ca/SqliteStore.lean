import Mathlib.Data.String.Basic
import NpsSdk.Lib.JsonReader
import NpsSdk.Lib.OrderBy
import NpsSdk.Nip.Ca.Effects
import NpsSdk.Nip.Ca.IsoDate

/-!
# The certificate store in a database

`SqliteNipCaStore` of `ca/sqlite-store.ts`: the table of certificates, with dates as ISO texts and the
capabilities as a JSON text, and the counter of serials.  How the database orders rows with the same key is a
parameter.
-/

namespace NpsSdk.Nip.Ca

open NpsSdk.Lib

/-- A row of `nip_certs`. -/
structure CertRow where
  nid : String
  entity_type : String
  serial : String
  pub_key : String
  capabilities_json : String
  scope_json : String
  issued_by : String
  issued_at : String
  expires_at : String
  revoked_at : Option String := none
  revoke_reason : Option String := none
  metadata_json : Option String
  nid_role : Option String
  parent_nid : Option String
  lineage_json : Option String

/-! ### Columns -/

/-- `d.toISOString()`, which throws for a date out of range. -/
def toIso (d : ℤ) : Except CaError String :=
  match toISOString d with
  | some text => .ok text
  | none => .error (.error "Invalid time value")

/-- `new Date(text)`, for a text that was written by `toIso`. -/
def newDate (text : String) : Except CaError ℤ :=
  match parseISOString text with
  | some d => .ok d
  | none => .error (.error "Invalid Date")

/-- `JSON.stringify(capabilities)`. -/
def capabilitiesText (capabilities : List String) : String :=
  String.ofList (Json.arr (capabilities.map .str)).text

/-- `JSON.parse(text) ?? []`, as an array of texts. -/
def readCapabilities (text : String) : Except CaError (List String) :=
  match Json.parse text.toList with
  | some (.arr items) => .ok (items.filterMap fun | .str s => some s | _ => none)
  | some .null => .ok []
  | _ => .error (.error "SyntaxError")

/-- The row that is inserted for a record; the columns of a revocation are not among those set. -/
def insertedRow (record : NipCertRecord) : Except CaError CertRow := do
  let issued_at ← toIso record.issuedAt
  let expires_at ← toIso record.expiresAt
  pure
    { nid := record.nid, entity_type := record.entityType, serial := record.serial, pub_key := record.pubKey,
      capabilities_json := capabilitiesText record.capabilities, scope_json := record.scopeJson,
      issued_by := record.issuedBy, issued_at, expires_at, metadata_json := record.metadataJson,
      nid_role := record.nidRole, parent_nid := record.parentNid, lineage_json := record.lineageJson }

/-- The date of a column that may be null or empty. -/
def readRevokedAt (column : Option String) : Except CaError (Option ℤ) :=
  match truthy column with
  | none => .ok none
  | some text => (newDate text).map some

def readRecord (r : CertRow) : Except CaError NipCertRecord := do
  let capabilities ← readCapabilities r.capabilities_json
  let issuedAt ← newDate r.issued_at
  let expiresAt ← newDate r.expires_at
  let revokedAt ← readRevokedAt r.revoked_at
  pure
    { nid := r.nid, entityType := r.entity_type, serial := r.serial, pubKey := r.pub_key, capabilities,
      scopeJson := r.scope_json, issuedBy := r.issued_by, issuedAt, expiresAt, revokedAt,
      revokeReason := r.revoke_reason, metadataJson := r.metadata_json, nidRole := r.nid_role,
      parentNid := r.parent_nid, lineageJson := r.lineage_json }

/-! ### Statements -/

/-- The tables: the certificates in the order of their insertion, and the `seq` of the only row of
`nip_serial`. -/
structure SqliteNipCaStore where
  nip_certs : List CertRow := []
  seq : ℕ := 0

/-- How the database orders rows by a column, in descending order. -/
abbrev RowOrder := (CertRow → String) → List CertRow → List CertRow

namespace SqliteNipCaStore

/-- `INSERT INTO nip_certs`; the column `serial` is unique. -/
def save (s : SqliteNipCaStore) (record : NipCertRecord) : Except CaError Unit × SqliteNipCaStore :=
  match insertedRow record with
  | .error e => (.error e, s)
  | .ok row =>
    if s.nip_certs.any fun r => r.serial == row.serial then
      (.error (.error "UNIQUE constraint failed: nip_certs.serial"), s)
    else (.ok (), { s with nip_certs := s.nip_certs ++ [row] })

def readFirst : Option CertRow → Except CaError (Option NipCertRecord)
  | none => .ok none
  | some row => (readRecord row).map some

/-- `WHERE nid = ? ORDER BY issued_at DESC LIMIT 1`. -/
def getByNid (orderBy : RowOrder) (s : SqliteNipCaStore) (nid : String) : Except CaError (Option NipCertRecord) :=
  readFirst (orderBy CertRow.issued_at (s.nip_certs.filter fun r => r.nid == nid)).head?

/-- `WHERE serial = ? LIMIT 1`. -/
def getBySerial (s : SqliteNipCaStore) (serial : String) : Except CaError (Option NipCertRecord) :=
  readFirst (s.nip_certs.find? fun r => r.serial == serial)

/-- `WHERE nid = ? AND revoked_at IS NULL`. -/
def unrevoked (nid : String) (r : CertRow) : Bool := r.nid == nid && r.revoked_at.isNone

/-- `UPDATE nip_certs SET revoked_at = ?, revoke_reason = ?`, and whether it changed a row. -/
def revoke (s : SqliteNipCaStore) (nid reason : String) (revokedAt : ℤ) :
    Except CaError Bool × SqliteNipCaStore :=
  match toIso revokedAt with
  | .error e => (.error e, s)
  | .ok text =>
    (.ok (decide (0 < s.nip_certs.countP (unrevoked nid))),
      { s with nip_certs := s.nip_certs.map fun r =>
          if unrevoked nid r then { r with revoked_at := some text, revoke_reason := some reason } else r })

def nextSerial (s : SqliteNipCaStore) : String × SqliteNipCaStore :=
  let digits := String.ofList ((Nat.toDigits 16 (s.seq + 1)).map Char.toUpper)
  (s!"0x{digits}", { s with seq := s.seq + 1 })

/-- `ORDER BY issued_at DESC`. -/
def list (orderBy : RowOrder) (s : SqliteNipCaStore) : Except CaError (List NipCertRecord) :=
  (orderBy CertRow.issued_at s.nip_certs).mapM readRecord

/-- `WHERE revoked_at IS NOT NULL ORDER BY revoked_at DESC`. -/
def getRevoked (orderBy : RowOrder) (s : SqliteNipCaStore) : Except CaError (List NipCertRecord) :=
  (orderBy (fun r => r.revoked_at.getD "") (s.nip_certs.filter fun r => r.revoked_at.isSome)).mapM readRecord

/-- `WHERE parent_nid = ? ORDER BY issued_at DESC`. -/
def getByParentNid (orderBy : RowOrder) (s : SqliteNipCaStore) (parentNid : String) :
    Except CaError (List NipCertRecord) :=
  (orderBy CertRow.issued_at (s.nip_certs.filter fun r => r.parent_nid == some parentNid)).mapM readRecord

end SqliteNipCaStore

/-- Performs an operation of the store on the database. -/
def execSqlite (orderBy : RowOrder) (o : StoreOp) (s : SqliteNipCaStore) :
    Except CaError o.Res × SqliteNipCaStore :=
  match o with
  | .save record => s.save record
  | .getByNid nid => (s.getByNid orderBy nid, s)
  | .getBySerial serial => (s.getBySerial serial, s)
  | .revoke nid reason revokedAt => s.revoke nid reason revokedAt
  | .nextSerial => (.ok s.nextSerial.1, s.nextSerial.2)
  | .list => (s.list orderBy, s)
  | .getRevoked => (s.getRevoked orderBy, s)
  | .getByParentNid parentNid => (s.getByParentNid orderBy parentNid, s)

/-! ### The row of a record -/

/-- The text of a date in range. -/
def isoText (d : ℤ) : String := (toISOString d).getD ""

structure Dated (r : NipCertRecord) : Prop where
  issuedAt : ValidDate r.issuedAt
  expiresAt : ValidDate r.expiresAt
  revokedAt : ∀ t, r.revokedAt = some t → ValidDate t

def rowOf (r : NipCertRecord) : CertRow :=
  { nid := r.nid, entity_type := r.entityType, serial := r.serial, pub_key := r.pubKey,
    capabilities_json := capabilitiesText r.capabilities, scope_json := r.scopeJson, issued_by := r.issuedBy,
    issued_at := isoText r.issuedAt, expires_at := isoText r.expiresAt,
    revoked_at := r.revokedAt.map isoText, revoke_reason := r.revokeReason,
    metadata_json := r.metadataJson, nid_role := r.nidRole, parent_nid := r.parentNid,
    lineage_json := r.lineageJson }

section

variable {d : ℤ} {r : NipCertRecord}

theorem toIso_of_valid (h : ValidDate d) : toIso d = .ok (isoText d) := by
  obtain ⟨text, htext⟩ := toISOString_of_valid h
  simp [toIso, isoText, htext]

theorem newDate_isoText (h : ValidDate d) : newDate (isoText d) = .ok d := by
  obtain ⟨text, htext⟩ := toISOString_of_valid h
  simp [newDate, isoText, htext, parseISOString_toISOString htext]

theorem isoText_ne_empty (h : ValidDate d) : isoText d ≠ "" := by
  intro hempty
  have hread := newDate_isoText h
  have hno : newDate "" = .error (.error "Invalid Date") := by rfl
  rw [hempty, hno] at hread
  cases hread

theorem readCapabilities_text (capabilities : List String) :
    readCapabilities (capabilitiesText capabilities) = .ok capabilities := by
  have hbuilt : Json.builtItems (capabilities.map .str) = capabilities.map .str := by
    induction capabilities with
    | nil => rfl
    | cons c cs ih =>
      rw [List.map_cons, Json.builtItems, ih]
      rfl
  unfold readCapabilities capabilitiesText
  rw [String.toList_ofList, Json.parse_text, Json.built, hbuilt]
  simp [List.filterMap_map]

theorem readRevokedAt_isoText (h : ∀ t, r.revokedAt = some t → ValidDate t) :
    readRevokedAt (r.revokedAt.map isoText) = .ok r.revokedAt := by
  cases ht : r.revokedAt with
  | none => rfl
  | some t =>
    have htruthy : truthy (some (isoText t)) = some (isoText t) := by
      simp [truthy, isoText_ne_empty (h t ht)]
    simp only [Option.map_some, readRevokedAt, htruthy, newDate_isoText (h t ht)]
    rfl

/-- **A record reads back** from its row. -/
theorem readRecord_rowOf (h : Dated r) : readRecord (rowOf r) = .ok r := by
  unfold readRecord rowOf
  simp only [readCapabilities_text, newDate_isoText h.issuedAt, newDate_isoText h.expiresAt,
    readRevokedAt_isoText h.revokedAt]
  rfl

theorem insertedRow_eq (h : Dated r) : insertedRow r = .ok (rowOf r.issued) := by
  unfold insertedRow
  rw [toIso_of_valid h.issuedAt, toIso_of_valid h.expiresAt]
  rfl

end

end NpsSdk.Nip.Ca
