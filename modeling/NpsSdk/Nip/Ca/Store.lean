import NpsSdk.Lib.JsString

/-!
# Certificate records and the in-memory store

The persisted record of a certificate and the in-memory store of records: an append-only list in
which the last record of a NID is its current one.  Dates are milliseconds since the epoch.
-/

namespace NpsSdk.Nip.Ca

open NpsSdk.Lib

def NID_ROLE_GROUP : String := "group"
def NID_ROLE_SESSION : String := "session"

structure NipCertRecord where
  nid : String
  entityType : String
  serial : String
  pubKey : String
  capabilities : List String
  scopeJson : String
  issuedBy : String
  issuedAt : ℤ
  expiresAt : ℤ
  revokedAt : Option ℤ := none
  revokeReason : Option String := none
  metadataJson : Option String := none
  /-- Lineage role: a group, a session, or nothing for ordinary agents. -/
  nidRole : Option String := none
  /-- The parent NID, set on session records. -/
  parentNid : Option String := none
  /-- The signed lineage object as canonical JSON. -/
  lineageJson : Option String := none
deriving DecidableEq

/-- The record as `revoke` leaves it. -/
def NipCertRecord.markRevoked (reason : String) (revokedAt : ℤ) (r : NipCertRecord) :
    NipCertRecord :=
  { r with revokedAt := some revokedAt, revokeReason := some reason }

/-- Changes the last element that meets `p`. -/
def updateLast {α : Type} (p : α → Bool) (f : α → α) : List α → Option (List α)
  | [] => none
  | x :: xs =>
    match updateLast p f xs with
    | some ys => some (x :: ys)
    | none => if p x then some (f x :: xs) else none

structure InMemoryNipCaStore where
  records : List NipCertRecord := []
  serialCounter : ℕ := 0

namespace InMemoryNipCaStore

/-- Appends a record; a serial that is there already is refused with a message. -/
def save (s : InMemoryNipCaStore) (record : NipCertRecord) :
    Except String Unit × InMemoryNipCaStore :=
  if s.records.any fun r => r.serial == record.serial then
    let serial := record.serial
    (.error s!"Serial already exists: {serial}", s)
  else (.ok (), { s with records := s.records ++ [record] })

def getByNid (s : InMemoryNipCaStore) (nid : String) : Option NipCertRecord :=
  s.records.reverse.find? fun r => r.nid == nid

def getBySerial (s : InMemoryNipCaStore) (serial : String) : Option NipCertRecord :=
  s.records.find? fun r => r.serial == serial

def revoke (s : InMemoryNipCaStore) (nid reason : String) (revokedAt : ℤ) :
    Bool × InMemoryNipCaStore :=
  match updateLast (fun r => r.nid == nid && r.revokedAt.isNone)
      (NipCertRecord.markRevoked reason revokedAt) s.records with
  | some records => (true, { s with records })
  | none => (false, s)

def nextSerial (s : InMemoryNipCaStore) : String × InMemoryNipCaStore :=
  let digits := String.ofList ((Nat.toDigits 16 (s.serialCounter + 1)).map Char.toUpper)
  (s!"0x{digits}", { s with serialCounter := s.serialCounter + 1 })

def list (s : InMemoryNipCaStore) : List NipCertRecord := s.records

def getRevoked (s : InMemoryNipCaStore) : List NipCertRecord :=
  s.records.filter fun r => r.revokedAt.isSome

def getByParentNid (s : InMemoryNipCaStore) (parentNid : String) : List NipCertRecord :=
  s.records.filter fun r => r.parentNid == some parentNid

end InMemoryNipCaStore

/-! ### What the operations do to the records -/

section UpdateLast

variable {α : Type} {p : α → Bool} {f : α → α} {xs ys : List α}

theorem updateLast_eq_none (h : updateLast p f xs = none) : ∀ x ∈ xs, p x = false := by
  induction xs with
  | nil => simp
  | cons x xs ih =>
    rw [updateLast] at h
    cases hr : updateLast p f xs with
    | some zs => rw [hr] at h; cases h
    | none =>
      rw [hr] at h
      by_cases hp : p x = true
      · rw [if_pos hp] at h; cases h
      · simp only [List.mem_cons, forall_eq_or_imp]
        exact ⟨by simpa using hp, ih hr⟩

theorem updateLast_eq_some (h : updateLast p f xs = some ys) :
    ∃ pre x post, xs = pre ++ x :: post ∧ ys = pre ++ f x :: post ∧ p x = true ∧ ∀ y ∈ post, p y = false := by
  induction xs generalizing ys with
  | nil => cases h
  | cons x xs ih =>
    rw [updateLast] at h
    cases hr : updateLast p f xs with
    | some zs =>
      rw [hr, Option.some.injEq] at h
      obtain ⟨pre, z, post, rfl, rfl, hz, hpost⟩ := ih hr
      exact ⟨x :: pre, z, post, rfl, h ▸ rfl, hz, hpost⟩
    | none =>
      rw [hr] at h
      by_cases hp : p x = true
      · rw [if_pos hp, Option.some.injEq] at h
        exact ⟨[], x, xs, rfl, h ▸ rfl, hp, updateLast_eq_none hr⟩
      · rw [if_neg hp] at h; cases h

end UpdateLast

def NipCertRecord.issued (r : NipCertRecord) : NipCertRecord :=
  { r with revokedAt := none, revokeReason := none }

@[simp] theorem NipCertRecord.markRevoked_nid {reason : String} {t : ℤ} {r : NipCertRecord} :
    (r.markRevoked reason t).nid = r.nid := rfl

@[simp] theorem NipCertRecord.markRevoked_revokedAt {reason : String} {t : ℤ} {r : NipCertRecord} :
    (r.markRevoked reason t).revokedAt = some t := rfl

@[simp] theorem NipCertRecord.issued_markRevoked {reason : String} {t : ℤ} {r : NipCertRecord} :
    (r.markRevoked reason t).issued = r.issued := rfl

namespace InMemoryNipCaStore

variable {s : InMemoryNipCaStore} {nid n reason : String} {t : ℤ} {r record : NipCertRecord}

def CurrentRevoked (s : InMemoryNipCaStore) (nid : String) : Prop :=
  ∃ r, s.getByNid nid = some r ∧ r.revokedAt.isSome = true

theorem mem_of_getByNid (h : s.getByNid nid = some r) : r ∈ s.records ∧ r.nid = nid := by
  have hmem : r ∈ s.records := List.mem_reverse.1 (List.mem_of_find?_eq_some h)
  have hnid := List.find?_some h
  exact ⟨hmem, by simpa using hnid⟩

theorem getByNid_eq_none (h : s.getByNid nid = none) : ∀ r ∈ s.records, r.nid ≠ nid := by
  intro r hr
  have := List.find?_eq_none.1 h r (List.mem_reverse.2 hr)
  simpa using this

theorem getByNid_isSome (h : r ∈ s.records) : ∃ r', s.getByNid r.nid = some r' := by
  cases hg : s.getByNid r.nid with
  | some r' => exact ⟨r', rfl⟩
  | none => exact absurd rfl (getByNid_eq_none hg r h)

theorem getBySerial_of_mem (hapart : (s.records.map NipCertRecord.serial).Nodup) (hr : r ∈ s.records) :
    s.getBySerial r.serial = some r := by
  unfold getBySerial
  cases hfind : s.records.find? (fun x => x.serial == r.serial) with
  | none =>
    have hnone := List.find?_eq_none.1 hfind r hr
    simp at hnone
  | some x =>
    have hx : x ∈ s.records := List.mem_of_find?_eq_some hfind
    have hserial : x.serial = r.serial := by simpa using List.find?_some hfind
    rw [List.inj_on_of_nodup_map hapart hx hr hserial]

theorem save_cases (s : InMemoryNipCaStore) (record : NipCertRecord) :
    (∃ e, s.save record = (.error e, s)) ∨
      s.save record = (.ok (), { s with records := s.records ++ [record] }) := by
  unfold save
  split
  · exact .inl ⟨_, rfl⟩
  · exact .inr rfl

theorem getByNid_append : ({ s with records := s.records ++ [record] } :
    InMemoryNipCaStore).getByNid nid = if record.nid = nid then some record else s.getByNid nid := by
  by_cases h : record.nid = nid
  · simp [getByNid, h]
  · simp [getByNid, h]

theorem revoke_cases (s : InMemoryNipCaStore) (nid reason : String) (t : ℤ) :
    (∃ pre x post, s.records = pre ++ x :: post ∧ x.nid = nid ∧ x.revokedAt = none ∧
      (∀ y ∈ post, y.nid = nid → y.revokedAt.isSome = true) ∧
      s.revoke nid reason t =
        (true, { s with records := pre ++ x.markRevoked reason t :: post })) ∨
    (∀ x ∈ s.records, x.nid = nid → x.revokedAt.isSome = true) ∧
      s.revoke nid reason t = (false, s) := by
  unfold revoke
  split
  · rename_i ys h
    obtain ⟨pre, x, post, hx, rfl, hp, hpost⟩ := updateLast_eq_some h
    simp only [Bool.and_eq_true, beq_iff_eq, Option.isNone_iff_eq_none] at hp
    refine .inl ⟨pre, x, post, hx, hp.1, hp.2, fun y hy hn => ?_, rfl⟩
    have := hpost y hy
    simpa [hn] using this
  · rename_i h
    refine .inr ⟨fun x hx hn => ?_, rfl⟩
    have := updateLast_eq_none h x hx
    simpa [hn] using this

theorem issued_revoke : (s.revoke nid reason t).2.records.map NipCertRecord.issued =
    s.records.map NipCertRecord.issued := by
  rcases revoke_cases s nid reason t with ⟨pre, x, post, hs, -, -, -, h⟩ | ⟨-, h⟩
  · simp [h, hs]
  · rw [h]

theorem getByNid_issued {s' : InMemoryNipCaStore}
    (h : s'.records.map NipCertRecord.issued = s.records.map NipCertRecord.issued) :
    (s'.getByNid n).map NipCertRecord.issued = (s.getByNid n).map NipCertRecord.issued := by
  have hf : ∀ l : List NipCertRecord,
      (l.reverse.find? fun r => r.nid == n).map NipCertRecord.issued =
        (l.map NipCertRecord.issued).reverse.find? fun r => r.nid == n := by
    intro l
    rw [← List.map_reverse, List.find?_map]
    rfl
  unfold getByNid
  rw [hf, hf, h]

/-- The current record is looked for after `x`, at `x` and before `x`. -/
theorem getByNid_split {pre post : List NipCertRecord} {x : NipCertRecord} {k : ℕ} :
    (InMemoryNipCaStore.mk (pre ++ x :: post) k).getByNid n =
      ((post.reverse.find? fun r => r.nid == n).or
        (if x.nid = n then some x else pre.reverse.find? fun r => r.nid == n)) := by
  by_cases h : x.nid = n
  · simp [getByNid, List.find?_append, h]
  · simp [getByNid, List.find?_append, h]

theorem CurrentRevoked.revoke (h : s.CurrentRevoked n) : (s.revoke nid reason t).2.CurrentRevoked n := by
  rcases revoke_cases s nid reason t with ⟨pre, x, post, hs, -, -, -, hrev⟩ | ⟨-, hrev⟩
  · obtain ⟨r, hr, hrr⟩ := h
    obtain ⟨records, k⟩ := s
    subst hs
    rw [getByNid_split] at hr
    rw [hrev]
    unfold CurrentRevoked
    rw [getByNid_split, NipCertRecord.markRevoked_nid]
    cases hpost : post.reverse.find? fun r => r.nid == n with
    | some y =>
      rw [hpost] at hr
      exact ⟨y, rfl, by cases hr; exact hrr⟩
    | none =>
      rw [hpost] at hr
      by_cases hxn : x.nid = n
      · exact ⟨x.markRevoked reason t, by simp [hxn], rfl⟩
      · exact ⟨r, by simpa [hxn] using hr, hrr⟩
  · rwa [hrev]

/-- **A revocation reaches the current record.**  When it answers true, the current record of the
NID is revoked. -/
theorem currentRevoked_of_revoke (h : (s.revoke nid reason t).1 = true) :
    (s.revoke nid reason t).2.CurrentRevoked nid := by
  rcases revoke_cases s nid reason t with ⟨pre, x, post, -, hx, -, hlater, hrev⟩ | ⟨-, hrev⟩
  · rw [hrev]
    unfold CurrentRevoked
    rw [getByNid_split, NipCertRecord.markRevoked_nid]
    cases hpost : post.reverse.find? fun r => r.nid == nid with
    | some y =>
      have hmem : y ∈ post := List.mem_reverse.1 (List.mem_of_find?_eq_some hpost)
      have hnid := List.find?_some hpost
      exact ⟨y, rfl, hlater y hmem (by simpa using hnid)⟩
    | none => exact ⟨x.markRevoked reason t, by simp [hx], rfl⟩
  · rw [hrev] at h
    cases h

end InMemoryNipCaStore

end NpsSdk.Nip.Ca
