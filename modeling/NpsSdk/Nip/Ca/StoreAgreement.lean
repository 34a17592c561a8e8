import NpsSdk.Nip.Ca.SqliteStore

/-!
# The two certificate stores

The store in memory takes the last record of a NID as its current one and revokes one record; the database
takes the one with the greatest text of `issued_at`, revokes all records of the NID, and does not insert a
revocation.  The two answer alike exactly as long as the calls avoid these differences.
-/

namespace NpsSdk.Nip.Ca

open NpsSdk.Lib

/-! ### Answers -/

/-- The dates of an operation have texts. -/
def StoreOp.Dated : StoreOp → Prop
  | .save record => Ca.Dated record
  | .revoke _ _ revokedAt => ValidDate revokedAt
  | _ => True

/-- The same records, in some order. -/
def SameRecords (a b : Except CaError (List NipCertRecord)) : Prop :=
  ∃ l l', a = .ok l ∧ b = .ok l' ∧ l.Perm l'

/-- The same answer: a list up to its order, and a save by whether it is rejected. -/
def SameAnswer : (o : StoreOp) → Except CaError o.Res → Except CaError o.Res → Prop
  | .save _, a, b => a.isOk = b.isOk
  | .getByNid _, a, b => a = b
  | .getBySerial _, a, b => a = b
  | .revoke .., a, b => a = b
  | .nextSerial, a, b => a = b
  | .list, a, b => SameRecords a b
  | .getRevoked, a, b => SameRecords a b
  | .getByParentNid _, a, b => SameRecords a b

def memoryStep (s : InMemoryNipCaStore) (o : StoreOp) : InMemoryNipCaStore := (execStore o s).2

def sqliteStep (orderBy : RowOrder) (db : SqliteNipCaStore) (o : StoreOp) : SqliteNipCaStore :=
  (execSqlite orderBy o db).2

/-- Rows are ordered by a column as SQL says. -/
def OrdersRows (orderBy : RowOrder) : Prop := ∀ key, OrdersDesc key (orderBy key)

/-- After these operations, both stores answer the operation alike. -/
def Agree (orderBy : RowOrder) (es : List StoreOp) (o : StoreOp) : Prop :=
  SameAnswer o (execStore o (run memoryStep {} es)).1 (execSqlite orderBy o (run (sqliteStep orderBy) {} es)).1

/-- **The stores cannot be told apart**: after each beginning of the operations they answer every operation
alike, however the database orders rows with the same key. -/
def Indistinguishable (es : List StoreOp) : Prop :=
  ∀ orderBy, OrdersRows orderBy → ∀ before, before <+: es → ∀ o : StoreOp, o.Dated → Agree orderBy before o

/-! ### What the calls avoid -/

def liveRecord (nid : String) (r : NipCertRecord) : Bool := r.nid == nid && r.revokedAt.isNone

def Plain (s : InMemoryNipCaStore) : StoreOp → Prop
  | .save record => (∀ x ∈ s.records, x.serial ≠ record.serial) →
      record.revokedAt = none ∧ record.revokeReason = none ∧
        ∀ x ∈ s.records, x.nid = record.nid → isoText x.issuedAt < isoText record.issuedAt
  | .revoke nid _ _ => s.records.countP (liveRecord nid) ≤ 1
  | _ => True

/-! ### The refinement -/

/-- **The table holds the records**, which come in the order of their dates for each NID. -/
structure Refines (s : InMemoryNipCaStore) (db : SqliteNipCaStore) : Prop where
  rows : db.nip_certs = s.records.map rowOf
  seq : db.seq = s.serialCounter
  dated : ∀ r ∈ s.records, Dated r
  apart : (s.records.map NipCertRecord.serial).Nodup
  rising : s.records.Pairwise fun x y => x.nid = y.nid → isoText x.issuedAt < isoText y.issuedAt

section

variable {s : InMemoryNipCaStore} {db : SqliteNipCaStore} {orderBy : RowOrder} {o : StoreOp} {nid reason : String}
  {t : ℤ} {r record : NipCertRecord} {l : List NipCertRecord} {rows : List CertRow}

theorem refines_empty : Refines {} {} := by
  refine ⟨rfl, rfl, ?_, List.nodup_nil, .nil⟩
  intro r hr
  cases hr

theorem unrevoked_rowOf : SqliteNipCaStore.unrevoked nid (rowOf r) = liveRecord nid r := by
  simp [SqliteNipCaStore.unrevoked, liveRecord, rowOf]

theorem issued_eq_self (hrevoked : r.revokedAt = none) (hreason : r.revokeReason = none) : r.issued = r := by
  cases r
  simp only at hrevoked hreason
  subst hrevoked hreason
  rfl

theorem dated_issued (h : Dated r) : Dated r.issued := ⟨h.issuedAt, h.expiresAt, fun _ h => nomatch h⟩

theorem dated_markRevoked (h : Dated r) (ht : ValidDate t) : Dated (r.markRevoked reason t) := by
  refine ⟨h.issuedAt, h.expiresAt, fun t' ht' => ?_⟩
  cases ht'
  exact ht

theorem rows_any (hrows : db.nip_certs = s.records.map rowOf) (serial : String) :
    (db.nip_certs.any fun r => r.serial == serial) = s.records.any fun r => r.serial == serial := by
  rw [hrows, List.any_map]
  rfl

theorem apart_snoc (h : (l.map NipCertRecord.serial).Nodup) (hnew : ∀ x ∈ l, x.serial ≠ record.serial) :
    ((l ++ [record]).map NipCertRecord.serial).Nodup := by
  rw [List.map_append, List.map_singleton]
  refine List.nodup_append.2 ⟨h, List.nodup_singleton _, ?_⟩
  intro serial hserial serial' hserial'
  obtain ⟨x, hx, rfl⟩ := List.mem_map.1 hserial
  rw [List.mem_singleton.1 hserial']
  exact hnew x hx

theorem save_both (hrows : db.nip_certs = s.records.map rowOf) (hd : Dated record) :
    ((∀ x ∈ s.records, x.serial ≠ record.serial) ∧
      s.save record = (.ok (), { s with records := s.records ++ [record] }) ∧
      db.save record = (.ok (), { db with nip_certs := db.nip_certs ++ [rowOf record.issued] })) ∨
    ((∃ x ∈ s.records, x.serial = record.serial) ∧ (s.save record).1.isOk = false ∧ (s.save record).2 = s ∧
      (db.save record).1.isOk = false ∧ (db.save record).2 = db) := by
  unfold SqliteNipCaStore.save InMemoryNipCaStore.save
  rw [insertedRow_eq hd]
  dsimp only
  rw [rows_any hrows, show (rowOf record.issued).serial = record.serial from rfl]
  by_cases hdup : (s.records.any fun r => r.serial == record.serial) = true
  · right
    rw [if_pos hdup, if_pos hdup]
    obtain ⟨x, hx, heq⟩ := List.any_eq_true.1 hdup
    exact ⟨⟨x, hx, by simpa using heq⟩, rfl, rfl, rfl, rfl⟩
  · left
    rw [if_neg hdup, if_neg hdup]
    refine ⟨fun x hx heq => hdup (List.any_eq_true.2 ⟨x, hx, by simp [heq]⟩), rfl, rfl⟩

theorem update_rowOf : (if SqliteNipCaStore.unrevoked nid (rowOf r) then
      { rowOf r with revoked_at := some (isoText t), revoke_reason := some reason } else rowOf r) =
    rowOf (if liveRecord nid r then r.markRevoked reason t else r) := by
  rw [unrevoked_rowOf]
  split
  · rfl
  · rfl

theorem revoke_rows (hrows : db.nip_certs = s.records.map rowOf) (ht : ValidDate t) :
    db.revoke nid reason t = (.ok (decide (0 < s.records.countP (liveRecord nid))),
      { db with nip_certs := (s.records.map fun r =>
          if liveRecord nid r then r.markRevoked reason t else r).map rowOf }) := by
  unfold SqliteNipCaStore.revoke
  rw [toIso_of_valid ht, hrows]
  dsimp only
  have hcount : (s.records.map rowOf).countP (SqliteNipCaStore.unrevoked nid) =
      s.records.countP (liveRecord nid) := by
    rw [List.countP_map]
    exact List.countP_congr fun r _ => by rw [Function.comp_apply, unrevoked_rowOf]
  rw [hcount, List.map_map, List.map_map]
  congr 3
  funext r
  exact update_rowOf

theorem revoke_memory (s : InMemoryNipCaStore) (nid reason : String) (t : ℤ) :
    (∃ pre x post, s.records = pre ++ x :: post ∧ liveRecord nid x = true ∧
      (∀ y ∈ post, liveRecord nid y = false) ∧
      s.revoke nid reason t = (true, { s with records := pre ++ x.markRevoked reason t :: post })) ∨
    (∀ x ∈ s.records, liveRecord nid x = false) ∧ s.revoke nid reason t = (false, s) := by
  have hdead : ∀ {y : NipCertRecord}, (y.nid = nid → y.revokedAt.isSome = true) → liveRecord nid y = false := by
    intro y hy
    by_cases hn : y.nid = nid
    · simp [liveRecord, hn, hy hn]
    · simp [liveRecord, hn]
  rcases s.revoke_cases nid reason t with ⟨pre, x, post, hs, hx, hlive, hlater, hrev⟩ | ⟨hall, hrev⟩
  · exact .inl ⟨pre, x, post, hs, by simp [liveRecord, hx, hlive], fun y hy => hdead (hlater y hy), hrev⟩
  · exact .inr ⟨fun x hx => hdead (hall x hx), hrev⟩

theorem map_mark_of_dead (h : ∀ x ∈ l, liveRecord nid x = false) :
    (l.map fun r => if liveRecord nid r then r.markRevoked reason t else r) = l := by
  have hsame : ∀ r ∈ l, (if liveRecord nid r then r.markRevoked reason t else r) = r := by
    intro r hr
    rw [h r hr]
    rfl
  rw [List.map_congr_left hsame, List.map_id']

/-- **One operation keeps the table**, if it is plain. -/
theorem Refines.step (h : Refines s db) (hd : o.Dated) (hplain : Plain s o) :
    Refines (memoryStep s o) (sqliteStep orderBy db o) := by
  cases o with
  | getByNid n => exact h
  | getBySerial serial => exact h
  | list | getRevoked => exact h
  | getByParentNid n => exact h
  | nextSerial => exact ⟨h.rows, congrArg (· + 1) h.seq, h.dated, h.apart, h.rising⟩
  | save record =>
    have hmem : memoryStep s (.save record) = (s.save record).2 := rfl
    have hdb : sqliteStep orderBy db (.save record) = (db.save record).2 := rfl
    rw [hmem, hdb]
    rcases save_both h.rows hd with ⟨hnew, hsave, hinsert⟩ | ⟨-, -, hsave, -, hinsert⟩
    · obtain ⟨hrevoked, hreason, hlater⟩ := hplain hnew
      rw [hsave, hinsert, issued_eq_self hrevoked hreason]
      constructor
      · simp [h.rows]
      · exact h.seq
      · intro r hr
        rcases List.mem_append.1 hr with hr | hr
        · exact h.dated r hr
        · rw [List.mem_singleton.1 hr]
          exact hd
      · exact apart_snoc h.apart hnew
      · refine List.pairwise_append.2 ⟨h.rising, List.pairwise_singleton _ _, ?_⟩
        intro x hx y hy hnid
        rw [List.mem_singleton] at hy
        subst hy
        exact hlater x hx hnid
    · rw [hsave, hinsert]
      exact h
  | revoke n reason t =>
    have hmem : memoryStep s (.revoke n reason t) = (s.revoke n reason t).2 := rfl
    have hdb : sqliteStep orderBy db (.revoke n reason t) = (db.revoke n reason t).2 := rfl
    rw [hmem, hdb, revoke_rows h.rows hd]
    rcases revoke_memory s n reason t with ⟨pre, x, post, hs, hlive, hlater, hrev⟩ | ⟨hdead, hrev⟩
    · rw [hrev]
      have hcount : s.records.countP (liveRecord n) ≤ 1 := hplain
      have hearlier : ∀ y ∈ pre, liveRecord n y = false := by
        rw [hs, List.countP_append, List.countP_cons_of_pos hlive] at hcount
        have hzero : pre.countP (liveRecord n) = 0 := by omega
        intro y hy
        simpa using List.countP_eq_zero.1 hzero y hy
      have hmap : (s.records.map fun r => if liveRecord n r then r.markRevoked reason t else r) =
          pre ++ x.markRevoked reason t :: post := by
        rw [hs, List.map_append, List.map_cons, map_mark_of_dead hearlier, map_mark_of_dead hlater, if_pos hlive]
      have hdated := h.dated
      have hapart := h.apart
      have hrising := h.rising
      rw [hs] at hdated hapart hrising
      constructor
      · dsimp only
        rw [hmap]
      · exact h.seq
      · intro r hr
        rcases List.mem_append.1 hr with hr | hr
        · exact hdated r (by simp [hr])
        · rcases List.mem_cons.1 hr with rfl | hr
          · exact dated_markRevoked (hdated x (by simp)) hd
          · exact hdated r (by simp [hr])
      · rw [List.map_append, List.map_cons] at hapart ⊢
        exact hapart
      · obtain ⟨hpre, htail, hacross⟩ := List.pairwise_append.1 hrising
        obtain ⟨hhead, hpost⟩ := List.pairwise_cons.1 htail
        refine List.pairwise_append.2 ⟨hpre, List.pairwise_cons.2 ⟨hhead, hpost⟩, ?_⟩
        intro y hy z hz
        rcases List.mem_cons.1 hz with rfl | hz
        · exact hacross y hy x List.mem_cons_self
        · exact hacross y hy z (List.mem_cons_of_mem _ hz)
    · rw [hrev, map_mark_of_dead hdead]
      exact ⟨rfl, h.seq, h.dated, h.apart, h.rising⟩

/-! ### Refinement gives agreement -/

theorem readFirst_rowOf (hd : Dated r) : SqliteNipCaStore.readFirst (some (rowOf r)) = .ok (some r) := by
  rw [SqliteNipCaStore.readFirst, readRecord_rowOf hd]
  rfl

theorem readFirst_map {found : Option NipCertRecord} (hd : ∀ r, found = some r → Dated r) :
    SqliteNipCaStore.readFirst (found.map rowOf) = .ok found := by
  cases found with
  | none => rfl
  | some r => exact readFirst_rowOf (hd r rfl)

theorem mapM_readRecord (hd : ∀ r ∈ l, Dated r) : (l.map rowOf).mapM readRecord = .ok l := by
  induction l with
  | nil => rfl
  | cons r l ih =>
    rw [List.map_cons, List.mapM_cons, readRecord_rowOf (hd r List.mem_cons_self),
      ih fun x hx => hd x (List.mem_cons_of_mem _ hx)]
    rfl

theorem sameRecords_mapM (hd : ∀ r ∈ l, Dated r) (hrows : rows.Perm (l.map rowOf)) :
    SameRecords (.ok l) (rows.mapM readRecord) := by
  obtain ⟨l', hperm, rfl⟩ := exists_perm_map hrows
  refine ⟨l, l', rfl, ?_, hperm.symm⟩
  exact mapM_readRecord fun r hr => hd r (hperm.mem_iff.1 hr)

theorem filter_rows (hrows : db.nip_certs = s.records.map rowOf) {p : NipCertRecord → Bool} {q : CertRow → Bool}
    (hpq : ∀ r, q (rowOf r) = p r) : db.nip_certs.filter q = (s.records.filter p).map rowOf := by
  rw [hrows, List.filter_map]
  congr 1
  exact List.filter_congr fun r _ => hpq r

/-- **Where the table holds the records, both stores answer alike.** -/
theorem Refines.answer (h : Refines s db) (horder : OrdersRows orderBy) (hd : o.Dated) :
    SameAnswer o (execStore o s).1 (execSqlite orderBy o db).1 := by
  have hfilter : ∀ p : NipCertRecord → Bool, ∀ r ∈ s.records.filter p, Dated r :=
    fun p r hr => h.dated r (List.mem_filter.1 hr).1
  cases o with
  | nextSerial =>
    show Except.ok _ = Except.ok _
    rw [SqliteNipCaStore.nextSerial, h.seq]
    rfl
  | save record =>
    show ((s.save record).1.mapError CaError.error).isOk = (db.save record).1.isOk
    rcases save_both h.rows hd with ⟨-, hsave, hinsert⟩ | ⟨-, hsave, -, hinsert, -⟩
    · rw [hsave, hinsert]
      rfl
    · rw [hinsert, ← hsave]
      cases (s.save record).1 <;> rfl
  | revoke n reason t =>
    show Except.ok _ = (db.revoke n reason t).1
    rw [revoke_rows h.rows hd]
    rcases revoke_memory s n reason t with ⟨pre, x, post, hs, hlive, -, hrev⟩ | ⟨hdead, hrev⟩
    · have hpos : 0 < s.records.countP (liveRecord n) :=
        List.countP_pos_iff.2 ⟨x, by simp [hs], hlive⟩
      simp [hrev, hpos]
    · have hzero : s.records.countP (liveRecord n) = 0 := by
        rw [List.countP_eq_zero]
        exact fun x hx => by simp [hdead x hx]
      simp [hrev, hzero]
  | getByNid n =>
    show Except.ok _ = db.getByNid orderBy n
    unfold SqliteNipCaStore.getByNid
    have hrows := filter_rows h.rows (p := fun r => r.nid == n) (q := fun r => r.nid == n) fun _ => rfl
    have hrising : ((s.records.filter fun r => r.nid == n).map rowOf).Pairwise
        fun a b => a.issued_at < b.issued_at := by
      rw [List.pairwise_map]
      refine (h.rising.sublist List.filter_sublist).imp_of_mem fun {x y} hx hy hxy => ?_
      have hxn : x.nid = n := by simpa using (List.mem_filter.1 hx).2
      have hyn : y.nid = n := by simpa using (List.mem_filter.1 hy).2
      exact hxy (hxn.trans hyn.symm)
    rw [hrows, (horder CertRow.issued_at).head?_of_rising hrising, List.getLast?_map]
    have hlast : (s.records.filter fun r => r.nid == n).getLast? = s.getByNid n := by
      rw [InMemoryNipCaStore.getByNid, ← List.head?_filter, List.filter_reverse, List.head?_reverse]
    rw [hlast, readFirst_map]
    intro r hr
    exact h.dated r (InMemoryNipCaStore.mem_of_getByNid hr).1
  | getBySerial serial =>
    show Except.ok _ = db.getBySerial serial
    unfold SqliteNipCaStore.getBySerial
    rw [h.rows, List.find?_map]
    have hfound : ∀ r, s.getBySerial serial = some r → Dated r :=
      fun r hr => h.dated r (List.mem_of_find?_eq_some hr)
    exact (readFirst_map hfound).symm
  | list =>
    show SameRecords (.ok s.records) ((orderBy CertRow.issued_at db.nip_certs).mapM readRecord)
    refine sameRecords_mapM h.dated ?_
    rw [← h.rows]
    exact (horder _).perm _
  | getRevoked =>
    refine sameRecords_mapM (hfilter _) ?_
    have hrows := filter_rows h.rows (p := fun r => r.revokedAt.isSome) (q := fun r => r.revoked_at.isSome)
      fun r => by simp [rowOf]
    exact ((horder _).perm _).trans (.of_eq hrows)
  | getByParentNid n =>
    refine sameRecords_mapM (hfilter _) ?_
    have hrows := filter_rows h.rows (p := fun r => r.parentNid == some n) (q := fun r => r.parent_nid == some n)
      fun _ => rfl
    exact ((horder _).perm _).trans (.of_eq hrows)

/-! ### What tells the stores apart -/

/-- **A save that is not plain** shows in a look-up by its serial or by its NID. -/
theorem plain_save (h : Refines s db) (hd : Dated record) (hnew : ∀ x ∈ s.records, x.serial ≠ record.serial)
    (hbySerial : Except.ok ((s.save record).2.getBySerial record.serial) =
      (db.save record).2.getBySerial record.serial)
    (hbyNid : Except.ok ((s.save record).2.getByNid record.nid) = (db.save record).2.getByNid
      (fun key => orderLate key fun row => row.serial == record.serial) record.nid) :
    record.revokedAt = none ∧ record.revokeReason = none ∧
      ∀ x ∈ s.records, x.nid = record.nid → isoText x.issuedAt < isoText record.issuedAt := by
  obtain ⟨-, hsave, hinsert⟩ : _ ∧ s.save record = (.ok (), { s with records := s.records ++ [record] }) ∧
      db.save record = (.ok (), { db with nip_certs := db.nip_certs ++ [rowOf record.issued] }) := by
    rcases save_both h.rows hd with hsaved | ⟨⟨x, hx, hserial⟩, -⟩
    · exact hsaved
    · exact absurd hserial (hnew x hx)
  rw [hsave, hinsert] at hbySerial hbyNid
  have hissued : record = record.issued := by
    have hmem : (InMemoryNipCaStore.mk (s.records ++ [record]) s.serialCounter).getBySerial record.serial =
        some record :=
      InMemoryNipCaStore.getBySerial_of_mem (apart_snoc h.apart hnew) (by simp)
    have hdb : SqliteNipCaStore.getBySerial ⟨db.nip_certs ++ [rowOf record.issued], db.seq⟩ record.serial =
        .ok (some record.issued) := by
      unfold SqliteNipCaStore.getBySerial
      have hfind : (db.nip_certs ++ [rowOf record.issued]).find? (fun r => r.serial == record.serial) =
          some (rowOf record.issued) := by
        rw [List.find?_append, h.rows, List.find?_map]
        have hnone : s.records.find? ((fun r : CertRow => r.serial == record.serial) ∘ rowOf) = none := by
          rw [List.find?_eq_none]
          intro x hx
          simpa [rowOf] using hnew x hx
        rw [hnone]
        simp [rowOf, NipCertRecord.issued]
      rw [hfind, readFirst_rowOf (dated_issued hd)]
    rw [hmem, hdb] at hbySerial
    exact Option.some.inj (Except.ok.inj hbySerial)
  refine ⟨congrArg NipCertRecord.revokedAt hissued, congrArg NipCertRecord.revokeReason hissued, ?_⟩
  have hmem : (InMemoryNipCaStore.mk (s.records ++ [record]) s.serialCounter).getByNid record.nid = some record := by
    rw [InMemoryNipCaStore.getByNid_append, if_pos rfl]
  have hdb : Except.ok (some record) = SqliteNipCaStore.readFirst
      (orderLate CertRow.issued_at (fun row => row.serial == record.serial)
        ((db.nip_certs ++ [rowOf record.issued]).filter fun r => r.nid == record.nid)).head? := by
    rw [← hmem]
    exact hbyNid
  cases hhead : (orderLate CertRow.issued_at (fun row => row.serial == record.serial)
      ((db.nip_certs ++ [rowOf record.issued]).filter fun r => r.nid == record.nid)).head? with
  | none =>
    rw [hhead] at hdb
    cases hdb
  | some row =>
    rw [hhead] at hdb
    have hrow := (ordersDesc_orderLate _ _).head_mem hhead
    rw [h.rows] at hrow
    -- the row that comes first is that of the record, since no other reads as it
    have hlast : row = rowOf record.issued := by
      rcases List.mem_append.1 (List.mem_filter.1 hrow).1 with hrow | hrow
      · obtain ⟨x, hx, rfl⟩ := List.mem_map.1 hrow
        rw [readFirst_rowOf (h.dated x hx)] at hdb
        have hsame : record = x := Option.some.inj (Except.ok.inj hdb)
        exact absurd (congrArg NipCertRecord.serial hsame.symm) (hnew x hx)
      · exact List.mem_singleton.1 hrow
    subst hlast
    intro x hx hnid
    have hxrow : rowOf x ∈ (db.nip_certs ++ [rowOf record.issued]).filter fun r => r.nid == record.nid := by
      rw [h.rows]
      refine List.mem_filter.2 ⟨List.mem_append_left _ (List.mem_map_of_mem hx), ?_⟩
      simp [rowOf, hnid]
    have hlate : ((rowOf record.issued).serial == record.serial) = true := by simp [rowOf, NipCertRecord.issued]
    have hearly : ((rowOf x).serial == record.serial) = false := by simpa [rowOf] using hnew x hx
    have hlt : (rowOf x).issued_at < (rowOf record.issued).issued_at :=
      head_orderLate CertRow.issued_at _ hhead hlate hxrow hearly
    exact hlt

theorem sqliteStep_eq (orderBy orderBy' : RowOrder) : sqliteStep orderBy = sqliteStep orderBy' := by
  funext db o
  cases o <;> rfl

theorem agree_getBySerial_iff {es : List StoreOp} {serial : String} :
    Agree orderBy es (.getBySerial serial) ↔ Except.ok ((run memoryStep {} es).getBySerial serial) =
      (run (sqliteStep orderBy) {} es).getBySerial serial := Iff.rfl

theorem marked_getBySerial (h : Refines s db) (hr : r ∈ s.records) (hlive : liveRecord nid r = true)
    (ht : ValidDate t) : SqliteNipCaStore.getBySerial { db with nip_certs := (s.records.map fun r =>
      if liveRecord nid r then r.markRevoked reason t else r).map rowOf } r.serial =
        .ok (some (r.markRevoked reason t)) := by
  let marked := s.records.map fun r => if liveRecord nid r then r.markRevoked reason t else r
  have hserials : marked.map NipCertRecord.serial = s.records.map NipCertRecord.serial := by
    rw [List.map_map]
    refine List.map_congr_left fun x _ => ?_
    rw [Function.comp_apply]
    split <;> rfl
  have hmem : r.markRevoked reason t ∈ marked := by
    refine List.mem_map.2 ⟨r, hr, ?_⟩
    rw [if_pos hlive]
  have hfound : (InMemoryNipCaStore.mk marked s.serialCounter).getBySerial r.serial = some (r.markRevoked reason t) :=
    InMemoryNipCaStore.getBySerial_of_mem (s := ⟨marked, s.serialCounter⟩) (hserials ▸ h.apart) hmem
  unfold SqliteNipCaStore.getBySerial
  rw [List.find?_map]
  have hfind : marked.find? ((fun row : CertRow => row.serial == r.serial) ∘ rowOf) =
      some (r.markRevoked reason t) := hfound
  rw [hfind, Option.map_some, readFirst_rowOf (dated_markRevoked (h.dated r hr) ht)]

/-- **A revocation that is not plain** shows in a look-up by the serial of another live record. -/
theorem plain_revoke (h : Refines s db) (ht : ValidDate t)
    (hbySerial : ∀ serial, Except.ok ((s.revoke nid reason t).2.getBySerial serial) =
      (db.revoke nid reason t).2.getBySerial serial) : s.records.countP (liveRecord nid) ≤ 1 := by
  rw [revoke_rows h.rows ht] at hbySerial
  rcases revoke_memory s nid reason t with ⟨pre, x, post, hs, hlive, hlater, hrev⟩ | ⟨hdead, -⟩
  · rw [hrev] at hbySerial
    have hpost : post.countP (liveRecord nid) = 0 := by
      rw [List.countP_eq_zero]
      exact fun y hy => by simp [hlater y hy]
    have hpre : pre.countP (liveRecord nid) = 0 := by
      rw [List.countP_eq_zero]
      intro y hy hylive
      have hmem : y ∈ s.records := by simp [hs, hy]
      have hapart : ((pre ++ x.markRevoked reason t :: post).map NipCertRecord.serial).Nodup := by
        have hold := h.apart
        rw [hs, List.map_append, List.map_cons] at hold
        rw [List.map_append, List.map_cons]
        exact hold
      have hfound : (InMemoryNipCaStore.mk (pre ++ x.markRevoked reason t :: post) s.serialCounter).getBySerial
          y.serial = some y := InMemoryNipCaStore.getBySerial_of_mem hapart (by simp [hy])
      have hdb := hbySerial y.serial
      rw [hfound, marked_getBySerial h hmem hylive ht] at hdb
      have hsame : y = y.markRevoked reason t := Option.some.inj (Except.ok.inj hdb)
      have hrevoked : y.revokedAt = some t := congrArg NipCertRecord.revokedAt hsame
      simp [liveRecord, hrevoked] at hylive
    rw [hs, List.countP_append, List.countP_cons_of_pos hlive]
    omega
  · have hzero : s.records.countP (liveRecord nid) = 0 := by
      rw [List.countP_eq_zero]
      exact fun y hy => by simp [hdead y hy]
    omega

end

/-- **When the stores cannot be told apart**: exactly as long as each record is saved without a revocation and
with a later date text than the records of its NID, and each revocation finds at most one record to mark. -/
theorem indistinguishable_iff (es : List StoreOp) (hdated : ∀ o ∈ es, o.Dated) :
    Indistinguishable es ↔ Along memoryStep Plain {} es := by
  have hrefines : ∀ (orderBy : RowOrder) (es : List StoreOp), (∀ o ∈ es, o.Dated) →
      Along memoryStep Plain {} es → Refines (run memoryStep {} es) (run (sqliteStep orderBy) {} es) := by
    intro orderBy es
    induction es using List.reverseRecOn with
    | nil => exact fun _ _ => refines_empty
    | append_singleton es o ih =>
      intro hdated hplain
      obtain ⟨hes, ho⟩ := along_snoc.1 hplain
      rw [run_snoc, run_snoc]
      exact (ih (fun x hx => hdated x (by simp [hx])) hes).step (hdated o (by simp)) ho
  constructor
  · intro hsame
    induction es using List.reverseRecOn with
    | nil => exact along_nil
    | append_singleton es o ih =>
      have hes : ∀ x ∈ es, x.Dated := fun x hx => hdated x (by simp [hx])
      have hplain : Along memoryStep Plain {} es :=
        ih hes fun orderBy horder before hbefore => hsame orderBy horder before
          (hbefore.trans (List.prefix_append es [o]))
      refine along_snoc.2 ⟨hplain, ?_⟩
      -- what is looked up after the last operation shows whether it was plain
      have hlook : ∀ orderBy, OrdersRows orderBy → ∀ x : StoreOp, x.Dated → SameAnswer x
          (execStore x (memoryStep (run memoryStep {} es) o)).1
          (execSqlite orderBy x (sqliteStep orderBy (run (sqliteStep orderBy) {} es) o)).1 := by
        intro orderBy horder x hx
        have hagree := hsame orderBy horder (es ++ [o]) (List.prefix_refl _) x hx
        unfold Agree at hagree
        rwa [run_snoc, run_snoc] at hagree
      have hd : o.Dated := hdated o (by simp)
      cases o with
      | save record =>
        intro hnew
        have horder : OrdersRows fun key => orderLate key fun row => row.serial == record.serial :=
          fun key => ordersDesc_orderLate key _
        exact plain_save (hrefines _ es hes hplain) hd hnew (hlook _ horder (.getBySerial record.serial) trivial)
          (hlook _ horder (.getByNid record.nid) trivial)
      | revoke n reason t =>
        have horder : OrdersRows fun key => orderLate key fun _ => false :=
          fun key => ordersDesc_orderLate key _
        exact plain_revoke (hrefines _ es hes hplain) hd fun serial =>
          hlook _ horder (.getBySerial serial) trivial
      | _ => trivial
  · intro hplain orderBy horder before hbefore o ho
    obtain ⟨after, rfl⟩ := hbefore
    have hbefore : Along memoryStep Plain {} before := fun pre e post heq =>
      hplain pre e (post ++ after) (by rw [heq, List.append_assoc, List.cons_append])
    exact (hrefines orderBy before (fun x hx => hdated x (by simp [hx])) hbefore).answer horder ho

def agentRecord (serial : String) (issuedAt expiresAt : ℤ) : NipCertRecord :=
  { nid := "urn:nps:agent:ca.example:a", entityType := "agent", serial, pubKey := "ed25519:a",
    capabilities := ["read"], scopeJson := "{}", issuedBy := "urn:nps:org:ca.example", issuedAt, expiresAt }

def registeredRevoked : List StoreOp :=
  [.nextSerial, .save (agentRecord "0x1" 0 (30 * 86400000)),
    .revoke "urn:nps:agent:ca.example:a" "superseded" (24 * 86400000)]

theorem registeredRevoked_dated : ∀ o ∈ registeredRevoked, o.Dated := by
  intro o ho
  simp only [registeredRevoked, List.mem_cons, List.not_mem_nil, or_false] at ho
  rcases ho with rfl | rfl | rfl
  · trivial
  · exact ⟨by unfold ValidDate; decide, by unfold ValidDate; decide, nofun⟩
  · exact ⟨by decide, by decide⟩

theorem registeredRevoked_indistinguishable : Indistinguishable registeredRevoked :=
  (indistinguishable_iff registeredRevoked registeredRevoked_dated).2
    (along_cons.2 ⟨trivial, along_cons.2 ⟨fun _ => ⟨rfl, rfl, fun x hx => absurd hx List.not_mem_nil⟩,
      along_cons.2 ⟨by unfold Plain; decide +kernel, along_nil⟩⟩⟩)

def renewedRevoked : List StoreOp :=
  [.save (agentRecord "0x1" 0 (30 * 86400000)), .save (agentRecord "0x2" (24 * 86400000) (54 * 86400000)),
    .revoke "urn:nps:agent:ca.example:a" "key_compromise" (25 * 86400000)]

/-- The replaced certificate is revoked in the database only. -/
theorem renewedRevoked_distinguished : (∀ o ∈ renewedRevoked, o.Dated) ∧
    ∀ orderBy, ¬ Agree orderBy renewedRevoked (.getBySerial "0x1") := by
  constructor
  · intro o ho
    simp only [renewedRevoked, List.mem_cons, List.not_mem_nil, or_false] at ho
    rcases ho with rfl | rfl | rfl
    · exact ⟨by unfold ValidDate; decide, by unfold ValidDate; decide, nofun⟩
    · exact ⟨by unfold ValidDate; decide, by unfold ValidDate; decide, nofun⟩
    · exact ⟨by decide, by decide⟩
  · intro orderBy hagree
    rw [agree_getBySerial_iff, sqliteStep_eq orderBy fun _ rows => rows] at hagree
    exact absurd hagree (by decide +kernel)

end NpsSdk.Nip.Ca
