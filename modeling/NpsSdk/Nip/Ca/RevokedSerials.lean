import NpsSdk.Nip.Ca.Revocation
import NpsSdk.Nip.Verifier

/-!
# Revocation by NID, checks by serial

The CA revokes the NID and marks one record of it; verifiers look serials up, in the store or in the list of
revoked serials.  A renewal leaves the record it replaces alive, so a NID may have several live records.  A
revocation is complete where all of them but the last have expired.
-/

namespace NpsSdk.Nip.Ca

open NpsSdk.Lib

/-! ### Histories of calls -/

/-- One call after the other; a call comes with the clock readings and random texts it finds. -/
def callStep (ca : NipCaService) (sha256 : String → String) (s : CaState)
    (e : CaCall × (ℕ → Ambient)) : CaState :=
  ((e.1.program ca).finish (exec sha256) e.2 s).2

/-- `revoke(nid)` resolves in this state. -/
def revokeResolves (ca : NipCaService) (sha256 : String → String) (s : CaState) (nid reason : String)
    (amb : ℕ → Ambient) : Bool :=
  match (((CaCall.revoke nid reason).program ca).finish (exec sha256) amb s).1 with
  | .ok _ => true
  | .error _ => false

/-! ### What verifiers see -/

/-- A record as a verifier reads it.  It reads `revokedAt` as a condition only, and a date is true. -/
def NipCertRecord.forVerifier (r : NipCertRecord) : Nip.NipCertRecord :=
  { serial := r.serial, revokedAt := r.revokedAt.map fun t => "Date " ++ toString t,
    revokeReason := r.revokeReason }

def InMemoryNipCaStore.revocationStore (s : InMemoryNipCaStore) (serial : String) :
    Except Unit (Option Nip.NipCertRecord) :=
  .ok ((s.getBySerial serial).map NipCertRecord.forVerifier)

/-- The serials that `getCrl` lists. -/
def InMemoryNipCaStore.crlSerials (s : InMemoryNipCaStore) : List String :=
  s.getRevoked.map NipCertRecord.serial

structure SerialRevoked (s : InMemoryNipCaStore) (serial : String) : Prop where
  stored : ∃ r, s.getBySerial serial = some r ∧ r.revokedAt.isSome = true
  listed : serial ∈ s.crlSerials
  byStore : ∀ crypto services frame context v, services.revocationStore = some s.revocationStore →
    identSerial frame = some serial → verifyIdent crypto services frame context = some v →
    v.valid = false
  byList : ∀ crypto services frame context v, services.localRevokedSerials = some s.crlSerials →
    identSerial frame = some serial → verifyIdent crypto services frame context = some v →
    v.valid = false

/-- Each record of the NID that has not expired at `t` is revoked by its serial. -/
def AllRevoked (s : InMemoryNipCaStore) (nid : String) (t : ℤ) : Prop :=
  ∀ r ∈ s.records, r.nid = nid → ¬ r.expiresAt < t → SerialRevoked s r.serial

/-- A live record of the NID has expired at `t` where a later record of the NID is live. -/
def ReplacedExpired (s : InMemoryNipCaStore) (nid : String) (t : ℤ) : Prop :=
  s.records.Pairwise fun x y => x.nid = nid → x.revokedAt = none → y.nid = nid → y.revokedAt = none →
    x.expiresAt < t

instance {s : InMemoryNipCaStore} {nid : String} {t : ℤ} : Decidable (ReplacedExpired s nid t) :=
  inferInstanceAs (Decidable (List.Pairwise _ _))

section

variable {s : InMemoryNipCaStore} {r : NipCertRecord}

/-- **By serial, a record is revoked exactly when it is marked.** -/
theorem serialRevoked_iff (hapart : (s.records.map NipCertRecord.serial).Nodup) (hr : r ∈ s.records) :
    SerialRevoked s r.serial ↔ r.revokedAt.isSome = true := by
  have hget : s.getBySerial r.serial = some r := InMemoryNipCaStore.getBySerial_of_mem hapart hr
  constructor
  · rintro ⟨⟨r', hr', hrevoked⟩, -, -, -⟩
    rw [hget, Option.some.injEq] at hr'
    rwa [hr']
  · intro hrevoked
    have hlisted : r.serial ∈ s.crlSerials := by
      refine List.mem_map_of_mem ?_
      simp [InMemoryNipCaStore.getRevoked, hr, hrevoked]
    refine ⟨⟨r, hget, hrevoked⟩, hlisted, ?_, ?_⟩
    · intro crypto services frame context v hstore hserial hv
      have hrecord : s.revocationStore r.serial = .ok (some r.forVerifier) := by
        simp [InMemoryNipCaStore.revocationStore, hget]
      have htruthy : (truthy r.forVerifier.revokedAt).isSome = true := by
        obtain ⟨t, ht⟩ := Option.isSome_iff_exists.1 hrevoked
        simp [NipCertRecord.forVerifier, ht, truthy]
      exact verifyIdent_invalid (checkRevocation_stored hserial hstore hrecord htruthy) hv
    · intro crypto services frame context v hlocal hserial hv
      exact verifyIdent_invalid (checkRevocation_listed hserial hlocal hlisted) hv

end

/-! ### What an operation does to the records -/

theorem exec_records (sha256 : String → String) (a : Ambient) (o : CaOp) (s : CaState) :
    (exec sha256 a o s).2.certs.records = s.certs.records ∨
    (∃ r, o = .store (.save r) ∧ r.serial ∉ s.certs.records.map NipCertRecord.serial ∧
      (exec sha256 a o s).2.certs.records = s.certs.records ++ [r]) ∨
    ∃ reason t pre x post, s.certs.records = pre ++ x :: post ∧
      (exec sha256 a o s).2.certs.records = pre ++ x.markRevoked reason t :: post := by
  cases o with
  | tokens o => exact .inl rfl
  | pending o => exact .inl rfl
  | now => exact .inl rfl
  | randomHex n => exact .inl rfl
  | store o =>
    cases o with
    | getByNid n => exact .inl rfl
    | getBySerial serial => exact .inl rfl
    | nextSerial | list | getRevoked => exact .inl rfl
    | getByParentNid n => exact .inl rfl
    | save r =>
      simp only [exec, execStore, InMemoryNipCaStore.save]
      split
      · exact .inl rfl
      · rename_i hnew
        refine .inr (.inl ⟨r, rfl, ?_, rfl⟩)
        intro hmem
        obtain ⟨x, hx, hserial⟩ := List.mem_map.1 hmem
        exact hnew (List.any_eq_true.2 ⟨x, hx, by simp [hserial]⟩)
    | revoke n reason t =>
      simp only [exec, execStore]
      rcases s.certs.revoke_cases n reason t with ⟨pre, x, post, hs, -, -, -, hrev⟩ | ⟨-, hrev⟩
      · rw [hrev]
        exact .inr (.inr ⟨reason, t, pre, x, post, hs, rfl⟩)
      · rw [hrev]
        exact .inl rfl

/-! ### What the calls save -/

def SavesOrphan : CaOp → Prop
  | .store (.save record) => record.parentNid = none
  | _ => True

/-- The call saves no record with a parent. -/
def Orphans {α : Type} (p : CaAsync α) : Prop := p.Keeps SavesOrphan fun _ _ => True

section

variable {ca : NipCaService} {α β : Type} {p : CaAsync α}

theorem NeverSaves.orphans (h : NeverSaves p) : Orphans p := by
  refine Async.Keeps.mono h (fun o ho => ?_) fun _ _ _ => trivial
  unfold SavesOrphan
  split
  · cases ho
  · trivial

theorem Orphans.bind {f : α → CaAsync β} (hp : Orphans p) (hf : ∀ a, Orphans (f a)) : Orphans (p >>= f) :=
  Async.Keeps.bind hp hf

theorem neverSaves_refuseExisting {n : String} : NeverSaves (NipCaService.refuseExisting n) := by
  refine NeverSaves.bind (neverSaves_perform rfl) fun found => ?_
  cases found with
  | none => exact neverSaves_done
  | some record => exact neverSaves_done

theorem neverSaves_renewable {n : String} : NeverSaves (NipCaService.renewable n) := by
  refine NeverSaves.bind (neverSaves_perform rfl) fun found => ?_
  cases found with
  | none => exact neverSaves_done
  | some record =>
    dsimp only
    split
    · exact neverSaves_done
    · exact neverSaves_done

theorem orphans_issue {record : NipCertRecord} {level : Option String} {lineage : Option Json}
    (h : record.parentNid = none) : Orphans (ca.issue record level lineage) := keeps_issue h

theorem orphans_serial_issue {record : String → NipCertRecord} {level : Option String} {lineage : Option Json}
    (h : ∀ serial, (record serial).parentNid = none) :
    Orphans (nextSerial >>= fun serial => ca.issue (record serial) level lineage) :=
  (neverSaves_perform rfl).orphans.bind fun serial => orphans_issue (h serial)

theorem orphans_program {c : CaCall} (h : c.managing = true) : Orphans (c.program ca) := by
  have hdone : ∀ {r : Except CaError CaReply}, Orphans (.done r) := trivial
  cases c with
  | issueSession => cases h
  | revoke nid reason => exact neverSaves_revoke.orphans.bind fun _ => hdone
  | register =>
    refine Orphans.bind ?_ fun _ => hdone
    refine neverSaves_refuseExisting.orphans.bind fun _ => ?_
    refine neverSaves_checkCapabilities.orphans.bind fun _ => ?_
    refine (neverSaves_perform rfl).orphans.bind fun now => ?_
    exact orphans_serial_issue fun _ => rfl
  | registerX509 =>
    refine Orphans.bind ?_ fun _ => hdone
    unfold NipCaService.registerX509
    split
    · exact trivial
    refine neverSaves_refuseExisting.orphans.bind fun _ => ?_
    refine neverSaves_checkCapabilities.orphans.bind fun _ => ?_
    refine (neverSaves_perform rfl).orphans.bind fun now => ?_
    refine (neverSaves_perform rfl).orphans.bind fun serial => ?_
    exact (orphans_issue rfl).bind fun _ => trivial
  | registerGroup =>
    refine Orphans.bind ?_ fun _ => hdone
    refine neverSaves_groupIdentifier.orphans.bind fun id => ?_
    refine neverSaves_refuseExisting.orphans.bind fun _ => ?_
    refine neverSaves_checkCapabilities.orphans.bind fun _ => ?_
    refine (neverSaves_perform rfl).orphans.bind fun now => ?_
    exact orphans_serial_issue fun _ => rfl
  | renew nid =>
    refine Orphans.bind ?_ fun _ => hdone
    refine neverSaves_renewable.orphans.bind fun record => ?_
    refine (neverSaves_perform rfl).orphans.bind fun now => ?_
    dsimp only
    split
    · exact neverSaves_isoDate.orphans.bind fun _ => trivial
    · exact orphans_serial_issue fun _ => rfl

end

/-! ### Histories of managing calls -/

/-- **The invariant**: the serials differ, and no record has a parent. -/
structure Tidy (records : List NipCertRecord) : Prop where
  apart : (records.map NipCertRecord.serial).Nodup
  orphans : ∀ r ∈ records, r.parentNid = none

/-- The NID is revoked, and each record of it that has not expired at `t` is marked. -/
structure Closed (s : InMemoryNipCaStore) (nid : String) (t : ℤ) : Prop where
  current : s.CurrentRevoked nid
  marked : ∀ r ∈ s.records, r.nid = nid → ¬ r.expiresAt < t → r.revokedAt.isSome = true

section

variable {ca : NipCaService} {sha256 : String → String} {s : CaState} {a : Ambient} {o : CaOp}
  {nid reason : String} {t : ℤ} {amb : ℕ → Ambient} {e : CaCall × (ℕ → Ambient)}
  {es : List (CaCall × (ℕ → Ambient))}

theorem tidy_nil : Tidy [] := ⟨List.nodup_nil, fun _ h => nomatch h⟩

theorem Tidy.op (h : Tidy s.certs.records) (ho : SavesOrphan o) : Tidy (exec sha256 a o s).2.certs.records := by
  rcases exec_records sha256 a o s with hsame | ⟨r, rfl, hnew, hsave⟩ | ⟨reason, t, pre, x, post, hs, hmark⟩
  · rwa [hsame]
  · rw [hsave]
    constructor
    · rw [List.map_append, List.map_singleton]
      exact List.nodup_append.2 ⟨h.apart, List.nodup_singleton _, fun y hy z hz hyz => by
        rw [List.mem_singleton] at hz
        exact hnew (hz ▸ hyz ▸ hy)⟩
    · intro x hx
      rcases List.mem_append.1 hx with hx | hx
      · exact h.orphans x hx
      · rw [List.mem_singleton.1 hx]
        exact ho
  · rw [hmark]
    obtain ⟨hapart, horphans⟩ := h
    rw [hs] at hapart horphans
    constructor
    · rw [List.map_append, List.map_cons] at hapart ⊢
      exact hapart
    · intro y hy
      rcases List.mem_append.1 hy with hy | hy
      · exact horphans y (by simp [hy])
      · rcases List.mem_cons.1 hy with rfl | hy
        · exact horphans x (by simp)
        · exact horphans y (by simp [hy])

theorem Closed.op {α : Type} {k : Except CaError o.Res → CaAsync α} (h : Closed s.certs nid t)
    (hp : Silent nid (.op o k)) : Silent nid (k (exec sha256 a o s).1) ∧ Closed (exec sha256 a o s).2.certs nid t := by
  have hop : Silent nid (k (exec sha256 a o s).1) ∧ (exec sha256 a o s).2.certs.CurrentRevoked nid :=
    hp.op h.current
  obtain ⟨hsilent, hcurrent⟩ := hop
  refine ⟨hsilent, hcurrent, ?_⟩
  rcases exec_records sha256 a o s with hsame | ⟨r, rfl, -, hsave⟩ | ⟨reason, t, pre, x, post, hs, hmark⟩
  · rw [hsame]
    exact h.marked
  · rw [hsave]
    intro x hx hnid
    rcases List.mem_append.1 hx with hx | hx
    · exact h.marked x hx hnid
    · have hspares : r.nid ≠ nid := hp.1
      rw [List.mem_singleton.1 hx] at hnid
      exact absurd hnid hspares
  · rw [hmark]
    have hold := h.marked
    rw [hs] at hold
    intro y hy
    rcases List.mem_append.1 hy with hy | hy
    · exact hold y (by simp [hy])
    · rcases List.mem_cons.1 hy with rfl | hy
      · intro _ _
        rfl
      · exact hold y (by simp [hy])

/-- **One call keeps the invariant.** -/
theorem Tidy.step (h : Tidy s.certs.records) (he : e.1.managing = true) :
    Tidy (callStep ca sha256 s e).certs.records :=
  (Async.finish_induction (M := fun p (s : CaState) => Orphans p ∧ Tidy s.certs.records)
    (fun _ _ _ _ hM => ⟨hM.1.2 _ trivial, hM.2.op hM.1.1⟩) ⟨orphans_program he, h⟩).2

/-- **One call keeps a revocation complete.** -/
theorem Closed.step (h : Closed s.certs nid t) (he : e.1.managing = true) :
    Closed (callStep ca sha256 s e).certs nid t :=
  (Async.finish_induction (M := fun p (s : CaState) => Silent nid p ∧ Closed s.certs nid t)
    (fun _ _ _ _ hM => hM.2.op hM.1) ⟨silent_program he, h⟩).2

theorem along_managing (hes : ∀ e ∈ es, e.1.managing = true) :
    Along (callStep ca sha256) (fun _ e => e.1.managing = true) s es := by
  intro pre e post heq
  refine hes e ?_
  rw [heq]
  simp

theorem Tidy.run (h : Tidy s.certs.records) (hes : ∀ e ∈ es, e.1.managing = true) :
    Tidy (run (callStep ca sha256) s es).certs.records :=
  run_induction_along (I := fun s : CaState => Tidy s.certs.records) h (fun _ _ h he => h.step he)
    (along_managing hes)

theorem Closed.run (h : Closed s.certs nid t) (hes : ∀ e ∈ es, e.1.managing = true) :
    Closed (run (callStep ca sha256) s es).certs nid t :=
  run_induction_along (I := fun s : CaState => Closed s.certs nid t) h (fun _ _ h he => h.step he)
    (along_managing hes)

/-- **A revocation that resolves** has marked a record at its clock reading, and done nothing else. -/
theorem revoke_resolves (h : Tidy s.certs.records) (hok : revokeResolves ca sha256 s nid reason amb = true) :
    (s.certs.revoke nid reason ((amb 1).time 0)).1 = true ∧
      (callStep ca sha256 s (.revoke nid reason, amb)).certs = (s.certs.revoke nid reason ((amb 1).time 0)).2 := by
  let rev := s.certs.revoke nid reason ((amb 1).time 0)
  have hend : Async.wp (exec sha256) ((CaCall.revoke nid reason).program ca)
      (fun r _ s' => (∃ reply, r = .ok reply) → rev.1 = true ∧ s'.certs = rev.2) amb s := by
    unfold CaCall.program NipCaService.revoke
    rw [Async.wp_bind, NipCaService.wp_getByNid]
    cases s.certs.getByNid nid with
    | none => exact fun hreply => nomatch hreply
    | some record =>
      dsimp only
      rw [NipCaService.wp_readClock, NipCaService.wp_revokeCert]
      by_cases hrev : rev.1 = true
      · have hchildren : rev.2.getByParentNid nid = [] := by
          refine List.filter_eq_nil_iff.2 fun r hr => ?_
          have htidy : Tidy (exec sha256 (amb 2) (.store (.revoke nid reason ((amb 1).time 0))) s).2.certs.records :=
            h.op trivial
          simp [htidy.orphans r hr]
        rw [if_neg (not_not.2 hrev)]
        split
        · rw [NipCaService.wp_getByParentNid]
          show Async.wp (exec sha256) (NipCaService.cascade _ (rev.2.getByParentNid nid) >>= _) _ _ _
          rw [hchildren]
          exact NipCaService.wp_isoDate (fun _ _ => ⟨hrev, rfl⟩) fun _ _ => ⟨hrev, rfl⟩
        · exact NipCaService.wp_isoDate (fun _ _ => ⟨hrev, rfl⟩) fun _ _ => ⟨hrev, rfl⟩
      · rw [if_pos hrev]
        exact fun hreply => nomatch hreply
  refine Async.wp_iff_finish.1 hend ?_
  unfold revokeResolves at hok
  split at hok
  · rename_i reply heq
    exact ⟨reply, heq⟩
  · cases hok

/-! ### The revocation -/

/-- **What a revocation leaves unmarked** are the records before the one it marks. -/
theorem closed_revoke_iff {certs : InMemoryNipCaStore} (h : (certs.revoke nid reason t).1 = true) :
    Closed (certs.revoke nid reason t).2 nid t ↔ ReplacedExpired certs nid t := by
  rcases certs.revoke_cases nid reason t with ⟨pre, x, post, hs, hx, hlive, hlater, hrev⟩ | ⟨-, hrev⟩
  swap
  · rw [hrev] at h
    cases h
  have hpost : ∀ y ∈ post, y.nid = nid → y.revokedAt ≠ none := by
    intro y hy hnid hnone
    have hsome := hlater y hy hnid
    rw [hnone] at hsome
    cases hsome
  constructor
  · intro hclosed
    have hmarked := hclosed.marked
    rw [hrev] at hmarked
    have hpre : ∀ y ∈ pre, y.nid = nid → y.revokedAt = none → y.expiresAt < t := by
      intro y hy hnid hnone
      by_contra hexp
      have hsome := hmarked y (by simp [hy]) hnid hexp
      rw [hnone] at hsome
      cases hsome
    unfold ReplacedExpired
    rw [hs]
    refine List.pairwise_append.2 ⟨?_, List.pairwise_cons.2 ⟨?_, ?_⟩, ?_⟩
    · exact List.pairwise_of_forall_mem_list fun y hy z _ hnid hnone _ _ => hpre y hy hnid hnone
    · exact fun y hy _ _ hnid hnone => absurd hnone (hpost y hy hnid)
    · exact List.pairwise_of_forall_mem_list fun y hy z _ hnid hnone _ _ => absurd hnone (hpost y hy hnid)
    · exact fun y hy z _ hnid hnone _ _ => hpre y hy hnid hnone
  · intro hexpired
    refine ⟨InMemoryNipCaStore.currentRevoked_of_revoke h, ?_⟩
    unfold ReplacedExpired at hexpired
    rw [hs] at hexpired
    obtain ⟨-, -, hacross⟩ := List.pairwise_append.1 hexpired
    rw [hrev]
    intro y hy hnid hexp
    rcases List.mem_append.1 hy with hy | hy
    · rw [Option.isSome_iff_ne_none]
      exact fun hnone => hexp (hacross y hy x List.mem_cons_self hnid hnone hx hlive)
    · rcases List.mem_cons.1 hy with rfl | hy
      · rfl
      · exact hlater y hy hnid

end

/-- **When a revocation is complete**: after any history of registrations, renewals and revocations, a
revocation of a NID that resolves leaves, from then on, each unexpired record of the NID revoked by its serial,
exactly when each live record that has a later live one had expired. -/
theorem revocation_complete_iff (ca : NipCaService) (sha256 : String → String)
    (before : List (CaCall × (ℕ → Ambient))) (hbefore : ∀ e ∈ before, e.1.managing = true)
    (nid reason : String) (amb : ℕ → Ambient)
    (hok : revokeResolves ca sha256 (run (callStep ca sha256) {} before) nid reason amb = true) :
    (∀ after : List (CaCall × (ℕ → Ambient)), (∀ e ∈ after, e.1.managing = true) →
      ∀ t, (amb 1).time 0 ≤ t → AllRevoked
        (run (callStep ca sha256) {} (before ++ (.revoke nid reason, amb) :: after)).certs nid t) ↔
      ReplacedExpired (run (callStep ca sha256) {} before).certs nid ((amb 1).time 0) := by
  have htidy : Tidy (run (callStep ca sha256) {} before).certs.records := tidy_nil.run hbefore
  obtain ⟨hmarks, hcerts⟩ := revoke_resolves htidy hok
  rw [← closed_revoke_iff hmarks, ← hcerts]
  have hafter : ∀ after, run (callStep ca sha256) {} (before ++ (.revoke nid reason, amb) :: after) =
      run (callStep ca sha256)
        (callStep ca sha256 (run (callStep ca sha256) {} before) (.revoke nid reason, amb)) after := by
    intro after
    rw [run_append, run_cons]
  have htidy' : Tidy (callStep ca sha256 (run (callStep ca sha256) {} before)
      (.revoke nid reason, amb)).certs.records := htidy.step rfl
  constructor
  · intro hall
    refine ⟨?_, ?_⟩
    · rw [hcerts]
      exact InMemoryNipCaStore.currentRevoked_of_revoke hmarks
    · intro r hr hnid hexp
      have hrevoked := hall [] (fun _ h => nomatch h) _ le_rfl
      rw [hafter, run_nil] at hrevoked
      exact (serialRevoked_iff htidy'.apart hr).1 (hrevoked r hr hnid hexp)
  · intro hclosed after hmanaging t ht
    rw [hafter]
    intro r hr hnid hexp
    rw [serialRevoked_iff (htidy'.run hmanaging).apart hr]
    exact (hclosed.run hmanaging).marked r hr hnid (by omega)

def agentRegistered : List (CaCall × (ℕ → Ambient)) :=
  [(.register "agent" "a" "ed25519:a" [] "{}" none, onDay 0)]

theorem registered_agent_revoked : AllRevoked
    (run (callStep plainCa id) {}
      (agentRegistered ++ [(.revoke sampleAgent "key_compromise", onDay 24)])).certs sampleAgent
        (25 * 86400000) :=
  (revocation_complete_iff plainCa id agentRegistered (by simp [agentRegistered, CaCall.managing]) sampleAgent
    "key_compromise" (onDay 24) (by decide)).2 (by decide) [] (fun _ h => nomatch h) _
    (by decide)

/-- An agent is registered, and renewed a week before its certificate expires. -/
def agentRenewed : List (CaCall × (ℕ → Ambient)) := agentRegistered ++ [(.renew sampleAgent, onDay 24)]

/-- A day after the revocation, the replaced certificate has not expired and is not revoked. -/
theorem replaced_serial_survives :
    (∀ e ∈ agentRenewed, e.1.managing = true) ∧
      revokeResolves plainCa id (run (callStep plainCa id) {} agentRenewed) sampleAgent "key_compromise"
        (onDay 24) = true ∧
      ¬ AllRevoked (run (callStep plainCa id) {}
        (agentRenewed ++ [(.revoke sampleAgent "key_compromise", onDay 24)])).certs sampleAgent
          (25 * 86400000) := by
  refine ⟨by simp [agentRenewed, agentRegistered, CaCall.managing], by decide, ?_⟩
  intro hall
  let s := (run (callStep plainCa id) {}
    (agentRenewed ++ [(.revoke sampleAgent "key_compromise", onDay 24)])).certs
  have hrecord : ∃ r ∈ s.records, r.nid = sampleAgent ∧ ¬ r.expiresAt < 25 * 86400000 ∧ r.serial = "0x1" := by
    decide
  have hlive : (s.getBySerial "0x1").map NipCertRecord.revokedAt = some none := by decide
  obtain ⟨r, hr, hnid, hexp, hserial⟩ := hrecord
  obtain ⟨r', hr', hrevoked⟩ := (hall r hr hnid hexp).stored
  rw [hserial] at hr'
  have hnone : some r'.revokedAt = some none := by
    rw [← hlive]
    exact (congrArg (Option.map NipCertRecord.revokedAt) hr').symm
  rw [Option.some.inj hnone] at hrevoked
  cases hrevoked

end NpsSdk.Nip.Ca
