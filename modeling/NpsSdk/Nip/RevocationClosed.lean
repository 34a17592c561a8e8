import NpsSdk.Nip.SignatureCoverage

/-!
# Revocation that fails closed

What `verifyIdent` asks of the revocation sources before it accepts an identity.  Every source that
could not be consulted rejects, except the local list: for a frame without a serial the list is taken
as good, where the store is unavailable.
-/

namespace NpsSdk.Nip

open NpsSdk.Lib

variable (crypto : Crypto) (services : Services) (frame : IdentFrame) (context : VerifyContext)

/-- `verifyIdent` answers valid. -/
def Accepted : Prop := ∃ r, verifyIdent crypto services frame context = some r ∧ r.valid = true

/-! ### The sources -/

/-- The endpoint did not answer: a failed transport, a status that is not a success, or a body that
does not parse. -/
def OcspFailed : Prop :=
  match services.fetchOcsp frame.nid with
  | .error _ => True
  | .ok response => response.ok = false ∨ ∃ message, response.body = .error message

/-- The sources after the list were consulted, and none of them objected. -/
structure SourcesClear : Prop where
  callback : ∀ check, services.revocationCheck = some check →
    ∃ answer, check frame = .ok answer ∧ ∀ r, answer = some r → r.valid = true
  store : ∀ store, services.revocationStore = some store → ∃ serial record,
    identSerial frame = some serial ∧ store serial = .ok record ∧
      truthy (record.bind NipCertRecord.revokedAt) = none
  ocsp : (truthy services.ocspUrl).isSome = true → (services.ocspFailOpen = true ∧ OcspFailed services frame) ∨
    ∃ response body, services.fetchOcsp frame.nid = .ok response ∧ response.ok = true ∧
      response.body = .ok body ∧ member body "valid" = some (.bool true)

/-- The list was consulted, for a serial that it does not name. -/
def ListClears : Prop := ∀ serials, services.localRevokedSerials = some serials →
  ∃ serial, identSerial frame = some serial ∧ serial ∉ serials

/-- The steps other than the revocation pass. -/
structure OtherSteps : Prop where
  unexpired : frame.metadata ≠ .null ∧ ∃ expiresAt t, member frame.metadata "expiresAt" = some expiresAt ∧
    isTruthy (some expiresAt) = true ∧ services.dateParse expiresAt = some t ∧
      context.asOf.getD services.now < t
  signed : ∃ key, services.issuerKeys.get (issuedBy services frame) = some key ∧
    (checkSignature crypto frame key 3).valid = true
  chained : (checkX509 services frame 3).valid = true
  capable : context.requiredCapabilities = [] ∨ ∃ held, heldCapabilities frame = some held ∧
    ∀ c ∈ context.requiredCapabilities, c ∈ held
  inScope : ∀ path, context.targetNodePath = some path → (checkScope services frame path).valid = true

/-- One source more than before. -/
inductive OneMore : Services → Prop
  | list (serials : List String) (h : services.localRevokedSerials = none) :
    OneMore { services with localRevokedSerials := some serials }
  | callback (check) (h : services.revocationCheck = none) :
    OneMore { services with revocationCheck := some check }
  | store (store) (h : services.revocationStore = none) :
    OneMore { services with revocationStore := some store }
  | ocsp (url : String) (h : (truthy services.ocspUrl).isSome = false) :
    OneMore { services with ocspUrl := some url }

/-- **Revocation fails closed**: an accepted identity was cleared by every source there is, and one
more source does not make a rejected identity accepted. -/
structure FailsClosed : Prop where
  cleared : Accepted crypto services frame context → ListClears services frame ∧ SourcesClear services frame ∧
    (services.revocationRequired = true → hasRevocationSource services = true)
  monotone : (services.revocationRequired = true → hasRevocationSource services = true) →
    ∀ services', OneMore services services' → Accepted crypto services' frame context →
      Accepted crypto services frame context

/-! ### What is accepted -/

variable {crypto services frame context}

theorem observeLocal_none_iff : observeLocal services frame = none ↔
    ∀ serials serial, services.localRevokedSerials = some serials → identSerial frame = some serial →
      serial ∉ serials := by
  unfold observeLocal
  cases services.localRevokedSerials with
  | none => simp
  | some serials =>
    cases identSerial frame with
    | none => simp [observe]
    | some serial => by_cases hmem : serial ∈ serials <;> simp [observe, hmem]

theorem observeCallback_none_iff : observeCallback services frame = none ↔
    ∀ check, services.revocationCheck = some check →
      ∃ answer, check frame = .ok answer ∧ ∀ r, answer = some r → r.valid = true := by
  unfold observeCallback
  cases services.revocationCheck with
  | none => simp
  | some check =>
    rcases hcheck : check frame with _ | _ | r
    · simp [observe, hcheck]
    · simp [observe, hcheck]
    · cases hvalid : r.valid <;> simp [observe, hcheck, hvalid]

theorem observeStore_none_iff : observeStore services frame = none ↔
    ∀ store, services.revocationStore = some store → ∃ serial record,
      identSerial frame = some serial ∧ store serial = .ok record ∧
        truthy (record.bind NipCertRecord.revokedAt) = none := by
  unfold observeStore
  cases services.revocationStore with
  | none => simp
  | some store =>
    cases identSerial frame with
    | none => simp [observe]
    | some serial =>
      cases hrecord : store serial with
      | error _ => simp [observe, hrecord]
      | ok record =>
        cases hrevoked : truthy (record.bind NipCertRecord.revokedAt) <;> simp [observe, hrecord, hrevoked]

theorem observeStore_invalid {r : VerifyResult} (h : observeStore services frame = some r) : r.valid = false := by
  unfold observeStore at h
  obtain ⟨store, -, h⟩ := Option.bind_eq_some_iff.1 h
  split at h
  · cases h
    rfl
  split at h
  · cases h
    rfl
  split at h
  · cases h
    rfl
  · cases h

theorem ocspCheck_valid_iff : (ocspCheck services frame.nid).valid = true ↔
    (services.ocspFailOpen = true ∧ OcspFailed services frame) ∨
      ∃ response body, services.fetchOcsp frame.nid = .ok response ∧ response.ok = true ∧
        response.body = .ok body ∧ member body "valid" = some (.bool true) := by
  unfold ocspCheck OcspFailed
  rcases hfetch : services.fetchOcsp frame.nid with _ | response
  · cases services.ocspFailOpen <;> simp [VerifyResult.ok, VerifyResult.fail]
  · cases hok : response.ok
    · cases services.ocspFailOpen <;> simp [VerifyResult.ok, VerifyResult.fail, hok]
    · rcases hbody : response.body with _ | body
      · cases services.ocspFailOpen <;> simp [VerifyResult.ok, VerifyResult.fail, hok, hbody]
      · simp only [hok, hbody, Bool.not_true, Bool.false_eq_true, if_false]
        split
        · simp_all [VerifyResult.ok]
        · simp_all [VerifyResult.fail]

theorem checkRevocation_valid_iff : (checkRevocation services frame).valid = true ↔
    observeLocal services frame = none ∧ SourcesClear services frame ∧
      (services.revocationRequired = true → hasRevocationSource services = true) := by
  have hclear : SourcesClear services frame ↔ observeCallback services frame = none ∧
      observeStore services frame = none ∧
      ((truthy services.ocspUrl).isSome = true → (ocspCheck services frame.nid).valid = true) := by
    rw [observeCallback_none_iff, observeStore_none_iff, ocspCheck_valid_iff]
    exact ⟨fun h => ⟨h.callback, h.store, h.ocsp⟩, fun h => ⟨h.1, h.2.1, h.2.2⟩⟩
  rw [hclear]
  unfold checkRevocation
  cases hlocal : observeLocal services frame with
  | some r => simp [observeLocal_invalid hlocal]
  | none =>
    cases hcallback : observeCallback services frame with
    | some r => simp [observeCallback_invalid hcallback]
    | none =>
      cases hstore : observeStore services frame with
      | some r => simp [observeStore_invalid hstore]
      | none =>
        cases (truthy services.ocspUrl).isSome <;> cases hocsp : (ocspCheck services frame.nid).valid <;>
          cases services.revocationRequired <;> cases hasRevocationSource services <;>
            simp [VerifyResult.ok, revocationFailure, VerifyResult.fail, hocsp]

theorem verifyRest_valid_iff : (∃ r, verifyRest services frame context = some r ∧ r.valid = true) ↔
    (checkX509 services frame 3).valid = true ∧ (checkRevocation services frame).valid = true ∧
      (context.requiredCapabilities = [] ∨ ∃ held, heldCapabilities frame = some held ∧
        ∀ c ∈ context.requiredCapabilities, c ∈ held) ∧
      ∀ path, context.targetNodePath = some path → (checkScope services frame path).valid = true := by
  unfold verifyRest
  cases hchain : (checkX509 services frame 3).valid with
  | false => simp [hchain]
  | true =>
  cases hrevocation : (checkRevocation services frame).valid with
  | false => simp [hchain, hrevocation]
  | true =>
  by_cases hnone : context.requiredCapabilities = []
  · cases hpath : context.targetNodePath <;> simp [hchain, hrevocation, hnone, VerifyResult.ok]
  · cases hheld : heldCapabilities frame with
    | none => simp [hchain, hrevocation, hnone]
    | some held =>
      by_cases hmissing : ∃ c ∈ context.requiredCapabilities, c ∉ held
      · obtain ⟨c, hc, hheld⟩ := hmissing
        have hne : ¬ ∀ c ∈ context.requiredCapabilities, c ∈ held := fun h => hheld (h c hc)
        simp [hchain, hrevocation, hnone, hne, VerifyResult.fail, show ∃ c ∈ context.requiredCapabilities, c ∉ held from ⟨c, hc, hheld⟩]
      · have hall : ∀ c ∈ context.requiredCapabilities, c ∈ held := by simpa using hmissing
        cases hpath : context.targetNodePath <;>
          simp [hchain, hrevocation, hnone, hmissing, eq_true hall, VerifyResult.ok]

/-- An identity is accepted when the revocation step and the other steps pass. -/
theorem accepted_iff : Accepted crypto services frame context ↔
    OtherSteps crypto services frame context ∧ (checkRevocation services frame).valid = true := by
  constructor
  · rintro ⟨r, hv, hr⟩
    unfold verifyIdent at hv
    split at hv
    · cases hv
    rename_i hnull
    dsimp only at hv
    split at hv
    · cases hv
      cases hr
    rename_i t hdate
    split at hv
    · cases hv
      cases hr
    rename_i hfresh
    split at hv
    · cases hv
      rw [missingIssuer_invalid] at hr
      cases hr
    rename_i key hkey
    split at hv
    · rename_i hsig
      cases hv
      simp [hr] at hsig
    rename_i hsig
    have hrest := verifyRest_valid_iff.1 ⟨r, hv, hr⟩
    cases htruthy : isTruthy (member frame.metadata "expiresAt") with
    | false => simp [htruthy] at hdate
    | true =>
      obtain ⟨expiresAt, hmember, hdate⟩ := Option.bind_eq_some_iff.1 (by simpa [htruthy] using hdate)
      rw [hmember] at htruthy
      exact ⟨⟨⟨hnull, expiresAt, t, hmember, htruthy, hdate, by omega⟩, ⟨key, hkey, by simpa using hsig⟩,
        hrest.1, hrest.2.2.1, hrest.2.2.2⟩, hrest.2.1⟩
  · rintro ⟨h, hrevocation⟩
    obtain ⟨-, expiresAt, t, hmember, htruthy, hdate, hfresh⟩ := h.unexpired
    obtain ⟨key, hkey, hsig⟩ := h.signed
    rw [Accepted, verifyIdent_eq hmember htruthy hdate hfresh hkey hsig]
    exact verifyRest_valid_iff.2 ⟨h.chained, hrevocation, h.capable, h.inScope⟩

/-! ### The frames for which it is open -/

theorem OneMore.accepted {services' : Services} (h : OneMore services services')
    (hsource : services.revocationRequired = true → hasRevocationSource services = true)
    (haccepted : Accepted crypto services' frame context) : Accepted crypto services frame context := by
  obtain ⟨hsteps, hrevocation⟩ := accepted_iff.1 haccepted
  obtain ⟨hlist, hclear, -⟩ := checkRevocation_valid_iff.1 hrevocation
  rw [observeLocal_none_iff] at hlist
  refine accepted_iff.2 ⟨?_, checkRevocation_valid_iff.2 ⟨observeLocal_none_iff.2 ?_, ?_, hsource⟩⟩
  · cases h <;> exact ⟨hsteps.unexpired, hsteps.signed, hsteps.chained, hsteps.capable, hsteps.inScope⟩
  · cases h with
    | list serials h => simp [h]
    | _ => exact hlist
  · cases h with
    | list => exact ⟨hclear.callback, hclear.store, hclear.ocsp⟩
    | callback check h => exact ⟨by simp [h], hclear.store, hclear.ocsp⟩
    | store store h => exact ⟨hclear.callback, by simp [h], hclear.ocsp⟩
    | ocsp url h => exact ⟨hclear.callback, hclear.store, by simp [h]⟩

/-- A node with a list of revoked serials. -/
def listingServices : Services := { sampleServices with localRevokedSerials := some ["0A"] }

end NpsSdk.Nip
