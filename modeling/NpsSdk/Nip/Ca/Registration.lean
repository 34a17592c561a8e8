import NpsSdk.Lib.CheckThenAct
import NpsSdk.Nip.Ca.Revocation

/-!
# Registration under interleaving

A registration looks its NID up, waits for a serial, and saves its record then; the store refuses a serial
that is there, and not a NID.  `Lib/CheckThenAct` is its protocol: the keys are the NIDs, and a saved record
marks its NID.  Where no registration finds a NID free while another one that has found it free can still
save a record of it, each NID is registered once.
-/

namespace NpsSdk.Nip.Ca

open NpsSdk.Lib

/-! ### Arguments -/

namespace NipCaService

variable (ca : NipCaService)

def permits (capabilities : List String) : Bool :=
  match ca.opts.allowedCapabilities with
  | none => true
  | some allowed => capabilities.all fun c => allowed.contains c

def reads (scopeJson : String) (metadataJson : Option String) : Bool :=
  (ca.parseJson scopeJson).isSome && metadataJson.all fun text => (ca.parseJson text).isSome

/-- The dates of a certificate issued at `t` can be written. -/
def DatesWritten (t : ℤ) : Prop :=
  (isoRoundTrip t).isSome ∧ (∀ entityType, (isoRoundTrip (t + ca.validityOf entityType)).isSome) ∧
    (isoRoundTrip (t + ca.opts.groupCertValidityDays * 86400000)).isSome

end NipCaService

def CaCall.registers : CaCall → Bool
  | .register .. | .registerX509 .. | .registerGroup .. => true
  | _ => false

/-- The NID a registration is for, where its arguments say which. -/
def CaCall.target (ca : NipCaService) : CaCall → Option String
  | .register entityType identifier .. => some (ca.buildNid entityType identifier)
  | .registerX509 entityType identifier .. => some (ca.buildNid entityType identifier)
  | .registerGroup identifier .. => (truthy identifier).map (ca.buildNid "agent")
  | _ => none

/-- The arguments of a registration pass its own checks. -/
def CaCall.acceptable (ca : NipCaService) : CaCall → Bool
  | .register _ _ _ capabilities scopeJson metadataJson =>
    ca.permits capabilities && ca.reads scopeJson metadataJson
  | .registerX509 _ _ pubKey capabilities scopeJson _ _ metadataJson =>
    startsWith pubKey "ed25519:" && (ca.permits capabilities && ca.reads scopeJson metadataJson)
  | .registerGroup identifier _ capabilities scopeJson _ _ metadataJson =>
    (truthy identifier).all (fun id => startsWith id "group-") &&
      (ca.permits capabilities && ca.reads scopeJson metadataJson)
  | _ => false

/-- What a registration of a NID that has a record fails with. -/
def alreadyExists (nid : String) : CaError :=
  .nipCa ("NID already exists: " ++ nid) NipErrorCodes.NidAlreadyExists

/-! ### The stages of a registration -/

/-- About to save a record of the NID with the serial, and to answer its frame. -/
def Saves (nid serial : String) (p : CaAsync CaReply) : Prop :=
  ∃ r k frame, p = .op (.store (.save r)) k ∧ r.nid = nid ∧ r.serial = serial ∧
    k (.ok ()) = .done (.ok (.ident frame)) ∧ frame.nid = nid

def Draws (ca : NipCaService) (nid : String) (p : CaAsync CaReply) : Prop :=
  ∃ k, p = .op .now k ∧ ∀ t, ca.DatesWritten t → ∃ k', k (.ok t) = .op (.store .nextSerial) k' ∧
    ∀ serial, Saves nid serial (k' (.ok serial))

def LooksUp (ca : NipCaService) (c : CaCall) (p : CaAsync CaReply) : Prop :=
  ∃ nid k, p = .op (.store (.getByNid nid)) k ∧ (∀ t, c.target ca = some t → nid = t) ∧
    (∀ r, k (.ok (some r)) = .done (.error (alreadyExists nid))) ∧ Draws ca nid (k (.ok none))

/-- About to look its NID up, or to draw it first. -/
def Seeks (ca : NipCaService) (c : CaCall) (p : CaAsync CaReply) : Prop :=
  LooksUp ca c p ∨ ∃ k, p = .op (.randomHex 16) k ∧ ∀ text, LooksUp ca c (k (.ok text))

/-- The operations that change the records. -/
def CaOp.writes : CaOp → Bool
  | .store (.save _) | .store (.revoke ..) => true
  | _ => false

/-- Whatever its operations answer, it leaves the records alone and fails. -/
def Doomed (p : CaAsync CaReply) : Prop :=
  p.Keeps (fun o => o.writes = false) (fun _ _ => True) ∧ p.Passes fun _ _ => False

namespace NipCaService

variable {ca : NipCaService} {r : NipCertRecord} {level : Option String} {lineage : Option Json}

theorem issueFrame_ok (hreads : ca.reads r.scopeJson r.metadataJson = true)
    (hissued : (isoRoundTrip r.issuedAt).isSome = true) (hexpires : (isoRoundTrip r.expiresAt).isSome = true) :
    ∃ frame, ca.issueFrame r.nid r.pubKey r.capabilities r.scopeJson r.issuedAt r.expiresAt r.serial
      r.metadataJson level lineage = .done (.ok frame) ∧ frame.nid = r.nid := by
  simp only [reads, Bool.and_eq_true] at hreads
  obtain ⟨hscope, hmetadata⟩ := hreads
  obtain ⟨scope, hscope⟩ := Option.isSome_iff_exists.1 hscope
  obtain ⟨issuedAtStr, hissued⟩ := Option.isSome_iff_exists.1 hissued
  obtain ⟨expiresAtStr, hexpires⟩ := Option.isSome_iff_exists.1 hexpires
  unfold issueFrame parse isoDate
  rw [hscope, hissued, hexpires]
  cases hm : r.metadataJson with
  | none => exact ⟨_, rfl, rfl⟩
  | some text =>
    rw [hm] at hmetadata
    obtain ⟨metadata, htext⟩ := Option.isSome_iff_exists.1 (show (ca.parseJson text).isSome = true from hmetadata)
    simp only [Async.pure_eq, Async.done_bind, htext]
    exact ⟨_, rfl, rfl⟩

theorem issueFrame_refused (hreads : ca.reads r.scopeJson r.metadataJson = false) :
    ∃ e, ca.issueFrame r.nid r.pubKey r.capabilities r.scopeJson r.issuedAt r.expiresAt r.serial
      r.metadataJson level lineage = .done (.error e) := by
  unfold issueFrame parse isoDate
  cases hscope : ca.parseJson r.scopeJson with
  | none => exact ⟨_, rfl⟩
  | some scope =>
    cases isoRoundTrip r.issuedAt with
    | none => exact ⟨_, rfl⟩
    | some issuedAtStr =>
      cases isoRoundTrip r.expiresAt with
      | none => exact ⟨_, rfl⟩
      | some expiresAtStr =>
        cases hm : r.metadataJson with
        | none => simp [reads, hscope, hm] at hreads
        | some text =>
          cases htext : ca.parseJson text with
          | none =>
            simp only [Async.pure_eq, Async.done_bind, htext]
            exact ⟨_, rfl⟩
          | some metadata => simp [reads, hscope, hm, htext] at hreads

/-- A registration after its look-up. -/
def registering (ca : NipCaService) (capabilities : List String) (record : ℤ → String → NipCertRecord)
    (level : Option String) (lineage : Option Json) (answer : CaIdentFrame → CaIdentFrame) :
    CaAsync CaReply := do
  ca.checkCapabilities capabilities
  let now ← readClock
  let serial ← nextSerial
  let frame ← ca.issue (record now serial) level lineage
  pure (.ident (answer frame))

variable {capabilities : List String} {record : ℤ → String → NipCertRecord}
  {answer : CaIdentFrame → CaIdentFrame} {nid scopeJson : String} {metadataJson : Option String}

theorem checkCapabilities_ok (h : ca.permits capabilities = true) :
    ca.checkCapabilities capabilities = .done (.ok ()) := by
  unfold checkCapabilities
  unfold permits at h
  cases hallowed : ca.opts.allowedCapabilities with
  | none => rfl
  | some allowed =>
    rw [hallowed] at h
    have hnone : (capabilities.filter fun c => !allowed.contains c) = [] := by
      rw [List.filter_eq_nil_iff]
      intro c hc
      have := List.all_eq_true.1 h c hc
      simpa using this
    dsimp only
    rw [hnone, if_neg (by simp)]
    rfl

theorem checkCapabilities_refused (h : ca.permits capabilities = false) :
    ∃ e, ca.checkCapabilities capabilities = .done (.error e) := by
  unfold checkCapabilities
  unfold permits at h
  cases hallowed : ca.opts.allowedCapabilities with
  | none =>
    rw [hallowed] at h
    cases h
  | some allowed =>
    rw [hallowed] at h
    have hsome : (capabilities.filter fun c => !allowed.contains c) ≠ [] := by
      intro hnil
      rw [List.filter_eq_nil_iff] at hnil
      rw [Bool.eq_false_iff] at h
      apply h
      rw [List.all_eq_true]
      intro c hc
      have := hnil c hc
      simpa using this
    dsimp only
    rw [if_pos hsome]
    exact ⟨_, rfl⟩

/-- What the record of a registration takes from its arguments. -/
structure RecordFor (ca : NipCaService) (nid scopeJson : String) (metadataJson : Option String)
    (record : ℤ → String → NipCertRecord) : Prop where
  nid : ∀ t serial, (record t serial).nid = nid
  serial : ∀ t serial, (record t serial).serial = serial
  scopeJson : ∀ t serial, (record t serial).scopeJson = scopeJson
  metadataJson : ∀ t serial, (record t serial).metadataJson = metadataJson
  dates : ∀ t serial, ca.DatesWritten t → (isoRoundTrip (record t serial).issuedAt).isSome = true ∧
    (isoRoundTrip (record t serial).expiresAt).isSome = true

theorem draws_registering (hr : RecordFor ca nid scopeJson metadataJson record)
    (hpermits : ca.permits capabilities = true) (hreads : ca.reads scopeJson metadataJson = true)
    (hanswer : ∀ frame, (answer frame).nid = frame.nid) :
    Draws ca nid (ca.registering capabilities record level lineage answer) := by
  unfold registering
  rw [checkCapabilities_ok hpermits]
  refine ⟨_, rfl, ?_⟩
  intro t ht
  refine ⟨_, rfl, ?_⟩
  intro serial
  obtain ⟨frame, hframe, hnid⟩ := @issueFrame_ok ca (record t serial) level lineage
    (by rw [hr.scopeJson, hr.metadataJson]; exact hreads) (hr.dates t serial ht).1 (hr.dates t serial ht).2
  show Saves nid serial (ca.issue (record t serial) level lineage >>= fun frame => pure (.ident (answer frame)))
  unfold issue
  rw [hframe]
  refine ⟨record t serial, _, answer frame, rfl, hr.nid t serial, hr.serial t serial, rfl, ?_⟩
  rw [hanswer, hnid, hr.nid]

theorem doomed_registering (hr : RecordFor ca nid scopeJson metadataJson record)
    (h : (ca.permits capabilities && ca.reads scopeJson metadataJson) = false) :
    Doomed (ca.registering capabilities record level lineage answer) := by
  unfold registering
  cases hpermits : ca.permits capabilities with
  | false =>
    obtain ⟨e, he⟩ := checkCapabilities_refused hpermits
    rw [he]
    exact ⟨trivial, fun a => nofun⟩
  | true =>
    have hreads : ca.reads scopeJson metadataJson = false := by simpa [hpermits] using h
    rw [checkCapabilities_ok hpermits]
    have hissue : ∀ t serial, Doomed (ca.issue (record t serial) level lineage >>= fun frame =>
        pure (.ident (answer frame))) := by
      intro t serial
      obtain ⟨e, he⟩ := @issueFrame_refused ca (record t serial) level lineage
        (by rw [hr.scopeJson, hr.metadataJson]; exact hreads)
      unfold issue
      rw [he]
      exact ⟨trivial, fun a => nofun⟩
    have hserial : ∀ t answered, Doomed ((Async.done answered : CaAsync String) >>= fun serial =>
        ca.issue (record t serial) level lineage >>= fun frame => pure (.ident (answer frame))) := by
      intro t answered
      cases answered with
      | error e => exact ⟨trivial, fun a => nofun⟩
      | ok serial => exact hissue t serial
    have hclock : ∀ answered, Doomed ((Async.done answered : CaAsync ℤ) >>= fun t =>
        nextSerial >>= fun serial =>
        ca.issue (record t serial) level lineage >>= fun frame => pure (.ident (answer frame))) := by
      intro answered
      cases answered with
      | error e => exact ⟨trivial, fun a => nofun⟩
      | ok t => exact ⟨⟨rfl, fun r _ => (hserial t r).1⟩, fun r => .inr (hserial t r).2⟩
    exact ⟨⟨rfl, fun r _ => (hclock r).1⟩, fun r => .inr (hclock r).2⟩

theorem looksUp_refuseExisting {c : CaCall} {p : CaAsync CaReply} (hp : Draws ca nid p)
    (htarget : ∀ t, c.target ca = some t → nid = t) : LooksUp ca c (refuseExisting nid >>= fun _ => p) :=
  ⟨nid, _, rfl, htarget, fun _ => rfl, hp⟩

theorem doomed_refuseExisting {p : CaAsync CaReply} (hp : Doomed p) : Doomed (refuseExisting nid >>= fun _ => p) := by
  constructor
  · refine ⟨rfl, fun found _ => ?_⟩
    match found with
    | .error e => exact trivial
    | .ok (some r) => exact trivial
    | .ok none => exact hp.1
  · intro found
    right
    match found with
    | .error e => exact nofun
    | .ok (some r) => exact nofun
    | .ok none => exact hp.2

/-! ### The three registrations -/

/-- The record of `register` and `registerX509`. -/
def entityRecord (ca : NipCaService) (entityType identifier pubKey : String) (capabilities : List String)
    (scopeJson : String) (metadataJson : Option String) (now : ℤ) (serial : String) : NipCertRecord :=
  { nid := ca.buildNid entityType identifier, entityType, serial, pubKey, capabilities, scopeJson,
    issuedBy := ca.opts.caNid, issuedAt := now, expiresAt := now + ca.validityOf entityType, metadataJson }

def groupLineage (ownerUserId ownerKeyId : Option String) : Json :=
  buildLineage [("role", some NID_ROLE_GROUP), ("owner_user_id", ownerUserId), ("owner_key_id", ownerKeyId)]

/-- The record of `registerGroup`. -/
def groupRecord (ca : NipCaService) (id pubKey : String) (capabilities : List String) (scopeJson : String)
    (ownerUserId ownerKeyId metadataJson : Option String) (now : ℤ) (serial : String) : NipCertRecord :=
  { nid := ca.buildNid "agent" id, entityType := "agent", serial, pubKey, capabilities, scopeJson,
    issuedBy := ca.opts.caNid, issuedAt := now
    expiresAt := now + ca.opts.groupCertValidityDays * 86400000, metadataJson
    nidRole := some NID_ROLE_GROUP, parentNid := none
    lineageJson := some (canonicalJson (groupLineage ownerUserId ownerKeyId)) }

variable {entityType identifier pubKey : String}

theorem recordFor_entity : RecordFor ca (ca.buildNid entityType identifier)
    scopeJson metadataJson (ca.entityRecord entityType identifier pubKey capabilities scopeJson metadataJson) where
  nid _ _ := rfl
  serial _ _ := rfl
  scopeJson _ _ := rfl
  metadataJson _ _ := rfl
  dates _ _ ht := ⟨ht.1, ht.2.1 entityType⟩

theorem recordFor_group {id pubKey : String} {ownerUserId ownerKeyId : Option String} :
    RecordFor ca (ca.buildNid "agent" id) scopeJson metadataJson
      (ca.groupRecord id pubKey capabilities scopeJson ownerUserId ownerKeyId metadataJson) where
  nid _ _ := rfl
  serial _ _ := rfl
  scopeJson _ _ := rfl
  metadataJson _ _ := rfl
  dates _ _ ht := ⟨ht.1, ht.2.2⟩

theorem program_register :
    (CaCall.register entityType identifier pubKey capabilities scopeJson metadataJson).program ca =
      (do
        refuseExisting (ca.buildNid entityType identifier)
        ca.registering capabilities
          (ca.entityRecord entityType identifier pubKey capabilities scopeJson metadataJson) none none id) := by
  simp only [CaCall.program, register, registering, bind_assoc]
  rfl

theorem program_registerX509 {chain : List String} {level : String}
    (hkey : startsWith pubKey "ed25519:" = true) :
    (CaCall.registerX509 entityType identifier pubKey capabilities scopeJson chain level metadataJson).program
        ca =
      (do
        refuseExisting (ca.buildNid entityType identifier)
        ca.registering capabilities
          (ca.entityRecord entityType identifier pubKey capabilities scopeJson metadataJson) (some level) none
          (fun frame => { frame with certFormat := some "v2-x509", certChain := some chain })) := by
  simp only [CaCall.program, registerX509, hkey, not_true_eq_false, if_false, registering, bind_assoc]
  rfl

theorem program_registerGroup {identifier : Option String} {pubKey : String}
    {ownerUserId ownerKeyId : Option String} :
    (CaCall.registerGroup identifier pubKey capabilities scopeJson ownerUserId ownerKeyId
        metadataJson).program ca =
      (do
        let name ← groupIdentifier identifier
        refuseExisting (ca.buildNid "agent" name)
        ca.registering capabilities
          (ca.groupRecord name pubKey capabilities scopeJson ownerUserId ownerKeyId metadataJson) none
          (some (groupLineage ownerUserId ownerKeyId)) id) := by
  simp only [CaCall.program, registerGroup, registering, bind_assoc]
  rfl

end NipCaService

/-- **A registration with acceptable arguments** is about to look its NID up. -/
theorem seeks_program {ca : NipCaService} {c : CaCall} (hc : c.acceptable ca = true) : Seeks ca c (c.program ca) := by
  cases c with
  | register entityType identifier pubKey capabilities scopeJson metadataJson =>
    simp only [CaCall.acceptable, Bool.and_eq_true] at hc
    rw [NipCaService.program_register]
    left
    apply NipCaService.looksUp_refuseExisting
    · exact NipCaService.draws_registering NipCaService.recordFor_entity hc.1 hc.2 fun _ => rfl
    · intro t ht
      cases ht
      rfl
  | registerX509 entityType identifier pubKey capabilities scopeJson chain level metadataJson =>
    simp only [CaCall.acceptable, Bool.and_eq_true] at hc
    rw [NipCaService.program_registerX509 hc.1]
    left
    apply NipCaService.looksUp_refuseExisting
    · exact NipCaService.draws_registering NipCaService.recordFor_entity hc.2.1 hc.2.2 fun _ => rfl
    · intro t ht
      cases ht
      rfl
  | registerGroup identifier pubKey capabilities scopeJson ownerUserId ownerKeyId metadataJson =>
    simp only [CaCall.acceptable, Bool.and_eq_true] at hc
    have hdraws : ∀ name, Draws ca (ca.buildNid "agent" name) (ca.registering capabilities
        (ca.groupRecord name pubKey capabilities scopeJson ownerUserId ownerKeyId metadataJson) none
        (some (NipCaService.groupLineage ownerUserId ownerKeyId)) id) := fun name =>
      NipCaService.draws_registering NipCaService.recordFor_group hc.2.1 hc.2.2 fun _ => rfl
    rw [NipCaService.program_registerGroup, NipCaService.groupIdentifier]
    cases hid : truthy identifier with
    | none =>
      right
      refine ⟨_, rfl, fun text => NipCaService.looksUp_refuseExisting (hdraws ("group-" ++ text)) ?_⟩
      intro t ht
      simp [CaCall.target, hid] at ht
    | some name =>
      rw [hid] at hc
      have hreserved : startsWith name "group-" = true := hc.1
      left
      simp only [hreserved, if_true]
      refine NipCaService.looksUp_refuseExisting (hdraws name) ?_
      intro t ht
      simpa [CaCall.target, hid] using ht
  | _ => cases hc

/-- **A registration with other arguments** saves nothing and fails. -/
theorem doomed_program {ca : NipCaService} {c : CaCall} (hregisters : c.registers = true)
    (hc : c.acceptable ca = false) : Doomed (c.program ca) := by
  cases c with
  | register entityType identifier pubKey capabilities scopeJson metadataJson =>
    rw [NipCaService.program_register]
    apply NipCaService.doomed_refuseExisting
    exact NipCaService.doomed_registering NipCaService.recordFor_entity hc
  | registerX509 entityType identifier pubKey capabilities scopeJson chain level metadataJson =>
    by_cases hkey : startsWith pubKey "ed25519:" = true
    · rw [NipCaService.program_registerX509 hkey]
      apply NipCaService.doomed_refuseExisting
      apply NipCaService.doomed_registering NipCaService.recordFor_entity
      simpa [CaCall.acceptable, hkey] using hc
    · simp only [CaCall.program, NipCaService.registerX509, hkey, Bool.false_eq_true, not_false_eq_true, if_true]
      exact ⟨trivial, fun a => nofun⟩
  | registerGroup identifier pubKey capabilities scopeJson ownerUserId ownerKeyId metadataJson =>
    have hnamed : (ca.permits capabilities && ca.reads scopeJson metadataJson) = false → ∀ name,
        Doomed (do
          NipCaService.refuseExisting (ca.buildNid "agent" name)
          ca.registering capabilities
            (ca.groupRecord name pubKey capabilities scopeJson ownerUserId ownerKeyId metadataJson) none
            (some (NipCaService.groupLineage ownerUserId ownerKeyId)) id) := by
      intro h name
      apply NipCaService.doomed_refuseExisting
      exact NipCaService.doomed_registering NipCaService.recordFor_group h
    rw [NipCaService.program_registerGroup, NipCaService.groupIdentifier]
    cases hid : truthy identifier with
    | none =>
      have hchecks := hnamed (by simpa [CaCall.acceptable, hid] using hc)
      refine ⟨⟨rfl, fun r _ => ?_⟩, fun r => .inr ?_⟩
      · match r with
        | .error e => exact trivial
        | .ok text => exact (hchecks ("group-" ++ text)).1
      · match r with
        | .error e => exact nofun
        | .ok text => exact (hchecks ("group-" ++ text)).2
    | some name =>
      by_cases hreserved : startsWith name "group-" = true
      · simp only [hreserved, if_true]
        exact hnamed (by simpa [CaCall.acceptable, hid, hreserved] using hc) name
      · simp only [hreserved, Bool.false_eq_true, if_false]
        exact ⟨trivial, fun a => nofun⟩
  | _ => cases hregisters

/-! ### Serials -/

/-- The serial that is drawn after `n` others. -/
def serialOf (n : ℕ) : String := (InMemoryNipCaStore.mk [] n).nextSerial.1

def SerialsDrawn (s : InMemoryNipCaStore) : Prop := ∀ r ∈ s.records, ∃ n < s.serialCounter, r.serial = serialOf n

theorem hexDigits_injective {m n : ℕ}
    (h : (Nat.toDigits 16 m).map Char.toUpper = (Nat.toDigits 16 n).map Char.toUpper) : m = n := by
  have hdigit : ∀ a < 16, ∀ b < 16, a.digitChar.toUpper = b.digitChar.toUpper → a = b := by decide
  induction m using Nat.strong_induction_on generalizing n with
  | h m ih =>
    have hpos : ∀ k, ((Nat.toDigits 16 k).map Char.toUpper).length ≠ 0 := by
      intro k
      simp [Nat.toDigits_ne_nil]
    by_cases hm : m < 16
    · by_cases hn : n < 16
      · rw [Nat.toDigits_of_lt_base hm, Nat.toDigits_of_lt_base hn] at h
        exact hdigit m hm n hn (by simpa using h)
      · rw [Nat.toDigits_of_lt_base hm, Nat.toDigits_of_base_le (by decide) (not_lt.1 hn)] at h
        have hlen := congrArg List.length h
        have := hpos (n / 16)
        simp only [List.map_append, List.map_cons, List.map_nil, List.length_append, List.length_singleton] at hlen
        omega
    · by_cases hn : n < 16
      · rw [Nat.toDigits_of_base_le (by decide) (not_lt.1 hm), Nat.toDigits_of_lt_base hn] at h
        have hlen := congrArg List.length h
        have := hpos (m / 16)
        simp only [List.map_append, List.map_cons, List.map_nil, List.length_append, List.length_singleton] at hlen
        omega
      · rw [Nat.toDigits_of_base_le (by decide) (not_lt.1 hm),
          Nat.toDigits_of_base_le (by decide) (not_lt.1 hn), List.map_append, List.map_append] at h
        obtain ⟨hquot, hrem⟩ := List.append_inj' h rfl
        have hdiv : m / 16 = n / 16 := ih (m / 16) (by omega) hquot
        have hmod : m % 16 = n % 16 :=
          hdigit _ (Nat.mod_lt _ (by decide)) _ (Nat.mod_lt _ (by decide)) (by simpa using hrem)
        omega

theorem serialOf_injective {m n : ℕ} (h : serialOf m = serialOf n) : m = n := by
  have hlist : (Nat.toDigits 16 (m + 1)).map Char.toUpper = (Nat.toDigits 16 (n + 1)).map Char.toUpper := by
    have := congrArg String.toList h
    simpa [serialOf, InMemoryNipCaStore.nextSerial, toString] using this
  have := hexDigits_injective hlist
  omega

end NpsSdk.Nip.Ca
