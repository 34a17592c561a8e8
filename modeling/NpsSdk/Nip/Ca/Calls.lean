import NpsSdk.Nip.Ca.Service

/-!
# What a call does to the records

A call of the service appends at most one record, and says which: `CaCall.cases` lists, for each
call that ends, the record it appended with what the call found when it looked.  A revocation changes
no certificate.
-/

namespace NpsSdk.Nip.Ca

open NpsSdk.Lib

/-- A call that changes the records. -/
inductive CaCall where
  | register (entityType identifier pubKey : String) (capabilities : List String)
      (scopeJson : String) (metadataJson : Option String)
  | registerX509 (entityType identifier pubKey : String) (capabilities : List String)
      (scopeJson : String) (chain : List String) (assuranceLevel : String)
      (metadataJson : Option String)
  | registerGroup (identifier : Option String) (pubKey : String) (capabilities : List String)
      (scopeJson : String) (ownerUserId ownerKeyId metadataJson : Option String)
  | issueSession (groupNid sessionPubKey : String) (validityMs : Option ℤ) (purpose : Option String)
      (capabilities : Option (List String)) (scopeJson metadataJson : Option String)
  | renew (nid : String)
  | revoke (nid reason : String)

/-- The frame a call answers. -/
inductive CaReply where
  | ident (frame : CaIdentFrame)
  | revoked (frame : CaRevokeFrame)

def CaCall.program (ca : NipCaService) : CaCall → CaAsync CaReply
  | .register entityType identifier pubKey capabilities scopeJson metadataJson => do
    let frame ← ca.register entityType identifier pubKey capabilities scopeJson metadataJson
    pure (.ident frame)
  | .registerX509 entityType identifier pubKey capabilities scopeJson chain level metadataJson => do
    let frame ← ca.registerX509 entityType identifier pubKey capabilities scopeJson chain level
      metadataJson
    pure (.ident frame)
  | .registerGroup identifier pubKey capabilities scopeJson ownerUserId ownerKeyId metadataJson => do
    let frame ← ca.registerGroup identifier pubKey capabilities scopeJson ownerUserId ownerKeyId
      metadataJson
    pure (.ident frame)
  | .issueSession groupNid sessionPubKey validityMs purpose capabilities scopeJson metadataJson => do
    let frame ← ca.issueSession groupNid sessionPubKey validityMs purpose capabilities scopeJson
      metadataJson
    pure (.ident frame)
  | .renew nid => do
    let frame ← ca.renew nid
    pure (.ident frame)
  | .revoke nid reason => do
    let frame ← ca.revoke nid reason
    pure (.revoked frame)

namespace NipCaService

variable {ca : NipCaService}

structure FrameOf (ca : NipCaService) (r : NipCertRecord) (frame : CaIdentFrame) : Prop where
  nid : frame.nid = r.nid
  pubKey : frame.pubKey = r.pubKey
  capabilities : frame.capabilities = r.capabilities
  scope : ca.parseJson r.scopeJson = some frame.scope

theorem issueFrame_cases (ca : NipCaService) (r : NipCertRecord) (level : Option String) (lineage : Option Json) :
    (∃ e, ca.issueFrame r.nid r.pubKey r.capabilities r.scopeJson r.issuedAt r.expiresAt r.serial
        r.metadataJson level lineage = .done (.error e)) ∨
      ∃ frame, ca.issueFrame r.nid r.pubKey r.capabilities r.scopeJson r.issuedAt r.expiresAt r.serial
          r.metadataJson level lineage = .done (.ok frame) ∧ FrameOf ca r frame ∧
          frame.metadata = r.metadataJson.bind ca.parseJson ∧ frame.lineage = lineage := by
  unfold issueFrame parse
  cases hscope : ca.parseJson r.scopeJson with
  | none => exact .inl ⟨_, rfl⟩
  | some scope =>
    unfold isoDate
    cases isoRoundTrip r.issuedAt with
    | none => exact .inl ⟨_, rfl⟩
    | some issuedAtStr =>
      cases isoRoundTrip r.expiresAt with
      | none => exact .inl ⟨_, rfl⟩
      | some expiresAtStr =>
        cases r.metadataJson with
        | none => exact .inr ⟨_, rfl, ⟨rfl, rfl, rfl, hscope⟩, rfl, rfl⟩
        | some text =>
          simp only [Async.pure_eq, Async.done_bind]
          cases hmetadata : ca.parseJson text with
          | none => exact .inl ⟨_, rfl⟩
          | some metadata => exact .inr ⟨_, rfl, ⟨rfl, rfl, rfl, hscope⟩, hmetadata.symm, rfl⟩

section Specs

variable {sha256 : String → String} {amb : ℕ → Ambient} {s : CaState} {α : Type}

variable {Q : Except CaError α → (ℕ → Ambient) → CaState → Prop}

@[simp] theorem wp_readClock {f : ℤ → CaAsync α} :
    Async.wp (exec sha256) (readClock >>= f) Q amb s ↔
      Async.wp (exec sha256) (f ((amb 0).time 0)) Q (fun n => amb (n + 1)) s := Iff.rfl

@[simp] theorem wp_randomHex {bytes : ℕ} {f : String → CaAsync α} :
    Async.wp (exec sha256) (randomHex bytes >>= f) Q amb s ↔
      Async.wp (exec sha256) (f ((amb 0).random 0)) Q (fun n => amb (n + 1)) s := Iff.rfl

theorem wp_revokeCert {nid reason : String} {t : ℤ} {f : Bool → CaAsync α} :
    Async.wp (exec sha256) (revokeCert nid reason t >>= f) Q amb s ↔
      Async.wp (exec sha256) (f (s.certs.revoke nid reason t).1) Q (fun n => amb (n + 1))
        { s with certs := (s.certs.revoke nid reason t).2 } := Iff.rfl

variable {nid : String}

theorem wp_getByParentNid {f : List NipCertRecord → CaAsync α} :
    Async.wp (exec sha256) (getByParentNid nid >>= f) Q amb s ↔
      Async.wp (exec sha256) (f (s.certs.getByParentNid nid)) Q (fun n => amb (n + 1)) s := Iff.rfl

theorem wp_getByNid {f : Option NipCertRecord → CaAsync α} :
    Async.wp (exec sha256) (getByNid nid >>= f) Q amb s ↔
      Async.wp (exec sha256) (f (s.certs.getByNid nid)) Q (fun n => amb (n + 1)) s := Iff.rfl

theorem wp_issue {record : NipCertRecord} {level : Option String} {lineage : Option Json}
    {Q : Except CaError CaIdentFrame → (ℕ → Ambient) → CaState → Prop}
    (herror : ∀ e amb', Q (.error e) amb' s)
    (hok : ∀ frame amb', FrameOf ca record frame → frame.metadata = record.metadataJson.bind ca.parseJson →
      frame.lineage = lineage → Q (.ok frame) amb'
      { s with certs := { s.certs with records := s.certs.records ++ [record] } }) :
    Async.wp (exec sha256) (ca.issue record level lineage) Q amb s := by
  unfold issue
  rcases ca.issueFrame_cases record level lineage with ⟨e, he⟩ | ⟨frame, hf, hframe, hmetadata, hlineage⟩
  · rw [he]
    exact herror e amb
  · rw [hf]
    simp only [Async.done_bind, saveCert, Async.wp_bind, Async.wp_perform, exec, execStore]
    rcases s.certs.save_cases record with ⟨e, hs⟩ | hs
    · rw [hs]
      exact herror _ _
    · rw [hs]
      exact hok frame _ hframe hmetadata hlineage

theorem wp_isoDate {d : ℤ} {f : String → CaAsync α} (herror : ∀ e, Q (.error e) amb s)
    (hok : ∀ text, Async.wp (exec sha256) (f text) Q amb s) : Async.wp (exec sha256) (isoDate d >>= f) Q amb s := by
  unfold isoDate
  cases isoRoundTrip d with
  | none => exact herror _
  | some text => exact hok text

theorem wp_refuseExisting {Q : Except CaError Unit → (ℕ → Ambient) → CaState → Prop}
    (herror : ∀ e amb', Q (.error e) amb' s)
    (hok : s.certs.getByNid nid = none → Q (.ok ()) (fun n => amb (n + 1)) s) :
    Async.wp (exec sha256) (refuseExisting nid) Q amb s := by
  simp only [refuseExisting, getByNid, Async.wp_bind, Async.wp_perform, exec, execStore]
  cases hg : s.certs.getByNid nid with
  | some r => exact herror _ _
  | none => exact hok hg

variable {capabilities : List String}

theorem wp_checkCapabilities {Q : Except CaError Unit → (ℕ → Ambient) → CaState → Prop}
    (herror : ∀ e amb', Q (.error e) amb' s) (hok : Q (.ok ()) amb s) :
    Async.wp (exec sha256) (ca.checkCapabilities capabilities) Q amb s := by
  unfold checkCapabilities
  cases ca.opts.allowedCapabilities with
  | none => exact hok
  | some allowed =>
    dsimp only
    split
    · exact herror _ _
    · exact hok

/-- The end of an issuing call: the records as they were, or with one more that meets `P` and whose
frame is the answer. -/
def Issuing (ca : NipCaService) (P : NipCertRecord → Prop) (s : CaState) :
    Except CaError CaIdentFrame → (ℕ → Ambient) → CaState → Prop
  | .error _, _, s' => s'.certs.records = s.certs.records
  | .ok frame, _, s' => (∃ r, P r ∧ r.revokedAt = none ∧ ca.FrameOf r frame ∧
      s'.certs.records = s.certs.records ++ [r]) ∧ s'.tokens = s.tokens

theorem wp_serial_issue {record : String → NipCertRecord} {level : Option String}
    {lineage : Option Json} {P : NipCertRecord → Prop}
    (hP : ∀ serial, P (record serial)) (hlive : ∀ serial, (record serial).revokedAt = none) :
    Async.wp (exec sha256) (nextSerial >>= fun serial => ca.issue (record serial) level lineage)
      (Issuing ca P s) amb s := by
  simp only [nextSerial, Async.wp_bind, Async.wp_perform, exec, execStore]
  apply wp_issue
  · intro e amb'
    rfl
  · intro frame amb' hframe _ _
    exact ⟨⟨_, hP _, hlive _, hframe, rfl⟩, rfl⟩

theorem buildNid_ne_empty {entityType identifier : String} : ca.buildNid entityType identifier ≠ "" := by
  intro h
  have := congrArg String.toList h
  simp [buildNid] at this

/-- What is known of the record a registration appends. -/
structure RegisteredRecord (ca : NipCaService) (entityType identifier pubKey : String)
    (capabilities : List String) (scopeJson : String) (role : Option String)
    (s : InMemoryNipCaStore) (r : NipCertRecord) : Prop where
  /-- The NID had no record. -/
  new : s.getByNid r.nid = none
  nid : r.nid = ca.buildNid entityType identifier
  pubKey : r.pubKey = pubKey
  capabilities : r.capabilities = capabilities
  scopeJson : r.scopeJson = scopeJson
  role : r.nidRole = role

variable {scopeJson : String}

theorem wp_register {entityType identifier pubKey : String} {metadataJson : Option String} :
    Async.wp (exec sha256) (ca.register entityType identifier pubKey capabilities scopeJson metadataJson)
      (Issuing ca (ca.RegisteredRecord entityType identifier pubKey capabilities scopeJson none s.certs)
        s) amb s := by
  unfold register
  rw [Async.wp_bind]
  apply wp_refuseExisting
  · intro e amb'
    rfl
  intro hnew
  dsimp only
  rw [Async.wp_bind]
  apply wp_checkCapabilities
  · intro e amb'
    rfl
  rw [wp_readClock]
  exact wp_serial_issue (fun _ => ⟨hnew, rfl, rfl, rfl, rfl, rfl⟩) fun _ => rfl

theorem wp_registerX509 {entityType identifier pubKey : String}
    {chain : List String} {level : String} {metadataJson : Option String} :
    Async.wp (exec sha256)
      (ca.registerX509 entityType identifier pubKey capabilities scopeJson chain level metadataJson)
      (Issuing ca (ca.RegisteredRecord entityType identifier pubKey capabilities scopeJson none s.certs)
        s) amb s := by
  unfold registerX509
  split
  · rfl
  dsimp only
  rw [Async.wp_bind]
  apply wp_refuseExisting
  · intro e amb'
    rfl
  intro hnew
  dsimp only
  rw [Async.wp_bind]
  apply wp_checkCapabilities
  · intro e amb'
    rfl
  rw [wp_readClock]
  -- the chain is added to the frame only
  rw [← bind_assoc, Async.wp_bind]
  refine Async.wp_mono (wp_serial_issue (P := ca.RegisteredRecord entityType identifier pubKey
    capabilities scopeJson none s.certs) (fun _ => ⟨hnew, rfl, rfl, rfl, rfl, rfl⟩) fun _ => rfl) ?_
  intro r amb' s' h
  cases r with
  | error e => exact h
  | ok frame =>
    obtain ⟨⟨r, hr, hlive, hframe, hs⟩, htokens⟩ := h
    exact ⟨⟨r, hr, hlive, ⟨hframe.nid, hframe.pubKey, hframe.capabilities, hframe.scope⟩, hs⟩, htokens⟩

theorem wp_groupIdentifier {identifier : Option String} {Q : Except CaError String → (ℕ → Ambient) → CaState → Prop}
    (herror : ∀ e amb', Q (.error e) amb' s) (hok : ∀ id amb', Q (.ok id) amb' s) :
    Async.wp (exec sha256) (groupIdentifier identifier) Q amb s := by
  unfold groupIdentifier
  cases truthy identifier with
  | none => exact hok _ _
  | some id =>
    dsimp only
    split
    · exact hok _ _
    · exact herror _ _

theorem wp_registerGroup {identifier : Option String} {pubKey : String}
    {ownerUserId ownerKeyId metadataJson : Option String} :
    Async.wp (exec sha256)
      (ca.registerGroup identifier pubKey capabilities scopeJson ownerUserId ownerKeyId metadataJson)
      (Issuing ca (fun r => ∃ id, ca.RegisteredRecord "agent" id pubKey capabilities scopeJson
        (some NID_ROLE_GROUP) s.certs r) s) amb s := by
  unfold registerGroup
  rw [Async.wp_bind]
  apply wp_groupIdentifier
  · intro e amb'
    rfl
  intro id amb'
  dsimp only
  rw [Async.wp_bind]
  apply wp_refuseExisting
  · intro e amb'
    rfl
  intro hnew
  dsimp only
  rw [Async.wp_bind]
  apply wp_checkCapabilities
  · intro e amb'
    rfl
  rw [wp_readClock]
  exact wp_serial_issue (fun _ => ⟨id, hnew, rfl, rfl, rfl, rfl, rfl⟩) fun _ => rfl

/-! ### Sessions and renewals -/

theorem wp_resolveGroup {groupNid : String} {Q : Except CaError NipCertRecord → (ℕ → Ambient) → CaState → Prop}
    (herror : ∀ e amb', Q (.error e) amb' s)
    (hok : ∀ group, s.certs.getByNid groupNid = some group → group.nidRole = some NID_ROLE_GROUP →
      group.revokedAt = none → Q (.ok group) (fun n => amb (n + 2)) s) :
    Async.wp (exec sha256) (resolveGroup groupNid) Q amb s := by
  unfold resolveGroup
  rw [wp_getByNid]
  cases hg : s.certs.getByNid groupNid with
  | none => exact herror _ _
  | some group =>
    dsimp only
    split
    · exact herror _ _
    rename_i hrole
    split
    · exact herror _ _
    rename_i hrevoked
    rw [wp_readClock]
    split
    · exact herror _ _
    · exact hok group hg (not_not.1 hrole) (by simpa using hrevoked)

theorem wp_sessionCapabilities {group : NipCertRecord} {capabilities : Option (List String)}
    {Q : Except CaError (List String) → (ℕ → Ambient) → CaState → Prop} (herror : ∀ e amb', Q (.error e) amb' s)
    (hok : ∀ caps, caps ⊆ group.capabilities → Q (.ok caps) amb s) :
    Async.wp (exec sha256) (sessionCapabilities group capabilities) Q amb s := by
  unfold sessionCapabilities
  cases capabilities with
  | none => exact hok _ (List.Subset.refl _)
  | some capabilities =>
    dsimp only
    split
    · exact herror _ _
    rename_i hexp
    refine hok _ fun c hc => ?_
    by_contra hn
    have : c ∈ capabilities.filter fun c => !group.capabilities.contains c := by simp [hc, hn]
    rw [not_not.1 hexp] at this
    cases this

/-- The NID a call of `issueSession` makes up of the clock and the random digits it draws. -/
def sessionNid (ca : NipCaService) (amb : ℕ → Ambient) : String :=
  ca.buildNid "agent"
    ("session-" ++ toString ((amb 2).time 0 / 1000) ++ "-" ++ (amb 3).random 0)

/-- What is known of the record of a new session. -/
structure SessionRecord (ca : NipCaService) (groupNid : String) (amb : ℕ → Ambient)
    (s : InMemoryNipCaStore) (r : NipCertRecord) : Prop where
  nid : r.nid = ca.sessionNid amb
  role : r.nidRole = some NID_ROLE_SESSION
  parent : r.parentNid = some groupNid
  lifetime : r.expiresAt - r.issuedAt ≤ ca.opts.sessionMaxValidityMs
  /-- The current record of the group is a live group that has the capabilities of the session. -/
  group : ∃ group, s.getByNid groupNid = some group ∧ group.nidRole = some NID_ROLE_GROUP ∧
    r.capabilities ⊆ group.capabilities

theorem wp_issueSession_scope {groupNid sessionPubKey : String} {validityMs : Option ℤ}
    {purpose : Option String} {capabilities : Option (List String)} {scopeJson metadataJson : Option String} :
    Async.wp (exec sha256)
      (ca.issueSession groupNid sessionPubKey validityMs purpose capabilities scopeJson metadataJson)
      (Issuing ca (fun r => SessionRecord ca groupNid amb s.certs r ∧
        ∃ group, s.certs.getByNid groupNid = some group ∧ r.scopeJson = scopeJson.getD group.scopeJson)
        s) amb s := by
  unfold issueSession
  rw [Async.wp_bind]
  apply wp_resolveGroup
  · intro e amb'
    rfl
  intro group hgroup hrole hlive
  dsimp only
  rw [Async.wp_bind]
  unfold checkSessionValidity
  split
  · rfl
  rename_i hv
  rw [Async.pure_eq, Async.wp_done, Async.wp_bind]
  apply wp_sessionCapabilities
  · intro e amb'
    rfl
  intro caps hcaps
  dsimp only
  rw [wp_readClock, wp_randomHex, wp_readClock]
  refine wp_serial_issue (fun serial =>
    ⟨⟨rfl, rfl, rfl, ?_, group, hgroup, hrole, hcaps⟩, group, hgroup, rfl⟩) fun _ => rfl
  dsimp only
  omega

theorem wp_issueSession {groupNid sessionPubKey : String} {validityMs : Option ℤ}
    {purpose : Option String} {capabilities : Option (List String)} {scopeJson metadataJson : Option String} :
    Async.wp (exec sha256)
      (ca.issueSession groupNid sessionPubKey validityMs purpose capabilities scopeJson metadataJson)
      (Issuing ca (SessionRecord ca groupNid amb s.certs) s) amb s := by
  refine Async.wp_mono wp_issueSession_scope ?_
  intro r amb' s' h
  cases r with
  | error e => exact h
  | ok frame =>
    obtain ⟨⟨r, ⟨hr, -⟩, hlive, hframe, hs⟩, htokens⟩ := h
    exact ⟨⟨r, hr, hlive, hframe, hs⟩, htokens⟩

/-- What is known of the record a renewal appends. -/
structure RenewedRecord (ca : NipCaService) (nid : String) (amb : ℕ → Ambient)
    (s : InMemoryNipCaStore) (r : NipCertRecord) : Prop where
  renews : r.nid = nid
  role : r.nidRole = none
  /-- The record that is replaced is not revoked, and its renewal window is open. -/
  replaced : ∃ old, s.getByNid nid = some old ∧ old.revokedAt = none ∧
    old.expiresAt - ca.opts.renewalWindowDays * 86400000 ≤ (amb 1).time 0

theorem wp_renew_of {Q : Except CaError CaIdentFrame → (ℕ → Ambient) → CaState → Prop}
    (herror : ∀ e amb', Q (.error e) amb' s)
    (hok : ∀ old amb', s.certs.getByNid nid = some old → old.revokedAt = none →
      old.expiresAt - ca.opts.renewalWindowDays * 86400000 ≤ (amb 1).time 0 →
      Async.wp (exec sha256) (nextSerial >>= fun serial => ca.issue
        { nid, entityType := old.entityType, serial, pubKey := old.pubKey, capabilities := old.capabilities,
          scopeJson := old.scopeJson, issuedBy := ca.opts.caNid, issuedAt := (amb 1).time 0,
          expiresAt := (amb 1).time 0 + ca.validityOf old.entityType, metadataJson := old.metadataJson }
        none none) Q amb' s) : Async.wp (exec sha256) (ca.renew nid) Q amb s := by
  unfold renew renewable
  rw [Async.wp_bind, wp_getByNid]
  cases hg : s.certs.getByNid nid with
  | none => exact herror _ _
  | some old =>
    dsimp only
    split
    · exact herror _ _
    rename_i hlive
    rw [Async.pure_eq, Async.wp_done]
    dsimp only
    rw [wp_readClock]
    split
    · exact wp_isoDate (fun _ => herror _ _) fun _ => herror _ _
    rename_i hwindow
    exact hok old _ hg (by simpa using hlive) (not_lt.1 hwindow)

theorem wp_renew : Async.wp (exec sha256) (ca.renew nid) (Issuing ca (RenewedRecord ca nid amb s.certs) s) amb s :=
  wp_renew_of (fun _ _ => rfl) fun old _ hg hlive hwindow =>
    wp_serial_issue (fun _ => ⟨rfl, rfl, old, hg, hlive, hwindow⟩) fun _ => rfl

/-! ### Revocations -/

/-- The end of a call that changes no certificate. -/
def SameCerts (s : CaState) {α : Type} (_ : Except CaError α) (_ : ℕ → Ambient) (s' : CaState) :
    Prop :=
  s'.certs.records.map NipCertRecord.issued = s.certs.records.map NipCertRecord.issued

theorem wp_cascade {now : ℤ} {children : List NipCertRecord} {s₀ : CaState}
    (hs : s.certs.records.map NipCertRecord.issued = s₀.certs.records.map NipCertRecord.issued) :
    Async.wp (exec sha256) (cascade now children) (SameCerts s₀) amb s := by
  induction children generalizing amb s with
  | nil => exact hs
  | cons child children ih =>
    unfold cascade
    split
    · exact ih hs
    · exact ih (InMemoryNipCaStore.issued_revoke.trans hs)

theorem wp_revoke {nid reason : String} : Async.wp (exec sha256) (ca.revoke nid reason) (SameCerts s) amb s := by
  unfold revoke
  rw [wp_getByNid]
  cases s.certs.getByNid nid with
  | none => rfl
  | some record =>
    dsimp only
    rw [wp_readClock, wp_revokeCert]
    split
    · exact InMemoryNipCaStore.issued_revoke
    have hend : ∀ {t : ℤ} {amb' : ℕ → Ambient} {s' : CaState} {f : String → CaRevokeFrame},
        SameCerts s (.ok ()) amb' s' → Async.wp (exec sha256)
          (isoDate t >>= fun text => pure (f text)) (SameCerts s) amb' s' := by
      intro t amb' s' f h
      unfold isoDate
      cases isoRoundTrip t <;> exact h
    split
    · rw [wp_getByParentNid, Async.wp_bind]
      refine Async.wp_mono (wp_cascade InMemoryNipCaStore.issued_revoke) ?_
      intro r amb' s' h
      cases r with
      | error e => exact h
      | ok u => exact hend h
    · exact hend InMemoryNipCaStore.issued_revoke

end Specs

end NipCaService

/-! ### Any call -/

/-- What is known of the record a call appends. -/
def CaCall.Issues (ca : NipCaService) (amb : ℕ → Ambient) (s : InMemoryNipCaStore)
    (r : NipCertRecord) : CaCall → Prop
  | .register entityType identifier pubKey capabilities scopeJson _ =>
    ca.RegisteredRecord entityType identifier pubKey capabilities scopeJson none s r
  | .registerX509 entityType identifier pubKey capabilities scopeJson _ _ _ =>
    ca.RegisteredRecord entityType identifier pubKey capabilities scopeJson none s r
  | .registerGroup _ pubKey capabilities scopeJson _ _ _ =>
    ∃ id, ca.RegisteredRecord "agent" id pubKey capabilities scopeJson (some NID_ROLE_GROUP) s r
  | .issueSession groupNid .. => ca.SessionRecord groupNid amb s r
  | .renew nid => ca.RenewedRecord nid amb s r
  | .revoke .. => False

/-- **What a call does to the records**: it changes no certificate and answers no IdentFrame, or it
appends the record of the IdentFrame it answers. -/
theorem CaCall.cases (c : CaCall) (ca : NipCaService) (sha256 : String → String) (amb : ℕ → Ambient) (s : CaState) :
    (((c.program ca).finish (exec sha256) amb s).2.certs.records.map NipCertRecord.issued =
        s.certs.records.map NipCertRecord.issued ∧
      ∀ frame, ((c.program ca).finish (exec sha256) amb s).1 ≠ .ok (.ident frame)) ∨
    ∃ frame r, ((c.program ca).finish (exec sha256) amb s).1 = .ok (.ident frame) ∧
      c.Issues ca amb s.certs r ∧ r.revokedAt = none ∧ ca.FrameOf r frame ∧
      ((c.program ca).finish (exec sha256) amb s).2.certs.records = s.certs.records ++ [r] := by
  let Q : Except CaError CaReply → CaState → Prop := fun r s' =>
    (s'.certs.records.map NipCertRecord.issued = s.certs.records.map NipCertRecord.issued ∧
      ∀ frame, r ≠ .ok (.ident frame)) ∨
    ∃ frame record, r = .ok (.ident frame) ∧ c.Issues ca amb s.certs record ∧
      record.revokedAt = none ∧ ca.FrameOf record frame ∧
      s'.certs.records = s.certs.records ++ [record]
  change Q _ _
  have hissuing : ∀ {p : CaAsync CaIdentFrame} {P : NipCertRecord → Prop},
      Async.wp (exec sha256) p (NipCaService.Issuing ca P s) amb s →
      (∀ r, P r → c.Issues ca amb s.certs r) →
      Async.wp (exec sha256) (do let frame ← p; pure (CaReply.ident frame)) (fun r _ s' => Q r s')
        amb s := by
    intro p P hp hP
    rw [Async.wp_bind]
    refine Async.wp_mono hp ?_
    intro r amb' s' h
    cases r with
    | error e => exact .inl ⟨congrArg (List.map NipCertRecord.issued) h, fun _ => nofun⟩
    | ok frame =>
      obtain ⟨⟨record, hr, hlive, hnid, hs'⟩, -⟩ := h
      exact .inr ⟨frame, record, rfl, hP _ hr, hlive, hnid, hs'⟩
  refine Async.wp_iff_finish.1 ?_
  cases c with
  | register => exact hissuing NipCaService.wp_register fun _ h => h
  | registerX509 => exact hissuing NipCaService.wp_registerX509 fun _ h => h
  | registerGroup => exact hissuing NipCaService.wp_registerGroup fun _ h => h
  | issueSession => exact hissuing NipCaService.wp_issueSession fun _ h => h
  | renew => exact hissuing NipCaService.wp_renew fun _ h => h
  | revoke nid reason =>
    unfold CaCall.program
    rw [Async.wp_bind]
    refine Async.wp_mono NipCaService.wp_revoke ?_
    intro r amb' s' h
    cases r with
    | error e => exact .inl ⟨h, fun _ => nofun⟩
    | ok frame => exact .inl ⟨h, fun _ => nofun⟩

/-! ### Verification -/

/-- What the records say when a verification answers valid. -/
structure NipCaService.Verified (s : InMemoryNipCaStore) (nid : String) (amb : ℕ → Ambient)
    (r : NipCertRecord) : Prop where
  current : s.getByNid nid = some r
  live : r.revokedAt = none
  unexpired : ¬ r.expiresAt < (amb 1).time 0
  /-- A parent is looked up only where the record names one. -/
  parent : ∀ parentNid, truthy r.parentNid = some parentNid → ∃ parent,
    s.getByNid parentNid = some parent ∧ parent.revokedAt = none ∧
      ¬ parent.expiresAt < (amb 3).time 0

/-- **When a verification answers valid.** -/
theorem NipCaService.verify_valid {sha256 : String → String} {amb : ℕ → Ambient} {s : CaState}
    {nid : String} {v : NipVerifyResult}
    (h : ((verify nid).finish (exec sha256) amb s).1 = .ok v) (hv : v.valid = true) :
    ∃ r, Verified s.certs nid amb r := by
  let Q : Except CaError NipVerifyResult → CaState → Prop := fun r _ =>
    ∀ v, r = .ok v → v.valid = true → ∃ r, Verified s.certs nid amb r
  suffices hQ : Q ((verify nid).finish (exec sha256) amb s).1
      ((verify nid).finish (exec sha256) amb s).2 from hQ v h hv
  have hbad : ∀ {m : String → NipVerifyResult} {d : ℤ} {amb' : ℕ → Ambient} {s' : CaState},
      (∀ t, (m t).valid = false) →
      Async.wp (exec sha256) (isoDate d >>= fun t => pure (m t)) (fun r _ s' => Q r s') amb' s' := by
    intro m d amb' s' hm
    unfold isoDate
    cases isoRoundTrip d with
    | none => exact fun v h => nomatch h
    | some t =>
      intro v h hv
      cases h
      rw [hm] at hv
      cases hv
  refine Async.wp_iff_finish.1 ?_
  unfold verify
  rw [wp_getByNid]
  cases hr : s.certs.getByNid nid with
  | none =>
    intro v h hv
    cases h
    cases hv
  | some r =>
    dsimp only
    cases hlive : r.revokedAt with
    | some t => exact hbad fun _ => rfl
    | none =>
      dsimp only
      rw [wp_readClock]
      split
      · exact hbad fun _ => rfl
      rename_i hexp
      unfold verifyParent
      cases hp : truthy r.parentNid with
      | none => exact fun v _ _ => ⟨r, hr, hlive, hexp, fun p h => by rw [hp] at h; cases h⟩
      | some p =>
        dsimp only
        rw [wp_getByNid]
        cases hg : s.certs.getByNid p with
        | none =>
          intro v h hv
          cases h
          cases hv
        | some parent =>
          dsimp only
          split
          · intro v h hv
            cases h
            cases hv
          rename_i hplive
          rw [wp_readClock]
          split
          · intro v h hv
            cases h
            cases hv
          rename_i hpexp
          intro v _ _
          refine ⟨r, hr, hlive, hexp, fun p' h' => ?_⟩
          rw [hp, Option.some.injEq] at h'
          subst h'
          exact ⟨parent, hg, by simpa using hplive, hpexp⟩

/-- `verify(nid)` answers valid in this state. -/
def answersValid (sha256 : String → String) (s : CaState) (nid : String) (amb : ℕ → Ambient) :
    Bool :=
  match ((NipCaService.verify nid).finish (exec sha256) amb s).1 with
  | .ok v => v.valid
  | .error _ => false

theorem verified_of_answersValid {sha256 : String → String} {s : CaState} {nid : String}
    {amb : ℕ → Ambient} (h : answersValid sha256 s nid amb = true) : ∃ r, NipCaService.Verified s.certs nid amb r := by
  unfold answersValid at h
  split at h
  · rename_i v hfin
    exact NipCaService.verify_valid hfin h
  · cases h

end NpsSdk.Nip.Ca
