import NpsSdk.Alpha20.ContextAdmission
import NpsSdk.Lib.Except

/-!
# What an admission has checked

Whatever the options, the clock, the key resolver, the validators and the replay store answer: a
projection is claimed only right after the final recheck has gone through, and it is admitted only
when that claim is answered `claimed`.
-/

namespace NpsSdk.Alpha20

open NpsSdk.Lib

abbrev AdmissionLog := List (Exchange AdmissionOp AdmissionOp.Res Failure)

def AdmissionOp.isClaim : AdmissionOp → Bool
  | .claim _ => true
  | _ => false

/-- Nothing has been claimed. -/
def Unclaimed (log : AdmissionLog) : Prop := ∀ x ∈ log, x.1.isClaim = false

/-- What the final recheck reads: the key of the last resolution, the options at each of its steps, and
the clock. -/
structure Recheck where
  key : KeyObject
  enabled : InvocationAdmissionOptions
  ceilings : InvocationAdmissionOptions
  features : InvocationAdmissionOptions
  clock : JsDouble

/-- The exchanges of the final recheck. -/
def Recheck.log (r : Recheck) (x : Prepared) : AdmissionLog :=
  [⟨.resolveKey x.claim.issuer x.claim.key_id, .ok (some r.key)⟩, ⟨.options, .ok r.enabled⟩,
    ⟨.options, .ok r.ceilings⟩, ⟨.options, .ok r.features⟩, ⟨.clockSeconds, .ok r.clock⟩]

def FeaturesSelected (request : JsonObject) (selected : List FeatureSelection) : Prop :=
  ∃ pairs, JsMap.find "required_features" request = some (.arr pairs) ∧
    ∀ pair ∈ pairs, ∃ feature ∈ selected, requirementOf pair = .ok feature

/-- The reading of the clock lies in the validity of the claims, widened by the skew. -/
def InWindow (claim : ProjectionClaims) (skew : ℤ) (clock : JsDouble) : Prop :=
  ∃ now, clock.safeInteger = some now ∧ 0 ≤ now ∧ claim.issued_at ≤ now + skew ∧
    now < claim.expires_at + skew

variable (host : Host) (carriers : List String) (requestJson : String)

structure Bound (x : Prepared) : Prop where
  projection : decodeProjectionBytes host carriers = .ok x.projection
  claim : claims x.projection.payload = .ok x.claim
  request : requestDigestBytes host requestJson = .ok x.request
  digest : x.request.digest = x.claim.request_digest
  skew : 0 ≤ x.skew ∧ x.skew ≤ 5

/-- The final recheck went through on what it read. -/
structure Rechecked (x : Prepared) (r : Recheck) : Prop where
  key : checkProjectionSignature host x.projection r.key = true
  enabled : r.enabled.experimental = true
  ceilings : Delegated x.claim r.ceilings
  features : FeaturesSelected x.request.value r.features.selectedFeatures
  clock : InWindow x.claim x.skew r.clock

/-- The log ends with a final recheck that went through, and nothing has been claimed in it. -/
def Vetted (log : AdmissionLog) (x : Prepared) : Prop :=
  ∃ before r, log = before ++ r.log x ∧ Unclaimed before ∧ Bound host carriers requestJson x ∧
    Rechecked host x r

/-- A claim is made only for a vetted projection. -/
def ClaimsVetted (log : AdmissionLog) (o : AdmissionOp) : Prop :=
  ∀ input, o = .claim input → ∃ x, Vetted host carriers requestJson log x ∧ input = x.replayClaim

/-- An admission: the projection was vetted, and then claimed.  A rejection: nothing was claimed, or the
projection was vetted and its claim answered otherwise. -/
def Decided (log : AdmissionLog) : Except Failure AdmittedInvocation → Prop
  | .ok admitted => ∃ vetted x, Vetted host carriers requestJson vetted x ∧
      log = vetted ++ [⟨.claim x.replayClaim, .ok .claimed⟩] ∧ admitted = x.admitted
  | .error _ => Unclaimed log ∨ ∃ vetted x answer, Vetted host carriers requestJson vetted x ∧
      log = vetted ++ [⟨.claim x.replayClaim, answer⟩] ∧ answer ≠ .ok .claimed

/-! ### Programs that claim nothing -/

section Adding

variable {α β : Type} {C : AdmissionLog → AdmissionOp → Prop}

/-- The program claims nothing, and where it has a result it has added `L` to the log. -/
def Adds (C : AdmissionLog → AdmissionOp → Prop) (L : α → AdmissionLog → Prop) (p : Admission α) : Prop :=
  ∀ log, Unclaimed log → Async.Always C
    (fun log' r => Unclaimed log' ∧ ∀ a, r = .ok a → ∃ added, log' = log ++ added ∧ L a added) p log

variable {L : α → AdmissionLog → Prop} {M : β → AdmissionLog → Prop} {p : Admission α}

theorem Adds.mono {L' : α → AdmissionLog → Prop} (h : Adds C L p) (hl : ∀ a added, L a added → L' a added) :
    Adds C L' p := fun log hlog =>
  (h log hlog).mono fun _ _ ⟨hun, hok⟩ => ⟨hun, fun a ha =>
    let ⟨added, hadded, hla⟩ := hok a ha
    ⟨added, hadded, hl a added hla⟩⟩

theorem Adds.bind {f : α → Admission β} (h : Adds C L p)
    (hf : ∀ a added, L a added → Adds C (fun b more => M b (added ++ more)) (f a)) : Adds C M (p >>= f) := by
  intro log hlog
  rw [Async.always_bind]
  refine (h log hlog).mono fun log' r ⟨hun, hok⟩ => ?_
  cases r with
  | error e => exact ⟨hun, nofun⟩
  | ok a =>
    obtain ⟨added, rfl, hla⟩ := hok a rfl
    refine (hf a added hla _ hun).mono fun log'' r ⟨hun', hok'⟩ => ⟨hun', fun b hb => ?_⟩
    obtain ⟨more, rfl, hmb⟩ := hok' b hb
    exact ⟨added ++ more, by rw [List.append_assoc], hmb⟩

theorem Adds.pure {a : α} (h : L a []) : Adds C L (pure a) := fun log hlog =>
  ⟨hlog, fun b hb => ⟨[], by simp, by cases hb; exact h⟩⟩

theorem adds_throw {e : Failure} : Adds C L (throw e) := fun _ hlog => ⟨hlog, nofun⟩

theorem adds_check {q : Prop} [Decidable q] {code : String} :
    Adds C (fun _ added => q ∧ added = []) (check q code) := by
  unfold check
  split
  · exact Adds.pure ⟨‹q›, rfl⟩
  · exact adds_throw

theorem adds_ofExcept {e : Except Failure α} :
    Adds C (fun a added => e = .ok a ∧ added = []) (Async.ofExcept e) := fun log hlog =>
  ⟨hlog, fun _ ha => ⟨[], by simp, ha, rfl⟩⟩

theorem unclaimed_snoc {log : AdmissionLog} {o : AdmissionOp} {a : Except Failure o.Res}
    (h : Unclaimed log) (ho : o.isClaim = false) : Unclaimed (log ++ [⟨o, a⟩]) := by
  intro x hx
  rcases List.mem_append.1 hx with hx | hx
  · exact h x hx
  · rw [List.mem_singleton.1 hx]
    exact ho

theorem adds_perform {o : AdmissionOp} (hC : ∀ log, C log o) (ho : o.isClaim = false) :
    Adds C (fun a added => added = [⟨o, .ok a⟩]) (Async.perform o) := fun log hlog =>
  ⟨hC log, fun a => ⟨unclaimed_snoc hlog ho, fun b hb => ⟨[⟨o, a⟩], rfl, by rw [hb]⟩⟩⟩

theorem Adds.infrastructure (h : Adds C L p) : Adds C L (infrastructure p) := by
  intro log hlog
  unfold Alpha20.infrastructure
  rw [Async.always_tryCatch]
  refine (h log hlog).mono fun log' r hr => ?_
  cases r with
  | ok a => exact hr
  | error e => exact ⟨hr.1, nofun⟩

end Adding

/-! ### The checks -/

section Checks

variable {host carriers requestJson} {C : AdmissionLog → AdmissionOp → Prop}
  {claim : ProjectionClaims} {skew : ℤ} {request : JsonObject}

/-- The operations other than the claim meet the condition on operations. -/
def Quiet (C : AdmissionLog → AdmissionOp → Prop) : Prop :=
  ∀ log (o : AdmissionOp), o.isClaim = false → C log o

variable (hC : Quiet C)
include hC

theorem adds_readOptions : Adds C (fun o added => added = [⟨.options, .ok o⟩]) readOptions :=
  adds_perform (fun log => hC log _ rfl) rfl

theorem adds_resolveKey : Adds C (fun key added => added =
    [⟨.resolveKey claim.issuer claim.key_id, .ok key⟩]) (resolveKey claim) :=
  (adds_perform (fun log => hC log _ rfl) rfl).infrastructure

theorem adds_time : Adds C (fun _ added => ∃ clock, added = [⟨.clockSeconds, .ok clock⟩] ∧
    InWindow claim skew clock) (time claim skew) := by
  refine (adds_perform (fun log => hC log _ rfl) rfl).bind fun clock added hadded => ?_
  subst hadded
  cases hnow : clock.safeInteger with
  | none => exact adds_throw
  | some now =>
    refine adds_check.bind fun _ added h => ?_
    obtain ⟨h0, rfl⟩ := h
    refine adds_check.bind fun _ added h => ?_
    obtain ⟨hissued, rfl⟩ := h
    refine adds_check.mono fun _ added h => ?_
    obtain ⟨hexpires, rfl⟩ := h
    exact ⟨clock, rfl, now, hnow, h0, hissued, hexpires⟩

theorem adds_delegation : Adds C (fun _ added => ∃ options, added = [⟨.options, .ok options⟩] ∧
    Delegated claim options) (delegation claim) := by
  refine (adds_readOptions hC).bind fun options added hadded => ?_
  subst hadded
  refine adds_check.bind fun _ added h => ?_
  obtain ⟨hissuer, rfl⟩ := h
  refine adds_check.bind fun _ added h => ?_
  obtain ⟨⟨haudience, hsubject⟩, rfl⟩ := h
  refine adds_check.bind fun _ added h => ?_
  obtain ⟨hlevel, rfl⟩ := h
  refine adds_check.mono fun _ added h => ?_
  obtain ⟨⟨hassurance, hcapabilities, hscope⟩, rfl⟩ := h
  obtain ⟨level, hlevel⟩ := Option.isSome_iff_exists.1 hlevel
  rw [hlevel, Option.all_some, decide_eq_true_eq] at hassurance
  refine ⟨options, rfl, hissuer, haudience, fun subject hs => ?_, ⟨level, hlevel, hassurance⟩, hcapabilities, hscope⟩
  rw [hs, Option.all_some, decide_eq_true_eq] at hsubject
  exact hsubject

omit hC in
theorem selected_of_requirements {selected : List FeatureSelection} {previous : String}
    {pairs : List JsonValue} {requirements : List FeatureSelection}
    (h : requirementsOf selected previous pairs = .ok requirements) :
    ∀ pair ∈ pairs, ∃ feature ∈ selected, requirementOf pair = .ok feature := by
  induction pairs generalizing previous requirements with
  | nil => simp
  | cons pair pairs ih =>
    unfold requirementsOf at h
    obtain ⟨requirement, hpair, h⟩ := ok_bind.1 h
    obtain ⟨_, -, h⟩ := ok_bind.1 h
    split at h
    · cases h
    · obtain ⟨others, hrest, -⟩ := ok_bind.1 h
      intro pair' hmem
      rcases List.mem_cons.1 hmem with rfl | hmem
      · exact ⟨requirement, not_not.1 ‹_›, hpair⟩
      · exact ih hrest pair' hmem

omit hC in
theorem selected_of_schema {selected : List FeatureSelection}
    (h : requestSchema request selected = .ok ()) : FeaturesSelected request selected := by
  unfold requestSchema at h
  obtain ⟨_, -, h⟩ := ok_bind.1 h
  obtain ⟨requirements, hrequired, -⟩ := ok_bind.1 h
  unfold requiredFeatures at hrequired
  split at hrequired
  · rename_i pairs hpairs
    obtain ⟨_, -, hrequired⟩ := ok_bind.1 hrequired
    exact ⟨pairs, hpairs, selected_of_requirements hrequired⟩
  · cases hrequired

theorem adds_checkSchema : Adds C (fun _ added => ∃ options, added = [⟨.options, .ok options⟩] ∧
    FeaturesSelected request options.selectedFeatures) (checkSchema request) := by
  refine (adds_readOptions hC).bind fun options added hadded => ?_
  subst hadded
  refine adds_ofExcept.mono fun _ added h => ?_
  obtain ⟨hschema, rfl⟩ := h
  exact ⟨options, rfl, selected_of_schema hschema⟩

omit hC in
theorem skewOf_ok {options : InvocationAdmissionOptions} (h : skewOf options = .ok skew) : 0 ≤ skew ∧ skew ≤ 5 := by
  unfold skewOf at h
  split at h
  · split at h
    · cases h
      exact ⟨by omega, by omega⟩
    · cases h
  · cases h

/-- What `prepare` answers is bound to the carriers and the request. -/
theorem adds_prepare : Adds C (fun x _ => Bound host carriers requestJson x) (prepare host carriers requestJson) := by
  refine (adds_readOptions hC).bind fun _ _ _ => ?_
  refine adds_check.bind fun _ _ _ => ?_
  refine adds_ofExcept.bind fun projection _ ⟨hprojection, _⟩ => ?_
  refine adds_ofExcept.bind fun claim _ ⟨hclaim, _⟩ => ?_
  refine (adds_readOptions hC).bind fun _ _ _ => ?_
  refine adds_ofExcept.bind fun skew _ ⟨hskew, _⟩ => ?_
  refine (adds_readOptions hC).bind fun _ _ _ => ?_
  refine adds_check.bind fun _ _ _ => ?_
  refine (adds_resolveKey hC).bind fun key _ _ => ?_
  refine adds_check.bind fun _ _ _ => ?_
  refine (adds_delegation hC).bind fun _ _ _ => ?_
  refine (adds_time hC).bind fun _ _ _ => ?_
  refine adds_ofExcept.bind fun request _ ⟨hrequest, _⟩ => ?_
  refine (adds_checkSchema hC).bind fun _ _ _ => ?_
  refine adds_check.bind fun _ _ ⟨hdigest, _⟩ => ?_
  refine (adds_perform (fun log => hC log _ rfl) rfl).infrastructure.bind fun valid _ _ => ?_
  refine adds_check.bind fun _ _ _ => ?_
  refine (adds_perform (fun log => hC log _ rfl) rfl).infrastructure.bind fun authorized _ _ => ?_
  refine adds_check.bind fun _ _ _ => ?_
  exact Adds.pure ⟨hprojection, hclaim, hrequest, hdigest, skewOf_ok hskew⟩

theorem adds_recheck {x : Prepared} : Adds C (fun _ added => ∃ r : Recheck, added = r.log x ∧
    Rechecked host x r) (recheck host x) := by
  refine (adds_resolveKey hC).bind fun key _ h => ?_
  subst h
  refine adds_check.bind fun _ _ ⟨hkey, h⟩ => ?_
  subst h
  refine (adds_readOptions hC).bind fun enabled _ h => ?_
  subst h
  refine adds_check.bind fun _ _ ⟨henabled, h⟩ => ?_
  subst h
  refine (adds_delegation hC).bind fun _ _ ⟨ceilings, h, hceilings⟩ => ?_
  subst h
  refine (adds_checkSchema hC).bind fun _ _ ⟨features, h, hfeatures⟩ => ?_
  subst h
  refine (adds_time hC).mono fun _ _ ⟨clock, h, hclock⟩ => ?_
  subst h
  cases key with
  | none => cases hkey
  | some key => exact ⟨⟨key, enabled, ceilings, features, clock⟩, rfl, hkey, henabled, hceilings, hfeatures, hclock⟩

end Checks

/-! ### Soundness of one admission -/

variable {host carriers requestJson}

theorem quiet_claimsVetted : Quiet (ClaimsVetted host carriers requestJson) := by
  rintro log o ho input rfl
  cases ho

theorem always_claimProjection {x : Prepared} {log : AdmissionLog} (h : Vetted host carriers requestJson log x) :
    Async.Always (ClaimsVetted host carriers requestJson) (Decided host carriers requestJson)
      (claimProjection x) log := by
  refine ⟨fun input hinput => ⟨x, h, by cases hinput; rfl⟩, fun answer => ?_⟩
  cases answer with
  | error e => exact .inr ⟨log, x, _, h, rfl, nofun⟩
  | ok replay =>
    cases replay with
    | claimed => exact ⟨log, x, h, rfl, rfl⟩
    | duplicate | expired | other => exact .inr ⟨log, x, _, h, rfl, nofun⟩

/-- **Soundness of an admission**, whatever is answered to it. -/
theorem admission_always :
    Async.Always (ClaimsVetted host carriers requestJson) (Decided host carriers requestJson)
      (admitInvocationProjection host carriers requestJson) [] := by
  have hquiet : Quiet (ClaimsVetted host carriers requestJson) := quiet_claimsVetted
  have hnone : Unclaimed [] := nofun
  have hbody : Async.Always (ClaimsVetted host carriers requestJson) (Decided host carriers requestJson)
      (do
        let x ← prepare host carriers requestJson
        recheck host x
        claimProjection x) [] := by
    rw [Async.always_bind]
    refine (adds_prepare hquiet [] hnone).mono fun log r ⟨hun, hok⟩ => ?_
    cases r with
    | error e => exact .inl hun
    | ok x =>
      obtain ⟨_, -, hbound⟩ := hok x rfl
      show Async.Always _ _ (recheck host x >>= fun _ => claimProjection x) log
      rw [Async.always_bind]
      refine (adds_recheck hquiet log hun).mono fun log' r ⟨hun', hok'⟩ => ?_
      cases r with
      | error e => exact .inl hun'
      | ok u =>
        obtain ⟨_, rfl, r, rfl, hr⟩ := hok' u rfl
        exact always_claimProjection ⟨log, r, rfl, hun, hbound, hr⟩
  unfold admitInvocationProjection
  rw [Async.always_tryCatch]
  refine hbody.mono fun log r hr => ?_
  cases r with
  | ok a => exact hr
  | error e => cases e <;> exact hr

end NpsSdk.Alpha20
