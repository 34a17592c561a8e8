import Mathlib.Data.List.Pairwise
import NpsSdk.Nip.Ca.Calls

/-!
# Sessions and their groups

A session is certified under a group: while verification answers valid for it, the group is a live
group that has all its capabilities, and its lifetime is bounded.  The bound is checked once, at
issuance; it lasts because the records of a session and of its group are the only ones of their NIDs
(`Lineage`).  `renew` breaks this: the record it appends carries neither role nor parent.
-/

namespace NpsSdk.Nip.Ca

open NpsSdk.Lib

/-! ### Histories of calls -/

/-- The state after a sequence of calls, with the sessions they created and their groups. -/
structure CaHistory where
  state : CaState := {}
  sessions : List (String × String) := []

def createdSession : CaCall → Except CaError CaReply → List (String × String)
  | .issueSession groupNid .., .ok (.ident frame) => [(frame.nid, groupNid)]
  | _, _ => []

/-- One call after the other; a call comes with the clock readings and random texts it finds. -/
def CaHistory.step (ca : NipCaService) (sha256 : String → String) (h : CaHistory)
    (e : CaCall × (ℕ → Ambient)) : CaHistory :=
  let out := (e.1.program ca).finish (exec sha256) e.2 h.state
  { state := out.2, sessions := h.sessions ++ createdSession e.1 out.1 }

/-- The random digits of a new session make a NID that has no record yet. -/
def DrawsFresh (ca : NipCaService) (h : CaHistory) : CaCall × (ℕ → Ambient) → Prop
  | (.issueSession .., amb) => h.state.certs.getByNid (ca.sessionNid amb) = none
  | _ => True

/-- A renewal whose window is open is not asked for a NID with a lineage role. -/
def KeepsRoles (ca : NipCaService) (h : CaHistory) : CaCall × (ℕ → Ambient) → Prop
  | (.renew nid, amb) => ∀ old, h.state.certs.getByNid nid = some old → old.revokedAt = none →
      old.expiresAt - ca.opts.renewalWindowDays * 86400000 ≤ (amb 1).time 0 → old.nidRole = none
  | _ => True

/-- What bounds the session `s` of the group `g` at the time `t`. -/
def Bounded (ca : NipCaService) (certs : InMemoryNipCaStore) (s g : String) (t : ℤ) : Prop :=
  ∃ record group, certs.getByNid s = some record ∧ certs.getByNid g = some group ∧
    group.nidRole = some NID_ROLE_GROUP ∧ group.revokedAt = none ∧ ¬ group.expiresAt < t ∧
    record.capabilities ⊆ group.capabilities ∧
    record.expiresAt - record.issuedAt ≤ ca.opts.sessionMaxValidityMs

/-! ### The invariant -/

structure Under (ca : NipCaService) (r group : NipCertRecord) : Prop where
  parent : r.parentNid = some group.nid
  role : group.nidRole = some NID_ROLE_GROUP
  capabilities : r.capabilities ⊆ group.capabilities
  lifetime : r.expiresAt - r.issuedAt ≤ ca.opts.sessionMaxValidityMs

/-- **The invariant** of the certificates and the sessions created so far. -/
structure Lineage (ca : NipCaService) (certs : List NipCertRecord)
    (sessions : List (String × String)) : Prop where
  /-- A NID with a second certificate has no role. -/
  once : certs.Pairwise fun a b => a.nid = b.nid → a.nidRole = none ∧ b.nidRole = none
  named : ∀ r ∈ certs, r.nidRole = some NID_ROLE_GROUP → r.nid ≠ ""
  /-- Each session certificate has its group's certificate. -/
  under : ∀ r ∈ certs, r.nidRole = some NID_ROLE_SESSION → ∃ group ∈ certs, Under ca r group
  created : ∀ s g, (s, g) ∈ sessions →
    ∃ r ∈ certs, r.nid = s ∧ r.nidRole = some NID_ROLE_SESSION ∧ r.parentNid = some g

section

variable {ca : NipCaService} {certs : List NipCertRecord} {sessions : List (String × String)}
  {r : NipCertRecord}

theorem lineage_nil : Lineage ca [] [] := by
  refine ⟨.nil, ?_, ?_, ?_⟩ <;> intro <;> simp_all

theorem Lineage.current {s : InMemoryNipCaStore} (h : Lineage ca (s.records.map NipCertRecord.issued) sessions)
    (hr : r ∈ s.records.map NipCertRecord.issued) (hrole : r.nidRole ≠ none) :
    ∃ r', s.getByNid r.nid = some r' ∧ r'.issued = r := by
  obtain ⟨r₀, hr₀, rfl⟩ := List.mem_map.1 hr
  obtain ⟨r', hr'⟩ := InMemoryNipCaStore.getByNid_isSome hr₀
  refine ⟨r', hr', ?_⟩
  obtain ⟨hmem, hnid⟩ := InMemoryNipCaStore.mem_of_getByNid hr'
  have hmem' : r'.issued ∈ s.records.map NipCertRecord.issued := List.mem_map_of_mem hmem
  have : Std.Symm fun a b : NipCertRecord =>
      a.nid = b.nid → a.nidRole = none ∧ b.nidRole = none :=
    ⟨fun a b hab heq => (hab heq.symm).symm⟩
  by_contra hne
  exact hrole (h.once.forall hmem' hr hne hnid).2

theorem Lineage.append {new : List (String × String)} (h : Lineage ca certs sessions)
    (honce : ∀ x ∈ certs, x.nid = r.nid → x.nidRole = none ∧ r.nidRole = none)
    (hnamed : r.nidRole = some NID_ROLE_GROUP → r.nid ≠ "")
    (hunder : r.nidRole = some NID_ROLE_SESSION → ∃ group ∈ certs, Under ca r group)
    (hcreated : ∀ s g, (s, g) ∈ new → r.nid = s ∧ r.nidRole = some NID_ROLE_SESSION ∧ r.parentNid = some g) :
    Lineage ca (certs ++ [r]) (sessions ++ new) := by
  constructor
  · refine List.pairwise_append.2 ⟨h.once, List.pairwise_singleton _ _, ?_⟩
    intro x hx y hy
    rw [List.mem_singleton] at hy
    subst hy
    exact honce x hx
  · intro x hx hrole
    rcases List.mem_append.1 hx with hx | hx
    · exact h.named x hx hrole
    · rw [List.mem_singleton] at hx
      subst hx
      exact hnamed hrole
  · intro x hx hrole
    rcases List.mem_append.1 hx with hx | hx
    · obtain ⟨group, hg, hu⟩ := h.under x hx hrole
      exact ⟨group, List.mem_append_left _ hg, hu⟩
    · rw [List.mem_singleton] at hx
      subst hx
      obtain ⟨group, hg, hu⟩ := hunder hrole
      exact ⟨group, List.mem_append_left _ hg, hu⟩
  · intro s g hs
    rcases List.mem_append.1 hs with hs | hs
    · obtain ⟨x, hx, hx'⟩ := h.created s g hs
      exact ⟨x, List.mem_append_left _ hx, hx'⟩
    · exact ⟨r, List.mem_append_right _ (List.mem_singleton_self r), hcreated s g hs⟩

theorem not_mem_of_getByNid {s : InMemoryNipCaStore} {nid : String} (h : s.getByNid nid = none) :
    ∀ x ∈ s.records.map NipCertRecord.issued, x.nid ≠ nid := by
  intro x hx
  obtain ⟨x₀, hx₀, rfl⟩ := List.mem_map.1 hx
  exact InMemoryNipCaStore.getByNid_eq_none h x₀ hx₀

variable {sha256 : String → String} {h : CaHistory} {e : CaCall × (ℕ → Ambient)}

/-- **One call keeps the invariant**, if it draws a fresh session NID and renews no role. -/
theorem Lineage.step (hl : Lineage ca (h.state.certs.records.map NipCertRecord.issued) h.sessions)
    (hfresh : DrawsFresh ca h e) (hroles : KeepsRoles ca h e) :
    Lineage ca ((h.step ca sha256 e).state.certs.records.map NipCertRecord.issued) (h.step ca sha256 e).sessions := by
  obtain ⟨c, amb⟩ := e
  unfold CaHistory.step
  dsimp only
  rcases c.cases ca sha256 amb h.state with ⟨hsame, hno⟩ | ⟨frame, r, hout, hissues, -, hframe, hs⟩
  · have hnone : createdSession c ((c.program ca).finish (exec sha256) amb h.state).1 = [] := by
      unfold createdSession
      split
      · rename_i heq
        exact absurd heq (hno _)
      · rfl
    rw [hsame, hnone, List.append_nil]
    exact hl
  · rw [hs, List.map_append]
    refine hl.append ?_ ?_ ?_ ?_
    · intro x hx hxn
      cases c with
      | register | registerX509 => exact absurd hxn (not_mem_of_getByNid hissues.new x hx)
      | registerGroup =>
        obtain ⟨id, hissues⟩ := hissues
        exact absurd hxn (not_mem_of_getByNid hissues.new x hx)
      | issueSession =>
        have hnew : h.state.certs.getByNid (ca.sessionNid amb) = none := hfresh
        rw [← hissues.nid] at hnew
        exact absurd hxn (not_mem_of_getByNid hnew x hx)
      | renew nid =>
        obtain ⟨old, hold, hlive', hwindow⟩ := hissues.replaced
        have hrole : old.nidRole = none := hroles old hold hlive' hwindow
        refine ⟨?_, hissues.role⟩
        -- a certificate with a role would be the current one, which has none
        by_contra hx'
        obtain ⟨r', hr', rfl⟩ := hl.current hx hx'
        have heq : h.state.certs.getByNid nid = some r' := by
          rw [← hissues.renews]
          exact hxn ▸ hr'
        rw [hold, Option.some.injEq] at heq
        exact hx' (heq ▸ hrole)
      | revoke => exact hissues.elim
    · intro hrole
      cases c with
      | register | registerX509 => exact absurd (hissues.role.symm.trans hrole) (by decide)
      | registerGroup =>
        obtain ⟨id, hissues⟩ := hissues
        have hne : r.nid ≠ "" := by
          rw [hissues.nid]
          exact NipCaService.buildNid_ne_empty
        exact hne
      | issueSession | renew => exact absurd (hissues.role.symm.trans hrole) (by decide)
      | revoke => exact hissues.elim
    · intro hrole
      cases c with
      | register | registerX509 => exact absurd (hissues.role.symm.trans hrole) (by decide)
      | registerGroup =>
        obtain ⟨id, hissues⟩ := hissues
        exact absurd (hissues.role.symm.trans hrole) (by decide)
      | issueSession groupNid =>
        obtain ⟨group, hg, hgrole, hcaps⟩ := hissues.group
        obtain ⟨hmem, hgn⟩ := InMemoryNipCaStore.mem_of_getByNid hg
        exact ⟨group.issued, List.mem_map_of_mem hmem,
          hissues.parent.trans (congrArg some hgn.symm), hgrole, hcaps, hissues.lifetime⟩
      | renew => exact absurd (hissues.role.symm.trans hrole) (by decide)
      | revoke => exact hissues.elim
    · intro s g hsg
      rw [hout] at hsg
      cases c with
      | issueSession groupNid =>
        simp only [createdSession, List.mem_singleton, Prod.mk.injEq] at hsg
        obtain ⟨rfl, rfl⟩ := hsg
        exact ⟨hframe.nid.symm, hissues.role, hissues.parent⟩
      | register | registerX509 | registerGroup | renew | revoke => cases hsg

theorem lineage_run {es : List (CaCall × (ℕ → Ambient))}
    (hfresh : Along (CaHistory.step ca sha256) (DrawsFresh ca) {} es)
    (hroles : Along (CaHistory.step ca sha256) (KeepsRoles ca) {} es) :
    Lineage ca ((run (CaHistory.step ca sha256) {} es).state.certs.records.map
      NipCertRecord.issued) (run (CaHistory.step ca sha256) {} es).sessions := by
  refine run_induction_along (P := fun h e => DrawsFresh ca h e ∧ KeepsRoles ca h e)
    (I := fun h : CaHistory => Lineage ca (h.state.certs.records.map NipCertRecord.issued) h.sessions)
    lineage_nil (fun h e hl he => hl.step he.1 he.2) ?_
  intro pre e post heq
  exact ⟨hfresh pre e post heq, hroles pre e post heq⟩

theorem Lineage.bounded {s g : String} {amb : ℕ → Ambient} {r : NipCertRecord}
    (hl : Lineage ca (h.state.certs.records.map NipCertRecord.issued) h.sessions)
    (hs : (s, g) ∈ h.sessions) (hv : NipCaService.Verified h.state.certs s amb r) :
    Bounded ca h.state.certs s g ((amb 3).time 0) := by
  obtain ⟨c, hc, rfl, hrole, hparent⟩ := hl.created s g hs
  obtain ⟨r', hr', rfl⟩ := hl.current hc (by rw [hrole]; nofun)
  obtain rfl : r' = r := by
    have := hr'.symm.trans hv.current
    simpa using this
  obtain ⟨group, hg, hu⟩ := hl.under _ hc hrole
  obtain ⟨group', hgroup', rfl⟩ := hl.current hg (by rw [hu.role]; nofun)
  have hgn : g = group'.nid := Option.some.inj (hparent.symm.trans hu.parent)
  subst hgn
  have htruthy : truthy r'.parentNid = some group'.nid := by
    have hne : group'.nid ≠ "" := hl.named group'.issued hg hu.role
    rw [show r'.parentNid = some group'.nid from hparent]
    simp [truthy, hne]
  obtain ⟨parent, hp, hplive, hpexp⟩ := hv.parent _ htruthy
  obtain rfl : group' = parent := by
    have := hgroup'.symm.trans hp
    simpa using this
  exact ⟨r', group', hr', hgroup', hu.role, hplive, hpexp, hu.capabilities, hu.lifetime⟩

end

/-- **Session authority is bounded by its group**: in every history whose sessions draw fresh NIDs and
which renews no NID with a lineage role, a session that verifies has a live group with all its
capabilities, and a bounded lifetime. -/
theorem session_bounded (ca : NipCaService) (sha256 : String → String)
    (es : List (CaCall × (ℕ → Ambient)))
    (hfresh : Along (CaHistory.step ca sha256) (DrawsFresh ca) {} es)
    (hroles : Along (CaHistory.step ca sha256) (KeepsRoles ca) {} es)
    (s g : String) (hs : (s, g) ∈ (run (CaHistory.step ca sha256) {} es).sessions)
    (amb : ℕ → Ambient)
    (hv : answersValid sha256 (run (CaHistory.step ca sha256) {} es).state s amb = true) :
    Bounded ca (run (CaHistory.step ca sha256) {} es).state.certs s g ((amb 3).time 0) := by
  obtain ⟨r, hr⟩ := verified_of_answersValid hv
  exact (lineage_run hfresh hroles).bounded hs hr

/-! ### A group and its session -/

/-- `JSON.parse`, on the two texts the calls below parse. -/
def sampleParse (text : String) : Option Json :=
  if text = "{}" then some (.obj [])
  else if text = "\x7b\"role\":\"group\"\x7d" then some (.obj [("role", .str "group")])
  else none

/-- A service with the default options. -/
def sampleCa : NipCaService :=
  { opts := { caNid := "urn:nps:org:ca.example" }, parseJson := sampleParse,
    sign := fun _ => "signature" }

def sampleGroup : String := "urn:nps:agent:ca.example:group-a"

def sampleSession : String := "urn:nps:agent:ca.example:session-1-0123456789abcdef"

/-- The clock stands at `t`. -/
def clockAt (t : ℤ) : ℕ → Ambient := fun _ => ⟨fun _ => t, fun _ => "0123456789abcdef"⟩

def sampleCalls : List (CaCall × (ℕ → Ambient)) :=
  [(.registerGroup (some "group-a") "ed25519:g" ["read", "write"] "{}" none none none, clockAt 0),
    (.issueSession sampleGroup "ed25519:s" none none (some ["read"]) none none, clockAt 1000)]

theorem sample_session_bounded : Bounded sampleCa
    (run (CaHistory.step sampleCa id) {} sampleCalls).state.certs sampleSession sampleGroup 2000 :=
  session_bounded sampleCa id sampleCalls
    (along_cons.2 ⟨trivial, along_cons.2 ⟨by unfold DrawsFresh; decide, along_nil⟩⟩)
    (along_cons.2 ⟨trivial, along_cons.2 ⟨trivial, along_nil⟩⟩)
    sampleSession sampleGroup (by decide) (clockAt 2000) (by decide)

/-- Then the session is renewed: it verifies with a lifetime of thirty days. -/
theorem renewed_session_unbounded :
    let h := run (CaHistory.step sampleCa id) {} (sampleCalls ++ [(.renew sampleSession, clockAt 2000)])
    (sampleSession, sampleGroup) ∈ h.sessions ∧ answersValid id h.state sampleSession (clockAt 3000) = true ∧
      ¬ Bounded sampleCa h.state.certs sampleSession sampleGroup 3000 := by
  refine ⟨by decide, by decide, ?_⟩
  rintro ⟨record, -, hr, -, -, -, -, -, hlife⟩
  have hdays : ((run (CaHistory.step sampleCa id) {} (sampleCalls ++
      [(.renew sampleSession, clockAt 2000)])).state.certs.getByNid sampleSession).map
      (fun r => r.expiresAt - r.issuedAt) = some (30 * 86400000) := by decide
  rw [hr, Option.map_some, Option.some.injEq] at hdays
  have hmax : sampleCa.opts.sessionMaxValidityMs = 24 * 3600000 := rfl
  omega

/-! ### What a renewal keeps -/

/-- The new record is the one it replaces, up to serial and period, and the frame carries what it says. -/
structure Carried (ca : NipCaService) (old new : NipCertRecord) (frame : CaIdentFrame) : Prop where
  record : new = { old with serial := new.serial, issuedAt := new.issuedAt, expiresAt := new.expiresAt }
  named : ca.FrameOf old frame
  metadata : frame.metadata = old.metadataJson.bind ca.parseJson
  lineage : frame.lineage = old.lineageJson.bind ca.parseJson

/-- The record of an agent or a node of this CA, which is neither a group nor a session. -/
structure Ordinary (ca : NipCaService) (r : NipCertRecord) : Prop where
  role : r.nidRole = none
  parent : r.parentNid = none
  lineage : r.lineageJson = none
  issuedBy : r.issuedBy = ca.opts.caNid
  reason : r.revokeReason = none

/-- **What a renewal keeps**: it changes the serial and the period alone just where the record is an ordinary
one. -/
theorem renewal_carries_iff (ca : NipCaService) (sha256 : String → String) (amb : ℕ → Ambient) (s : CaState)
    (nid : String) (frame : CaIdentFrame) (hok : ((ca.renew nid).finish (exec sha256) amb s).1 = .ok frame) :
    ∃ old new, s.certs.getByNid nid = some old ∧
      ((ca.renew nid).finish (exec sha256) amb s).2.certs.getByNid nid = some new ∧
      (Carried ca old new frame ↔ Ordinary ca old) := by
  let Q : Except CaError CaIdentFrame → CaState → Prop := fun r s' => r = .ok frame →
    ∃ old new, s.certs.getByNid nid = some old ∧ s'.certs.getByNid nid = some new ∧
      (Carried ca old new frame ↔ Ordinary ca old)
  refine Async.wp_iff_finish.1 (?_ : Async.wp (exec sha256) (ca.renew nid) (fun r _ s' => Q r s') amb s) hok
  refine NipCaService.wp_renew_of (fun _ _ => nofun) fun old amb' hold hlive _ => ?_
  obtain ⟨-, rfl⟩ := InMemoryNipCaStore.mem_of_getByNid hold
  simp only [nextSerial, Async.wp_bind, Async.wp_perform, exec, execStore]
  refine NipCaService.wp_issue (fun _ _ => nofun) fun issued _ hframe hmetadata hlineage => ?_
  rintro ⟨⟩
  refine ⟨old, _, hold, by rw [InMemoryNipCaStore.getByNid_append, if_pos rfl], fun h => ?_, fun h => ?_⟩
  · exact ⟨(congrArg NipCertRecord.nidRole h.record).symm, (congrArg NipCertRecord.parentNid h.record).symm,
      (congrArg NipCertRecord.lineageJson h.record).symm, (congrArg NipCertRecord.issuedBy h.record).symm,
      (congrArg NipCertRecord.revokeReason h.record).symm⟩
  · obtain ⟨hrole, hparent, hline, hby, hreason⟩ := h
    refine ⟨?_, ⟨hframe.nid, hframe.pubKey, hframe.capabilities, hframe.scope⟩, hmetadata, ?_⟩
    · cases old
      simp_all
    · rw [hlineage, hline]
      rfl

theorem exists_frame {x : Except CaError CaIdentFrame} (h : x.toBool = true) : ∃ frame, x = .ok frame := by
  cases x with
  | error e => cases h
  | ok frame => exact ⟨frame, rfl⟩

/-- The state after one call. -/
def soleCall (c : CaCall) : CaState := ((c.program sampleCa).finish (exec id) (clockAt 0) {}).2

def groupRegistered : CaState :=
  soleCall (.registerGroup (some "group-a") "ed25519:g" ["read", "write"] "{}" none none none)

/-- A group is renewed a year after it was registered, and is an agent from then on. -/
theorem renewed_group_loses_role : ¬ ∀ (ca : NipCaService) (sha256 : String → String) (amb : ℕ → Ambient)
    (s : CaState) (nid : String) (frame : CaIdentFrame),
    ((ca.renew nid).finish (exec sha256) amb s).1 = .ok frame →
      ∃ old new, s.certs.getByNid nid = some old ∧
        ((ca.renew nid).finish (exec sha256) amb s).2.certs.getByNid nid = some new ∧
        Carried ca old new frame := by
  intro h
  let renewal := (sampleCa.renew sampleGroup).finish (exec id) (clockAt (365 * 86400000)) groupRegistered
  obtain ⟨frame, hframe⟩ := exists_frame (show renewal.1.toBool = true by decide)
  obtain ⟨old, new, hold, hnew, hcarried⟩ := h sampleCa id (clockAt (365 * 86400000)) groupRegistered sampleGroup _ hframe
  have hgroup : (groupRegistered.certs.getByNid sampleGroup).map (·.nidRole) = some (some NID_ROLE_GROUP) := by decide
  have hnone : (renewal.2.certs.getByNid sampleGroup).map (·.nidRole) = some none := by decide
  rw [hold, Option.map_some, Option.some.injEq] at hgroup
  rw [hnew, Option.map_some, Option.some.injEq, hcarried.record, hgroup] at hnone
  cases hnone

/-- An agent is renewed thirty days after it was registered, and stays what it was. -/
theorem renewed_agent_carried : ∃ old new frame,
    (soleCall (.register "agent" "b" "ed25519:b" ["read"] "{}" none)).certs.getByNid "urn:nps:agent:ca.example:b" =
      some old ∧ Carried sampleCa old new frame := by
  obtain ⟨frame, hframe⟩ := exists_frame (show ((sampleCa.renew "urn:nps:agent:ca.example:b").finish (exec id)
    (clockAt (30 * 86400000)) (soleCall (.register "agent" "b" "ed25519:b" ["read"] "{}" none))).1.toBool = true by decide)
  obtain ⟨old, new, hold, -, hiff⟩ := renewal_carries_iff _ _ _ _ _ _ hframe
  refine ⟨old, new, frame, hold, hiff.2 ?_⟩
  cases hold
  exact ⟨rfl, rfl, rfl, rfl, rfl⟩

end NpsSdk.Nip.Ca
