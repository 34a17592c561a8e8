import NpsSdk.Nip.Ca.Calls
import NpsSdk.Nip.ScopePatterns

/-!
# The scope of a session

A session takes the capabilities of its group or a part of them, but any scope it asks for: only a scope
whose patterns are within the group's covers no more than the group's.
-/

namespace NpsSdk.Nip.Ca

open NpsSdk.Lib

variable {sha256 lower : String → String} {amb : ℕ → Ambient} {s : CaState}

namespace NipCaService

def patternsOf (ca : NipCaService) (scopeJson : String) : List String :=
  ((ca.parseJson scopeJson).map scopePatterns).getD []

def asksWithin (ca : NipCaService) (lower : String → String) (group : NipCertRecord)
    (scopeJson : Option String) : Bool :=
  match scopeJson with
  | none => true
  | some text => scopeWithin lower (ca.patternsOf group.scopeJson) (ca.patternsOf text)

variable {ca : NipCaService}

theorem patterns_issueSession {groupNid sessionPubKey : String} {validityMs : Option ℤ}
    {purpose : Option String} {capabilities : Option (List String)} {scopeJson metadataJson : Option String}
    {group : NipCertRecord} {frame : CaIdentFrame} (hgroup : s.certs.getByNid groupNid = some group)
    (hok : ((ca.issueSession groupNid sessionPubKey validityMs purpose capabilities scopeJson
      metadataJson).finish (exec sha256) amb s).1 = .ok frame) :
    scopePatterns frame.scope = ca.patternsOf (scopeJson.getD group.scopeJson) := by
  let Q : Except CaError CaIdentFrame → CaState → Prop := fun r _ => ∀ frame, r = .ok frame →
    scopePatterns frame.scope = ca.patternsOf (scopeJson.getD group.scopeJson)
  suffices hQ : Async.wp (exec sha256) (ca.issueSession groupNid sessionPubKey validityMs purpose
      capabilities scopeJson metadataJson) (fun r _ s' => Q r s') amb s from
    (Async.wp_iff_finish.1 hQ) frame hok
  refine Async.wp_mono wp_issueSession_scope ?_
  intro r amb' s' h frame hr
  subst hr
  obtain ⟨⟨r, ⟨-, group', hgroup', hscope⟩, -, hframe, -⟩, -⟩ := h
  obtain rfl : group = group' := by
    rw [hgroup, Option.some.injEq] at hgroup'
    exact hgroup'
  rw [← hscope, patternsOf, hframe.scope]
  rfl

/-- **The scope of a session is bounded by its group's** when it is asked for within the group's patterns,
and, for patterns that keep their length in lower case, only then. -/
theorem issueSession_bounded_iff (hlower : LowerCasing lower) {groupNid sessionPubKey : String}
    {validityMs : Option ℤ} {purpose : Option String} {capabilities : Option (List String)}
    {scopeJson metadataJson : Option String} {group : NipCertRecord} {frame : CaIdentFrame}
    (hgroup : s.certs.getByNid groupNid = some group)
    (hok : ((ca.issueSession groupNid sessionPubKey validityMs purpose capabilities scopeJson
      metadataJson).finish (exec sha256) amb s).1 = .ok frame) :
    (ca.asksWithin lower group scopeJson = true →
      BoundedBy lower (scopePatterns frame.scope) (ca.patternsOf group.scopeJson)) ∧
    ((∀ p ∈ scopePatterns frame.scope ++ ca.patternsOf group.scopeJson, KeepsLength p) →
      BoundedBy lower (scopePatterns frame.scope) (ca.patternsOf group.scopeJson) →
        ca.asksWithin lower group scopeJson = true) := by
  rw [patterns_issueSession hgroup hok]
  cases scopeJson with
  | none => exact ⟨fun _ path hpath => hpath, fun _ _ => rfl⟩
  | some text => exact ⟨fun hwithin => boundedBy_of_within hlower hwithin, within_of_boundedBy hlower⟩

end NipCaService

/-! ### A group of one subtree -/

/-- A service that reads texts as the host does. -/
def docsCa : NipCaService :=
  { opts := { caNid := "urn:nps:org:ca.example" }, parseJson := fun text => Json.parse text.toList,
    sign := fun _ => "signature" }

def docsNid : String := "urn:nps:agent:ca.example:group-docs"

def docsGroup : NipCertRecord :=
  { nid := docsNid, entityType := "agent", serial := "0x1", pubKey := "ed25519:g", capabilities := ["read"]
    scopeJson := "\x7b\"nodes\":[\"docs/*\"]\x7d", issuedBy := "urn:nps:org:ca.example", issuedAt := 0
    expiresAt := 1000000000, nidRole := some NID_ROLE_GROUP }

def docsSession (scopeJson : String) : Except CaError CaIdentFrame :=
  ((docsCa.issueSession docsNid "ed25519:s" none none none (some scopeJson) none).finish (exec id)
    (fun _ => ⟨fun _ => 1000, fun _ => "0123456789abcdef"⟩) { certs := ⟨[docsGroup], 1⟩ }).1

theorem docs_api_bounded : ∃ frame, docsSession "\x7b\"nodes\":[\"Docs/api/*\"]\x7d" = .ok frame ∧
    BoundedBy lowerLatin (scopePatterns frame.scope) (docsCa.patternsOf docsGroup.scopeJson) := by
  have hissued : (docsSession "\x7b\"nodes\":[\"Docs/api/*\"]\x7d").isOk = true := by decide +kernel
  cases hframe : docsSession "\x7b\"nodes\":[\"Docs/api/*\"]\x7d" with
  | error e =>
    rw [hframe] at hissued
    cases hissued
  | ok frame =>
    exact ⟨frame, rfl, (NipCaService.issueSession_bounded_iff lowerCasing_lowerLatin
      (show _ = some docsGroup by decide) hframe).1 (by decide +kernel)⟩

/-- The group covers `docs`, and a session of it is issued for every path. -/
theorem docs_session_unbounded : ∃ frame, docsSession "\x7b\"nodes\":[\"*\"]\x7d" = .ok frame ∧
    ¬ BoundedBy lowerLatin (scopePatterns frame.scope) (docsCa.patternsOf docsGroup.scopeJson) := by
  have hissued : (docsSession "\x7b\"nodes\":[\"*\"]\x7d").map (fun frame => scopePatterns frame.scope) =
      .ok ["*"] := by decide +kernel
  cases hframe : docsSession "\x7b\"nodes\":[\"*\"]\x7d" with
  | error e =>
    rw [hframe] at hissued
    cases hissued
  | ok frame =>
    refine ⟨frame, rfl, ?_⟩
    intro hbounded
    rw [hframe] at hissued
    have hpatterns : scopePatterns frame.scope = ["*"] := by injection hissued
    rw [hpatterns] at hbounded
    obtain ⟨g, hg, hmatch⟩ := hbounded "admin" ⟨"*", by simp, rfl⟩
    have hgroup : docsCa.patternsOf docsGroup.scopeJson = ["docs/*"] := by decide +kernel
    rw [hgroup, List.mem_singleton] at hg
    subst hg
    revert hmatch
    decide

end NpsSdk.Nip.Ca
