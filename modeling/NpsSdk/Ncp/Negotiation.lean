import Mathlib.Data.Prod.Lex
import NpsSdk.Ncp.Handshake

/-!
# What is negotiated

A handshake is accepted exactly if the two ranges of versions meet, a stable encoding and the protocol "ncp"
are on both sides, and the limits are positive; the session has the greatest version of both ranges, the first
of these encodings, and what both sides have of the rest.
-/

namespace NpsSdk.Ncp

open NpsSdk.Lib

/-! ### Versions -/

def versionOf (value : String) : Option (ℕ × ℕ) :=
  match splitChars '.' value.toList with
  | [major, minor] =>
    (parseDecimal major).bind fun major => (parseDecimal minor).map fun minor => (major, minor)
  | _ => none

def readVersion (v : ℕ × ℕ) : Version := (.ofNat v.1, .ofNat v.2)

theorem parseVersion_eq (value : String) : parseVersion value = (versionOf value).map readVersion := by
  unfold parseVersion versionOf
  rcases splitChars '.' value.toList with _ | ⟨major, _ | ⟨minor, _ | _⟩⟩
  · rfl
  · rfl
  · dsimp only
    cases parseDecimal major with
    | none => rfl
    | some m => cases parseDecimal minor <;> rfl
  · rfl

variable {a b : Version} {v w : ℕ × ℕ}

theorem compare_pos : 0 < compare a b ↔ if a.1.eq b.1 then b.2 < a.2 else b.1 < a.1 := by
  unfold compare
  split <;> exact JsDouble.sub_pos

theorem compare_neg : compare a b < 0 ↔ 0 < compare b a := by
  rw [compare_pos, JsDouble.eq_comm]
  unfold compare
  split <;> exact JsDouble.sub_neg

/-- Versions whose numbers are no `NaN`. -/
def Version.Read (a : Version) : Prop := a.1 ≠ .nan ∧ a.2 ≠ .nan

theorem read_readVersion : (readVersion v).Read := ⟨JsDouble.ofNat_ne_nan, JsDouble.ofNat_ne_nan⟩

theorem eq_of_compare_eq_nan (ha : a.Read) (hb : b.Read) (h : compare a b = .nan) : a = b := by
  unfold compare at h
  split at h
  · rename_i heq
    exact Prod.ext ((JsDouble.eq_iff ha.1).1 heq) (JsDouble.eq_of_sub_eq_nan ha.2 hb.2 h)
  · rename_i hne
    exact absurd ((JsDouble.eq_iff ha.1).2 (JsDouble.eq_of_sub_eq_nan ha.1 hb.1 h)) hne

theorem minVersion_eq (ha : a.Read) (hb : b.Read) : minVersion a b = if 0 < compare a b then b else a := by
  unfold minVersion
  split
  · rename_i hle
    rw [if_neg fun hlt => JsDouble.lt_irrefl (JsDouble.lt_of_le_of_lt hle hlt)]
  · rename_i hle
    by_cases hnan : compare a b = .nan
    · rw [eq_of_compare_eq_nan ha hb hnan, ite_self]
    · rw [if_pos ((JsDouble.le_or_lt hnan (by decide)).resolve_left hle)]

theorem maxVersion_eq (ha : a.Read) (hb : b.Read) : maxVersion a b = if 0 < compare b a then b else a := by
  unfold maxVersion
  split
  · rename_i hle
    rw [if_neg fun hlt => JsDouble.lt_irrefl (JsDouble.lt_of_le_of_lt hle (compare_neg.2 hlt))]
  · rename_i hle
    by_cases hnan : compare a b = .nan
    · rw [eq_of_compare_eq_nan ha hb hnan, ite_self]
    · rw [if_pos (compare_neg.1 ((JsDouble.le_or_lt (by decide) hnan).resolve_left hle))]

/-- Below `2^53`, versions compare as pairs of numbers. -/
theorem compare_pos_iff (hv : v.1 < 2 ^ 53 ∧ v.2 < 2 ^ 53) (hw : w.1 < 2 ^ 53 ∧ w.2 < 2 ^ 53) :
    0 < compare (readVersion v) (readVersion w) ↔ toLex w < toLex v := by
  have hlt : ∀ m n : ℕ, (JsDouble.fin m : JsDouble) < .fin n ↔ m < n := fun m n => by
    show decide ((m : ℚ) < n) = true ↔ m < n
    simp
  rw [compare_pos, Prod.Lex.toLex_lt_toLex, readVersion, readVersion]
  simp only [JsDouble.ofNat_of_lt hv.1, JsDouble.ofNat_of_lt hv.2, JsDouble.ofNat_of_lt hw.1,
    JsDouble.ofNat_of_lt hw.2]
  by_cases heq : v.1 = w.1
  · rw [if_pos (by simp [JsDouble.eq, heq]), hlt, heq]
    simp
  · rw [if_neg (by simp [JsDouble.eq, heq]), hlt]
    simp [Ne.symm heq]

/-! ### What is accepted -/

/-- A token of the client that decides the encoding. -/
def isStable (server : NcpHandshakeProfile) (token : String) : Bool :=
  (token == "msgpack" || token == "json") && server.supportedEncodings.contains token

def commonProtocols (server : NcpHandshakeProfile) (client : HelloFrame) : List String :=
  (client.supportedProtocols.filter server.supportedProtocols.contains).eraseDups

def agreed (server : NcpHandshakeProfile) (client : HelloFrame) (top : Version) (stable : String) :
    Negotiation where
  sessionVersion := top.1.wholeText ++ "." ++ top.2.wholeText
  negotiatedEncoding := stable
  enabledEncodings :=
    if server.supportedEncodings.contains "binary_vector.v1" &&
      client.supportedEncodings.contains "binary_vector.v1" then [stable, "binary_vector.v1"] else [stable]
  supportedProtocols := commonProtocols server client
  maxFramePayload := JsDouble.min server.maxFramePayload client.maxFramePayload
  extSupport := server.extSupport && client.extSupport
  maxConcurrentStreams := JsDouble.min server.maxConcurrentStreams client.maxConcurrentStreams

structure Accepts (server : NcpHandshakeProfile) (client : HelloFrame) (smin smax cmin cmax : ℕ × ℕ)
    (stable : String) : Prop where
  serverMin : versionOf server.minVersion = some smin
  serverMax : versionOf server.npsVersion = some smax
  clientMin : versionOf (client.minVersion.getD client.npsVersion) = some cmin
  clientMax : versionOf client.npsVersion = some cmax
  serverRange : ¬ 0 < compare (readVersion smin) (readVersion smax)
  clientRange : ¬ 0 < compare (readVersion cmin) (readVersion cmax)
  overlap : ¬ 0 < compare (maxVersion (readVersion smin) (readVersion cmin))
    (minVersion (readVersion smax) (readVersion cmax))
  encoding : client.supportedEncodings.find? (isStable server) = some stable
  ncp : "ncp" ∈ commonProtocols server client
  limits : ¬ (client.maxFramePayload ≤ 0 ∨ server.maxFramePayload ≤ 0 ∨ client.maxConcurrentStreams ≤ 0 ∨
    server.maxConcurrentStreams ≤ 0)

variable {server : NcpHandshakeProfile} {client : HelloFrame} {n : Negotiation}

/-- **What a negotiation comes to.** -/
theorem negotiateHandshake_ok_iff : negotiateHandshake server client = .ok n ↔
    ∃ smin smax cmin cmax stable, Accepts server client smin smax cmin cmax stable ∧
      n = agreed server client (minVersion (readVersion smax) (readVersion cmax)) stable := by
  unfold negotiateHandshake
  simp only [parseVersion_eq]
  constructor
  · intro h
    split at h
    · rename_i smin smax cmin cmax hsmin hsmax hcmin hcmax
      obtain ⟨smin, hsmin', rfl⟩ := Option.map_eq_some_iff.1 hsmin
      obtain ⟨smax, hsmax', rfl⟩ := Option.map_eq_some_iff.1 hsmax
      obtain ⟨cmin, hcmin', rfl⟩ := Option.map_eq_some_iff.1 hcmin
      obtain ⟨cmax, hcmax', rfl⟩ := Option.map_eq_some_iff.1 hcmax
      split at h
      · cases h
      rename_i hranges
      rw [not_or] at hranges
      split at h
      · cases h
      rename_i hoverlap
      split at h
      · cases h
      rename_i stable hstable
      split at h
      · cases h
      rename_i hrest
      cases h
      rw [not_or, Bool.not_eq_false] at hrest
      exact ⟨smin, smax, cmin, cmax, stable, ⟨hsmin', hsmax', hcmin', hcmax', hranges.1, hranges.2,
        hoverlap, hstable, List.contains_iff_mem.1 hrest.1, hrest.2⟩, rfl⟩
    · cases h
  · rintro ⟨smin, smax, cmin, cmax, stable, h, rfl⟩
    have hstable := h.encoding
    unfold isStable at hstable
    have hncp : ((client.supportedProtocols.filter server.supportedProtocols.contains).eraseDups.contains
      "ncp") = true := List.contains_iff_mem.2 h.ncp
    rw [h.serverMin, h.serverMax, h.clientMin, h.clientMax]
    simp only [Option.map_some, h.serverRange, h.clientRange, or_self, if_false, h.overlap, hstable, hncp,
      Bool.true_eq_false, h.limits]
    rfl

/-! ### Versions below `2^53` -/

/-- A text whose two numbers, if it has two, are below `2^53`. -/
def SmallVersion (value : String) : Prop := ∀ v, versionOf value = some v → v.1 < 2 ^ 53 ∧ v.2 < 2 ^ 53

/-- The versions from the one of a text to that of another. -/
def versionRange (least greatest : String) : Set (ℕ ×ₗ ℕ) :=
  {v | ∃ lo hi, versionOf least = some lo ∧ versionOf greatest = some hi ∧ toLex lo ≤ v ∧ v ≤ toLex hi}

def NcpHandshakeProfile.versions (server : NcpHandshakeProfile) : Set (ℕ ×ₗ ℕ) :=
  versionRange server.minVersion server.npsVersion

def HelloFrame.versions (client : HelloFrame) : Set (ℕ ×ₗ ℕ) :=
  versionRange (client.minVersion.getD client.npsVersion) client.npsVersion

def versionText (v : ℕ ×ₗ ℕ) : String := toString (ofLex v).1 ++ "." ++ toString (ofLex v).2

/-- The versions of the two sides are below `2^53`. -/
structure SmallVersions (server : NcpHandshakeProfile) (client : HelloFrame) : Prop where
  serverMin : SmallVersion server.minVersion
  serverMax : SmallVersion server.npsVersion
  clientMin : SmallVersion (client.minVersion.getD client.npsVersion)
  clientMax : SmallVersion client.npsVersion

theorem versionRange_eq {least greatest : String} (hv : versionOf least = some v)
    (hw : versionOf greatest = some w) : versionRange least greatest = Set.Icc (toLex v) (toLex w) := by
  ext u
  constructor
  · rintro ⟨lo, hi, hlo, hhi, h⟩
    rw [hv, Option.some.injEq] at hlo
    rw [hw, Option.some.injEq] at hhi
    rw [hlo, hhi]
    exact h
  · exact fun h => ⟨v, w, hv, hw, h⟩

theorem maxVersion_small (hv : v.1 < 2 ^ 53 ∧ v.2 < 2 ^ 53) (hw : w.1 < 2 ^ 53 ∧ w.2 < 2 ^ 53) :
    maxVersion (readVersion v) (readVersion w) = readVersion (ofLex (max (toLex v) (toLex w))) := by
  rw [maxVersion_eq read_readVersion read_readVersion]
  split
  · rename_i hlt
    rw [max_eq_right ((compare_pos_iff hw hv).1 hlt).le]
    rfl
  · rename_i hle
    rw [max_eq_left (not_lt.1 fun hlt => hle ((compare_pos_iff hw hv).2 hlt))]
    rfl

theorem minVersion_small (hv : v.1 < 2 ^ 53 ∧ v.2 < 2 ^ 53) (hw : w.1 < 2 ^ 53 ∧ w.2 < 2 ^ 53) :
    minVersion (readVersion v) (readVersion w) = readVersion (ofLex (min (toLex v) (toLex w))) := by
  rw [minVersion_eq read_readVersion read_readVersion]
  split
  · rename_i hlt
    rw [min_eq_right ((compare_pos_iff hv hw).1 hlt).le]
    rfl
  · rename_i hle
    rw [min_eq_left (not_lt.1 fun hlt => hle ((compare_pos_iff hv hw).2 hlt))]
    rfl

theorem small_max (hv : v.1 < 2 ^ 53 ∧ v.2 < 2 ^ 53) (hw : w.1 < 2 ^ 53 ∧ w.2 < 2 ^ 53) :
    (ofLex (max (toLex v) (toLex w))).1 < 2 ^ 53 ∧ (ofLex (max (toLex v) (toLex w))).2 < 2 ^ 53 := by
  rcases max_choice (toLex v) (toLex w) with h | h <;> rw [h]
  · exact hv
  · exact hw

theorem small_min (hv : v.1 < 2 ^ 53 ∧ v.2 < 2 ^ 53) (hw : w.1 < 2 ^ 53 ∧ w.2 < 2 ^ 53) :
    (ofLex (min (toLex v) (toLex w))).1 < 2 ^ 53 ∧ (ofLex (min (toLex v) (toLex w))).2 < 2 ^ 53 := by
  rcases min_choice (toLex v) (toLex w) with h | h <;> rw [h]
  · exact hv
  · exact hw

variable {smin smax cmin cmax : ℕ × ℕ}

theorem versions_inter (hsmin : versionOf server.minVersion = some smin)
    (hsmax : versionOf server.npsVersion = some smax)
    (hcmin : versionOf (client.minVersion.getD client.npsVersion) = some cmin)
    (hcmax : versionOf client.npsVersion = some cmax) : server.versions ∩ client.versions =
      Set.Icc (max (toLex smin) (toLex cmin)) (min (toLex smax) (toLex cmax)) := by
  rw [NcpHandshakeProfile.versions, HelloFrame.versions, versionRange_eq hsmin hsmax,
    versionRange_eq hcmin hcmax, Set.Icc_inter_Icc]

theorem ranges_iff (hsmall : SmallVersions server client)
    (hsmin : versionOf server.minVersion = some smin) (hsmax : versionOf server.npsVersion = some smax)
    (hcmin : versionOf (client.minVersion.getD client.npsVersion) = some cmin)
    (hcmax : versionOf client.npsVersion = some cmax) :
    (¬ 0 < compare (readVersion smin) (readVersion smax) ∧ ¬ 0 < compare (readVersion cmin) (readVersion cmax) ∧
      ¬ 0 < compare (maxVersion (readVersion smin) (readVersion cmin))
        (minVersion (readVersion smax) (readVersion cmax))) ↔ (server.versions ∩ client.versions).Nonempty := by
  have hs := hsmall.serverMin _ hsmin
  have hS := hsmall.serverMax _ hsmax
  have hc := hsmall.clientMin _ hcmin
  have hC := hsmall.clientMax _ hcmax
  rw [versions_inter hsmin hsmax hcmin hcmax, Set.nonempty_Icc, maxVersion_small hs hc, minVersion_small hS hC,
    compare_pos_iff hs hS, compare_pos_iff hc hC, compare_pos_iff (small_max hs hc) (small_min hS hC),
    not_lt, not_lt, not_lt]
  constructor
  · exact fun h => h.2.2
  · intro h
    have h : max (toLex smin) (toLex cmin) ≤ min (toLex smax) (toLex cmax) := h
    exact ⟨(le_max_left _ _).trans (h.trans (min_le_left _ _)),
      (le_max_right _ _).trans (h.trans (min_le_right _ _)), h⟩

/-! ### Protocols -/

section

variable {α : Type} [DecidableEq α] {l : List α} {p : α → Bool} {x y : α}

theorem idxOf_lt_of_filter (hx : p x = true) (hy : p y = true)
    (h : (l.filter p).idxOf x < (l.filter p).idxOf y) : l.idxOf x < l.idxOf y := by
  induction l with
  | nil => simp at h
  | cons a l ih =>
    by_cases hax : a = x
    · subst hax
      have hay : a ≠ y := by
        rintro rfl
        exact absurd h (lt_irrefl _)
      simp [List.idxOf_cons_ne _ hay]
    by_cases hay : a = y
    · subst hay
      rw [List.filter_cons, if_pos hy] at h
      simp at h
    · rw [List.idxOf_cons_ne _ hax, List.idxOf_cons_ne _ hay]
      rw [List.filter_cons] at h
      split at h
      · rw [List.idxOf_cons_ne _ hax, List.idxOf_cons_ne _ hay] at h
        exact Nat.succ_lt_succ (ih (Nat.lt_of_succ_lt_succ h))
      · exact Nat.succ_lt_succ (ih h)

theorem pairwise_eraseDups : l.eraseDups.Pairwise fun x y => l.idxOf x < l.idxOf y := by
  induction h : l.length using Nat.strong_induction_on generalizing l with
  | _ n ih =>
    cases l with
    | nil => simp
    | cons a l =>
      have hlength : (l.filter fun b => !b == a).length < n := by
        rw [← h]
        exact Nat.lt_succ_of_le (List.length_filter_le _ _)
      have hother : ∀ x ∈ (l.filter fun b => !b == a).eraseDups, a ≠ x := by
        rintro x hx rfl
        have hmem := (List.mem_filter.1 (List.mem_eraseDups.1 hx)).2
        simp at hmem
      rw [List.eraseDups_cons, List.pairwise_cons]
      constructor
      · intro x hx
        simp [List.idxOf_cons_ne _ (hother x hx)]
      · refine (ih _ hlength rfl).imp_of_mem fun hx hy hlt => ?_
        rw [List.idxOf_cons_ne _ (hother _ hx), List.idxOf_cons_ne _ (hother _ hy)]
        refine Nat.succ_lt_succ (idxOf_lt_of_filter ?_ ?_ hlt)
        · simpa using (hother _ hx).symm
        · simpa using (hother _ hy).symm

end

theorem mem_commonProtocols {token : String} : token ∈ commonProtocols server client ↔
    token ∈ client.supportedProtocols ∧ token ∈ server.supportedProtocols := by
  rw [commonProtocols, List.mem_eraseDups, List.mem_filter, List.contains_iff_mem]

theorem pairwise_commonProtocols : (commonProtocols server client).Pairwise fun s t =>
    client.supportedProtocols.idxOf s < client.supportedProtocols.idxOf t := by
  refine pairwise_eraseDups.imp_of_mem fun hs ht hlt => ?_
  have hin : ∀ {token}, token ∈ commonProtocols server client →
      server.supportedProtocols.contains token = true := fun h =>
    (List.mem_filter.1 (List.mem_eraseDups.1 h)).2
  exact idxOf_lt_of_filter (hin hs) (hin ht) hlt

theorem nodup_commonProtocols : (commonProtocols server client).Nodup :=
  pairwise_commonProtocols.imp fun hlt heq => by
    rw [heq] at hlt
    exact absurd hlt (lt_irrefl _)

/-! ### Limits and encodings -/

theorem min_fin (a b : ℤ) : JsDouble.min (.fin a) (.fin b) = .fin (min a b : ℤ) := by
  have hlt : (JsDouble.fin a < .fin b) ↔ a < b := by
    show decide ((a : ℚ) < b) = true ↔ a < b
    simp
  unfold JsDouble.min
  rw [if_neg (by simp)]
  split
  · rename_i h
    rw [min_eq_left (hlt.1 h).le]
  · rename_i h
    rw [min_eq_right (not_lt.1 fun hab => h (hlt.2 hab))]

theorem fin_le_zero (a : ℤ) : JsDouble.fin a ≤ 0 ↔ a ≤ 0 := by
  show JsDouble.fin a ≤ .fin (0 : ℕ) ↔ a ≤ 0
  rw [JsDouble.fin_le_fin]
  exact_mod_cast Iff.rfl

def StableFor (server : NcpHandshakeProfile) (token : String) : Prop :=
  (token = "msgpack" ∨ token = "json") ∧ token ∈ server.supportedEncodings

theorem isStable_iff {token : String} : isStable server token = true ↔ StableFor server token := by
  simp [isStable, StableFor]

/-! ### Exactness -/

/-- The limits of the two sides, which are integers. -/
structure IntegerLimits (server : NcpHandshakeProfile) (client : HelloFrame) (serverPayload clientPayload
    serverStreams clientStreams : ℤ) : Prop where
  serverPayload : server.maxFramePayload = .fin serverPayload
  clientPayload : client.maxFramePayload = .fin clientPayload
  serverStreams : server.maxConcurrentStreams = .fin serverStreams
  clientStreams : client.maxConcurrentStreams = .fin clientStreams

structure ExactSession (server : NcpHandshakeProfile) (client : HelloFrame) (maxPayload maxStreams : ℤ)
    (d : NcpHandshakeDecision) : Prop where
  version : ∃ v, IsGreatest (server.versions ∩ client.versions) v ∧ d.sessionVersion = some (versionText v)
  encoding : ∃ before token after, client.supportedEncodings = before ++ token :: after ∧
    StableFor server token ∧ (∀ e ∈ before, ¬ StableFor server e) ∧ d.negotiatedEncoding = some token
  protocols : ∃ tokens, d.supportedProtocols = some tokens ∧ tokens.Nodup ∧
    (∀ token, token ∈ tokens ↔ token ∈ client.supportedProtocols ∧ token ∈ server.supportedProtocols) ∧
    tokens.Pairwise fun s t => client.supportedProtocols.idxOf s < client.supportedProtocols.idxOf t
  maxFramePayload : d.maxFramePayload = some (.fin maxPayload)
  maxConcurrentStreams : d.maxConcurrentStreams = some (.fin maxStreams)
  extSupport : d.extSupport = some (server.extSupport && client.extSupport)

structure NoSession (d : NcpHandshakeDecision) : Prop where
  sessionVersion : d.sessionVersion = none
  negotiatedEncoding : d.negotiatedEncoding = none
  enabledEncodings : d.enabledEncodings = none
  supportedProtocols : d.supportedProtocols = none
  maxFramePayload : d.maxFramePayload = none
  extSupport : d.extSupport = none
  maxConcurrentStreams : d.maxConcurrentStreams = none

theorem accept_iff_ok : (decisionOf (negotiateHandshake server client)).action = "accept" ↔
    ∃ n, negotiateHandshake server client = .ok n := by
  cases negotiateHandshake server client with
  | error err => simp [decisionOf]
  | ok n => simp [decisionOf]

theorem limits_iff {sp cp ss cs : ℤ} (h : IntegerLimits server client sp cp ss cs) :
    ¬ (client.maxFramePayload ≤ 0 ∨ server.maxFramePayload ≤ 0 ∨ client.maxConcurrentStreams ≤ 0 ∨
      server.maxConcurrentStreams ≤ 0) ↔ 0 < min sp cp ∧ 0 < min ss cs := by
  rw [h.serverPayload, h.clientPayload, h.serverStreams, h.clientStreams, fin_le_zero, fin_le_zero, fin_le_zero,
    fin_le_zero]
  omega

/-- **What the session of a negotiation is.** -/
theorem exactSession_agreed {stable : String} {sp cp ss cs : ℤ}
    (hsmall : SmallVersions server client) (hlimits : IntegerLimits server client sp cp ss cs)
    (h : Accepts server client smin smax cmin cmax stable) :
    ExactSession server client (min sp cp) (min ss cs)
      (decisionOf (.ok (agreed server client (minVersion (readVersion smax) (readVersion cmax)) stable))) where
  version := by
    have hS := hsmall.serverMax _ h.serverMax
    have hC := hsmall.clientMax _ h.clientMax
    have hne := (ranges_iff hsmall h.serverMin h.serverMax h.clientMin h.clientMax).1
      ⟨h.serverRange, h.clientRange, h.overlap⟩
    rw [versions_inter h.serverMin h.serverMax h.clientMin h.clientMax] at hne ⊢
    refine ⟨_, isGreatest_Icc (Set.nonempty_Icc.1 hne), ?_⟩
    rw [minVersion_small hS hC, versionText]
    obtain ⟨h1, h2⟩ := small_min hS hC
    show some ((JsDouble.ofNat _).wholeText ++ "." ++ (JsDouble.ofNat _).wholeText) = _
    rw [JsDouble.wholeText_ofNat h1, JsDouble.wholeText_ofNat h2]
    rfl
  encoding := by
    obtain ⟨hstable, before, after, hsplit, hbefore⟩ := List.find?_eq_some_iff_append.1 h.encoding
    refine ⟨before, stable, after, hsplit, isStable_iff.1 hstable, fun e he hstable' => ?_, rfl⟩
    have hnot := hbefore e he
    rw [isStable_iff.2 hstable'] at hnot
    cases hnot
  protocols := ⟨_, rfl, nodup_commonProtocols, fun _ => mem_commonProtocols, pairwise_commonProtocols⟩
  maxFramePayload := by
    show some (JsDouble.min server.maxFramePayload client.maxFramePayload) = _
    rw [hlimits.serverPayload, hlimits.clientPayload, min_fin]
  maxConcurrentStreams := by
    show some (JsDouble.min server.maxConcurrentStreams client.maxConcurrentStreams) = _
    rw [hlimits.serverStreams, hlimits.clientStreams, min_fin]
  extSupport := rfl

/-- **The negotiation is exact.** -/
theorem negotiation_exact (server : NcpHandshakeProfile) (client : HelloFrame)
    (hsmall : SmallVersions server client) (serverPayload clientPayload serverStreams clientStreams : ℤ)
    (hlimits : IntegerLimits server client serverPayload clientPayload serverStreams clientStreams) :
    ((decisionOf (negotiateHandshake server client)).action = "accept" ↔
      (server.versions ∩ client.versions).Nonempty ∧
      (∃ token ∈ client.supportedEncodings, StableFor server token) ∧
      ("ncp" ∈ client.supportedProtocols ∧ "ncp" ∈ server.supportedProtocols) ∧
      0 < min serverPayload clientPayload ∧ 0 < min serverStreams clientStreams) ∧
    ((decisionOf (negotiateHandshake server client)).action = "accept" →
      ExactSession server client (min serverPayload clientPayload) (min serverStreams clientStreams)
        (decisionOf (negotiateHandshake server client))) ∧
    ((decisionOf (negotiateHandshake server client)).action ≠ "accept" →
      NoSession (decisionOf (negotiateHandshake server client))) := by
  rw [accept_iff_ok]
  refine ⟨⟨?_, ?_⟩, ?_, ?_⟩
  · rintro ⟨n, hn⟩
    obtain ⟨smin, smax, cmin, cmax, stable, h, -⟩ := negotiateHandshake_ok_iff.1 hn
    have hranges := (ranges_iff hsmall h.serverMin h.serverMax h.clientMin h.clientMax).1
      ⟨h.serverRange, h.clientRange, h.overlap⟩
    exact ⟨hranges, ⟨stable, List.mem_of_find?_eq_some h.encoding, isStable_iff.1 (List.find?_some h.encoding)⟩,
      mem_commonProtocols.1 h.ncp, (limits_iff hlimits).1 h.limits⟩
  · rintro ⟨hranges, ⟨token, htoken, hstable⟩, hncp, hpositive⟩
    obtain ⟨v, ⟨smin, smax, hsmin, hsmax, -⟩, cmin, cmax, hcmin, hcmax, -⟩ := id hranges
    obtain ⟨hserver, hclient, hoverlap⟩ := (ranges_iff hsmall hsmin hsmax hcmin hcmax).2 hranges
    have hfind : (client.supportedEncodings.find? (isStable server)).isSome = true :=
      List.find?_isSome.2 ⟨token, htoken, isStable_iff.2 hstable⟩
    obtain ⟨stable, hfind⟩ := Option.isSome_iff_exists.1 hfind
    exact ⟨_, negotiateHandshake_ok_iff.2 ⟨smin, smax, cmin, cmax, stable, ⟨hsmin, hsmax, hcmin, hcmax, hserver,
      hclient, hoverlap, hfind, mem_commonProtocols.2 hncp, (limits_iff hlimits).2 hpositive⟩, rfl⟩⟩
  · rintro ⟨n, hn⟩
    obtain ⟨smin, smax, cmin, cmax, stable, h, rfl⟩ := negotiateHandshake_ok_iff.1 hn
    rw [hn]
    exact exactSession_agreed hsmall hlimits h
  · intro hno
    cases hn : negotiateHandshake server client with
    | error err => exact ⟨rfl, rfl, rfl, rfl, rfl, rfl, rfl⟩
    | ok n => exact absurd (accept_iff_ok.2 ⟨n, hn⟩) hno

def jsonClient : HelloFrame where
  npsVersion := "0.10"
  supportedEncodings := ["zstd", "json", "msgpack"]
  supportedProtocols := ["nwp", "ncp", "nwp"]

theorem jsonClient_small : SmallVersions {} jsonClient := by
  have hone : SmallVersion "0.1" := fun v hv => by
    cases (show versionOf "0.1" = some (0, 1) by decide).symm.trans hv
    decide
  have heleven : SmallVersion "0.11" := fun v hv => by
    cases (show versionOf "0.11" = some (0, 11) by decide).symm.trans hv
    decide
  have hten : SmallVersion "0.10" := fun v hv => by
    cases (show versionOf "0.10" = some (0, 10) by decide).symm.trans hv
    decide
  exact ⟨hone, heleven, hten, hten⟩

theorem jsonClient_evaluated : (decisionOf (negotiateHandshake {} jsonClient)).action = "accept" ∧
    (decisionOf (negotiateHandshake {} jsonClient)).sessionVersion = some "0.10" ∧
    ({} : NcpHandshakeProfile).maxFramePayload = .fin (65535 : ℤ) ∧
    jsonClient.maxFramePayload = .fin (65535 : ℤ) ∧
    ({} : NcpHandshakeProfile).maxConcurrentStreams = .fin (32 : ℤ) ∧
    jsonClient.maxConcurrentStreams = .fin (32 : ℤ) := by decide +kernel

/-- A server of the default profile agrees on a session with it. -/
theorem jsonClient_session :
    ExactSession {} jsonClient 65535 32 (decisionOf (negotiateHandshake {} jsonClient)) ∧
      (decisionOf (negotiateHandshake {} jsonClient)).sessionVersion = some "0.10" := by
  obtain ⟨haccept, hversion, hsp, hcp, hss, hcs⟩ := jsonClient_evaluated
  exact ⟨(negotiation_exact {} jsonClient jsonClient_small 65535 65535 32 32 ⟨hsp, hcp, hss, hcs⟩).2.1 haccept,
    hversion⟩

end NpsSdk.Ncp
