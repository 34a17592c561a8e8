import NpsSdk.Ndp.RegistryProfile

/-!
# Refreshes of an entry

What is accepted as a refresh replaces the entry of its NID, whatever liveness the entry carried: the order
of two refreshes decides which one stays, and a refresh that was seen earlier takes the deadline back.
-/

namespace NpsSdk.Ndp

open NpsSdk.Lib

namespace NdpRegistryProfile

variable (p : NdpRegistryProfile)

/-- When the node of a frame was seen: at its `last_seen`, or else its `timestamp`. -/
def seenAt (frame : RawFrame) : Option ℤ :=
  (p.timeValue frame "last_seen").orElse fun _ => p.timeValue frame "timestamp"

def IsRefresh (s : RegistryState) (a : Announce) (nid : String) : Prop :=
  stringValue a.frame "nid" = some nid ∧ (p.applyAnnounce s a).1.decision = .refreshed

structure Refreshes (s : RegistryState) (a : Announce) (nid : String) (current : RegistryEntry)
    (expiresAt : ℤ) : Prop where
  admitted : ∃ ttl, p.admissible a = .ok (nid, sequenceOf a.frame, ttl)
  highest : s.sequences.get nid = some (sequenceOf a.frame)
  entry : s.entries.get nid = some current
  digest : current.signedDigest = p.digestOf a.frame
  changed : sameLiveness current.frame a.frame = false
  fresh : p.freshUntil a.frame a.receivedAt = some expiresAt

variable {p} {s : RegistryState} {a b : Announce} {nid : String} {current : RegistryEntry} {expiresAt : ℤ}
  {es : List Announce}

theorem applyAnnounce_of_highest {ttl : ℕ} (had : p.admissible a = .ok (nid, sequenceOf a.frame, ttl))
    (hhighest : s.sequences.get nid = some (sequenceOf a.frame)) : p.applyAnnounce s a = p.refresh s a nid := by
  rw [applyAnnounce, had]
  simp only [hhighest, lt_irrefl, if_false, if_true]

theorem Refreshes.step_eq (h : Refreshes p s a nid current expiresAt) : p.step s a =
    { s with entries := s.entries.set nid (p.entryOf a.frame expiresAt) } := by
  obtain ⟨ttl, had⟩ := h.admitted
  rw [step, applyAnnounce_of_highest had h.highest, refresh, h.entry]
  simp only [h.digest, h.changed, h.fresh, ne_eq, not_true_eq_false, if_false, Bool.false_eq_true]

theorem decision_advance {sequence ttl : ℕ} : (p.advance s a nid sequence ttl).1.decision ≠ .refreshed := by
  unfold advance
  split
  · nofun
  · split <;> nofun

/-- **A refresh, taken apart.** -/
theorem IsRefresh.refreshes (h : IsRefresh p s a nid) :
    ∃ current expiresAt, Refreshes p s a nid current expiresAt := by
  obtain ⟨hnid, hdecision⟩ := h
  cases had : p.admissible a with
  | error errorCode =>
    rw [applyAnnounce, had] at hdecision
    cases hdecision
  | ok t =>
    obtain ⟨nid', sequence, ttl⟩ := t
    obtain ⟨hnid', rfl⟩ := admissible_ok had
    obtain rfl : nid' = nid := Option.some.inj (hnid'.symm.trans hnid)
    cases hseq : s.sequences.get nid' with
    | none =>
      rw [applyAnnounce, had] at hdecision
      simp only [hseq] at hdecision
      exact absurd hdecision decision_advance
    | some highest =>
      rcases lt_trichotomy (sequenceOf a.frame) highest with hlt | rfl | hgt
      · rw [applyAnnounce, had] at hdecision
        simp only [hseq, hlt, if_true] at hdecision
        cases hdecision
      · rw [applyAnnounce_of_highest had hseq, refresh] at hdecision
        cases hentry : s.entries.get nid' with
        | none =>
          rw [hentry] at hdecision
          cases hdecision
        | some current =>
          rw [hentry] at hdecision
          dsimp only at hdecision
          split at hdecision
          · cases hdecision
          rename_i hdigest
          split at hdecision
          · cases hdecision
          rename_i hchanged
          split at hdecision
          · cases hdecision
          rename_i expiresAt hfresh
          exact ⟨current, expiresAt, ⟨ttl, had⟩, hseq, hentry, not_not.1 hdigest, by simpa using hchanged, hfresh⟩
      · rw [applyAnnounce, had] at hdecision
        simp only [hseq, hgt.not_gt, hgt.ne', if_false] at hdecision
        exact absurd hdecision decision_advance

/-! ### Two refreshes -/

theorem strictEq_symm {v w : Option JsValue} (h : strictEq v w = true) : strictEq w v = true := by
  unfold strictEq at h
  split at h <;> simp_all [strictEq]

theorem strictEq_comm (v w : Option JsValue) : strictEq v w = strictEq w v :=
  Bool.eq_iff_iff.2 ⟨strictEq_symm, strictEq_symm⟩

theorem sameLiveness_comm (f g : RawFrame) : sameLiveness f g = sameLiveness g f := by
  rw [sameLiveness, sameLiveness, strictEq_comm, strictEq_comm (JsMap.find "last_seen" f)]

/-- **Two refreshes, one after the other**: the second stays, unless it carries the liveness of the first. -/
theorem entry_of_two {ea eb : ℤ} {current' : RegistryEntry} (ha : Refreshes p s a nid current ea)
    (hb : Refreshes p s b nid current' eb) : (p.step (p.step s a) b).entries.get nid =
      some (if sameLiveness a.frame b.frame then p.entryOf a.frame ea else p.entryOf b.frame eb) := by
  obtain ⟨ttl, had⟩ := hb.admitted
  have hentry : (p.step s a).entries.get nid = some (p.entryOf a.frame ea) := by
    rw [ha.step_eq]
    exact JsMap.get_set_self _ _ _
  have hhighest : (p.step s a).sequences.get nid = some (sequenceOf b.frame) := by
    rw [ha.step_eq]
    exact hb.highest
  have hdigest : p.digestOf a.frame = p.digestOf b.frame := by
    have hcurrent : current = current' := Option.some.inj (ha.entry.symm.trans hb.entry)
    rw [← ha.digest, hcurrent, hb.digest]
  have hsame : (p.entryOf a.frame ea).signedDigest = p.digestOf b.frame := hdigest
  rw [step, applyAnnounce_of_highest had hhighest, refresh, hentry]
  simp only [hsame, hb.fresh, ne_eq, not_true_eq_false, if_false]
  show _ = some (if sameLiveness (p.entryOf a.frame ea).frame b.frame then _ else _)
  split
  · exact hentry
  · exact JsMap.get_set_self _ _ _

theorem entryOf_inj {f g : RawFrame} {ef eg : ℤ} (h : p.entryOf f ef = p.entryOf g eg) : f = g :=
  congrArg RegistryEntry.frame h

theorem Refreshes.deadline (h : Refreshes p s a nid current expiresAt) :
    p.freshnessDeadline a.frame = some expiresAt := (Option.filter_eq_some_iff.1 h.fresh).1

theorem order_irrelevant_iff {ea eb : ℤ} {current' : RegistryEntry} (ha : Refreshes p s a nid current ea)
    (hb : Refreshes p s b nid current' eb) :
    (p.step (p.step s a) b).entries.get nid = (p.step (p.step s b) a).entries.get nid ↔ a.frame = b.frame := by
  rw [entry_of_two ha hb, entry_of_two hb ha, sameLiveness_comm b.frame, Option.some.injEq]
  constructor
  · intro h
    split at h
    · exact entryOf_inj h
    · exact (entryOf_inj h).symm
  · intro h
    have hexpires : ea = eb := by
      have hdeadline := ha.deadline
      rw [h, hb.deadline, Option.some.injEq] at hdeadline
      exact hdeadline.symm
    rw [h, hexpires]

/-! ### The deadline of an entry -/

/-- **The entries of a registry** are those of frames that were admitted with a lifetime. -/
structure Entered (p : NdpRegistryProfile) (entry : RegistryEntry) : Prop where
  names : (entry.frame.map Prod.fst).Nodup
  digest : entry.signedDigest = p.digestOf entry.frame
  deadline : p.freshnessDeadline entry.frame = some entry.expiresAt
  ttl : ∃ ttl, unsignedInteger (JsMap.find "ttl" entry.frame) 0xffffffff = some ttl

theorem ttl_of_admissible {sequence ttl : ℕ} (h : p.admissible a = .ok (nid, sequence, ttl)) :
    unsignedInteger (JsMap.find "ttl" a.frame) 0xffffffff = some ttl := by
  unfold admissible at h
  split at h
  · cases h
  split at h
  · dsimp only at h
    split at h
    · cases h
    split at h
    · cases h
    rename_i httl
    split at h
    · cases h
    split at h
    · cases h
    · cases h
      exact httl
  · cases h

variable {ttl sequence : ℕ}

theorem entered_entryOf (had : p.admissible a = .ok (nid, sequence, ttl))
    (hfresh : p.freshUntil a.frame a.receivedAt = some expiresAt) : Entered p (p.entryOf a.frame expiresAt) :=
  ⟨a.names, rfl, (Option.filter_eq_some_iff.1 hfresh).1, ttl, ttl_of_admissible had⟩

variable {entry : RegistryEntry}

theorem entered_advance {nid' : String} (had : p.admissible a = .ok (nid, sequence, ttl))
    (h : ∀ nid entry, s.entries.get nid = some entry → Entered p entry)
    (hentry : (p.advance s a nid sequence ttl).2.entries.get nid' = some entry) : Entered p entry := by
  unfold advance at hentry
  split at hentry
  · rw [JsMap.get_delete] at hentry
    split at hentry
    · cases hentry
    · exact h _ _ hentry
  · split at hentry
    · exact h _ _ hentry
    · rename_i expiresAt hfresh
      rw [JsMap.get_set] at hentry
      split at hentry
      · cases hentry
        exact entered_entryOf had hfresh
      · exact h _ _ hentry

theorem entered_refresh {nid' : String} (had : p.admissible a = .ok (nid, sequence, ttl))
    (h : ∀ nid entry, s.entries.get nid = some entry → Entered p entry)
    (hentry : (p.refresh s a nid).2.entries.get nid' = some entry) : Entered p entry := by
  unfold refresh at hentry
  split at hentry
  · exact h _ _ hentry
  split at hentry
  · exact h _ _ hentry
  split at hentry
  · exact h _ _ hentry
  split at hentry
  · exact h _ _ hentry
  · rename_i expiresAt hfresh
    rw [JsMap.get_set] at hentry
    split at hentry
    · cases hentry
      exact entered_entryOf had hfresh
    · exact h _ _ hentry

/-- **One announce** keeps the entries those of admitted frames. -/
theorem entered_step {nid' : String} (h : ∀ nid entry, s.entries.get nid = some entry → Entered p entry)
    (hentry : (p.step s a).entries.get nid' = some entry) : Entered p entry := by
  unfold step applyAnnounce at hentry
  split at hentry
  · exact h _ _ hentry
  rename_i nid sequence ttl had
  split at hentry
  · exact entered_advance had h hentry
  split at hentry
  · exact h _ _ hentry
  split at hentry
  · exact entered_refresh had h hentry
  · exact entered_advance had h hentry

theorem entered (es : List Announce) (h : (p.after es).entries.get nid = some entry) : Entered p entry := by
  induction es using List.reverseRecOn generalizing nid entry with
  | nil => cases h
  | append_singleton es a ih =>
    rw [after_snoc] at h
    exact entered_step (fun _ _ => ih) h

/-! ### What the digest fixes -/

theorem find_withoutNullsMembers {members : RawFrame} {k : String} {n : JsNum}
    (h : JsMap.find k members = some (.num n)) : JsMap.find k (withoutNullsMembers members) = some (.num n) := by
  induction members with
  | nil => cases h
  | cons m ms ih =>
    obtain ⟨k', v⟩ := m
    by_cases hk : k' = k
    · subst hk
      simp only [JsMap.find, if_true, Option.some.injEq] at h
      subst h
      simp [withoutNullsMembers, isNull, withoutNulls, JsMap.find]
    · simp only [JsMap.find, hk, if_false] at h
      rw [withoutNullsMembers]
      split
      · exact ih h
      · simp only [JsMap.find, hk, if_false]
        exact ih h

theorem names_withoutNullsMembers (members : RawFrame) :
    ((withoutNullsMembers members).map Prod.fst).Sublist (members.map Prod.fst) := by
  induction members with
  | nil => exact List.Sublist.refl _
  | cons m ms ih =>
    obtain ⟨k, v⟩ := m
    rw [withoutNullsMembers]
    split
    · exact ih.cons k
    · exact ih.cons_cons k

variable {frame : RawFrame}

theorem names_signedMembers (h : (frame.map Prod.fst).Nodup) : ((signedMembers frame).map Prod.fst).Nodup := by
  have hroot : ((withoutNullsMembers (frame.filter fun m => m.1 ∉ EXCLUDED ∧ m.1 ≠ "__proto__")).map
      Prod.fst).Nodup := ((names_withoutNullsMembers _).trans (List.filter_sublist.map _)).nodup h
  unfold signedMembers
  dsimp only
  split
  · exact hroot
  · rename_i hnone
    rw [List.map_append, List.nodup_append]
    refine ⟨hroot, List.nodup_singleton _, ?_⟩
    rintro x hx y hy rfl
    rw [List.map_singleton, List.mem_singleton] at hy
    subst hy
    rw [← JsMap.find_isSome, hnone] at hx
    cases hx

theorem find_signedMembers {k : String} {n : JsNum} (hk : k ∉ EXCLUDED)
    (hproto : k ≠ "__proto__") (h : JsMap.find k frame = some (.num n)) :
    JsMap.find k (signedMembers frame) = some (.num n) := by
  have hroot : JsMap.find k (withoutNullsMembers
      (frame.filter fun m => m.1 ∉ EXCLUDED ∧ m.1 ≠ "__proto__")) = some (.num n) := by
    refine find_withoutNullsMembers ?_
    rw [JsMap.find_filter (fun k => decide (k ∉ EXCLUDED ∧ k ≠ "__proto__")), if_pos (by simp [hk, hproto]), h]
  unfold signedMembers
  dsimp only
  split
  · exact hroot
  · exact JsMap.find_append_of_some hroot

/-- **The signed text fixes the lifetime.** -/
theorem ttl_of_canonical {f g : RawFrame} (hf : (f.map Prod.fst).Nodup) (hg : (g.map Prod.fst).Nodup)
    (hcanonical : canonicalAnnounceJson f = canonicalAnnounceJson g) {n m : JsNumber}
    (hn : JsMap.find "ttl" f = some (.num (.finite n))) (hm : JsMap.find "ttl" g = some (.num (.finite m))) :
    n = m := by
  have htext := Json.text_injective (String.ofList_inj.1 hcanonical)
  obtain ⟨written, hwritten⟩ : ∃ written, (sortObject (.obj (signedMembers f))).json = .obj written := ⟨_, rfl⟩
  have hfound := find_sorted (names_signedMembers hf) hwritten "ttl"
  rw [find_sorted (names_signedMembers hg) (htext.symm.trans hwritten) "ttl",
    find_signedMembers (by decide) (by decide) hn, find_signedMembers (by decide) (by decide) hm] at hfound
  simpa [sortObject, JsValue.json, JsNum.json] using hfound.symm

/-- A new entry moves nothing to an earlier instant: neither the deadline nor `last_seen`. -/
def NotEarlier (p : NdpRegistryProfile) (current entry : RegistryEntry) : Prop :=
  current.expiresAt ≤ entry.expiresAt ∧ ∀ t t', p.timeValue current.frame "last_seen" = some t →
    p.timeValue entry.frame "last_seen" = some t' → t ≤ t'

theorem deadline_eq {n : JsNumber} (hn : JsMap.find "ttl" frame = some (.num (.finite n)))
    (h : p.freshnessDeadline frame = some expiresAt) :
    ∃ t, p.seenAt frame = some t ∧ expiresAt = t + ((natOf n).getD 0 : ℕ) * 1000 := by
  obtain ⟨t, ht, hexpires⟩ := Option.map_eq_some_iff.1 h
  refine ⟨t, ht, ?_⟩
  rw [← hexpires, hn]

theorem Entered.ttl_finite (h : Entered p entry) : ∃ n, JsMap.find "ttl" entry.frame = some (.num (.finite n)) := by
  obtain ⟨ttl, httl⟩ := h.ttl
  unfold unsignedInteger at httl
  split at httl
  · exact ⟨_, ‹_›⟩
  · cases httl

/-- The `last_seen` of a frame, where there is one, is when its node was seen. -/
theorem seenAt_of_lastSeen {t : ℤ} (h : p.timeValue frame "last_seen" = some t) : p.seenAt frame = some t := by
  rw [seenAt, h]
  rfl

/-- **A refresh against the entry it replaces**, whose signed text it has. -/
theorem notEarlier_iff (hcurrent : Entered p current) (hentry : Entered p entry)
    (hcanonical : canonicalAnnounceJson current.frame = canonicalAnnounceJson entry.frame) :
    ∃ t t', p.seenAt current.frame = some t ∧ p.seenAt entry.frame = some t' ∧
      (NotEarlier p current entry ↔ t ≤ t') := by
  obtain ⟨n, hn⟩ := hcurrent.ttl_finite
  obtain ⟨m, hm⟩ := hentry.ttl_finite
  obtain rfl : n = m := ttl_of_canonical hcurrent.names hentry.names hcanonical hn hm
  obtain ⟨t, ht, hexpires⟩ := deadline_eq hn hcurrent.deadline
  obtain ⟨t', ht', hexpires'⟩ := deadline_eq hm hentry.deadline
  refine ⟨t, t', ht, ht', ?_⟩
  constructor
  · rintro ⟨hle, -⟩
    omega
  · intro hle
    refine ⟨by omega, fun u u' hu hu' => ?_⟩
    rw [seenAt_of_lastSeen hu, Option.some.injEq] at ht
    rw [seenAt_of_lastSeen hu', Option.some.injEq] at ht'
    omega

end NdpRegistryProfile

open NdpRegistryProfile

/-- **Refreshes**: of two that are accepted for an entry the one applied last stays, unless both carry the
same liveness, so the order is irrelevant exactly if they carry the same frame; and a refresh moves no
instant of the entry to an earlier one exactly if its node was not seen earlier than that of the entry. -/
theorem liveness_refreshes (p : NdpRegistryProfile) (es : List Announce) :
    (∀ a b nid, p.IsRefresh (p.after es) a nid → p.IsRefresh (p.after es) b nid →
      ((p.after (es ++ [a, b])).entries.get nid = if sameLiveness a.frame b.frame then
          (p.after (es ++ [a])).entries.get nid else (p.after (es ++ [b])).entries.get nid) ∧
      ((p.after (es ++ [a, b])).entries.get nid = (p.after (es ++ [b, a])).entries.get nid ↔
        a.frame = b.frame)) ∧
    ∀ a nid, p.IsRefresh (p.after es) a nid →
      (∀ current, (p.after es).entries.get nid = some current →
        p.digestOf current.frame = p.digestOf a.frame →
          canonicalAnnounceJson current.frame = canonicalAnnounceJson a.frame) →
      ∃ current entry t t', (p.after es).entries.get nid = some current ∧
        (p.after (es ++ [a])).entries.get nid = some entry ∧ entry.frame = a.frame ∧
        p.seenAt current.frame = some t ∧ p.seenAt a.frame = some t' ∧
        (NotEarlier p current entry ↔ t ≤ t') := by
  have htwo : ∀ a b, p.after (es ++ [a, b]) = p.step (p.step (p.after es) a) b := fun a b => by
    rw [show es ++ [a, b] = (es ++ [a]) ++ [b] by simp, after_snoc, after_snoc]
  constructor
  · intro a b nid ha hb
    obtain ⟨current, ea, ha⟩ := ha.refreshes
    obtain ⟨current', eb, hb⟩ := hb.refreshes
    refine ⟨?_, ?_⟩
    · rw [htwo, entry_of_two ha hb, after_snoc, after_snoc, ha.step_eq, hb.step_eq]
      simp only [JsMap.get_set_self]
      split <;> rfl
    · rw [htwo, htwo]
      exact order_irrelevant_iff ha hb
  · intro a nid ha hcollision
    obtain ⟨current, expiresAt, ha⟩ := ha.refreshes
    have hcurrent : Entered p current := entered es ha.entry
    have hafter : (p.after (es ++ [a])).entries.get nid = some (p.entryOf a.frame expiresAt) := by
      rw [after_snoc, ha.step_eq]
      exact JsMap.get_set_self _ _ _
    have hcanonical : canonicalAnnounceJson current.frame = canonicalAnnounceJson a.frame :=
      hcollision current ha.entry (hcurrent.digest.symm.trans ha.digest)
    have hentered : Entered p (p.entryOf a.frame expiresAt) := entered (es ++ [a]) hafter
    obtain ⟨t, t', ht, ht', hiff⟩ := notEarlier_iff hcurrent hentered hcanonical
    exact ⟨current, _, t, t', ha.entry, hafter, rfl, ht, ht', hiff⟩

/-! ### Two heartbeats -/

def heartbeat (lastSeen : String) : Announce where
  frame := [("nid", .str "urn:nps:node:api.test:a"), ("timestamp", .str "2026-07-29T12:00:00Z"),
    ("last_seen", .str lastSeen), ("ttl", .num (.finite (.ofNat 120))),
    ("graph_seq", .num (.finite (.ofNat 1)))]
  names := show ["nid", "timestamp", "last_seen", "ttl", "graph_seq"].Nodup by decide
  signatureValid := true
  receivedAt := 1785326510000

def heartbeatProfile : NdpRegistryProfile where
  dateParse := fun
    | "2026-07-29T12:00:00Z" => some 1785326400000
    | "2026-07-29T12:01:00Z" => some 1785326460000
    | "2026-07-29T12:01:20Z" => some 1785326480000
    | "2026-07-29T12:01:40Z" => some 1785326500000
    | _ => none
  sha256 text :=
    if text = "\x7b\"graph_seq\":1,\"heartbeat_interval_ms\":60000,\"nid\":\"urn:nps:node:api.test:a\"," ++
        "\"timestamp\":\"2026-07-29T12:00:00Z\",\"ttl\":120\x7d" then
      "b9c12548595797bf52ece0926d516c6afd6470d1ff2a6ea12be458f8908e9178"
    else ""

/-- The node is announced, and seen twice after that. -/
def announced : Announce := heartbeat "2026-07-29T12:01:00Z"
def seenEarly : Announce := heartbeat "2026-07-29T12:01:20Z"
def seenLate : Announce := heartbeat "2026-07-29T12:01:40Z"

theorem heartbeats_evaluated :
    ((heartbeatProfile.applyAnnounce (heartbeatProfile.after [announced]) seenEarly).1.decision = .refreshed ∧
      (heartbeatProfile.applyAnnounce (heartbeatProfile.after [announced]) seenLate).1.decision = .refreshed ∧
      (heartbeatProfile.applyAnnounce (heartbeatProfile.after [announced, seenLate]) seenEarly).1.decision =
        .refreshed) ∧
    ((heartbeatProfile.after [announced, seenLate]).entries.get "urn:nps:node:api.test:a").map
      RegistryEntry.expiresAt = some 1785326620000 ∧
    ((heartbeatProfile.after [announced, seenLate, seenEarly]).entries.get "urn:nps:node:api.test:a").map
      RegistryEntry.expiresAt = some 1785326600000 := by decide +kernel

theorem isRefresh_early : heartbeatProfile.IsRefresh (heartbeatProfile.after [announced]) seenEarly
    "urn:nps:node:api.test:a" := ⟨rfl, heartbeats_evaluated.1.1⟩

theorem isRefresh_late : heartbeatProfile.IsRefresh (heartbeatProfile.after [announced]) seenLate
    "urn:nps:node:api.test:a" := ⟨rfl, heartbeats_evaluated.1.2.1⟩

/-- The refresh of the node that was seen early, delivered late, takes the deadline back by 20 seconds. -/
theorem late_delivery_moves_back : ¬ ∀ (p : NdpRegistryProfile) (es : List Announce) (nid : String),
    (∀ a b, p.IsRefresh (p.after es) a nid → p.IsRefresh (p.after es) b nid →
      (p.after (es ++ [a, b])).entries.get nid = (p.after (es ++ [b, a])).entries.get nid) ∧
    ∀ a current entry, p.IsRefresh (p.after es) a nid → (p.after es).entries.get nid = some current →
      (p.after (es ++ [a])).entries.get nid = some entry → NotEarlier p current entry := by
  intro h
  obtain ⟨current, hcurrent, hbefore⟩ := Option.map_eq_some_iff.1 heartbeats_evaluated.2.1
  obtain ⟨entry, hentry, hafter⟩ := Option.map_eq_some_iff.1 heartbeats_evaluated.2.2
  have hle := ((h heartbeatProfile [announced, seenLate] "urn:nps:node:api.test:a").2 seenEarly current entry
    ⟨rfl, heartbeats_evaluated.1.2.2⟩ hcurrent hentry).1
  rw [hbefore, hafter] at hle
  exact absurd hle (by decide)

/-- The two refreshes of the node leave different entries. -/
theorem heartbeats_disagree :
    (heartbeatProfile.after ([announced] ++ [seenEarly, seenLate])).entries.get "urn:nps:node:api.test:a" ≠
      (heartbeatProfile.after ([announced] ++ [seenLate, seenEarly])).entries.get
        "urn:nps:node:api.test:a" := by
  intro h
  have hframe := (((liveness_refreshes heartbeatProfile [announced]).1 seenEarly seenLate _ isRefresh_early
    isRefresh_late).2.1 h)
  have hseen : JsMap.find "last_seen" seenEarly.frame = JsMap.find "last_seen" seenLate.frame := by rw [hframe]
  simp [seenEarly, seenLate, heartbeat, JsMap.find] at hseen

end NpsSdk.Ndp
