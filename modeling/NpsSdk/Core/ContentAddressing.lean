import Mathlib.Data.List.Flatten
import NpsSdk.Core.AnchorCache

/-!
# What the cache of anchor frames promises

What can be read under an id is what was set last under it.  So an id stands for one schema, and for the schema that it
is computed from, exactly if every frame that is kept bears the id of its schema.
-/

namespace NpsSdk.Core.AnchorFrameCache

open NpsSdk.Lib

variable (host : Host)

/-- **The cache is addressed by content**, over some calls: a frame that can be read under an id that begins with
`sha256:` has the schema that the id is computed from, and the schemas that can be read under an id at two times,
with no invalidation of it in between, are the same. -/
structure Addressed (calls : List Call) : Prop where
  content (pre post : List Call) (heq : calls = pre ++ post) (id : String) (now : ℚ)
    (hid : startsWith id "sha256:" = true) (hclock : Clocked (pre ++ [.get id now])) {frame : AnchorFrame}
    (hget : ((after host pre).get id now).1 = some frame) : computeAnchorId host frame.schema = id
  constant (pre mid post : List Call) (heq : calls = pre ++ (mid ++ post)) (id : String) (now later : ℚ)
    (hmid : .invalidate id ∉ mid) (hclock : Clocked (pre ++ .get id now :: (mid ++ [.get id later])))
    {frame frame' : AnchorFrame} (hget : ((after host pre).get id now).1 = some frame)
    (hget' : ((after host (pre ++ mid)).get id later).1 = some frame') : frame.schema = frame'.schema

structure Truthful (last : String → Option FrameSchema) (frame : AnchorFrame) : Prop where
  computed : computeAnchorId host frame.schema = idOf host frame
  repeated (schema : FrameSchema) (h : last (idOf host frame) = some schema) : frame.schema = schema

def AllTruthful (calls : List Call) : Prop :=
  ∀ pre frame now later post, calls = pre ++ .set frame now later :: post →
    (after host pre).Kept host frame now → Truthful host (lastSet host pre) frame

/-! ### What a call does -/

variable {host} {c c' : AnchorFrameCache} {frame : AnchorFrame} {id : String} {now later : ℚ} {call : Call}
  {pre mid post calls : List Call} {e : Entry}

theorem startsWith_idOf (frame : AnchorFrame) : startsWith (idOf host frame) "sha256:" = true := by
  unfold idOf
  split
  · assumption
  · unfold computeAnchorId
    simp [startsWith]

theorem get_eq (hget : c.store.get id = some e) : (c.get id now).1 = if e.expiresAt < now then none else some e.frame := by
  unfold get
  rw [hget]
  dsimp only
  split <;> rfl

theorem get_eq_some (h : (c.get id now).1 = some frame) :
    ∃ e, c.store.get id = some e ∧ e.frame = frame ∧ now ≤ e.expiresAt := by
  cases hget : c.store.get id with
  | none =>
    rw [get, hget] at h
    cases h
  | some e =>
    rw [get_eq hget] at h
    split at h
    · cases h
    · rename_i hlive
      exact ⟨e, rfl, Option.some.inj h, not_lt.1 hlive⟩

theorem step_set (h : c.poisoned host frame now = false) : step host c (.set frame now later) =
    { c with store := c.store.set (idOf host frame) ⟨frame, later + frame.ttlMs⟩ } := by
  simp [step, set, h]

theorem step_poisoned (h : c.poisoned host frame now = true) : step host c (.set frame now later) = c := by
  simp [step, set, h]

theorem noteSchema_set (last : String → Option FrameSchema) : noteSchema host last c (.set frame now later) =
    if c.Kept host frame now then Function.update last (idOf host frame) (some frame.schema) else last := rfl

theorem noteSchema_invalidate (last : String → Option FrameSchema) :
    noteSchema host last c (.invalidate id) = Function.update last id none := rfl

/-- **What a call does** to the entry of an id and to what is noted of it: nothing, or the entry goes, or a frame is
set. -/
theorem step_cases (host : Host) (last : String → Option FrameSchema) (c : AnchorFrameCache) (call : Call)
    (id : String) :
    ((step host c call).store.get id = c.store.get id ∧ noteSchema host last c call id = last id) ∨
      ((step host c call).store.get id = none ∧
        (noteSchema host last c call id = last id ∨ call = .invalidate id)) ∨
      ∃ frame now later, call = .set frame now later ∧ c.poisoned host frame now = false ∧ idOf host frame = id ∧
        (step host c call).store.get id = some ⟨frame, later + frame.ttlMs⟩ ∧
        noteSchema host last c call id = if 0 ≤ frame.ttlMs then some frame.schema else last id := by
  cases call with
  | set frame now later =>
    cases h : c.poisoned host frame now with
    | true => exact .inl ⟨by rw [step_poisoned h], by simp [noteSchema, Kept, h]⟩
    | false =>
      rw [step_set h]
      by_cases hid : id = idOf host frame
      · subst hid
        refine .inr (.inr ⟨frame, now, later, rfl, h, rfl, JsMap.get_set_self _ _ _, ?_⟩)
        by_cases hpos : 0 ≤ frame.ttlMs <;> simp [noteSchema, Kept, h, hpos]
      · refine .inl ⟨JsMap.get_set_ne _ _ hid, ?_⟩
        rw [noteSchema_set]
        split
        · exact Function.update_of_ne hid _ _
        · rfl
  | get anchorId now =>
    unfold step get
    dsimp only
    split
    · exact .inl ⟨rfl, rfl⟩
    · split
      · dsimp only
        rw [JsMap.get_delete]
        split
        · exact .inr (.inl ⟨rfl, .inl rfl⟩)
        · exact .inl ⟨rfl, rfl⟩
      · exact .inl ⟨rfl, rfl⟩
  | invalidate anchorId =>
    unfold step invalidate
    dsimp only
    rw [JsMap.get_delete]
    split
    · rename_i hid
      exact .inr (.inl ⟨rfl, .inr (by rw [hid])⟩)
    · rename_i hid
      exact .inl ⟨rfl, Function.update_of_ne hid _ _⟩

theorem after_snoc : after host (pre ++ [call]) = step host (after host pre) call := run_snoc

theorem lastSet_snoc : lastSet host (pre ++ [call]) = noteSchema host (lastSet host pre) (after host pre) call :=
  noted_snoc

/-! ### The clock -/

theorem readings_append (pre post : List Call) : readings (pre ++ post) = readings pre ++ readings post := by
  simp [readings]

theorem Clocked.sublist (h : Clocked calls) (hsub : pre.Sublist calls) : Clocked pre :=
  List.Pairwise.sublist (hsub.flatMap _) h

theorem Clocked.probe (h : Clocked (pre ++ .set frame now later :: post)) (id : String) :
    Clocked (pre ++ .set frame now later :: .get id later :: post) := by
  unfold Clocked at *
  simp only [readings, List.flatMap_append, List.flatMap_cons, Call.readings, List.cons_append, List.nil_append,
    List.pairwise_append, List.pairwise_cons, List.mem_cons] at *
  grind

/-! ### What is noted of an id -/

variable (host) in
def Known (pre : List Call) (id : String) (e : Entry) : Prop :=
  (∃ r ∈ readings pre, e.expiresAt < r) ∨
    lastSet host pre id = some e.frame.schema ∧ computeAnchorId host e.frame.schema = id

/-- **What is stored is known**, while all frames that are kept are truthful. -/
theorem known (h : AllTruthful host calls) (heq : calls = pre ++ post) (hget : (after host pre).store.get id = some e) :
    Known host pre id e := by
  induction pre using List.reverseRecOn generalizing post e with
  | nil => cases hget
  | append_singleton pre call ih =>
    rw [List.append_assoc] at heq
    rw [after_snoc] at hget
    rcases step_cases host (lastSet host pre) (after host pre) call id with
      ⟨hstore, hnote⟩ | ⟨hstore, -⟩ | ⟨frame, now, later, rfl, hok, hid, hstore, hnote⟩
    · rw [hstore] at hget
      rcases ih heq hget with ⟨r, hr, hlt⟩ | ⟨hlast, hcomputed⟩
      · exact .inl ⟨r, by rw [readings_append]; exact List.mem_append_left _ hr, hlt⟩
      · exact .inr ⟨by rw [lastSet_snoc, hnote, hlast], hcomputed⟩
    · rw [hstore] at hget
      cases hget
    · rw [hstore] at hget
      obtain rfl := Option.some.inj hget
      by_cases hpos : 0 ≤ frame.ttlMs
      · have htruthful := h pre frame now later post heq ⟨hok, hpos⟩
        refine .inr ⟨?_, htruthful.computed.trans hid⟩
        rw [lastSet_snoc, hnote, if_pos hpos]
      · -- a time to live below zero ends before the last reading of the call
        refine .inl ⟨later, by simp [readings, Call.readings], ?_⟩
        dsimp only
        linarith

theorem known_of_get (h : AllTruthful host calls) (heq : calls = pre ++ post)
    (hclock : Clocked (pre ++ [.get id now])) (hget : ((after host pre).get id now).1 = some frame) :
    lastSet host pre id = some frame.schema ∧ computeAnchorId host frame.schema = id := by
  obtain ⟨e, hstored, rfl, hlive⟩ := get_eq_some hget
  rcases known h heq hstored with ⟨r, hr, hlt⟩ | hknown
  · unfold Clocked at hclock
    rw [readings_append] at hclock
    have hle : r ≤ now := (List.pairwise_append.1 hclock).2.2 r hr now (by simp [readings, Call.readings])
    linarith
  · exact hknown

theorem lastSet_constant (h : AllTruthful host calls) (heq : calls = pre ++ (mid ++ post))
    (hmid : .invalidate id ∉ mid) {schema : FrameSchema} (hlast : lastSet host pre id = some schema) :
    lastSet host (pre ++ mid) id = some schema := by
  induction mid using List.reverseRecOn generalizing post with
  | nil => rwa [List.append_nil]
  | append_singleton mid call ih =>
    have hcall : call ≠ .invalidate id := fun h => hmid (by simp [h])
    have hpre : calls = pre ++ (mid ++ call :: post) := by simp [heq]
    have hbefore : lastSet host (pre ++ mid) id = some schema := ih hpre fun h => hmid (List.mem_append_left _ h)
    rw [← List.append_assoc, lastSet_snoc]
    rcases step_cases host (lastSet host (pre ++ mid)) (after host (pre ++ mid)) call id with
      ⟨-, hnote⟩ | ⟨-, hnote | hinvalidated⟩ | ⟨frame, now, later, rfl, hok, hid, -, hnote⟩
    · rw [hnote, hbefore]
    · rw [hnote, hbefore]
    · exact absurd hinvalidated hcall
    · rw [hnote]
      split
      · rename_i hpos
        have htruthful := h (pre ++ mid) frame now later post (by simp [heq]) ⟨hok, hpos⟩
        rw [htruthful.repeated schema (by rw [hid, hbefore])]
      · exact hbefore

theorem get_of_kept (h : (after host pre).Kept host frame now) (later : ℚ) :
    ((after host (pre ++ [.set frame now later])).get (idOf host frame) later).1 = some frame := by
  have hstored : (after host (pre ++ [.set frame now later])).store.get (idOf host frame) =
      some ⟨frame, later + frame.ttlMs⟩ := by
    rw [after_snoc, step_set h.1]
    exact JsMap.get_set_self _ _ _
  rw [get_eq hstored, if_neg]
  have hpos := h.2
  dsimp only
  linarith

/-- What was set last for an id was kept at some time, and the id has not been invalidated since. -/
theorem kept_of_lastSet {schema : FrameSchema} (h : lastSet host pre id = some schema) :
    ∃ before frame now later mid, pre = before ++ .set frame now later :: mid ∧
      (after host before).Kept host frame now ∧ idOf host frame = id ∧ frame.schema = schema ∧
      .invalidate id ∉ mid := by
  induction pre using List.reverseRecOn with
  | nil => cases h
  | append_singleton pre call ih =>
    rw [lastSet_snoc] at h
    by_cases hcall : call = .invalidate id
    · rw [hcall, noteSchema_invalidate, Function.update_self] at h
      cases h
    have hearlier (hlast : lastSet host pre id = some schema) :
        ∃ before frame now later mid, pre ++ [call] = before ++ .set frame now later :: mid ∧
          (after host before).Kept host frame now ∧ idOf host frame = id ∧ frame.schema = schema ∧
          .invalidate id ∉ mid := by
      obtain ⟨before, frame, now, later, mid, rfl, hkept, hid, hschema, hmid⟩ := ih hlast
      refine ⟨before, frame, now, later, mid ++ [call], by simp, hkept, hid, hschema, ?_⟩
      simp [hmid, Ne.symm hcall]
    rcases step_cases host (lastSet host pre) (after host pre) call id with
      ⟨-, hnote⟩ | ⟨-, hnote | hinvalidated⟩ | ⟨frame, now, later, rfl, hok, hid, -, hnote⟩
    · exact hearlier (hnote ▸ h)
    · exact hearlier (hnote ▸ h)
    · exact absurd hinvalidated hcall
    · rw [hnote] at h
      split at h
      · rename_i hpos
        exact ⟨pre, frame, now, later, [], rfl, ⟨hok, hpos⟩, hid, Option.some.inj h, nofun⟩
      · exact hearlier h

/-- **The cache is addressed by content** exactly if all frames that are kept are truthful. -/
theorem addressed_iff (host : Host) (calls : List Call) (hclock : Clocked calls) :
    Addressed host calls ↔ AllTruthful host calls := by
  constructor
  · rintro h pre frame now later post rfl hkept
    refine ⟨?_, fun schema hlast => ?_⟩
    · refine h.content (pre ++ [.set frame now later]) post (by simp) (idOf host frame) later (startsWith_idOf _) ?_
        (get_of_kept hkept later)
      exact (hclock.probe (idOf host frame)).sublist (by simp)
    · obtain ⟨before, frame', now', later', mid, rfl, hkept', hid, rfl, hmid⟩ := kept_of_lastSet hlast
      refine (h.constant (before ++ [.set frame' now' later']) (mid ++ [.set frame now later]) post (by simp)
        (idOf host frame) later' later ?_ ?_ ?_ ?_).symm
      · simp [hmid]
      · -- the frame before is read when it is set, and the frame now likewise
        have hlast : Clocked (before ++ .set frame' now' later' ::
            (mid ++ .set frame now later :: .get (idOf host frame) later :: post)) := by
          simpa using hclock.probe (idOf host frame)
        exact (hlast.probe (idOf host frame)).sublist (by simp)
      · rw [← hid]
        exact get_of_kept hkept' later'
      · have hread := get_of_kept hkept later
        simpa using hread
  · intro h
    refine ⟨?_, ?_⟩
    · intro pre post heq id now _ hclock' frame hget
      exact (known_of_get h heq hclock' hget).2
    · intro pre mid post heq id now later hmid hclock' frame frame' hget hget'
      have hfirst : Clocked (pre ++ [.get id now]) := hclock'.sublist (by simp)
      have hsecond : Clocked (pre ++ mid ++ [.get id later]) := hclock'.sublist (by simp)
      have hlast := lastSet_constant h heq hmid (known_of_get h heq hfirst hget).1
      rw [(known_of_get h (by rw [heq, List.append_assoc]) hsecond hget').1] at hlast
      exact (Option.some.inj hlast).symm

/-- The digests of two schemas. -/
def sampleHost : Host where
  localeCompare := compare
  sha256 text :=
    if text = "[]".toList then "4f53cda18c2baa0c0354bb5f9a3ecbe5ed12ab4d8e11ba873c2f11161202b945"
    else "ff82da9898ce79964ee5be2b0605bde953804ce384ddba3d1ddb4595e52e914c"

def emptySchema : FrameSchema := ⟨[]⟩

def oneField : FrameSchema := ⟨[{ name := "a", type := "string" }]⟩

def emptyId : String := "sha256:4f53cda18c2baa0c0354bb5f9a3ecbe5ed12ab4d8e11ba873c2f11161202b945"

/-- A frame with the id of the empty schema and another schema is believed. -/
theorem forged_not_addressed :
    Clocked [.set ⟨emptyId, oneField, some 1⟩ 0 0] ∧
      ¬ Addressed sampleHost [.set ⟨emptyId, oneField, some 1⟩ 0 0] := by
  refine ⟨by decide, fun h => ?_⟩
  have hkept : (after sampleHost []).Kept sampleHost ⟨emptyId, oneField, some 1⟩ 0 := by decide +kernel
  have hid : computeAnchorId sampleHost oneField = idOf sampleHost ⟨emptyId, oneField, some 1⟩ :=
    h.content [.set ⟨emptyId, oneField, some 1⟩ 0 0] [] rfl _ 0 (startsWith_idOf _) (by decide)
      (get_of_kept hkept 0)
  revert hid
  decide +kernel

/-- A frame that bears the id of its schema, and one that bears none. -/
theorem honest_addressed :
    Addressed sampleHost [.set ⟨emptyId, emptySchema, none⟩ 0 0, .set ⟨"", oneField, some 1⟩ 5 6] := by
  refine (addressed_iff sampleHost _ (by decide)).2 ?_
  intro pre frame now later post heq _
  rcases pre with _ | ⟨first, _ | ⟨second, pre⟩⟩
  · cases heq
    exact ⟨by decide +kernel, fun _ hlast => by cases hlast⟩
  · cases heq
    have hnone : lastSet sampleHost [.set ⟨emptyId, emptySchema, none⟩ 0 0] (idOf sampleHost ⟨"", oneField, some 1⟩) =
        none := by decide +kernel
    refine ⟨by decide +kernel, fun _ hlast => ?_⟩
    rw [hnone] at hlast
    cases hlast
  · simp at heq

end NpsSdk.Core.AnchorFrameCache
