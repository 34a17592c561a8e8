import NpsSdk.Core.CanonicalJson
import NpsSdk.Lib.SortedJson
import NpsSdk.Nip.Ca.Signer
import NpsSdk.Nip.ReputationInclusion

/-!
# The serialisers of what is signed

Three functions write the text that is signed or hashed: `sortKeysStringify`, the `canonicalJson` of the CA
and the `sortedJson` of the reputation client.  All three rebuild the value, so they write one text.  That
text tells two values apart, and lists their keys in ascending order, just when the values do not differ
in members `__proto__` alone and the array indices among their keys ascend as texts as they do as numbers.
-/

namespace NpsSdk.Nip

open NpsSdk.Lib hiding sortKeys
open NpsSdk.Core.CanonicalJson (sortKeys sortKeysItems sortKeysMembers sortKeysStringify)
open NpsSdk.Nip.Reputation (sortedValue sortedItems sortedMembers sortedJson)

/-! ### Three functions that rebuild a value -/

theorem rebuilds_sortKeys : Json.Rebuilds sortKeys where
  null := by rw [sortKeys]; all_goals rintro _ ⟨⟩
  bool b := by rw [sortKeys]; all_goals rintro _ ⟨⟩
  num n := by rw [sortKeys]; all_goals rintro _ ⟨⟩
  str s := by rw [sortKeys]; all_goals rintro _ ⟨⟩
  arr items := by
    have hitems : sortKeysItems items = items.map sortKeys := by
      induction items with
      | nil => rfl
      | cons v vs ih => rw [sortKeysItems, ih, List.map_cons]
    rw [sortKeys, hitems]
  obj members hn := by
    have hmembers : sortKeysMembers members = members.map fun m => (m.1, sortKeys m.2) := by
      clear hn
      induction members with
      | nil => rfl
      | cons m ms ih => rw [sortKeysMembers, ih, List.map_cons]
    rw [sortKeys, hmembers, rebuilt, ← filter_sorted (by simpa [List.map_map, Function.comp_def] using hn)]

theorem rebuilds_canonicalise : Json.Rebuilds Ca.canonicalise where
  null := by rw [Ca.canonicalise]; all_goals rintro _ ⟨⟩
  bool b := by rw [Ca.canonicalise]; all_goals rintro _ ⟨⟩
  num n := by rw [Ca.canonicalise]; all_goals rintro _ ⟨⟩
  str s := by rw [Ca.canonicalise]; all_goals rintro _ ⟨⟩
  arr items := by
    have hitems : Ca.canonicaliseItems items = items.map Ca.canonicalise := by
      induction items with
      | nil => rfl
      | cons v vs ih => rw [Ca.canonicaliseItems, ih, List.map_cons]
    rw [Ca.canonicalise, hitems]
  obj members hn := by
    have hmembers : Ca.canonicaliseMembers members = members.map fun m => (m.1, Ca.canonicalise m.2) := by
      clear hn
      induction members with
      | nil => rfl
      | cons m ms ih => rw [Ca.canonicaliseMembers, ih, List.map_cons]
    rw [Ca.canonicalise, hmembers, rebuilt, ← filter_sorted (by simpa [List.map_map, Function.comp_def] using hn)]
    rfl

theorem rebuilds_sortedValue : Json.Rebuilds sortedValue where
  null := by rw [sortedValue]; all_goals rintro _ ⟨⟩
  bool b := by rw [sortedValue]; all_goals rintro _ ⟨⟩
  num n := by rw [sortedValue]; all_goals rintro _ ⟨⟩
  str s := by rw [sortedValue]; all_goals rintro _ ⟨⟩
  arr items := by
    have hitems : sortedItems items = items.map sortedValue := by
      induction items with
      | nil => rfl
      | cons v vs ih => rw [sortedItems, ih, List.map_cons]
    rw [sortedValue, hitems]
  obj members hn := by
    have hmembers : sortedMembers members = members.map fun m => (m.1, sortedValue m.2) := by
      clear hn
      induction members with
      | nil => rfl
      | cons m ms ih => rw [sortedMembers, ih, List.map_cons]
    rw [sortedValue, hmembers]
    rfl

variable {a b v : Json}

theorem written_sorted (hv : v.Proper) : sortKeysStringify v = String.ofList v.sorted.text ∧
    Ca.canonicalJson v = String.ofList v.sorted.text ∧ sortedJson v = String.ofList v.sorted.text := by
  refine ⟨?_, ?_, ?_⟩
  · rw [sortKeysStringify, rebuilds_sortKeys.eq_sorted hv]
  · rw [Ca.canonicalJson, rebuilds_canonicalise.eq_sorted hv]
  · rw [sortedJson, rebuilds_sortedValue.eq_sorted hv]

/-! ### Canonical texts -/

/-- The text of a value whose objects list their keys in ascending order. -/
def ListsAscending (text : String) : Prop := ∃ v : Json, text = String.ofList v.text ∧ v.Ascending

/-- What a serialiser is to do with two values: to write one text for both just when they are the same up
to the order of the members, and to list all keys in ascending order. -/
structure Canonical (write : Json → String) (a b : Json) : Prop where
  determines : write a = write b ↔ Json.Same a b
  left : ListsAscending (write a)
  right : ListsAscending (write b)

/-- The serialisers agree on a value. -/
def WrittenAlike (v : Json) : Prop := sortKeysStringify v = Ca.canonicalJson v ∧ Ca.canonicalJson v = sortedJson v

/-- All three serialisers are canonical for two values, and agree on them. -/
structure CanonicallyWritten (a b : Json) : Prop where
  sortKeys : Canonical sortKeysStringify a b
  canonicalise : Canonical Ca.canonicalJson a b
  sorted : Canonical sortedJson a b
  left : WrittenAlike a
  right : WrittenAlike b

theorem writtenAlike (hv : v.Proper) : WrittenAlike v := by
  obtain ⟨h1, h2, h3⟩ := written_sorted hv
  exact ⟨h1.trans h2.symm, h2.trans h3.symm⟩

theorem listsAscending_iff : ListsAscending (String.ofList v.sorted.text) ↔ v.IndicesAscend := by
  rw [← Json.ascending_sorted_iff]
  constructor
  · rintro ⟨w, htext, hw⟩
    rwa [Json.text_injective (String.ofList_inj.1 htext)]
  · exact fun h => ⟨v.sorted, rfl, h⟩

/-- A serialiser that writes the rebuilt value is canonical just when the indices ascend and the values do
not differ in members `__proto__` alone. -/
theorem canonical_iff {write : Json → String} (ha : a.Proper) (hb : b.Proper)
    (hwa : write a = String.ofList a.sorted.text) (hwb : write b = String.ofList b.sorted.text) :
    Canonical write a b ↔ a.IndicesAscend ∧ b.IndicesAscend ∧ (Json.SameClear a b → Json.Same a b) := by
  have hsame : write a = write b ↔ Json.SameClear a b := by
    rw [hwa, hwb, String.ofList_inj, Json.text_injective.eq_iff, Json.sorted_eq_iff ha hb]
  have hleft : ListsAscending (write a) ↔ a.IndicesAscend := by rw [hwa, listsAscending_iff]
  have hright : ListsAscending (write b) ↔ b.IndicesAscend := by rw [hwb, listsAscending_iff]
  constructor
  · rintro ⟨hdetermines, h1, h2⟩
    exact ⟨hleft.1 h1, hright.1 h2, fun h => hdetermines.1 (hsame.2 h)⟩
  · rintro ⟨h1, h2, h3⟩
    exact ⟨hsame.trans ⟨h3, Json.Same.clear⟩, hleft.2 h1, hright.2 h2⟩

/-- **Canonical JSON.**  The serialisers are canonical for two values just when the array indices among
their keys, outside the members `__proto__`, ascend as texts, and the values do not differ in members
`__proto__` alone. -/
theorem canonicallyWritten_iff (ha : a.Proper) (hb : b.Proper) :
    CanonicallyWritten a b ↔ a.IndicesAscend ∧ b.IndicesAscend ∧ (Json.SameClear a b → Json.Same a b) := by
  obtain ⟨ha1, ha2, ha3⟩ := written_sorted ha
  obtain ⟨hb1, hb2, hb3⟩ := written_sorted hb
  constructor
  · exact fun h => (canonical_iff ha hb ha1 hb1).1 h.sortKeys
  · intro h
    exact ⟨(canonical_iff ha hb ha1 hb1).2 h, (canonical_iff ha hb ha2 hb2).2 h, (canonical_iff ha hb ha3 hb3).2 h,
      writtenAlike ha, writtenAlike hb⟩

/-- An object whose keys are array indices that ascend as numbers and descend as texts. -/
def indexed : Json := .obj [("9", .bool true), ("10", .bool false)]

/-- An object with a member `__proto__` of its own. -/
def protoNamed : Json := .obj [("__proto__", .bool true)]

/-- The keys of `indexed` are not written in ascending order, and `protoNamed` is written as the empty
object is. -/
theorem not_canonicallyWritten :
    indexed.Proper ∧ protoNamed.Proper ∧ sortKeysStringify indexed = "\x7b\"9\":true,\"10\":false\x7d" ∧
      sortKeysStringify protoNamed = "\x7b\x7d" ∧
      ¬ CanonicallyWritten indexed indexed ∧ ¬ CanonicallyWritten protoNamed (.obj []) := by
  have hindexed : indexed.Proper := by simp [indexed, Json.Proper, Json.ProperMembers]
  have hproto : protoNamed.Proper := by simp [protoNamed, Json.Proper, Json.ProperMembers]
  have hempty : (Json.obj []).Proper := by simp [Json.Proper, Json.ProperMembers]
  refine ⟨hindexed, hproto, by decide, by decide, fun h => ?_, fun h => ?_⟩
  · have hascend : indexed.IndicesAscend := by
      rw [← listsAscending_iff, ← (written_sorted hindexed).1]
      exact h.sortKeys.left
    simp only [indexed, Json.IndicesAscend] at hascend
    have hle := (hascend.1 "9" (by simp) "10" (by simp) (by decide) (by decide) 9 (by decide)).1 10
      (by decide) (by decide)
    revert hle
    decide
  · have hsame := h.sortKeys.determines.1 (by decide) [.name "__proto__"]
    simp [protoNamed, Json.shapeAt, Json.child, JsMap.find] at hsame

/-- The members of `canonicallyWritten_iff`'s witness in the one order. -/
def forwards : Json := .obj [("a", .null), ("b", .arr [.bool true])]

/-- And in the other. -/
def backwards : Json := .obj [("b", .arr [.bool true]), ("a", .null)]

/-- Two orders of the same members are written alike. -/
theorem reordered_canonicallyWritten : CanonicallyWritten forwards backwards := by
  have ha : forwards.Proper := by simp [forwards, Json.Proper, Json.ProperMembers, Json.ProperItems]
  have hb : backwards.Proper := by simp [backwards, Json.Proper, Json.ProperMembers, Json.ProperItems]
  have hnames : ∀ k ∈ ["a", "b"], arrayIndex k = none := by decide
  refine (canonicallyWritten_iff ha hb).2 ⟨⟨?_, ?_⟩, ⟨?_, ?_⟩, fun _ path => ?_⟩
  · intro k hk l _ _ _ i hi
    rw [hnames k (by simpa using hk)] at hi
    cases hi
  · simp [Json.IndicesAscendMembers, Json.IndicesAscend, Json.IndicesAscendItems]
  · intro k hk l _ _ _ i hi
    rw [hnames k (by simpa [or_comm] using hk)] at hi
    cases hi
  · simp [Json.IndicesAscendMembers, Json.IndicesAscend, Json.IndicesAscendItems]
  · cases path with
    | nil => rfl
    | cons s path =>
      cases s with
      | name k =>
        simp only [Json.shapeAt, forwards, backwards, Json.child, JsMap.find]
        split_ifs with h1 h2
        · exact absurd (h1.trans h2.symm) (by decide)
        · rfl
        · rfl
        · rfl
      | index i => rfl

end NpsSdk.Nip
