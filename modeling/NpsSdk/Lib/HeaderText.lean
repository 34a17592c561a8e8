import Mathlib.Data.List.DropRight
import NpsSdk.Lib.JsString

/-!
# Texts in headers

The value of a header, and the lists of texts that a header holds between commas.  A list of entries, each
without a comma and without space around it, is read as it was written.
-/

namespace NpsSdk.Lib

/-! ### Space around a text -/

/-- A text without what a predicate holds of at its ends. -/
def strip (p : Char → Bool) (cs : List Char) : List Char := (cs.dropWhile p).rdropWhile p

theorem toList_trim (s : String) : (trim s).toList = strip isJsSpace s.toList := String.toList_ofList

/-- A text that neither begins nor ends with what a predicate holds of. -/
structure Trimmed (p : Char → Bool) (cs : List Char) : Prop where
  head {c : Char} (h : cs.head? = some c) : p c = false
  last {c : Char} (h : cs.getLast? = some c) : p c = false

section

variable {p q : Char → Bool} {a b cs : List Char}

theorem strip_sublist : (strip p cs).Sublist cs :=
  (List.rdropWhile_prefix p _).sublist.trans (List.dropWhile_sublist p)

theorem trimmed_strip : Trimmed p (strip p cs) where
  head := by
    intro c h
    obtain ⟨rest, hrest⟩ := List.rdropWhile_prefix p (cs.dropWhile p)
    have hhead : (cs.dropWhile p).head? = some c := by
      rw [← hrest, List.head?_append, show ((cs.dropWhile p).rdropWhile p).head? = some c from h]
      rfl
    have hnot := List.head?_dropWhile_not p cs
    rw [hhead] at hnot
    simpa using hnot
  last := by
    intro c h
    have hne : (cs.dropWhile p).rdropWhile p ≠ [] := by
      intro hnil
      unfold strip at h
      rw [hnil] at h
      cases h
    have hlast : ((cs.dropWhile p).rdropWhile p).getLast hne = c := by
      rw [List.getLast_eq_iff_getLast?_eq_some]
      exact h
    have hnot := List.rdropWhile_last_not p _ hne
    rw [hlast] at hnot
    simpa using hnot

theorem strip_of_trimmed (h : Trimmed p cs) : strip p cs = cs := by
  have hhead : cs.dropWhile p = cs := by
    cases cs with
    | nil => rfl
    | cons c cs => rw [List.dropWhile_cons, h.head rfl, if_neg Bool.false_ne_true]
  unfold strip
  rw [hhead, List.rdropWhile_eq_self_iff]
  intro hne hlast
  rw [h.last (List.getLast?_eq_some_getLast hne)] at hlast
  cases hlast

theorem Trimmed.mono (h : Trimmed p cs) (hpq : ∀ c, q c = true → p c = true) : Trimmed q cs where
  head hc := by
    have hp := h.head hc
    exact Bool.eq_false_iff.2 fun hq => by rw [hpq _ hq] at hp; cases hp
  last hc := by
    have hp := h.last hc
    exact Bool.eq_false_iff.2 fun hq => by rw [hpq _ hq] at hp; cases hp

theorem trimmed_of_forall (h : ∀ c ∈ cs, p c = false) : Trimmed p cs where
  head hc := h _ (List.mem_of_mem_head? hc)
  last hc := h _ (List.mem_of_getLast? hc)

theorem Trimmed.around (ha : Trimmed p a) (hb : Trimmed p b) (hane : a ≠ []) (hbne : b ≠ []) (mid : List Char) :
    Trimmed p (a ++ mid ++ b) where
  head {c} hc := by
    apply ha.head
    rw [List.append_assoc, List.head?_append_of_ne_nil _ hane] at hc
    exact hc
  last {c} hc := by
    apply hb.last
    rw [List.getLast?_append_of_ne_nil _ hbne] at hc
    exact hc

end

/-! ### The value of a header -/

/-- What is taken away around the value of a header. -/
def isHttpSpace (c : Char) : Bool := c = '\t' || c = '\n' || c = '\r' || c = ' '

/-- A byte that a header may hold. -/
def isHeaderChar (c : Char) : Bool := decide (c.toNat < 256) && c ≠ '\x00' && c ≠ '\n' && c ≠ '\r'

theorem isHeaderChar_of_visible {c : Char} (hlow : 0x20 ≤ c.toNat) (hhigh : c.toNat < 0x7f) : isHeaderChar c = true := by
  simp only [isHeaderChar, Bool.and_eq_true, decide_eq_true_eq]
  refine ⟨⟨⟨by omega, ?_⟩, ?_⟩, ?_⟩ <;>
  · rintro rfl
    revert hlow
    decide

structure HeaderValue where
  text : String
  legal : text.toList.all isHeaderChar = true

/-- The value that `headers.set` keeps; it throws where there is a character that no header holds. -/
def HeaderValue.of (value : String) : Except String HeaderValue :=
  let kept := String.ofList (strip isHttpSpace value.toList)
  if h : kept.toList.all isHeaderChar = true then .ok ⟨kept, h⟩ else .error "TypeError: invalid header value"

theorem isJsSpace_of_isHttpSpace {c : Char} (h : isHttpSpace c = true) : isJsSpace c = true := by
  simp only [isHttpSpace, Bool.or_eq_true, decide_eq_true_eq] at h
  obtain ((rfl | rfl) | rfl) | rfl := h <;> rfl

theorem HeaderValue.of_trimmed {value : String} (htrimmed : Trimmed isJsSpace value.toList)
    (hlegal : value.toList.all isHeaderChar = true) : HeaderValue.of value = .ok ⟨value, hlegal⟩ := by
  have hkept : String.ofList (strip isHttpSpace value.toList) = value := by
    rw [strip_of_trimmed (htrimmed.mono fun _ => isJsSpace_of_isHttpSpace), String.ofList_toList]
  unfold HeaderValue.of
  simp only [hkept, hlegal, dite_true]

theorem HeaderValue.exists_of_text (v : HeaderValue) : ∃ w, HeaderValue.of v.text = .ok w := by
  have hall : (String.ofList (strip isHttpSpace v.text.toList)).toList.all isHeaderChar = true := by
    rw [String.toList_ofList, List.all_eq_true]
    exact fun c hc => List.all_eq_true.1 v.legal c (strip_sublist.subset hc)
  unfold HeaderValue.of
  simp only [hall, dite_true]
  exact ⟨_, rfl⟩

/-! ### Lists -/

/-- The entries between the commas of a text. -/
def commaList (raw : String) : List String := ((split raw ',').map trim).filter (· ≠ "")

structure IsEntry (s : String) : Prop where
  ne_empty : s ≠ ""
  comma : ',' ∉ s.toList
  trimmed : Trimmed isJsSpace s.toList

theorem IsEntry.trim_eq {s : String} (h : IsEntry s) : trim s = s := by
  rw [← String.toList_inj, toList_trim, strip_of_trimmed h.trimmed]

theorem IsEntry.toList_ne_nil {s : String} (h : IsEntry s) : s.toList ≠ [] := by
  intro hnil
  exact h.ne_empty (String.toList_inj.1 hnil)

theorem of_mem_splitChars {sep : Char} {cs p : List Char} (h : p ∈ splitChars sep cs) : sep ∉ p ∧ p ⊆ cs := by
  induction cs generalizing p with
  | nil =>
    rw [splitChars, List.mem_singleton] at h
    subst h
    exact ⟨List.not_mem_nil, List.nil_subset _⟩
  | cons c cs ih =>
    rw [splitChars] at h
    split at h
    · rcases List.mem_cons.1 h with rfl | h
      · exact ⟨List.not_mem_nil, List.nil_subset _⟩
      · exact ⟨(ih h).1, List.subset_cons_of_subset c (ih h).2⟩
    · rename_i hc
      split at h
      · rw [List.mem_singleton] at h
        subst h
        exact ⟨by simpa using Ne.symm hc, by simp⟩
      · rename_i q qs heq
        rcases List.mem_cons.1 h with rfl | h
        · have hq := ih (by rw [heq]; exact List.mem_cons_self)
          refine ⟨?_, List.cons_subset_cons c hq.2⟩
          rw [List.mem_cons, not_or]
          exact ⟨Ne.symm hc, hq.1⟩
        · have hq := ih (by rw [heq]; exact List.mem_cons_of_mem q h)
          exact ⟨hq.1, List.subset_cons_of_subset c hq.2⟩

theorem exists_piece {raw s : String} (h : s ∈ commaList raw) :
    s ≠ "" ∧ ∃ p ∈ splitChars ',' raw.toList, s.toList = strip isJsSpace p := by
  obtain ⟨hmem, hne⟩ := List.mem_filter.1 h
  obtain ⟨t, ht, rfl⟩ := List.mem_map.1 hmem
  obtain ⟨p, hp, rfl⟩ := List.mem_map.1 ht
  exact ⟨of_decide_eq_true hne, p, hp, by rw [toList_trim, String.toList_ofList]⟩

theorem isEntry_of_mem_commaList {raw s : String} (h : s ∈ commaList raw) : IsEntry s := by
  obtain ⟨hne, p, hp, hs⟩ := exists_piece h
  refine ⟨hne, ?_, ?_⟩
  · rw [hs]
    exact fun hcomma => (of_mem_splitChars hp).1 (strip_sublist.subset hcomma)
  · rw [hs]
    exact trimmed_strip

theorem mem_of_mem_commaList {raw s : String} {c : Char} (h : s ∈ commaList raw) (hc : c ∈ s.toList) :
    c ∈ raw.toList := by
  obtain ⟨-, p, hp, hs⟩ := exists_piece h
  rw [hs] at hc
  exact (of_mem_splitChars hp).2 (strip_sublist.subset hc)

theorem toList_join_cons (s t : String) (entries : List String) :
    (join "," (s :: t :: entries)).toList = s.toList ++ ',' :: (join "," (t :: entries)).toList := by
  rw [join, String.toList_append, String.toList_append, List.append_assoc]
  rfl

variable {entries : List String}

theorem split_join {s : String} (h : ∀ t ∈ s :: entries, ',' ∉ t.toList) :
    split (join "," (s :: entries)) ',' = s :: entries := by
  induction entries generalizing s with
  | nil =>
    rw [join, split, splitChars_of_not_mem (h s List.mem_cons_self)]
    simp
  | cons t entries ih =>
    have hrest := ih fun u hu => h u (List.mem_cons_of_mem s hu)
    unfold split at hrest ⊢
    rw [toList_join_cons, splitChars_append (h s List.mem_cons_self), List.map_cons, hrest, String.ofList_toList]

/-- **What was joined is read.** -/
theorem commaList_join (h : ∀ s ∈ entries, IsEntry s) : commaList (join "," entries) = entries := by
  cases entries with
  | nil => rfl
  | cons s entries =>
    unfold commaList
    rw [split_join fun t ht => (h t ht).comma, List.map_congr_left fun t ht => (h t ht).trim_eq, List.map_id',
      List.filter_eq_self]
    exact fun t ht => decide_eq_true (h t ht).ne_empty

theorem trimmed_join (h : ∀ s ∈ entries, IsEntry s) : Trimmed isJsSpace (join "," entries).toList := by
  induction entries with
  | nil => exact ⟨nofun, nofun⟩
  | cons s entries ih =>
    cases entries with
    | nil => exact (h s List.mem_cons_self).trimmed
    | cons t entries =>
      have hrest := ih fun u hu => h u (List.mem_cons_of_mem s hu)
      have hne : (join "," (t :: entries)).toList ≠ [] := by
        cases entries with
        | nil => exact (h t (by simp)).toList_ne_nil
        | cons u entries =>
          rw [toList_join_cons]
          simp
      rw [toList_join_cons, List.append_cons]
      exact Trimmed.around (h s List.mem_cons_self).trimmed hrest (h s List.mem_cons_self).toList_ne_nil hne [',']

theorem mem_join {c : Char} (h : c ∈ (join "," entries).toList) : c = ',' ∨ ∃ s ∈ entries, c ∈ s.toList := by
  induction entries with
  | nil => exact absurd h List.not_mem_nil
  | cons s entries ih =>
    cases entries with
    | nil => exact .inr ⟨s, List.mem_cons_self, h⟩
    | cons t entries =>
      rw [toList_join_cons, List.mem_append, List.mem_cons] at h
      rcases h with h | rfl | h
      · exact .inr ⟨s, List.mem_cons_self, h⟩
      · exact .inl rfl
      · obtain rfl | ⟨u, hu, hc⟩ := ih h
        · exact .inl rfl
        · exact .inr ⟨u, List.mem_cons_of_mem s hu, hc⟩

theorem HeaderValue.of_join (h : ∀ s ∈ entries, IsEntry s)
    (hlegal : ∀ s ∈ entries, ∀ c ∈ s.toList, isHeaderChar c = true) :
    ∃ v, HeaderValue.of (join "," entries) = .ok v ∧ v.text = join "," entries := by
  have hall : (join "," entries).toList.all isHeaderChar = true := by
    rw [List.all_eq_true]
    intro c hc
    obtain rfl | ⟨s, hs, hcs⟩ := mem_join hc
    · decide
    · exact hlegal s hs c hcs
  exact ⟨_, HeaderValue.of_trimmed (trimmed_join h) hall, rfl⟩

end NpsSdk.Lib
