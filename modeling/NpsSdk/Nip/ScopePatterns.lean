import NpsSdk.Lib.LowerCase
import NpsSdk.Nip.Verifier

/-!
# Scope patterns

When every path that one pattern of a scope matches is matched by another: `withinPattern` compares the
patterns only, and `boundedBy_of_within`, `within_of_boundedBy` relate it to the paths.
-/

namespace NpsSdk.Nip

open NpsSdk.Lib

def Covers (lower : String → String) (patterns : List String) (path : String) : Prop :=
  ∃ p ∈ patterns, nwpPathMatches lower p path = true

def BoundedBy (lower : String → String) (patterns group : List String) : Prop :=
  ∀ path, Covers lower patterns path → Covers lower group path

def scopePatterns (scope : Json) : List String :=
  match member scope "nodes" with
  | some (.arr nodes) => nodes.filterMap fun | .str p => some p | _ => none
  | _ => []

/-- What stands before the `/*` that a pattern ends with. -/
def wildcardPrefix (pattern : String) : Option String :=
  if "*/".toList.isPrefixOf pattern.toList.reverse then
    some (String.ofList (pattern.toList.take (pattern.toList.length - 2)))
  else none

/-- The pattern `g` is `*`, or it is `p`, or it matches `p` as a path; a pattern `p` that ends with `/*` is
matched without its `/*`, by a pattern that ends so too. -/
def withinPattern (lower : String → String) (g p : String) : Bool :=
  g == "*" || g == p || p != "*" && decide (KeepsLength p) &&
    match wildcardPrefix p with
    | none => nwpPathMatches lower g p
    | some pre => (wildcardPrefix g).isSome && nwpPathMatches lower g pre

def scopeWithin (lower : String → String) (group patterns : List String) : Bool :=
  patterns.all fun p => group.any fun g => withinPattern lower g p

/-! ### What a pattern matches -/

/-- The paths that a pattern with a `/*` matches. -/
def Under (lower : String → String) (pre path : String) : Prop :=
  (lower pre).toList <+: (lower path).toList ∧
    (utf16Length path = utf16Length pre ∨ (utf16 path)[utf16Length pre]? = some 0x2f)

variable {lower : String → String} {p g pre path : String}

theorem matches_wildcard (h : wildcardPrefix p = some pre) :
    nwpPathMatches lower p path = true ↔ Under lower pre path := by
  unfold wildcardPrefix at h
  split at h
  · rename_i hstar
    have hne : p ≠ "*" := by
      rintro rfl
      revert hstar
      decide
    rw [Option.some.injEq] at h
    simp only [nwpPathMatches, if_neg hne, if_pos hstar, h, Under]
    simp [startsWith]
  · cases h

theorem matches_exact (hne : p ≠ "*") (h : wildcardPrefix p = none) :
    nwpPathMatches lower p path = true ↔ lower p = lower path := by
  unfold wildcardPrefix at h
  split at h
  · cases h
  · rename_i hstar
    simp only [nwpPathMatches, if_neg hne, if_neg hstar, beq_iff_eq]

theorem isPrefix_of_wildcardPrefix (h : wildcardPrefix p = some pre) : pre.toList <+: p.toList := by
  unfold wildcardPrefix at h
  split at h
  · cases h
    simpa using List.take_prefix _ p.toList
  · cases h

theorem keepsLength_of_isPrefix (h : KeepsLength p) (hpre : pre.toList <+: p.toList) : KeepsLength pre :=
  ⟨fun hmem => h.1 (hpre.subset hmem), fun hmem => h.2 (hpre.subset hmem)⟩

theorem isPrefix_of_length_le {a b : String} {c : List Char} (ha : a.toList <+: c) (hb : b.toList <+: c)
    (hle : utf16Length a ≤ utf16Length b) : a.toList <+: b.toList := by
  rcases List.prefix_or_prefix_of_prefix ha hb with h | ⟨r, hr⟩
  · exact h
  · have hab : a = b ++ String.ofList r := by
      apply String.toList_inj.1
      simp [hr]
    cases r with
    | nil =>
      rw [List.append_nil] at hr
      exact ⟨[], by rw [List.append_nil, hr]⟩
    | cons c r =>
      rw [hab, utf16Length_append] at hle
      have hpos : 0 < utf16Length (String.ofList (c :: r)) := by
        simp only [utf16Length, String.toList_ofList, List.map_cons, List.sum_cons]
        split <;> omega
      omega

/-! ### Within is enough -/

theorem slash_of_isPrefix (hlower : LowerCasing lower) (hpre : KeepsLength pre)
    (hbegins : (lower pre).toList <+: (lower path).toList) {n : ℕ} (hn : (utf16 pre)[n]? = some 0x2f) :
    (utf16 path)[n]? = some 0x2f := by
  obtain ⟨x, y, rfl, rfl⟩ := (utf16_slash_iff pre n).1 hn
  obtain ⟨rest, hrest⟩ := hbegins
  have hsplit : (lower path).toList = (lower x).toList ++ '/' :: ((lower y).toList ++ rest) := by
    rw [← hrest, hlower.slash]
    simp
  obtain ⟨x', y', rfl, hx⟩ := hlower.exists_slash hsplit
  have hkeeps : KeepsLength x := keepsLength_of_isPrefix hpre ⟨'/' :: y.toList, by simp⟩
  exact (utf16_slash_iff _ _).2 ⟨x', y', rfl, hlower.length_eq hkeeps hx⟩

theorem Under.trans (hlower : LowerCasing lower) {a : String} (hpre : KeepsLength pre) (h : Under lower a pre)
    (hbegins : (lower pre).toList <+: (lower path).toList)
    (hend : utf16Length path = utf16Length pre ∨ (utf16 path)[utf16Length pre]? = some 0x2f) : Under lower a path := by
  refine ⟨h.1.trans hbegins, ?_⟩
  rcases h.2 with hlen | hslash
  · rwa [← hlen]
  · exact .inr (slash_of_isPrefix hlower hpre hbegins hslash)

/-- **What a pattern matches, a pattern that it is within matches.** -/
theorem matches_of_within (hlower : LowerCasing lower) (h : withinPattern lower g p = true)
    (hp : nwpPathMatches lower p path = true) : nwpPathMatches lower g path = true := by
  simp only [withinPattern, Bool.or_eq_true, Bool.and_eq_true, beq_iff_eq, bne_iff_ne, decide_eq_true_eq] at h
  rcases h with (rfl | rfl) | ⟨⟨hne, hkeeps⟩, h⟩
  · rfl
  · exact hp
  · cases hpre : wildcardPrefix p with
    | none =>
      rw [hpre] at h
      have heq : lower p = lower path := (matches_exact hne hpre).1 hp
      by_cases hstar : g = "*"
      · rw [hstar]
        rfl
      cases hg : wildcardPrefix g with
      | none =>
        have hgp : lower g = lower p := (matches_exact hstar hg).1 h
        exact (matches_exact hstar hg).2 (hgp.trans heq)
      | some a =>
        have hunder : Under lower a p := (matches_wildcard hg).1 h
        have hlen : utf16Length path = utf16Length p := hlower.length_eq hkeeps heq.symm
        exact (matches_wildcard hg).2
          (hunder.trans hlower hkeeps (heq ▸ List.prefix_refl _) (.inl hlen))
    | some pre =>
      rw [hpre] at h
      simp only [Bool.and_eq_true] at h
      obtain ⟨a, hg⟩ := Option.isSome_iff_exists.1 h.1
      have hunder : Under lower a pre := (matches_wildcard hg).1 h.2
      have hpath : Under lower pre path := (matches_wildcard hpre).1 hp
      have hpre' : KeepsLength pre := keepsLength_of_isPrefix hkeeps (isPrefix_of_wildcardPrefix hpre)
      exact (matches_wildcard hg).2 (hunder.trans hlower hpre' hpath.1 hpath.2)

/-! ### Within is needed -/

/-- A path of one letter. -/
def longPath (n : ℕ) : String := String.ofList (List.replicate n 'a')

theorem utf16Length_longPath (n : ℕ) : utf16Length (longPath n) = n := by
  simp [utf16Length, longPath]

theorem not_mem_longPath {c : Char} (hc : c ≠ 'a') (n : ℕ) : c ∉ (longPath n).toList := by
  simp [longPath, hc]

theorem exists_longer (texts : List String) : ∃ n, ∀ s ∈ texts, utf16Length s < n := by
  induction texts with
  | nil => exact ⟨0, by simp⟩
  | cons t texts ih =>
    obtain ⟨n, hn⟩ := ih
    refine ⟨n + utf16Length t + 1, ?_⟩
    intro s hs
    rcases List.mem_cons.1 hs with rfl | hs
    · omega
    · have := hn s hs
      omega

/-- A path that is longer than a pattern without `/*` is not matched by it. -/
theorem not_matches_longer (hlower : LowerCasing lower) (hstar : g ≠ "*") (hg : wildcardPrefix g = none)
    (hkeeps : KeepsLength g) (hpath : dottedI ∉ path.toList) (hlong : utf16Length g < utf16Length path) :
    ¬ nwpPathMatches lower g path = true := by
  intro h
  have heq : lower g = lower path := (matches_exact hstar hg).1 h
  have hlen : utf16Length g = utf16Length path := by
    rw [← hlower.length g hkeeps.1, heq, hlower.length path hpath]
  omega

/-- A longer path that a pattern with `/*` matches has a slash after the pattern's length. -/
theorem slash_of_longer {a : String} (hg : wildcardPrefix g = some a)
    (hlong : utf16Length g < utf16Length path) (h : nwpPathMatches lower g path = true) :
    (lower a).toList <+: (lower path).toList ∧ ∃ x y, path = x ++ "/" ++ y ∧ utf16Length x = utf16Length a := by
  obtain ⟨hbegins, hlen | hslash⟩ := (matches_wildcard hg).1 h
  · have hle := utf16Length_of_isPrefix (isPrefix_of_wildcardPrefix hg)
    omega
  · exact ⟨hbegins, (utf16_slash_iff path _).1 hslash⟩

/-- A pattern that matches a long path under `pre` matches `pre`. -/
theorem under_of_matches (hlower : LowerCasing lower) {a : String} {n : ℕ} (hg : wildcardPrefix g = some a)
    (hkeeps : KeepsLength g) (hpre : KeepsLength pre) (hlong : utf16Length g < n)
    (h : nwpPathMatches lower g (pre ++ "/" ++ longPath n) = true) : Under lower a pre := by
  have hlonger : utf16Length g < utf16Length (pre ++ "/" ++ longPath n) := by
    rw [utf16Length_append, utf16Length_longPath]
    omega
  obtain ⟨hbegins, x, y, heq, hx⟩ := slash_of_longer hg hlonger h
  have hlist : pre.toList ++ '/' :: (longPath n).toList = x.toList ++ '/' :: y.toList := by
    simpa using congrArg String.toList heq
  -- the slash is the one after `pre` or one of `pre`
  have hcases : x = pre ∨ ∃ z, pre = x ++ "/" ++ z := by
    rcases List.append_eq_append_iff.1 hlist with ⟨as, hxs, has⟩ | ⟨bs, hps, hbs⟩
    · cases as with
      | nil => exact .inl (String.toList_inj.1 (by simpa using hxs))
      | cons c as =>
        exfalso
        have htail := List.tail_eq_of_cons_eq has
        apply not_mem_longPath (show '/' ≠ 'a' by decide) n
        rw [htail]
        simp
    · cases bs with
      | nil => exact .inl (String.toList_inj.1 (by simpa using hps.symm))
      | cons c bs =>
        have hc : '/' = c := List.head_eq_of_cons_eq hbs
        refine .inr ⟨String.ofList bs, String.toList_inj.1 ?_⟩
        rw [hps, ← hc]
        simp
  have hle : utf16Length a ≤ utf16Length pre := by
    rcases hcases with rfl | ⟨z, rfl⟩
    · rw [hx]
    · rw [← hx, utf16Length_append, utf16Length_append]
      omega
  have ha : KeepsLength a := keepsLength_of_isPrefix hkeeps (isPrefix_of_wildcardPrefix hg)
  refine ⟨isPrefix_of_length_le hbegins ?_ ?_, ?_⟩
  · rw [hlower.slash]
    exact ⟨'/' :: (lower (longPath n)).toList, by simp⟩
  · rw [hlower.length a ha.1, hlower.length pre hpre.1]
    exact hle
  · rcases hcases with rfl | ⟨z, rfl⟩
    · exact .inl hx
    · exact .inr ((utf16_slash_iff _ _).2 ⟨x, z, rfl, hx⟩)

/-- **What a pattern matches is covered only where the pattern is within one of the others.** -/
theorem within_of_matches (hlower : LowerCasing lower) {group : List String} (hp : KeepsLength p)
    (hgroup : ∀ g ∈ group, KeepsLength g) (h : ∀ path, nwpPathMatches lower p path = true → Covers lower group path) :
    ∃ g ∈ group, withinPattern lower g p = true := by
  obtain ⟨n, hn⟩ := exists_longer group
  by_cases hstar : p = "*"
  · subst hstar
    obtain ⟨g, hg, hmatch⟩ := h (longPath n) rfl
    have hlong : utf16Length g < utf16Length (longPath n) := by
      rw [utf16Length_longPath]
      exact hn g hg
    refine ⟨g, hg, ?_⟩
    by_contra hwithin
    have hne : g ≠ "*" := by
      rintro rfl
      exact hwithin rfl
    cases hw : wildcardPrefix g with
    | none =>
      exact not_matches_longer hlower hne hw (hgroup g hg) (not_mem_longPath (by decide) n) hlong hmatch
    | some a =>
      obtain ⟨-, x, y, heq, -⟩ := slash_of_longer hw hlong hmatch
      apply not_mem_longPath (show '/' ≠ 'a' by decide) n
      rw [heq]
      simp
  · cases hpre : wildcardPrefix p with
    | none =>
      obtain ⟨g, hg, hmatch⟩ := h p ((matches_exact hstar hpre).2 rfl)
      refine ⟨g, hg, ?_⟩
      simp [withinPattern, hstar, hp, hpre, hmatch]
    | some pre =>
      have hkeeps : KeepsLength pre := keepsLength_of_isPrefix hp (isPrefix_of_wildcardPrefix hpre)
      have hunder : Under lower pre (pre ++ "/" ++ longPath n) := by
        refine ⟨?_, .inr ((utf16_slash_iff _ _).2 ⟨pre, longPath n, rfl, rfl⟩)⟩
        rw [hlower.slash]
        exact ⟨'/' :: (lower (longPath n)).toList, by simp⟩
      obtain ⟨g, hg, hmatch⟩ := h _ ((matches_wildcard hpre).2 hunder)
      refine ⟨g, hg, ?_⟩
      by_cases hne : g = "*"
      · simp [withinPattern, hne]
      cases hw : wildcardPrefix g with
      | none =>
        exfalso
        refine not_matches_longer hlower hne hw (hgroup g hg) ?_ ?_ hmatch
        · simp only [String.toList_append, List.mem_append, not_or]
          exact ⟨⟨hkeeps.1, by decide⟩, not_mem_longPath (by decide) n⟩
        · rw [utf16Length_append, utf16Length_longPath]
          have := hn g hg
          omega
      | some a =>
        have ha : Under lower a pre := under_of_matches hlower hw (hgroup g hg) hkeeps (hn g hg) hmatch
        have hmatch' : nwpPathMatches lower g pre = true := (matches_wildcard hw).2 ha
        simp [withinPattern, hstar, hp, hpre, hw, hmatch']

/-! ### Lists of patterns -/

variable {group patterns : List String}

theorem boundedBy_of_within (hlower : LowerCasing lower) (h : scopeWithin lower group patterns = true) :
    BoundedBy lower patterns group := by
  rintro path ⟨p, hp, hmatch⟩
  simp only [scopeWithin, List.all_eq_true, List.any_eq_true] at h
  obtain ⟨g, hg, hwithin⟩ := h p hp
  exact ⟨g, hg, matches_of_within hlower hwithin hmatch⟩

theorem within_of_boundedBy (hlower : LowerCasing lower) (hkeeps : ∀ p ∈ patterns ++ group, KeepsLength p)
    (h : BoundedBy lower patterns group) : scopeWithin lower group patterns = true := by
  simp only [scopeWithin, List.all_eq_true, List.any_eq_true]
  intro p hp
  refine within_of_matches hlower (hkeeps p (List.mem_append_left _ hp))
    (fun g hg => hkeeps g (List.mem_append_right _ hg)) ?_
  intro path hmatch
  exact h path ⟨p, hp, hmatch⟩

end NpsSdk.Nip
