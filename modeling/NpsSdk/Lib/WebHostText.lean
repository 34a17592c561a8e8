import NpsSdk.Lib.LowerCase
import NpsSdk.Lib.WebHost

/-!
# The texts of IP addresses

What a text check sees of an address: the octets of an IPv4 address, and of an IPv6 address its first group
and whether it is one of the two shortest texts.  A scheme is written in small letters.
-/

namespace NpsSdk.Lib

/-! ### Groups -/

/-- A character of a group: a digit, or a letter up to `f`. -/
def isGroupChar (c : Char) : Bool := c.isDigit || (decide ('a' ≤ c) && decide (c ≤ 'f'))

theorem hexDigit_inj {m n : ℕ} (hm : m < 16) (hn : n < 16) : Json.hexDigit m = Json.hexDigit n ↔ m = n := by
  have hall : ∀ m < 16, ∀ n < 16, Json.hexDigit m = Json.hexDigit n ↔ m = n := by decide
  exact hall m hm n hn

theorem isGroupChar_hexDigit {n : ℕ} (hn : n < 16) : isGroupChar (Json.hexDigit n) = true := by
  have hall : ∀ n < 16, isGroupChar (Json.hexDigit n) = true := by decide
  exact hall n hn

theorem isGroupChar_hexGroup {n : ℕ} (hn : n < 65536) {c : Char} (hc : c ∈ hexGroup n) : isGroupChar c = true := by
  unfold hexGroup at hc
  split at hc
  · simp only [List.mem_cons, List.not_mem_nil, or_false] at hc
    rw [hc]
    exact isGroupChar_hexDigit (by omega)
  · split at hc
    · simp only [List.mem_cons, List.not_mem_nil, or_false] at hc
      rcases hc with rfl | rfl <;> exact isGroupChar_hexDigit (by omega)
    · split at hc
      · simp only [List.mem_cons, List.not_mem_nil, or_false] at hc
        rcases hc with rfl | rfl | rfl <;> exact isGroupChar_hexDigit (by omega)
      · simp only [List.mem_cons, List.not_mem_nil, or_false] at hc
        rcases hc with rfl | rfl | rfl | rfl <;> exact isGroupChar_hexDigit (by omega)

theorem hexGroup_ne_nil (n : ℕ) : hexGroup n ≠ [] := by
  unfold hexGroup
  split_ifs <;> simp

theorem isGroupChar_facts {c : Char} (h : isGroupChar c = true) :
    c ≠ ':' ∧ c ≠ '.' ∧ c ≠ '[' ∧ c ≠ ']' ∧ c.toLower = c := by
  have hlow : c.toNat < 128 := by
    simp only [isGroupChar, Char.isDigit, Bool.or_eq_true, Bool.and_eq_true, decide_eq_true_eq] at h
    rcases h with ⟨-, h⟩ | ⟨-, h⟩
    · have h' : c.toNat ≤ '9'.toNat := h
      exact lt_of_le_of_lt h' (by decide)
    · have h' : c.toNat ≤ 'f'.toNat := h
      exact lt_of_le_of_lt h' (by decide)
  have hall : ∀ n < 128, isGroupChar (Char.ofNat n) = true → Char.ofNat n ≠ ':' ∧ Char.ofNat n ≠ '.' ∧
      Char.ofNat n ≠ '[' ∧ Char.ofNat n ≠ ']' ∧ (Char.ofNat n).toLower = Char.ofNat n := by decide
  have hc := hall c.toNat hlow
  rw [Char.ofNat_toNat] at hc
  exact hc h

/-- The group that is written with one `1`. -/
theorem hexGroup_eq_one {n : ℕ} (hn : n < 65536) : hexGroup n = ['1'] ↔ n = 1 := by
  constructor
  · intro h
    unfold hexGroup at h
    split_ifs at h with h1
    · have : Json.hexDigit n = Json.hexDigit 1 := (List.cons.inj h).1
      exact (hexDigit_inj h1 (by decide)).1 this
    all_goals simp at h
  · rintro rfl
    rfl

/-! What a group starts with, digit by digit. -/

section digits

variable {d e f g n : ℕ} (hd : 0 < d ∧ d < 16) (he : e < 16)

include hd he

theorem two_digits_isPrefixOf (hn : n < 65536) :
    [Json.hexDigit d, Json.hexDigit e].isPrefixOf (hexGroup n) = true ↔
      n = 16 * d + e ∨ n / 16 = 16 * d + e ∨ n / 256 = 16 * d + e := by
  unfold hexGroup
  split_ifs
  · simp [List.isPrefixOf]
    omega
  · simp (disch := omega) only [List.isPrefixOf, Bool.and_eq_true, beq_iff_eq, hexDigit_inj, and_true]
    omega
  · simp (disch := omega) only [List.isPrefixOf, Bool.and_eq_true, beq_iff_eq, hexDigit_inj, and_true]
    omega
  · simp (disch := omega) only [List.isPrefixOf, Bool.and_eq_true, beq_iff_eq, hexDigit_inj, and_true]
    omega

theorem three_digits_isPrefixOf (hf : f < 16) (hn : n < 65536) :
    [Json.hexDigit d, Json.hexDigit e, Json.hexDigit f].isPrefixOf (hexGroup n) = true ↔
      n = 256 * d + 16 * e + f ∨ n / 16 = 256 * d + 16 * e + f := by
  unfold hexGroup
  split_ifs
  · simp [List.isPrefixOf]
    omega
  · simp [List.isPrefixOf]
    omega
  · simp (disch := omega) only [List.isPrefixOf, Bool.and_eq_true, beq_iff_eq, hexDigit_inj, and_true]
    omega
  · simp (disch := omega) only [List.isPrefixOf, Bool.and_eq_true, beq_iff_eq, hexDigit_inj, and_true]
    omega

theorem four_digits_isPrefixOf (hf : f < 16) (hg : g < 16) (hn : n < 65536) :
    [Json.hexDigit d, Json.hexDigit e, Json.hexDigit f, Json.hexDigit g].isPrefixOf (hexGroup n) = true ↔
      n = 4096 * d + 256 * e + 16 * f + g := by
  unfold hexGroup
  split_ifs
  · simp [List.isPrefixOf]
    omega
  · simp [List.isPrefixOf]
    omega
  · simp [List.isPrefixOf]
    omega
  · simp (disch := omega) only [List.isPrefixOf, Bool.and_eq_true, beq_iff_eq, hexDigit_inj, and_true]
    omega

end digits

/-! ### Texts of groups -/

namespace Ipv6

theorem colonText_cons (g : ℕ) (gs : List ℕ) :
    colonText (g :: gs) = hexGroup g ++ if gs = [] then [] else ':' :: colonText gs := by
  cases gs with
  | nil => simp [colonText, List.intercalate]
  | cons g' gs => simp [colonText, List.intercalate]

theorem mem_colonText {gs : List ℕ} (hsmall : ∀ n ∈ gs, n < 65536) {c : Char} (hc : c ∈ colonText gs) :
    c = ':' ∨ isGroupChar c = true := by
  induction gs with
  | nil => simp [colonText, List.intercalate] at hc
  | cons g gs ih =>
    rw [colonText_cons, List.mem_append] at hc
    rcases hc with hc | hc
    · exact .inr (isGroupChar_hexGroup (hsmall g List.mem_cons_self) hc)
    · split at hc
      · cases hc
      · rcases List.mem_cons.1 hc with rfl | hc
        · exact .inl rfl
        · exact ih (fun n hn => hsmall n (List.mem_cons_of_mem g hn)) hc

theorem colonText_eq_nil {gs : List ℕ} : colonText gs = [] ↔ gs = [] := by
  cases gs with
  | nil => simp [colonText, List.intercalate]
  | cons g gs =>
    rw [colonText_cons]
    simp [hexGroup_ne_nil]

theorem colonText_ne_colon {g : ℕ} (hg : g < 65536) (gs : List ℕ) (more rest : List Char) :
    colonText (g :: gs) ++ more ≠ ':' :: rest := by
  intro h
  obtain ⟨c, cs, hc⟩ := List.exists_cons_of_ne_nil (hexGroup_ne_nil g)
  rw [colonText_cons, hc, List.append_assoc, List.cons_append] at h
  have hgroup : isGroupChar c = true := isGroupChar_hexGroup hg (by rw [hc]; exact List.mem_cons_self)
  exact (isGroupChar_facts hgroup).1 (List.cons.inj h).1

theorem colonText_eq_one {gs : List ℕ} (hsmall : ∀ n ∈ gs, n < 65536) : colonText gs = ['1'] ↔ gs = [1] := by
  constructor
  · intro h
    cases gs with
    | nil => simp [colonText, List.intercalate] at h
    | cons g gs =>
      have hg : g < 65536 := hsmall g List.mem_cons_self
      rw [colonText_cons] at h
      split at h
      · rename_i hnil
        rw [List.append_nil, hexGroup_eq_one hg] at h
        rw [h, hnil]
      · -- a colon is longer than the text
        have hlen := congrArg List.length h
        have hpos : 0 < (hexGroup g).length := List.length_pos_of_ne_nil (hexGroup_ne_nil g)
        simp only [List.length_append, List.length_cons, List.length_nil] at hlen
        have htail : 0 < (colonText gs).length := List.length_pos_of_ne_nil (mt colonText_eq_nil.1 ‹_›)
        omega
  · rintro rfl
    rfl

/-! ### Runs of zeros -/

theorem take_zeros (gs : List ℕ) : gs.take (zeros gs) = List.replicate (zeros gs) 0 := by
  induction gs with
  | nil => rfl
  | cons g gs ih =>
    unfold zeros at ih ⊢
    by_cases hg : g = 0
    · rw [List.takeWhile_cons_of_pos (by simpa using hg), List.length_cons, List.take_succ_cons, ih, hg]
      rfl
    · rw [List.takeWhile_cons_of_neg (by simpa using hg)]
      rfl

theorem foldl_longer_mem (runs : List (ℕ × ℕ)) (best : ℕ × ℕ) : runs.foldl longer best ∈ best :: runs := by
  induction runs generalizing best with
  | nil => exact List.mem_cons_self
  | cons run runs ih =>
    rw [List.foldl_cons]
    rcases List.mem_cons.1 (ih (longer best run)) with h | h
    · rw [h]
      unfold longer
      split_ifs <;> simp
    · exact List.mem_cons_of_mem _ (List.mem_cons_of_mem _ h)

theorem compressed_eq_some {gs : List ℕ} {i n : ℕ} (h : compressed gs = some (i, n)) :
    1 < n ∧ n = zeros (gs.drop i) := by
  unfold compressed at h
  dsimp only at h
  split_ifs at h with hlong
  rw [Option.some.injEq] at h
  rw [h] at hlong
  refine ⟨hlong, ?_⟩
  have hmem := foldl_longer_mem ((List.range gs.length).map fun i => (i, zeros (gs.drop i))) (0, 0)
  rw [h] at hmem
  rcases List.mem_cons.1 hmem with hzero | hmem
  · rw [Prod.mk.injEq] at hzero
    omega
  · obtain ⟨j, -, hj⟩ := List.mem_map.1 hmem
    rw [Prod.mk.injEq] at hj
    rw [← hj.1, hj.2]

/-! ### The text of an address -/

variable {x : Ipv6}

theorem groups_ne_nil (x : Ipv6) : x.groups ≠ [] := by
  intro h
  have := x.eight
  rw [h] at this
  cases this

theorem first_small (x : Ipv6) : x.first < 65536 := by
  unfold first
  cases hg : x.groups with
  | nil => exact absurd hg x.groups_ne_nil
  | cons g gs => exact x.small g (by rw [hg]; exact List.mem_cons_self)

theorem text_head (x : Ipv6) : (∃ rest, x.text = hexGroup x.first ++ ':' :: rest) ∨
    x.first = 0 ∧ ∃ rest, x.text = ':' :: ':' :: rest := by
  obtain ⟨g, gs, hg⟩ := List.exists_cons_of_ne_nil x.groups_ne_nil
  have hlen : gs.length = 7 := by
    have := x.eight
    rw [hg, List.length_cons] at this
    omega
  have hgs : gs ≠ [] := by
    rintro rfl
    cases hlen
  have hfirst : x.first = g := by rw [first, hg]; rfl
  unfold text
  split
  · rw [hg, colonText_cons, if_neg hgs, hfirst]
    exact .inl ⟨_, rfl⟩
  · rename_i i n hc
    obtain ⟨hlong, hn⟩ := compressed_eq_some hc
    rw [hg] at hn ⊢
    cases i with
    | zero =>
      right
      refine ⟨?_, _, rfl⟩
      have htake := take_zeros (g :: gs)
      rw [List.drop_zero] at hn
      rw [← hn] at htake
      obtain ⟨k, rfl⟩ : ∃ k, n = k + 1 := ⟨n - 1, by omega⟩
      rw [List.take_succ_cons, List.replicate_succ] at htake
      rw [hfirst]
      exact (List.cons.inj htake).1
    | succ i =>
      left
      rw [List.take_succ_cons, colonText_cons, hfirst, List.append_assoc]
      split
      · exact ⟨_, rfl⟩
      · exact ⟨_, rfl⟩

theorem mem_text {c : Char} (hc : c ∈ x.text) : c = ':' ∨ isGroupChar c = true := by
  unfold text at hc
  split at hc
  · exact mem_colonText x.small hc
  · rw [List.mem_append, List.mem_cons, List.mem_cons] at hc
    rcases hc with hc | hc | hc | hc
    · exact mem_colonText (fun n hn => x.small n (List.mem_of_mem_take hn)) hc
    · exact .inl hc
    · exact .inl hc
    · exact mem_colonText (fun n hn => x.small n (List.mem_of_mem_drop hn)) hc

theorem colon_mem_text (x : Ipv6) : ':' ∈ x.text := by
  rcases x.text_head with ⟨rest, h⟩ | ⟨-, rest, h⟩ <;> rw [h] <;> simp

theorem text_facts (x : Ipv6) : lowerAscii x.text = x.text ∧ '[' ∉ x.text ∧ ']' ∉ x.text ∧ '.' ∉ x.text := by
  refine ⟨?_, fun h => ?_, fun h => ?_, fun h => ?_⟩
  · rw [lowerAscii]
    conv_rhs => rw [← List.map_id x.text]
    refine List.map_congr_left fun c hc => ?_
    rcases mem_text hc with rfl | hc
    · rfl
    · exact (isGroupChar_facts hc).2.2.2.2
  all_goals exact (mem_text h).elim (absurd · (by decide)) fun h => absurd h (by decide)

theorem isPrefixOf_text {start : List Char} (hcolon : ':' ∉ start) (hzero : start.head? ≠ some '0')
    (hne : start ≠ []) : start.isPrefixOf x.text = start.isPrefixOf (hexGroup x.first) := by
  rw [Bool.eq_iff_iff, List.isPrefixOf_iff_prefix, List.isPrefixOf_iff_prefix]
  obtain ⟨c, cs, rfl⟩ := List.exists_cons_of_ne_nil hne
  rcases x.text_head with ⟨rest, h⟩ | ⟨h0, rest, h⟩
  · rw [h]
    constructor
    · intro hstart
      rcases List.prefix_or_prefix_of_prefix hstart (List.prefix_append _ _) with hshort | ⟨more, hlong⟩
      · exact hshort
      · -- what stands after the group is a colon
        rw [← hlong, List.prefix_append_right_inj] at hstart
        cases more with
        | nil =>
          rw [List.append_nil] at hlong
          exact ⟨[], (List.append_nil _).trans hlong.symm⟩
        | cons d ds =>
          rw [List.cons_prefix_cons] at hstart
          refine absurd ?_ hcolon
          rw [← hlong, hstart.1]
          simp
    · exact fun hstart => hstart.trans (List.prefix_append _ _)
  · rw [h, h0]
    constructor
    · intro hstart
      rw [List.cons_prefix_cons] at hstart
      exact absurd (by rw [hstart.1]; exact List.mem_cons_self) hcolon
    · intro hstart
      have hgroup : hexGroup 0 = ['0'] := rfl
      rw [hgroup, List.cons_prefix_cons] at hstart
      exact absurd (by rw [hstart.1]; rfl) hzero

theorem text_eq_colons {rest : List Char} (h : x.text = ':' :: ':' :: rest) :
    ∃ n, x.groups = List.replicate n 0 ++ x.groups.drop n ∧ colonText (x.groups.drop n) = rest := by
  obtain ⟨g, gs, hg⟩ := List.exists_cons_of_ne_nil x.groups_ne_nil
  have hsmall : g < 65536 := x.small g (by rw [hg]; exact List.mem_cons_self)
  unfold text at h
  split at h
  · rw [hg, ← List.append_nil (colonText _)] at h
    exact absurd h (colonText_ne_colon hsmall gs [] _)
  · rename_i i n hc
    obtain ⟨-, hn⟩ := compressed_eq_some hc
    cases i with
    | zero =>
      rw [List.drop_zero] at hn
      have hnil : colonText (x.groups.take 0) = [] := rfl
      rw [hnil, List.nil_append, List.cons.injEq, List.cons.injEq, Nat.zero_add] at h
      refine ⟨n, ?_, h.2.2⟩
      conv_lhs => rw [← List.take_append_drop n x.groups, hn, take_zeros, ← hn]
    | succ i =>
      rw [hg, List.take_succ_cons] at h
      exact absurd h (colonText_ne_colon hsmall _ _ _)

theorem text_eq_unspecified : x.text = "::".toList ↔ x.groups = [0, 0, 0, 0, 0, 0, 0, 0] := by
  constructor
  · intro h
    obtain ⟨n, hgroups, hrest⟩ := @text_eq_colons x [] h
    rw [colonText_eq_nil] at hrest
    have height := x.eight
    rw [hrest, List.append_nil] at hgroups
    rw [hgroups, List.length_replicate] at height
    rw [hgroups, height]
    rfl
  · intro h
    rw [text, h]
    rfl

theorem text_eq_loopback : x.text = "::1".toList ↔ x.groups = [0, 0, 0, 0, 0, 0, 0, 1] := by
  constructor
  · intro h
    obtain ⟨n, hgroups, hrest⟩ := @text_eq_colons x ['1'] h
    rw [colonText_eq_one fun m hm => x.small m (List.mem_of_mem_drop hm)] at hrest
    have height := x.eight
    rw [hrest] at hgroups
    rw [hgroups, List.length_append, List.length_replicate, List.length_singleton] at height
    rw [hgroups, show n = 7 by omega]
    rfl
  · intro h
    rw [text, h]
    rfl

end Ipv6

/-! ### Other schemes -/

theorem OtherScheme.lowerAscii_text (scheme : OtherScheme) : lowerAscii scheme.text.toList = scheme.text.toList := by
  rw [lowerAscii]
  conv_rhs => rw [← List.map_id scheme.text.toList]
  refine List.map_congr_left fun c hc => ?_
  rcases toLower_cases c with h | ⟨hA, hZ, -, -⟩
  · exact h
  · -- no capital letter is a character of a scheme
    have hlow : 'A'.toNat ≤ c.toNat := hA
    have hhigh : c.toNat ≤ 'Z'.toNat := hZ
    have hall : ∀ n < 128, 'A'.toNat ≤ n → n ≤ 'Z'.toNat → ¬ ('a' ≤ Char.ofNat n ∧ Char.ofNat n ≤ 'z' ∨
        (Char.ofNat n).isDigit = true ∨ Char.ofNat n = '+' ∨ Char.ofNat n = '-' ∨ Char.ofNat n = '.') := by
      decide
    have hno := hall c.toNat (lt_of_le_of_lt hhigh (by decide)) hlow hhigh
    rw [Char.ofNat_toNat] at hno
    exact absurd (scheme.chars c hc) hno

end NpsSdk.Lib
