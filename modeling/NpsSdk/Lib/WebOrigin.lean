import Mathlib.Data.List.DropRight
import NpsSdk.Lib.LowerCase
import NpsSdk.Lib.WebReader

/-!
# The origins of web addresses

Texts that start with the same characters, in either case, up to the end of an authority have the same
scheme, host and port, if hosts are read in either case.
-/

namespace NpsSdk.Lib.WebReader

open UrlHost (cleaned afterScheme afterUserinfo splitPort isPort isControlOrSpace isTabOrNewline)

/-! ### What is cleaned -/

section cleaning

variable {u v : List Char}

theorem cleaned_eq (cs : List Char) :
    cleaned cs = ((cs.dropWhile isControlOrSpace).rdropWhile isControlOrSpace).filter (!isTabOrNewline ·) := rfl

theorem rdropWhile_append {p : Char → Bool} (u v : List Char) : (u ++ v).rdropWhile p =
    if v.rdropWhile p = [] then u.rdropWhile p else u ++ v.rdropWhile p := by
  unfold List.rdropWhile
  rw [List.reverse_append, List.dropWhile_append]
  simp only [List.isEmpty_iff, List.reverse_eq_nil_iff]
  split_ifs
  · rfl
  · rw [List.reverse_append, List.reverse_reverse]

theorem cleaned_append (u v : List Char) : ∃ t, cleaned (u ++ v) = cleaned u ++ t := by
  rw [cleaned_eq, cleaned_eq, List.dropWhile_append]
  split_ifs with h
  · rw [List.isEmpty_iff.1 h]
    exact ⟨_, rfl⟩
  · rw [rdropWhile_append]
    split_ifs
    · exact ⟨[], (List.append_nil _).symm⟩
    · obtain ⟨w, hw⟩ := List.rdropWhile_prefix isControlOrSpace (u.dropWhile isControlOrSpace)
      conv => enter [1, t, 1, 2]; rw [← hw]
      rw [List.append_assoc, List.filter_append]
      exact ⟨_, rfl⟩

theorem cleaned_cons {cs : List Char} {c : Char} (hc : isControlOrSpace c = false)
    (h : cleaned cs = u ++ c :: v) : ∃ a b, cs = a ++ c :: b ∧ cleaned (a ++ [c]) = u ++ [c] := by
  obtain ⟨w, hw⟩ := List.rdropWhile_prefix isControlOrSpace (cs.dropWhile isControlOrSpace)
  rw [cleaned_eq, List.filter_eq_append_iff] at h
  obtain ⟨a, b, hab, rfl, hb⟩ := h
  obtain ⟨b1, b2, rfl, hb1, hkeep, -⟩ := List.filter_eq_cons_iff.1 hb
  have hcs : cs = (cs.takeWhile isControlOrSpace ++ a ++ b1) ++ c :: (b2 ++ w) := by
    conv_lhs => rw [← List.takeWhile_append_dropWhile (p := isControlOrSpace) (l := cs), ← hw, hab]
    simp
  have hdrop : (a ++ b1 ++ [c]).dropWhile isControlOrSpace = a ++ b1 ++ [c] := by
    have htwice := List.dropWhile_idempotent isControlOrSpace cs
    have hparts : cs.dropWhile isControlOrSpace = (a ++ b1 ++ [c]) ++ (b2 ++ w) := by
      rw [← hw, hab]
      simp
    rw [hparts, List.dropWhile_append, if_neg] at htwice
    · exact List.append_cancel_right htwice
    · rw [List.isEmpty_iff, List.dropWhile_eq_nil_iff]
      intro hall
      rw [hall c (by simp)] at hc
      cases hc
  have hend : (a ++ b1 ++ [c]).rdropWhile isControlOrSpace = a ++ b1 ++ [c] :=
    List.rdropWhile_concat_neg _ _ c (by rw [hc]; exact Bool.false_ne_true)
  have hone : [c].filter (!isTabOrNewline ·) = [c] := List.filter_cons_of_pos hkeep
  refine ⟨_, _, hcs, ?_⟩
  rw [cleaned_eq, List.append_assoc, List.append_assoc, List.dropWhile_append_of_pos fun c => List.mem_takeWhile_imp,
    ← List.append_assoc, hdrop, hend, List.filter_append, List.filter_append, List.filter_eq_nil_iff.2 hb1,
    List.append_nil, hone]

end cleaning

/-! ### Texts of one lower case -/

section lowering

variable {cs t : List Char}

theorem isControlOrSpace_lowerChar (c : Char) : isControlOrSpace (lowerChar c) = isControlOrSpace c :=
  congr_lowerChar (by decide) (by decide) c

theorem isTabOrNewline_lowerChar (c : Char) : isTabOrNewline (lowerChar c) = isTabOrNewline c :=
  congr_lowerChar (by decide) (by decide) c

theorem isSlash_lowerChar (c : Char) : isSlash (lowerChar c) = isSlash c :=
  congr_lowerChar (by decide) (by decide) c

theorem isEnd_lowerChar (c : Char) : isEnd (lowerChar c) = isEnd c :=
  congr_lowerChar (by decide) (by decide) c

theorem isDigit_lowerChar (c : Char) : (lowerChar c).isDigit = c.isDigit :=
  @congr_lowerChar _ Char.isDigit (by decide) (by decide) c

theorem map_lowerChar_idem (cs : List Char) : (cs.map lowerChar).map lowerChar = cs.map lowerChar := by
  rw [List.map_map]
  exact List.map_congr_left fun c _ => lowerChar_idem c

theorem cleaned_map (cs : List Char) : cleaned (cs.map lowerChar) = (cleaned cs).map lowerChar := by
  have hblank : isControlOrSpace ∘ lowerChar = isControlOrSpace := funext isControlOrSpace_lowerChar
  have htab : (fun c => !isTabOrNewline c) ∘ lowerChar = fun c => !isTabOrNewline c :=
    funext fun c => by rw [Function.comp_apply, isTabOrNewline_lowerChar]
  rw [cleaned, cleaned, List.dropWhile_map, hblank, ← List.map_reverse, List.dropWhile_map, hblank,
    ← List.map_reverse, List.filter_map, htab]

/-- A text that has neither a `k` nor a kelvin sign is the lower case of the same texts either way. -/
theorem map_toLower_iff (hk : 'k' ∉ t) (hkelvin : kelvin ∉ t) : cs.map Char.toLower = t ↔ cs.map lowerChar = t := by
  induction cs generalizing t with
  | nil => rfl
  | cons c cs ih =>
    cases t with
    | nil => simp
    | cons d t =>
      rw [List.mem_cons, not_or] at hk hkelvin
      have hhead : c.toLower = d ↔ lowerChar c = d := by
        unfold lowerChar
        split
        · rename_i hc
          rw [hc]
          exact iff_of_false hkelvin.1 hk.1
        · rfl
      rw [List.map_cons, List.map_cons, List.cons.injEq, List.cons.injEq, hhead, ih hk.2 hkelvin.2]

theorem afterScheme_map {scheme : List Char} (hk : 'k' ∉ scheme ++ [':']) (hkelvin : kelvin ∉ scheme ++ [':']) :
    afterScheme scheme (cs.map lowerChar) = (afterScheme scheme cs).map (List.map lowerChar) := by
  have hsame : ((cs.map lowerChar).take (scheme.length + 1)).map Char.toLower = scheme ++ [':'] ↔
      (cs.take (scheme.length + 1)).map Char.toLower = scheme ++ [':'] := by
    rw [← List.map_take, map_toLower_iff hk hkelvin, map_lowerChar_idem, ← map_toLower_iff hk hkelvin]
  unfold afterScheme
  simp only [hsame, ← List.map_drop]
  split_ifs <;> rfl

theorem readScheme_map (cs : List Char) :
    readScheme (cs.map lowerChar) = (readScheme cs).map fun r => (r.1, r.2.map lowerChar) := by
  unfold readScheme
  rw [afterScheme_map (by decide) (by decide), afterScheme_map (by decide) (by decide)]
  cases afterScheme "https".toList cs with
  | some rest => rfl
  | none => cases afterScheme "http".toList cs <;> rfl

def Parts.lowered (p : Parts) : Parts := ⟨p.secure, p.authority.map lowerChar, p.rest.map lowerChar⟩

theorem parts_map (cs : List Char) : parts (cs.map lowerChar) = (parts cs).map Parts.lowered := by
  have hslash : isSlash ∘ lowerChar = isSlash := funext isSlash_lowerChar
  have hend : (fun c => !isEnd c) ∘ lowerChar = fun c => !isEnd c :=
    funext fun c => by rw [Function.comp_apply, isEnd_lowerChar]
  unfold parts
  rw [readScheme_map]
  cases readScheme cs with
  | none => rfl
  | some r =>
    simp only [Option.map_some, List.dropWhile_map, List.takeWhile_map, hslash, hend]
    rfl

theorem mem_map_lowerChar {d : Char} (hd : d < 'a' ∧ d ≠ kelvin ∧ d.toLower = d) : d ∈ cs.map lowerChar ↔ d ∈ cs := by
  simp only [List.mem_map, lowerChar_eq_iff hd, exists_eq_right]

theorem afterUserinfo_map (cs : List Char) :
    afterUserinfo (cs.map lowerChar) = (afterUserinfo cs).map (List.map lowerChar) := by
  have hat : (fun c => decide (c ≠ '@')) ∘ lowerChar = fun c => decide (c ≠ '@') :=
    funext fun c => @congr_lowerChar _ (fun c => decide (c ≠ '@')) (by decide) (by decide) c
  have hmem : '@' ∈ cs.map lowerChar ↔ '@' ∈ cs := mem_map_lowerChar (by decide)
  unfold afterUserinfo
  simp only [hmem, ← List.map_reverse, List.takeWhile_map, hat]
  split_ifs
  · cases (cs.reverse.takeWhile fun c => decide (c ≠ '@')).reverse <;> rfl
  · rfl

theorem splitPort_map (cs : List Char) (inBrackets : Bool) : splitPort inBrackets (cs.map lowerChar) =
    ((splitPort inBrackets cs).1.map lowerChar, (splitPort inBrackets cs).2.map (List.map lowerChar)) := by
  induction cs generalizing inBrackets with
  | nil => rfl
  | cons c cs ih =>
    have hcolon : lowerChar c = ':' ↔ c = ':' := lowerChar_eq_iff (by decide)
    have hopen : lowerChar c = '[' ↔ c = '[' := lowerChar_eq_iff (by decide)
    have hclose : lowerChar c = ']' ↔ c = ']' := lowerChar_eq_iff (by decide)
    rw [List.map_cons, splitPort, splitPort]
    simp only [hcolon, hopen, hclose, ih]
    split <;> rfl

theorem map_lowerChar_of_digits (h : cs.all Char.isDigit = true) : cs.map lowerChar = cs := by
  conv_rhs => rw [← List.map_id cs]
  refine List.map_congr_left fun c hc => ?_
  have hdigit := List.all_eq_true.1 h c hc
  have hhigh : c.toNat ≤ '9'.toNat := by
    simp only [Char.isDigit, Bool.and_eq_true, decide_eq_true_eq] at hdigit
    exact hdigit.2
  have hsmall : c < 'a' := lt_of_le_of_lt hhigh (show '9'.toNat < 'a'.toNat by decide)
  have hne : c ≠ kelvin := by
    rintro rfl
    exact absurd hsmall (by decide)
  refine (lowerChar_eq_iff ⟨hsmall, hne, ?_⟩).2 rfl
  rcases toLower_cases c with h | ⟨hA, -, -, -⟩
  · exact h
  · have hlow : 'A'.toNat ≤ c.toNat := hA
    exact absurd (hlow.trans hhigh) (by decide)

theorem isPort_map (digits : List Char) : isPort (digits.map lowerChar) = isPort digits := by
  have hall : (digits.map lowerChar).all Char.isDigit = digits.all Char.isDigit := by
    rw [List.all_map]
    congr 1
    exact funext isDigit_lowerChar
  cases h : digits.all Char.isDigit with
  | true => rw [map_lowerChar_of_digits h]
  | false =>
    unfold isPort
    rw [hall, h, Bool.false_and, Bool.false_and]

theorem readAuthority_map {readHost : List Char → Option WebHost}
    (hhost : ∀ cs, readHost (cs.map lowerChar) = readHost cs) (secure : Bool) (cs : List Char) :
    readAuthority readHost secure (cs.map lowerChar) = readAuthority readHost secure cs := by
  unfold readAuthority
  rw [afterUserinfo_map]
  cases afterUserinfo cs with
  | none => rfl
  | some text =>
    simp only [Option.map_some, splitPort_map]
    rcases splitPort false text with ⟨_ | ⟨c, host⟩, _ | digits⟩
    · rfl
    · rfl
    · exact congrArg (Option.map fun h => (h, none)) (hhost (c :: host))
    · have hsame := hhost (c :: host)
      rw [List.map_cons] at hsame
      simp only [List.map_cons, Option.map_some, isPort_map, hsame]
      split_ifs with hport
      · have hdigits : digits.all Char.isDigit = true := by
          rw [isPort, Bool.and_eq_true] at hport
          exact hport.1
        rw [map_lowerChar_of_digits hdigits]
      · rfl

end lowering

/-! ### Texts that go on -/

section longer

variable {cs authority rest : List Char} {secure : Bool} {c : Char}

theorem readScheme_head (h : readScheme cs = some (secure, rest)) :
    ∃ head, cs = head ++ rest ∧ ∀ more, readScheme (head ++ more) = some (secure, more) := by
  have hscheme : ∀ {scheme cs rest : List Char}, afterScheme scheme cs = some rest →
      ∃ head, cs = head ++ rest ∧ head.length = scheme.length + 1 ∧ head.map Char.toLower = scheme ++ [':'] := by
    intro scheme cs rest h
    unfold afterScheme at h
    split_ifs at h with htake
    cases h
    refine ⟨_, (List.take_append_drop _ cs).symm, ?_, htake⟩
    have hlen := congrArg List.length htake
    simpa using hlen
  have hafter : ∀ {scheme head more : List Char}, head.length = scheme.length + 1 →
      head.map Char.toLower = scheme ++ [':'] → afterScheme scheme (head ++ more) = some more := by
    intro scheme head more hlen hhead
    rw [afterScheme, List.take_left' hlen, if_pos hhead, List.drop_left' hlen]
  unfold readScheme at h
  split at h
  · rename_i rest' hhttps
    cases h
    obtain ⟨head, rfl, hlen, hhead⟩ := hscheme hhttps
    refine ⟨head, rfl, fun more => ?_⟩
    rw [readScheme, hafter hlen hhead]
  · obtain ⟨rest', hhttp, heq⟩ := Option.map_eq_some_iff.1 h
    cases heq
    obtain ⟨head, rfl, hlen, hhead⟩ := hscheme hhttp
    refine ⟨head, rfl, fun more => ?_⟩
    -- the fifth character is a colon
    have hno : afterScheme "https".toList (head ++ more) = none := by
      rw [afterScheme, if_neg]
      intro htake
      have hfive := congrArg (List.take 5) htake
      have hlen5 : head.length = 5 := hlen
      rw [← List.map_take, List.take_take, List.take_left' (by simpa using hlen5), hhead] at hfive
      exact absurd hfive (by decide)
    rw [readScheme, hno, hafter hlen hhead]
    rfl

theorem parts_head (h : parts cs = some ⟨secure, authority, c :: rest⟩) : isEnd c = true ∧ ∃ head,
    cs = head ++ c :: rest ∧ ∀ more, parts (head ++ c :: more) = some ⟨secure, authority, c :: more⟩ := by
  unfold parts at h
  obtain ⟨⟨secure', body⟩, hread, heq⟩ := Option.map_eq_some_iff.1 h
  rw [Parts.mk.injEq] at heq
  obtain ⟨rfl, hauthority, hrest⟩ := heq
  dsimp only at hauthority hrest
  obtain ⟨head, rfl, hhead⟩ := readScheme_head hread
  have hend : isEnd c = true := by
    have hnot := List.head_dropWhile_not (fun c => !isEnd c) (l := body.dropWhile isSlash) (by rw [hrest]; simp)
    simpa [hrest] using hnot
  have hbody : body.dropWhile isSlash = authority ++ c :: rest := by
    rw [← hauthority, ← hrest, List.takeWhile_append_dropWhile]
  have hplain : ∀ d ∈ authority, (!isEnd d) = true := by
    rw [← hauthority]
    exact fun d => List.mem_takeWhile_imp
  refine ⟨hend, head ++ body.takeWhile isSlash ++ authority, ?_, fun more => ?_⟩
  · rw [List.append_assoc, List.append_assoc, ← hbody, List.takeWhile_append_dropWhile]
  · have hdrop : (authority ++ c :: more).dropWhile isSlash = authority ++ c :: more := by
      have hnot := List.head_dropWhile_not isSlash (l := body) (by rw [hbody]; simp)
      cases authority with
      | nil => simpa [hbody] using hnot
      | cons d authority => simpa [hbody] using hnot
    rw [parts, List.append_assoc, List.append_assoc, hhead, Option.map_some]
    dsimp only
    rw [List.dropWhile_append_of_pos fun d => List.mem_takeWhile_imp, hdrop,
      List.takeWhile_append_of_pos hplain, List.dropWhile_append_of_pos hplain, List.takeWhile_cons_of_neg (by simp [hend]),
      List.dropWhile_cons_of_neg (by simp [hend]), List.append_nil]

/-- **The origin of a text.**  Where the authority of `cs` is closed, every text that starts with the same
characters up to there, in either case, has the same scheme and in either case the same authority. -/
theorem parts_of_start (h : parts (cleaned cs) = some ⟨secure, authority, c :: rest⟩) :
    isEnd c = true ∧ ∃ a b, cs = a ++ c :: b ∧ ∀ x y, x.map lowerChar = (a ++ [c]).map lowerChar →
      ∃ authority' rest', parts (cleaned (x ++ y)) = some ⟨secure, authority', rest'⟩ ∧
        authority'.map lowerChar = authority.map lowerChar := by
  obtain ⟨hend, head, hhead, hmore⟩ := parts_head h
  have hvisible : isControlOrSpace c = false := by
    simp only [isEnd, isSlash, Bool.or_eq_true, decide_eq_true_eq] at hend
    rcases hend with ((rfl | rfl) | rfl) | rfl <;> decide
  obtain ⟨a, b, rfl, hclean⟩ := cleaned_cons hvisible hhead
  refine ⟨hend, a, b, rfl, fun x y hx => ?_⟩
  have hlowered : (parts (cleaned x)).map Parts.lowered = some ⟨secure, authority.map lowerChar, [lowerChar c]⟩ := by
    rw [← parts_map, ← cleaned_map, hx, cleaned_map, hclean, parts_map, hmore []]
    rfl
  obtain ⟨⟨secure', authority', rest'⟩, hparts, heq⟩ := Option.map_eq_some_iff.1 hlowered
  rw [Parts.lowered, Parts.mk.injEq] at heq
  obtain ⟨rfl, hauthority, hrest⟩ := heq
  obtain ⟨d, rfl, -⟩ := List.map_eq_singleton_iff.1 hrest
  obtain ⟨-, head', hhead', hmore'⟩ := parts_head hparts
  obtain ⟨t, ht⟩ := cleaned_append x y
  refine ⟨authority', d :: t, ?_, hauthority⟩
  rw [ht, hhead', List.append_assoc, List.singleton_append, hmore']

end longer

/-! ### Origins -/

section origins

variable {readHost : List Char → Option WebHost} {encode : Char → List Char} {cs : List Char} {address : WebUrl}

theorem readWeb_eq_some (h : readWeb readHost encode cs = some address) : ∃ p, parts (cleaned cs) = some p ∧
    readAuthority readHost p.secure p.authority = some (address.host, address.port) ∧
    address.secure = p.secure ∧ rawPath cs = some (beforeQuery p.rest) ∧
    address.path = pathOf encode (beforeQuery p.rest) := by
  unfold readWeb at h
  cases hparts : parts (cleaned cs) with
  | none =>
    rw [hparts] at h
    cases h
  | some p =>
    rw [hparts] at h
    obtain ⟨r, hauthority, rfl⟩ := Option.map_eq_some_iff.1 h
    exact ⟨p, rfl, hauthority, rfl, by rw [rawPath, hparts, Option.map_some], rfl⟩

/-- An ASCII text at the start of an address in which the authority comes to its end. -/
def ClosesAuthority (cs : List Char) : Prop :=
  ∃ a b p, cs = a ++ b ∧ (∀ c ∈ a, c.toNat < 128) ∧ parts (cleaned a) = some p ∧ p.rest ≠ []

/-- The scheme, the host and the port of two addresses. -/
structure SameOrigin (p q : WebUrl) : Prop where
  secure : q.secure = p.secure
  host : q.host = p.host
  port : q.port = p.port

/-- **The origins of texts that start alike.**  Where the authority of an address is closed, an address whose
text starts, in lower case, with that of the other has the same origin. -/
theorem sameOrigin_of_start {lower : String → String} (hlower : LowersStarts lower)
    (hhost : ∀ cs, readHost (cs.map lowerChar) = readHost cs) {p q : String} {allowed child : WebUrl}
    (hclosed : ClosesAuthority p.toList) (hstart : startsWith (lower q) (lower p) = true)
    (hp : readWeb readHost encode p.toList = some allowed) (hq : readWeb readHost encode q.toList = some child) :
    SameOrigin allowed child := by
  obtain ⟨a, b, ⟨secure, authority, rest⟩, hab, hascii, hparts, hrest⟩ := hclosed
  obtain ⟨c, rest, rfl⟩ := List.exists_cons_of_ne_nil hrest
  obtain ⟨hend, a, b', rfl, hall⟩ := parts_of_start hparts
  have hascii' : ∀ d ∈ a ++ [c], d.toNat < 128 := fun d hd => hascii d (by simp at hd ⊢; tauto)
  have hlowered : (a ++ [c]).map Char.toLower = (a ++ [c]).map lowerChar := by
    refine List.map_congr_left fun d hd => ?_
    rw [lowerChar, if_neg]
    rintro rfl
    exact absurd (hascii' _ hd) (by decide)
  have hsmall : ∀ d ∈ (a ++ [c]).map Char.toLower, d.toNat < 128 := by
    intro d hd
    obtain ⟨e, he, rfl⟩ := List.mem_map.1 hd
    rcases toLower_cases e with h | ⟨-, -, -, hz⟩
    · rw [h]
      exact hascii' e he
    · have hle : e.toLower.toNat ≤ 'z'.toNat := hz
      exact lt_of_le_of_lt hle (by decide)
  -- the other text starts with these characters too
  have hp' : p.toList = (a ++ [c]) ++ (b' ++ b) := by
    rw [hab]
    simp
  obtain ⟨r, hr⟩ := hlower.start p (a ++ [c]) (b' ++ b) hp' hascii'
  rw [startsWith, List.isPrefixOf_iff_prefix, hr] at hstart
  obtain ⟨r', hr'⟩ := hstart
  have hc : c.toLower = c := by
    simp only [isEnd, isSlash, Bool.or_eq_true, decide_eq_true_eq] at hend
    rcases hend with ((rfl | rfl) | rfl) | rfl <;> decide
  have hi : c ≠ 'i' := by
    rintro rfl
    exact absurd hend (by decide)
  rw [List.map_append, List.map_singleton, hc, List.append_assoc, List.append_assoc] at hr'
  rw [List.map_append, List.map_singleton, hc] at hsmall hlowered
  obtain ⟨x, y, hq', hx⟩ := hlower.origin q _ c _ hr'.symm hsmall hi
  obtain ⟨authorityP, restP, hpartsP, hsameP⟩ := hall (a ++ [c]) (b' ++ b) rfl
  obtain ⟨authorityQ, restQ, hpartsQ, hsameQ⟩ := hall x y (hx.trans hlowered)
  obtain ⟨pp, hpp, hauthorityP, hsecureP, -⟩ := readWeb_eq_some hp
  obtain ⟨qq, hqq, hauthorityQ, hsecureQ, -⟩ := readWeb_eq_some hq
  rw [hp', hpartsP, Option.some.injEq] at hpp
  rw [hq', hpartsQ, Option.some.injEq] at hqq
  subst hpp hqq
  have hsame : some (child.host, child.port) = some (allowed.host, allowed.port) := by
    rw [← hauthorityQ, ← hauthorityP, ← readAuthority_map hhost, hsameQ, ← hsameP, readAuthority_map hhost]
  rw [Option.some.injEq, Prod.mk.injEq] at hsame
  exact ⟨hsecureQ.trans hsecureP.symm, hsame.1, hsame.2⟩

end origins

end NpsSdk.Lib.WebReader
