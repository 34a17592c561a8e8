import NpsSdk.Lib.Sql

/-!
# Texts of queries, piece by piece

A text is made of words, quoted names and marks of named parameters.  Two scanners read a text back: one finds
what stands between quotes, the other finds the marks.  In the text of pieces that keep to their characters they
find the names and the marks of the pieces, and nothing else.
-/

namespace NpsSdk.Lib.Sql

inductive Piece where
  | word (s : String)
  | name (s : String)
  | mark (s : String)

namespace Piece

def text (quote : String → String) : Piece → List Char
  | .word s => s.toList
  | .name s => (quote s).toList
  | .mark s => '@' :: s.toList

def name? : Piece → Option String
  | .name s => some s
  | _ => none

def mark? : Piece → Option String
  | .mark s => some s
  | _ => none

end Piece

/-! ### The pieces of a query -/

def joinPieces (sep : String) : List (List Piece) → List Piece
  | [] => []
  | [p] => p
  | p :: q :: ps => p ++ .word sep :: joinPieces sep (q :: ps)

mutual
def Condition.pieces : Condition → List Piece
  | .blank => []
  | .constant b => [.word (if b then "1=1" else "1=0")]
  | .compare column op param => [.name column, .word (" " ++ op.symbol ++ " "), .mark param]
  | .among column negate param => [.name column, .word (if negate then " NOT IN " else " IN "), .mark param]
  | .between column low high => [.name column, .word " BETWEEN ", .mark low, .word " AND ", .mark high]
  | .all cs => .word "(" :: (joinPieces " AND " (Condition.partPieces cs) ++ [.word ")"])
  | .any cs => .word "(" :: (joinPieces " OR " (Condition.partPieces cs) ++ [.word ")"])
def Condition.partPieces : List Condition → List (List Piece)
  | [] => []
  | c :: cs => c.pieces :: Condition.partPieces cs
end

namespace Select

def columnPieces (c : String × Option String) : List Piece :=
  match c.2 with
  | none => [.name c.1]
  | some name => [.name c.1, .word " AS ", .name name]

def orderPieces (t : OrderTerm) : List Piece := [.name t.column, .word ((t.direction.map Direction.text).getD "")]

def pagingPieces : Paging → List Piece
  | .limitOffset limit offset => [.word " LIMIT ", .mark limit, .word " OFFSET ", .mark offset]
  | .offsetFetch offset limit =>
    [.word " OFFSET ", .mark offset, .word " ROWS FETCH NEXT ", .mark limit, .word " ROWS ONLY"]

/-- The condition of a query, unless there is none. -/
def wherePieces (filter : Condition) : List Piece := if filter.isBlank then [] else .word " WHERE " :: filter.pieces

def pieces (s : Select) (paging : Paging) : List Piece :=
  .word "SELECT " :: (joinPieces ", " (s.columns.map columnPieces) ++ (.word " FROM " :: .name s.table ::
    (wherePieces s.filter ++ (.word " ORDER BY " ::
      (joinPieces ", " (s.orderBy.map orderPieces) ++ pagingPieces paging)))))

def countPieces (table : String) (filter : Condition) : List Piece :=
  .word "SELECT COUNT(*) FROM " :: .name table :: wherePieces filter

end Select

section Texts

variable (quote : String → String)

theorem join_text {α : Type} (sep : String) (f : α → String) (g : α → List Piece) (l : List α)
    (h : ∀ a ∈ l, (f a).toList = (g a).flatMap (Piece.text quote)) :
    (join sep (l.map f)).toList = (joinPieces sep (l.map g)).flatMap (Piece.text quote) := by
  induction l with
  | nil => rfl
  | cons a l ih =>
    cases l with
    | nil => exact h a List.mem_cons_self
    | cons b l =>
      have hrest := ih fun c hc => h c (List.mem_cons_of_mem _ hc)
      simp only [List.map_cons, join, joinPieces, String.toList_append, List.flatMap_append, List.flatMap_cons] at hrest ⊢
      rw [h a List.mem_cons_self, hrest, List.append_assoc]
      rfl

theorem Condition.partPieces_eq (cs : List Condition) : partPieces cs = cs.map pieces := by
  induction cs with
  | nil => rfl
  | cons c cs ih => rw [partPieces, ih, List.map_cons]

theorem Condition.text_pieces (c : Condition) : (c.text quote).toList = c.pieces.flatMap (Piece.text quote) := by
  induction c using Condition.ind with
  | blank => rfl
  | constant b => cases b <;> simp [text, pieces, Piece.text]
  | compare column op param => simp [text, pieces, Piece.text]
  | among column negate param => cases negate <;> simp [text, pieces, Piece.text]
  | between column low high => simp [text, pieces, Piece.text]
  | all cs ih =>
    rw [text, pieces, texts_eq, partPieces_eq, String.toList_append, String.toList_append, join_text quote _ _ _ _ ih]
    simp [Piece.text]
  | any cs ih =>
    rw [text, pieces, texts_eq, partPieces_eq, String.toList_append, String.toList_append, join_text quote _ _ _ _ ih]
    simp [Piece.text]

namespace Select

theorem columnText_pieces (c : String × Option String) :
    (columnText quote c).toList = (columnPieces c).flatMap (Piece.text quote) := by
  unfold columnText columnPieces
  cases c.2 <;> simp [Piece.text]

theorem orderText_pieces (t : OrderTerm) :
    (orderText quote t).toList = (orderPieces t).flatMap (Piece.text quote) := by
  simp [orderText, orderPieces, Piece.text]

theorem pagingText_pieces (p : Paging) : p.text.toList = (pagingPieces p).flatMap (Piece.text quote) := by
  cases p <;> simp [Paging.text, pagingPieces, Piece.text]

theorem text_pieces (s : Select) (paging : Paging) :
    (s.text quote paging).toList = (s.pieces paging).flatMap (Piece.text quote) := by
  have hcolumns := join_text quote ", " (columnText quote) columnPieces s.columns fun c _ => columnText_pieces quote c
  have horder := join_text quote ", " (orderText quote) orderPieces s.orderBy fun t _ => orderText_pieces quote t
  have hfilter := s.filter.text_pieces quote
  have hpaging := pagingText_pieces quote paging
  unfold text pieces wherePieces
  cases hblank : s.filter.isBlank with
  | true => simp [hcolumns, horder, hpaging, Piece.text]
  | false => simp [hcolumns, horder, hpaging, hfilter, Piece.text]

theorem countText_pieces (table : String) (filter : Condition) :
    (countText quote table filter).toList = (countPieces table filter).flatMap (Piece.text quote) := by
  unfold countText countPieces wherePieces
  cases hblank : filter.isBlank with
  | true => simp [Piece.text]
  | false => simp [filter.text_pieces quote, Piece.text]

end Select

end Texts

/-! ### Pieces that keep to their characters -/

/-- A character that begins neither a mark nor a quoted name. -/
def isPlainChar (c : Char) : Bool := c ≠ '@' && c ≠ '"' && c ≠ '[' && c ≠ ']'

def isPlain (s : String) : Bool := s.toList.all isPlainChar

/-- `[A-Za-z_]`. -/
def isMarkStart (c : Char) : Bool := c.isAlpha || c == '_'

/-- `\w`. -/
def isMarkChar (c : Char) : Bool := c.isAlphanum || c == '_'

/-- A name that a parameter can have. -/
def isMarkName (s : String) : Bool :=
  match s.toList with
  | [] => false
  | c :: cs => isMarkStart c && cs.all isMarkChar

namespace Piece

def Lexical : Piece → Prop
  | .word s => isPlain s = true
  | .name s => isPlain s = true
  | .mark s => isMarkName s = true

end Piece

/-- What ends the mark before it: the end of the text, or a word. -/
def Stops : List Piece → Prop
  | [] => True
  | .word s :: _ => ∃ c cs, s.toList = c :: cs ∧ isMarkChar c = false
  | _ => False

/-- Every mark is ended by what follows it. -/
def Tidy : List Piece → Prop
  | [] => True
  | .mark _ :: rest => Stops rest ∧ Tidy rest
  | _ :: rest => Tidy rest

theorem Tidy.append {as bs : List Piece} (ha : Tidy as) (hb : Tidy bs) (hstops : Stops bs) : Tidy (as ++ bs) := by
  induction as with
  | nil => exact hb
  | cons a as ih =>
    cases a with
    | word s => exact ih ha
    | name s => exact ih ha
    | mark s =>
      refine ⟨?_, ih ha.2⟩
      cases as with
      | nil => exact hstops
      | cons b as =>
        cases b with
        | word t => exact ha.1
        | name t => exact ha.1.elim
        | mark t => exact ha.1.elim

theorem Tidy.join {sep : String} (hsep : Stops [.word sep]) {ps : List (List Piece)} (h : ∀ p ∈ ps, Tidy p) :
    Tidy (joinPieces sep ps) := by
  induction ps with
  | nil => trivial
  | cons p ps ih =>
    cases ps with
    | nil => exact h p List.mem_cons_self
    | cons q ps => exact (h p List.mem_cons_self).append (ih fun r hr => h r (List.mem_cons_of_mem _ hr)) hsep

theorem stops_word {s : String} {c : Char} {cs : List Char} (h : s.toList = c :: cs) (hc : isMarkChar c = false)
    (rest : List Piece) : Stops (.word s :: rest) := ⟨c, cs, h, hc⟩

theorem mem_joinPieces {sep : String} {ps : List (List Piece)} {x : Piece} (h : x ∈ joinPieces sep ps) :
    x = .word sep ∨ ∃ p ∈ ps, x ∈ p := by
  induction ps with
  | nil => cases h
  | cons p ps ih =>
    cases ps with
    | nil => exact .inr ⟨p, List.mem_cons_self, h⟩
    | cons q ps =>
      rcases List.mem_append.1 h with hp | hrest
      · exact .inr ⟨p, List.mem_cons_self, hp⟩
      · rcases List.mem_cons.1 hrest with rfl | hrest
        · exact .inl rfl
        · rcases ih hrest with heq | ⟨r, hr, hx⟩
          · exact .inl heq
          · exact .inr ⟨r, List.mem_cons_of_mem _ hr, hx⟩

section Queries

theorem Condition.tidy (c : Condition) : Tidy c.pieces := by
  have hparts : ∀ sep : String, Stops [.word sep] → ∀ cs : List Condition, (∀ c ∈ cs, Tidy c.pieces) →
      Tidy (joinPieces sep (partPieces cs) ++ [.word ")"]) := by
    intro sep hsep cs h
    refine Tidy.append (Tidy.join hsep fun p hp => ?_) trivial (stops_word rfl (by decide) [])
    rw [partPieces_eq] at hp
    obtain ⟨c, hc, rfl⟩ := List.mem_map.1 hp
    exact h c hc
  induction c using Condition.ind with
  | blank => trivial
  | constant b => trivial
  | compare column op param => exact ⟨trivial, trivial⟩
  | among column negate param => exact ⟨trivial, trivial⟩
  | between column low high => exact ⟨stops_word (s := " AND ") rfl (by decide) _, trivial, trivial⟩
  | all cs ih => exact hparts " AND " (stops_word rfl (by decide) []) cs ih
  | any cs ih => exact hparts " OR " (stops_word rfl (by decide) []) cs ih

/-- The words of a condition are free of the signs of marks and quotes. -/
theorem Condition.words_plain (c : Condition) : ∀ s, .word s ∈ c.pieces → isPlain s = true := by
  have hparts : ∀ sep : String, isPlain sep = true → ∀ cs : List Condition,
      (∀ c ∈ cs, ∀ s, .word s ∈ c.pieces → isPlain s = true) →
      ∀ s, .word s ∈ joinPieces sep (partPieces cs) → isPlain s = true := by
    intro sep hsep cs h s hs
    rw [partPieces_eq] at hs
    rcases mem_joinPieces hs with heq | ⟨p, hp, hmem⟩
    · cases heq
      exact hsep
    · obtain ⟨c, hc, rfl⟩ := List.mem_map.1 hp
      exact h c hc s hmem
  induction c using Condition.ind with
  | blank => exact fun s hs => absurd hs List.not_mem_nil
  | constant b =>
    intro s hs
    cases List.mem_singleton.1 hs
    cases b <;> decide
  | compare column op param =>
    intro s hs
    simp only [pieces, List.mem_cons, List.not_mem_nil, or_false, reduceCtorEq, false_or, Piece.word.injEq] at hs
    subst hs
    cases op <;> decide
  | among column negate param =>
    intro s hs
    simp only [pieces, List.mem_cons, List.not_mem_nil, or_false, reduceCtorEq, false_or, Piece.word.injEq] at hs
    subst hs
    cases negate <;> decide
  | between column low high =>
    intro s hs
    simp only [pieces, List.mem_cons, List.not_mem_nil, or_false, reduceCtorEq, false_or, Piece.word.injEq] at hs
    rcases hs with rfl | rfl <;> decide
  | all cs ih =>
    intro s hs
    simp only [pieces, List.mem_cons, List.mem_append, List.not_mem_nil, or_false, Piece.word.injEq] at hs
    rcases hs with rfl | hs | rfl
    · decide
    · exact hparts " AND " (by decide) cs ih s hs
    · decide
  | any cs ih =>
    intro s hs
    simp only [pieces, List.mem_cons, List.mem_append, List.not_mem_nil, or_false, Piece.word.injEq] at hs
    rcases hs with rfl | hs | rfl
    · decide
    · exact hparts " OR " (by decide) cs ih s hs
    · decide

namespace Select

variable (s : Select) (paging : Paging)

theorem wherePieces_tidy (filter : Condition) : Tidy (wherePieces filter) := by
  unfold wherePieces
  split
  · trivial
  · exact filter.tidy

theorem countPieces_tidy (table : String) (filter : Condition) : Tidy (countPieces table filter) :=
  wherePieces_tidy filter

theorem tidy : Tidy (s.pieces paging) := by
  have hcolumns : Tidy (joinPieces ", " (s.columns.map columnPieces)) := by
    refine Tidy.join (stops_word rfl (by decide) []) fun p hp => ?_
    obtain ⟨c, -, rfl⟩ := List.mem_map.1 hp
    unfold columnPieces
    split <;> trivial
  have horder : Tidy (joinPieces ", " (s.orderBy.map orderPieces)) := by
    refine Tidy.join (stops_word rfl (by decide) []) fun p hp => ?_
    obtain ⟨t, -, rfl⟩ := List.mem_map.1 hp
    trivial
  have hpaging : Tidy (pagingPieces paging) ∧ Stops (pagingPieces paging) := by
    cases paging with
    | limitOffset limit offset =>
      exact ⟨⟨stops_word (s := " OFFSET ") rfl (by decide) _, trivial, trivial⟩, stops_word rfl (by decide) _⟩
    | offsetFetch offset limit =>
      exact ⟨⟨stops_word (s := " ROWS FETCH NEXT ") rfl (by decide) _,
        stops_word (s := " ROWS ONLY") rfl (by decide) _, trivial⟩, stops_word rfl (by decide) _⟩
  have hrest : Tidy (wherePieces s.filter ++ .word " ORDER BY " :: (joinPieces ", " (s.orderBy.map orderPieces) ++
      pagingPieces paging)) :=
    (wherePieces_tidy s.filter).append (horder.append hpaging.1 hpaging.2) (stops_word rfl (by decide) _)
  have hfrom : Tidy (.word " FROM " :: .name s.table :: (wherePieces s.filter ++ .word " ORDER BY " ::
    (joinPieces ", " (s.orderBy.map orderPieces) ++ pagingPieces paging))) := hrest
  exact hcolumns.append hfrom (stops_word rfl (by decide) _)

/-- The names in a query: the columns it selects and their aliases, its table, the columns of its condition and
those it is ordered by. -/
def names : List String :=
  s.columns.flatMap (fun c => c.1 :: c.2.toList) ++ s.table :: s.filter.pieces.filterMap Piece.name? ++
    s.orderBy.map OrderTerm.column

theorem columnPieces_cases {c : String × Option String} {x : Piece} (hx : x ∈ columnPieces c) :
    (∃ w, x = .word w ∧ isPlain w = true) ∨ ∃ n ∈ c.1 :: c.2.toList, x = .name n := by
  unfold columnPieces at hx
  split at hx
  · exact .inr ⟨c.1, List.mem_cons_self, List.mem_singleton.1 hx⟩
  · rename_i name hname
    simp only [List.mem_cons, List.not_mem_nil, or_false] at hx
    rcases hx with rfl | rfl | rfl
    · exact .inr ⟨c.1, List.mem_cons_self, rfl⟩
    · exact .inl ⟨_, rfl, by decide⟩
    · exact .inr ⟨name, by simp [hname], rfl⟩

theorem orderPieces_cases {t : OrderTerm} {x : Piece} (hx : x ∈ orderPieces t) :
    (∃ w, x = .word w ∧ isPlain w = true) ∨ x = .name t.column := by
  simp only [orderPieces, List.mem_cons, List.not_mem_nil, or_false] at hx
  rcases hx with rfl | rfl
  · exact .inr rfl
  · refine .inl ⟨_, rfl, ?_⟩
    rcases t.direction with _ | _ | _ <;> decide

theorem pagingPieces_cases {x : Piece} (hx : x ∈ pagingPieces paging) :
    (∃ w, x = .word w ∧ isPlain w = true) ∨ ∃ m, x = .mark m := by
  cases paging <;>
    · simp only [pagingPieces, List.mem_cons, List.not_mem_nil, or_false] at hx
      rcases hx with rfl | rfl | rfl | rfl | rfl <;>
        first
        | exact .inl ⟨_, rfl, by decide⟩
        | exact .inr ⟨_, rfl⟩

theorem wherePieces_cases {filter : Condition} {x : Piece} (hx : x ∈ wherePieces filter) :
    (∃ w, x = .word w ∧ isPlain w = true) ∨ (∃ n, x = .name n ∧ .name n ∈ filter.pieces) ∨
      ∃ m, x = .mark m ∧ .mark m ∈ filter.pieces := by
  unfold wherePieces at hx
  split at hx
  · cases hx
  · rcases List.mem_cons.1 hx with rfl | hx
    · exact .inl ⟨_, rfl, by decide⟩
    · cases x with
      | word w => exact .inl ⟨w, rfl, filter.words_plain w hx⟩
      | name n => exact .inr (.inl ⟨n, rfl, hx⟩)
      | mark m => exact .inr (.inr ⟨m, rfl, hx⟩)

theorem pieces_cases {x : Piece} (hx : x ∈ s.pieces paging) :
    (∃ w, x = .word w ∧ isPlain w = true) ∨ (∃ n ∈ s.names, x = .name n) ∨
      ∃ m, x = .mark m ∧ (.mark m ∈ s.filter.pieces ∨ .mark m ∈ pagingPieces paging) := by
  have hname : ∀ n, (∃ c ∈ s.columns, n ∈ c.1 :: c.2.toList) ∨ n = s.table ∨ .name n ∈ s.filter.pieces ∨
      (∃ t ∈ s.orderBy, n = t.column) → n ∈ s.names := by
    intro n hn
    simp only [names, List.mem_append, List.mem_flatMap, List.mem_map, List.mem_cons (a := n) (b := s.table),
      List.mem_filterMap]
    rcases hn with ⟨c, hc, hn⟩ | rfl | hn | ⟨t, ht, rfl⟩
    · exact .inl (.inl ⟨c, hc, hn⟩)
    · exact .inl (.inr (.inl rfl))
    · exact .inl (.inr (.inr ⟨_, hn, rfl⟩))
    · exact .inr ⟨t, ht, rfl⟩
  simp only [pieces, List.mem_cons, List.mem_append] at hx
  rcases hx with rfl | hx | rfl | rfl | hx | rfl | hx | hx
  · exact .inl ⟨_, rfl, by decide⟩
  · rcases mem_joinPieces hx with rfl | ⟨p, hp, hx⟩
    · exact .inl ⟨_, rfl, by decide⟩
    · obtain ⟨c, hc, rfl⟩ := List.mem_map.1 hp
      rcases columnPieces_cases hx with hw | ⟨n, hn, rfl⟩
      · exact .inl hw
      · exact .inr (.inl ⟨n, hname n (.inl ⟨c, hc, hn⟩), rfl⟩)
  · exact .inl ⟨_, rfl, by decide⟩
  · exact .inr (.inl ⟨s.table, hname _ (.inr (.inl rfl)), rfl⟩)
  · rcases wherePieces_cases hx with hw | ⟨n, rfl, hn⟩ | ⟨m, rfl, hm⟩
    · exact .inl hw
    · exact .inr (.inl ⟨n, hname n (.inr (.inr (.inl hn))), rfl⟩)
    · exact .inr (.inr ⟨m, rfl, .inl hm⟩)
  · exact .inl ⟨_, rfl, by decide⟩
  · rcases mem_joinPieces hx with rfl | ⟨p, hp, hx⟩
    · exact .inl ⟨_, rfl, by decide⟩
    · obtain ⟨t, ht, rfl⟩ := List.mem_map.1 hp
      rcases orderPieces_cases hx with hw | rfl
      · exact .inl hw
      · exact .inr (.inl ⟨_, hname _ (.inr (.inr (.inr ⟨t, ht, rfl⟩))), rfl⟩)
  · rcases pagingPieces_cases paging hx with hw | ⟨m, rfl⟩
    · exact .inl hw
    · exact .inr (.inr ⟨m, rfl, .inr hx⟩)

theorem wherePieces_marks (filter : Condition) :
    (wherePieces filter).filterMap Piece.mark? = filter.pieces.filterMap Piece.mark? := by
  unfold wherePieces
  cases filter <;> rfl

theorem marks_eq : (s.pieces paging).filterMap Piece.mark? =
    s.filter.pieces.filterMap Piece.mark? ++ (pagingPieces paging).filterMap Piece.mark? := by
  have hjoin : ∀ ps : List (List Piece), (∀ p ∈ ps, p.filterMap Piece.mark? = []) →
      (joinPieces ", " ps).filterMap Piece.mark? = [] := by
    intro ps hps
    refine List.filterMap_eq_nil_iff.2 fun x hx => ?_
    rcases mem_joinPieces hx with rfl | ⟨p, hp, hx⟩
    · rfl
    · exact List.filterMap_eq_nil_iff.1 (hps p hp) x hx
  have hcolumns := hjoin (s.columns.map columnPieces) fun p hp => by
    obtain ⟨c, -, rfl⟩ := List.mem_map.1 hp
    unfold columnPieces
    split <;> rfl
  have horder := hjoin (s.orderBy.map orderPieces) fun p hp => by
    obtain ⟨t, -, rfl⟩ := List.mem_map.1 hp
    rfl
  rw [pieces]
  simp only [List.filterMap_cons, List.filterMap_append, hcolumns, horder, wherePieces_marks, Piece.mark?,
    List.nil_append]

end Select

end Queries

/-! ### Marks are read back -/

inductive Token where
  | char (c : Char)
  | mark (name : String)

def Token.mark? : Token → Option String
  | .char _ => none
  | .mark name => some name

/-- The matches of `@([A-Za-z_]\w*)` in a text, and the characters between them. -/
def tokens : List Char → List Token
  | [] => []
  | c :: cs =>
    if c = '@' then
      match cs with
      | d :: ds =>
        if isMarkStart d then
          .mark (String.ofList (d :: ds.takeWhile isMarkChar)) :: tokens (ds.dropWhile isMarkChar)
        else .char c :: tokens (d :: ds)
      | [] => [.char c]
    else .char c :: tokens cs
termination_by cs => cs.length
decreasing_by
  · have := (List.dropWhile_suffix (p := isMarkChar) (l := ds)).length_le
    simp only [List.length_cons]
    omega
  · simp only [List.length_cons]
    omega
  · simp only [List.length_cons]
    omega

theorem tokens_plain {cs : List Char} (h : ∀ c ∈ cs, c ≠ '@') (rest : List Char) :
    tokens (cs ++ rest) = cs.map .char ++ tokens rest := by
  induction cs with
  | nil => rfl
  | cons c cs ih =>
    rw [List.cons_append, tokens.eq_def]
    dsimp only
    rw [if_neg (h c List.mem_cons_self), ih fun d hd => h d (List.mem_cons_of_mem _ hd)]
    rfl

theorem tokens_mark {s : String} (h : isMarkName s = true) {rest : List Char}
    (hrest : ∀ c cs, rest = c :: cs → isMarkChar c = false) :
    tokens ('@' :: s.toList ++ rest) = .mark s :: tokens rest := by
  unfold isMarkName at h
  cases hs : s.toList with
  | nil => rw [hs] at h; cases h
  | cons d ds =>
    rw [hs] at h
    obtain ⟨hstart, hall⟩ := Bool.and_eq_true_iff.1 h
    have htake : (ds ++ rest).takeWhile isMarkChar = ds := by
      rw [List.takeWhile_append_of_pos (List.all_eq_true.1 hall)]
      cases rest with
      | nil => rw [List.takeWhile_nil, List.append_nil]
      | cons c cs => rw [List.takeWhile_cons_of_neg (by rw [hrest c cs rfl]; decide), List.append_nil]
    have hdrop : (ds ++ rest).dropWhile isMarkChar = rest := by
      rw [List.dropWhile_append_of_pos (List.all_eq_true.1 hall)]
      cases rest with
      | nil => rfl
      | cons c cs => rw [List.dropWhile_cons_of_neg (by rw [hrest c cs rfl]; decide)]
    rw [List.cons_append, List.cons_append, tokens.eq_def]
    dsimp only
    rw [if_pos rfl, if_pos hstart, htake, hdrop, ← hs, String.ofList_toList]

section Scanning

variable (quote : String → String)

def Piece.tokens : Piece → List Token
  | .word s => s.toList.map .char
  | .name s => (quote s).toList.map .char
  | .mark s => [.mark s]

theorem tokens_pieces (hquote : ∀ s, isPlain s = true → ∀ c ∈ (quote s).toList, c ≠ '@') {ps : List Piece}
    (hlex : ∀ p ∈ ps, p.Lexical) (htidy : Tidy ps) :
    tokens (ps.flatMap (Piece.text quote)) = ps.flatMap (Piece.tokens quote) := by
  induction ps with
  | nil => rw [List.flatMap_nil, List.flatMap_nil, tokens]
  | cons p ps ih =>
    have hp := hlex p List.mem_cons_self
    have hps : ∀ q ∈ ps, q.Lexical := fun q hq => hlex q (List.mem_cons_of_mem _ hq)
    rw [List.flatMap_cons, List.flatMap_cons]
    cases p with
    | word s =>
      have hplain : ∀ c ∈ s.toList, c ≠ '@' := by
        intro c hc
        have := List.all_eq_true.1 hp c hc
        rintro rfl
        cases this
      rw [Piece.text, Piece.tokens, tokens_plain hplain, ih hps htidy]
    | name s => rw [Piece.text, Piece.tokens, tokens_plain (hquote s hp), ih hps htidy]
    | mark s =>
      rw [Piece.text, Piece.tokens, tokens_mark hp, ih hps htidy.2]
      · rfl
      · intro c cs hrest
        cases ps with
        | nil => cases hrest
        | cons q ps =>
          cases q with
          | word t =>
            obtain ⟨d, ds, ht, hd⟩ := htidy.1
            rw [List.flatMap_cons, Piece.text, ht] at hrest
            cases hrest
            exact hd
          | name t => exact htidy.1.elim
          | mark t => exact htidy.1.elim

theorem marks_tokens (ps : List Piece) :
    (ps.flatMap (Piece.tokens quote)).filterMap Token.mark? = ps.filterMap Piece.mark? := by
  have hchars : ∀ cs : List Char, (cs.map Token.char).filterMap Token.mark? = [] := fun cs => by
    rw [List.filterMap_map]
    exact List.filterMap_eq_nil_iff.2 fun _ _ => rfl
  induction ps with
  | nil => rfl
  | cons p ps ih =>
    rw [List.flatMap_cons, List.filterMap_append, ih]
    cases p with
    | word s => rw [Piece.tokens, hchars]; rfl
    | name s => rw [Piece.tokens, hchars]; rfl
    | mark s => rfl

end Scanning

/-! ### Quoted names are read back -/

/-- What stands between an opening quote and the next closing one; a state holds what is read of a name. -/
def quoted (opening closing : Char) : Option (List Char) → List Char → List String
  | _, [] => []
  | none, c :: cs => if c = opening then quoted opening closing (some []) cs else quoted opening closing none cs
  | some acc, c :: cs =>
    if c = closing then String.ofList acc.reverse :: quoted opening closing none cs
    else quoted opening closing (some (c :: acc)) cs

section Quoted

variable {opening closing : Char}

theorem quoted_plain {cs : List Char} (h : ∀ c ∈ cs, c ≠ opening) (rest : List Char) :
    quoted opening closing none (cs ++ rest) = quoted opening closing none rest := by
  induction cs with
  | nil => rfl
  | cons c cs ih =>
    rw [List.cons_append, quoted, if_neg (h c List.mem_cons_self), ih fun d hd => h d (List.mem_cons_of_mem _ hd)]

theorem quoted_name {cs : List Char} (h : ∀ c ∈ cs, c ≠ closing) (acc rest : List Char) :
    quoted opening closing (some acc) (cs ++ closing :: rest) =
      String.ofList (acc.reverse ++ cs) :: quoted opening closing none rest := by
  induction cs generalizing acc with
  | nil => rw [List.nil_append, quoted, if_pos rfl, List.append_nil]
  | cons c cs ih =>
    rw [List.cons_append, quoted, if_neg (h c List.mem_cons_self), ih fun d hd => h d (List.mem_cons_of_mem _ hd)]
    simp

/-- The quoted names that are found are those of the pieces. -/
theorem quoted_pieces {quote : String → String} (hopen : isPlainChar opening = false)
    (hclose : isPlainChar closing = false) (hmark : opening ≠ '@') (hword : isMarkChar opening = false)
    (hquote : ∀ s, (quote s).toList = opening :: (s.toList ++ [closing])) {ps : List Piece}
    (hlex : ∀ p ∈ ps, p.Lexical) :
    quoted opening closing none (ps.flatMap (Piece.text quote)) = ps.filterMap Piece.name? := by
  have hplain : ∀ {s : String} {c : Char}, isPlain s = true → isPlainChar c = false → ∀ d ∈ s.toList, d ≠ c := by
    rintro s c hs hc d hd rfl
    rw [List.all_eq_true.1 hs d hd] at hc
    cases hc
  induction ps with
  | nil => rfl
  | cons p ps ih =>
    have hp := hlex p List.mem_cons_self
    have hps := ih fun q hq => hlex q (List.mem_cons_of_mem _ hq)
    rw [List.flatMap_cons]
    cases p with
    | word s => rw [Piece.text, quoted_plain (hplain hp hopen), hps]; rfl
    | name s =>
      rw [Piece.text, hquote, List.cons_append, quoted, if_pos rfl, List.append_assoc, List.singleton_append,
        quoted_name (hplain hp hclose), hps, List.reverse_nil, List.nil_append, String.ofList_toList]
      rfl
    | mark s =>
      have hs : ∀ c ∈ '@' :: s.toList, c ≠ opening := by
        intro c hc
        rcases List.mem_cons.1 hc with rfl | hc
        · exact Ne.symm hmark
        · have hname : isMarkChar c = true := by
            change isMarkName s = true at hp
            unfold isMarkName at hp
            cases hs : s.toList with
            | nil => rw [hs] at hc; cases hc
            | cons d ds =>
              rw [hs] at hp hc
              obtain ⟨hstart, hall⟩ := Bool.and_eq_true_iff.1 hp
              rcases List.mem_cons.1 hc with rfl | hc
              · unfold isMarkStart at hstart
                unfold isMarkChar Char.isAlphanum
                rcases Bool.or_eq_true_iff.1 hstart with h | h <;> simp [h]
              · exact List.all_eq_true.1 hall c hc
          rintro rfl
          rw [hname] at hword
          cases hword
      rw [Piece.text, quoted_plain hs, hps]
      rfl

end Quoted

end NpsSdk.Lib.Sql
