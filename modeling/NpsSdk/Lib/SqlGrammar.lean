import NpsSdk.Lib.SqlPieces

/-!
# Boolean expressions

The texts that are boolean expressions over given columns and parameters.  The text of a condition is one if no part
of the condition is missing.  Where a part is missing, an operand is missing between two characters, which a scanner
that passes over quoted names finds; in a boolean expression it finds none.
-/

namespace NpsSdk.Lib.Sql

/-- A boolean expression, over texts of columns and names of parameters. -/
inductive IsExpression (column mark : String → Prop) : String → Prop where
  | constant (b : Bool) : IsExpression column mark (if b then "1=1" else "1=0")
  | compare {c p : String} (op : CompareOp) (hc : column c) (hp : mark p) :
    IsExpression column mark (c ++ " " ++ op.symbol ++ " @" ++ p)
  | among {c p : String} (negate : Bool) (hc : column c) (hp : mark p) :
    IsExpression column mark (c ++ (if negate then " NOT IN @" else " IN @") ++ p)
  | between {c low high : String} (hc : column c) (hlow : mark low) (hhigh : mark high) :
    IsExpression column mark (c ++ " BETWEEN @" ++ low ++ " AND @" ++ high)
  | group {e : String} (he : IsExpression column mark e) : IsExpression column mark ("(" ++ e ++ ")")
  | and {e f : String} (he : IsExpression column mark e) (hf : IsExpression column mark f) :
    IsExpression column mark (e ++ " AND " ++ f)
  | or {e f : String} (he : IsExpression column mark e) (hf : IsExpression column mark f) :
    IsExpression column mark (e ++ " OR " ++ f)

structure Condition.Over (quote : String → String) (column mark : String → Prop) (c : Condition) : Prop where
  names : ∀ n, .name n ∈ c.pieces → column (quote n)
  marks : ∀ m, .mark m ∈ c.pieces → mark m

section

variable {quote : String → String} {column mark : String → Prop} {c : Condition} {cs : List Condition} {e : String}

/-! ### Conditions without a missing part -/

theorem mem_joinPieces_of_mem {sep : String} {ps : List (List Piece)} {p : List Piece} {x : Piece} (hp : p ∈ ps)
    (hx : x ∈ p) : x ∈ joinPieces sep ps := by
  induction ps with
  | nil => exact absurd hp List.not_mem_nil
  | cons q ps ih =>
    cases ps with
    | nil =>
      rw [List.mem_singleton.1 hp] at hx
      exact hx
    | cons r ps =>
      rcases List.mem_cons.1 hp with rfl | hp
      · exact List.mem_append_left _ hx
      · exact List.mem_append_right _ (List.mem_cons_of_mem _ (ih hp))

theorem mem_pieces_of_mem {sep : String} {x : Piece} (hc : c ∈ cs) (hx : x ∈ c.pieces) :
    x ∈ Piece.word "(" :: (joinPieces sep (Condition.partPieces cs) ++ [.word ")"]) := by
  refine List.mem_cons_of_mem _ (List.mem_append_left _ (mem_joinPieces_of_mem ?_ hx))
  rw [Condition.partPieces_eq]
  exact List.mem_map_of_mem hc

theorem Condition.Over.all (h : (Condition.all cs).Over quote column mark) (hc : c ∈ cs) : c.Over quote column mark where
  names n hn := h.names n (mem_pieces_of_mem hc hn)
  marks m hm := h.marks m (mem_pieces_of_mem hc hm)

theorem Condition.Over.any (h : (Condition.any cs).Over quote column mark) (hc : c ∈ cs) : c.Over quote column mark where
  names n hn := h.names n (mem_pieces_of_mem hc hn)
  marks m hm := h.marks m (mem_pieces_of_mem hc hm)

theorem isExpression_join {sep : String}
    (hsep : ∀ {e f}, IsExpression column mark e → IsExpression column mark f → IsExpression column mark (e ++ sep ++ f))
    {es : List String} (hne : es ≠ []) (h : ∀ e ∈ es, IsExpression column mark e) :
    IsExpression column mark (join sep es) := by
  induction es with
  | nil => exact absurd rfl hne
  | cons e es ih =>
    cases es with
    | nil => exact h e List.mem_cons_self
    | cons f es =>
      exact hsep (h e List.mem_cons_self) (ih (List.cons_ne_nil _ _) fun g hg => h g (List.mem_cons_of_mem _ hg))

theorem parts_of_wellFormed (h : (!cs.isEmpty && Condition.wellFormedParts cs) = true) :
    cs ≠ [] ∧ ∀ c ∈ cs, c.wellFormed = true := by
  rw [Bool.and_eq_true, Bool.not_eq_true', Condition.wellFormedParts_iff] at h
  exact ⟨fun hnil => by simp [hnil] at h, h.2⟩

/-- **No part is missing**: the text is a boolean expression. -/
theorem Condition.isExpression (c : Condition) (hover : c.Over quote column mark) (h : c.wellFormed = true) :
    IsExpression column mark (c.text quote) := by
  induction c using Condition.ind with
  | blank => cases h
  | constant b => exact .constant b
  | compare n op p => exact .compare op (hover.names n (by simp [pieces])) (hover.marks p (by simp [pieces]))
  | among n negate p => exact .among negate (hover.names n (by simp [pieces])) (hover.marks p (by simp [pieces]))
  | between n low high =>
    exact .between (hover.names n (by simp [pieces])) (hover.marks low (by simp [pieces]))
      (hover.marks high (by simp [pieces]))
  | all cs ih =>
    obtain ⟨hne, hparts⟩ := parts_of_wellFormed h
    rw [text, texts_eq]
    refine .group (isExpression_join .and (by simpa using hne) fun e he => ?_)
    obtain ⟨c, hc, rfl⟩ := List.mem_map.1 he
    exact ih c hc (hover.all hc) (hparts c hc)
  | any cs ih =>
    obtain ⟨hne, hparts⟩ := parts_of_wellFormed h
    rw [text, texts_eq]
    refine .group (isExpression_join .or (by simpa using hne) fun e he => ?_)
    obtain ⟨c, hc, rfl⟩ := List.mem_map.1 he
    exact ih c hc (hover.any hc) (hparts c hc)

end

/-! ### Missing operands -/

def expectsOperand (c : Char) : Bool := c == '(' || c == ' '

def endsOperand (c : Char) : Bool := c == ')' || c == ' '

/-- An operand is missing between two characters. -/
def gapsIn : List Char → Bool
  | a :: b :: cs => expectsOperand a && endsOperand b || gapsIn (b :: cs)
  | _ => false

/-- What a scanner knows: the character before, unless that is in a quoted name, and whether an operand was
missing. -/
structure Scan where
  before : Option Char
  gap : Bool

namespace Scan

variable (opening closing : Char)

def step (s : Scan) (c : Char) : Scan :=
  match s.before with
  | none => ⟨if c = closing then some c else none, s.gap⟩
  | some prev => ⟨if c = opening then none else some c, s.gap || expectsOperand prev && endsOperand c⟩

def run (s : Scan) (text : List Char) : Scan := text.foldl (step opening closing) s

theorem run_append (s : Scan) (text text' : List Char) :
    run opening closing s (text ++ text') = run opening closing (run opening closing s text) text' :=
  List.foldl_append

end Scan

section

variable {opening closing : Char} {prev c : Char} {gap : Bool} {cs text : List Char}

theorem Scan.gap_run {s : Scan} (h : s.gap = true) : (s.run opening closing text).gap = true := by
  induction text generalizing s with
  | nil => exact h
  | cons c cs ih =>
    refine ih ?_
    unfold Scan.step
    split
    · exact h
    · simp [h]

theorem Scan.run_plain (h : ∀ c ∈ cs, c ≠ opening) :
    Scan.run opening closing ⟨some prev, gap⟩ cs = ⟨some (cs.getLastD prev), gap || gapsIn (prev :: cs)⟩ := by
  induction cs generalizing prev gap with
  | nil => simp [Scan.run, gapsIn]
  | cons c cs ih =>
    have hc : c ≠ opening := h c List.mem_cons_self
    have hstep : Scan.step opening closing ⟨some prev, gap⟩ c =
        ⟨some c, gap || expectsOperand prev && endsOperand c⟩ := by
      simp [Scan.step, hc]
    show Scan.run opening closing (Scan.step opening closing ⟨some prev, gap⟩ c) cs = _
    rw [hstep, ih fun d hd => h d (List.mem_cons_of_mem _ hd), gapsIn, Bool.or_assoc]
    cases cs <;> rfl

theorem Scan.run_name (hopening : endsOperand opening = false) (h : ∀ c ∈ cs, c ≠ closing) :
    Scan.run opening closing ⟨some prev, gap⟩ (opening :: (cs ++ [closing])) = ⟨some closing, gap⟩ := by
  have hinside : ∀ cs : List Char, (∀ c ∈ cs, c ≠ closing) →
      Scan.run opening closing ⟨none, gap⟩ (cs ++ [closing]) = ⟨some closing, gap⟩ := by
    intro cs h
    induction cs with
    | nil => simp [Scan.run, Scan.step]
    | cons c cs ih =>
      have hc : c ≠ closing := h c List.mem_cons_self
      have hstep : Scan.step opening closing ⟨none, gap⟩ c = ⟨none, gap⟩ := by simp [Scan.step, hc]
      show Scan.run opening closing (Scan.step opening closing ⟨none, gap⟩ c) (cs ++ [closing]) = _
      rw [hstep, ih fun d hd => h d (List.mem_cons_of_mem _ hd)]
  have hstep : Scan.step opening closing ⟨some prev, gap⟩ opening = ⟨none, gap⟩ := by simp [Scan.step, hopening]
  show Scan.run opening closing (Scan.step opening closing ⟨some prev, gap⟩ opening) (cs ++ [closing]) = _
  rw [hstep]
  exact hinside cs h

theorem gapsIn_of_not_endsOperand (h : ∀ c ∈ cs, endsOperand c = false) : gapsIn (prev :: cs) = false := by
  induction cs generalizing prev with
  | nil => rfl
  | cons c cs ih =>
    rw [gapsIn, h c List.mem_cons_self, ih fun d hd => h d (List.mem_cons_of_mem _ hd), Bool.and_false, Bool.or_false]

/-- A text that begins and ends with an operand, between whose characters none is missing. -/
def Complete (opening closing : Char) (text : List Char) : Prop :=
  ∀ prev gap, ∃ last, expectsOperand last = false ∧
    Scan.run opening closing ⟨some prev, gap⟩ text = ⟨some last, gap⟩

end

/-- The characters around a name. -/
structure Quoting (quote : String → String) (opening closing : Char) : Prop where
  spells : ∀ n, (quote n).toList = opening :: (n.toList ++ [closing])
  opens : opening = '"' ∨ opening = '['
  closes : closing = '"' ∨ closing = ']'

/-- What stands between two operands. -/
def isInfix (w : String) : Bool :=
  w.toList.head? == some ' ' && !gapsIn w.toList && w.toList.all fun c => c != '"' && c != '['

/-- What the scanner needs to know of columns and parameters. -/
structure Scannable (quote : String → String) (opening closing : Char) (column mark : String → Prop) : Prop
    extends Quoting quote opening closing where
  column : ∀ t, column t → ∃ n, t = quote n ∧ ∀ c ∈ n.toList, c ≠ closing
  mark : ∀ m, mark m → isMarkName m = true

section

variable {quote : String → String} {opening closing : Char} {column mark : String → Prop} {prev : Char} {gap : Bool}
  {w m e f : String}

theorem isMarkChar_of_isMarkName (h : isMarkName m = true) {c : Char} (hc : c ∈ m.toList) : isMarkChar c = true := by
  unfold isMarkName at h
  cases hm : m.toList with
  | nil => rw [hm] at hc; cases hc
  | cons d ds =>
    rw [hm] at h hc
    obtain ⟨hstart, hall⟩ := Bool.and_eq_true_iff.1 h
    rcases List.mem_cons.1 hc with rfl | hc
    · simp only [isMarkStart, isMarkChar, Char.isAlphanum, Bool.or_eq_true] at hstart ⊢
      exact hstart.imp_left .inl
    · exact List.all_eq_true.1 hall c hc

theorem of_isMarkChar {c : Char} (h : isMarkChar c = true) :
    c ≠ '"' ∧ c ≠ '[' ∧ expectsOperand c = false ∧ endsOperand c = false := by
  have hne : ∀ d : Char, isMarkChar d = false → c ≠ d := by
    rintro d hd rfl
    rw [h] at hd
    cases hd
  have hopen := hne '(' (by decide)
  have hclose := hne ')' (by decide)
  have hblank := hne ' ' (by decide)
  exact ⟨hne _ (by decide), hne _ (by decide), by simp [expectsOperand, hopen, hblank],
    by simp [endsOperand, hclose, hblank]⟩

theorem Quoting.ne_opening (h : Quoting quote opening closing) {c : Char} (hquote : c ≠ '"') (hbracket : c ≠ '[') :
    c ≠ opening := by
  rcases h.opens with rfl | rfl
  · exact hquote
  · exact hbracket

theorem Quoting.run_infix (h : Quoting quote opening closing) (hw : isInfix w = true) :
    Scan.run opening closing ⟨some prev, gap⟩ w.toList =
      ⟨some (w.toList.getLastD prev), gap || expectsOperand prev⟩ := by
  simp only [isInfix, Bool.and_eq_true, beq_iff_eq, Bool.not_eq_true', List.all_eq_true, bne_iff_ne, ne_eq] at hw
  obtain ⟨⟨hhead, hgaps⟩, hplain⟩ := hw
  have hgap : gapsIn (prev :: w.toList) = expectsOperand prev := by
    obtain ⟨cs, hcs⟩ := List.head?_eq_some_iff.1 hhead
    rw [hcs] at hgaps ⊢
    rw [gapsIn, hgaps, Bool.or_false]
    exact Bool.and_true _
  rw [Scan.run_plain fun c hc => h.ne_opening (hplain c hc).1 (hplain c hc).2, hgap]

theorem Quoting.run_mark (h : Quoting quote opening closing) (hm : isMarkName m = true) :
    ∃ last, expectsOperand last = false ∧ Scan.run opening closing ⟨some '@', gap⟩ m.toList = ⟨some last, gap⟩ := by
  have hchar : ∀ c ∈ m.toList, c ≠ '"' ∧ c ≠ '[' ∧ expectsOperand c = false ∧ endsOperand c = false :=
    fun c hc => of_isMarkChar (isMarkChar_of_isMarkName hm hc)
  refine ⟨m.toList.getLastD '@', ?_, ?_⟩
  · rw [List.getLastD_eq_getLast?]
    cases hlast : m.toList.getLast? with
    | none => rfl
    | some c => exact (hchar c (List.mem_of_getLast? hlast)).2.2.1
  · rw [Scan.run_plain fun c hc => h.ne_opening (hchar c hc).1 (hchar c hc).2.1,
      gapsIn_of_not_endsOperand fun c hc => (hchar c hc).2.2.2, Bool.or_false]

theorem Quoting.run_open (h : Quoting quote opening closing) :
    Scan.run opening closing ⟨some prev, gap⟩ "(".toList = ⟨some '(', gap⟩ := by
  have hplain : ∀ c ∈ "(".toList, c ≠ opening := fun c hc => by
    rw [List.mem_singleton.1 hc]
    exact h.ne_opening (by decide) (by decide)
  rw [Scan.run_plain hplain]
  simp [gapsIn, endsOperand]

theorem Quoting.run_close (h : Quoting quote opening closing) :
    Scan.run opening closing ⟨some prev, gap⟩ ")".toList = ⟨some ')', gap || expectsOperand prev⟩ := by
  have hplain : ∀ c ∈ ")".toList, c ≠ opening := fun c hc => by
    rw [List.mem_singleton.1 hc]
    exact h.ne_opening (by decide) (by decide)
  rw [Scan.run_plain hplain]
  simp [gapsIn, endsOperand]

theorem Quoting.complete_mark (h : Quoting quote opening closing) (he : Complete opening closing e.toList)
    (hw : isInfix w = true) (hsign : w.toList.getLast? = some '@') (hm : isMarkName m = true) :
    Complete opening closing (e ++ w ++ m).toList := by
  intro prev gap
  obtain ⟨last, hlast, hrun⟩ := he prev gap
  obtain ⟨last', hlast', hrun'⟩ : ∃ last, expectsOperand last = false ∧
    Scan.run opening closing ⟨some '@', gap⟩ m.toList = ⟨some last, gap⟩ := h.run_mark hm
  refine ⟨last', hlast', ?_⟩
  rw [String.toList_append, String.toList_append, Scan.run_append, Scan.run_append, hrun, h.run_infix hw, hlast,
    Bool.or_false, List.getLastD_eq_getLast?, hsign]
  exact hrun'

theorem Quoting.complete_infix (h : Quoting quote opening closing) (he : Complete opening closing e.toList)
    (hw : isInfix w = true) (hf : Complete opening closing f.toList) :
    Complete opening closing (e ++ w ++ f).toList := by
  intro prev gap
  obtain ⟨last, hlast, hrun⟩ := he prev gap
  rw [String.toList_append, String.toList_append, Scan.run_append, Scan.run_append, hrun, h.run_infix hw, hlast,
    Bool.or_false]
  exact hf _ gap

theorem Scannable.complete_column (h : Scannable quote opening closing column mark) {t : String} (ht : column t) :
    Complete opening closing t.toList := by
  obtain ⟨n, rfl, hn⟩ := h.column t ht
  intro prev gap
  refine ⟨closing, ?_, ?_⟩
  · rcases h.closes with rfl | rfl <;> rfl
  · rw [h.spells]
    refine Scan.run_name ?_ hn
    rcases h.opens with rfl | rfl <;> rfl

/-- **In a boolean expression** no operand is missing. -/
theorem Scannable.complete (h : Scannable quote opening closing column mark) (he : IsExpression column mark e) :
    Complete opening closing e.toList := by
  induction he with
  | constant b =>
    intro prev gap
    refine ⟨if b then '1' else '0', by cases b <;> rfl, ?_⟩
    have hplain : ∀ c ∈ (if b then "1=1" else "1=0").toList, c ≠ opening := by
      intro c hc
      refine h.ne_opening ?_ ?_
      · rintro rfl
        cases b <;> exact absurd hc (by decide)
      · rintro rfl
        cases b <;> exact absurd hc (by decide)
    rw [Scan.run_plain hplain]
    cases b <;> simp [gapsIn, endsOperand]
  | @compare c p op hc hp =>
    have hw : isInfix (" " ++ op.symbol ++ " @") = true ∧ (" " ++ op.symbol ++ " @").toList.getLast? = some '@' := by
      cases op <;> decide
    have hcomplete := h.complete_mark (h.complete_column hc) hw.1 hw.2 (h.mark p hp)
    simpa [String.append_assoc] using hcomplete
  | among negate hc hp =>
    refine h.complete_mark (h.complete_column hc) ?_ ?_ (h.mark _ hp)
    · cases negate <;> decide
    · cases negate <;> decide
  | between hc hlow hhigh =>
    have hfirst := h.complete_mark (h.complete_column hc) (w := " BETWEEN @") (by decide) (by decide) (h.mark _ hlow)
    exact h.complete_mark hfirst (by decide) (by decide) (h.mark _ hhigh)
  | @group e he ih =>
    intro prev gap
    obtain ⟨last, hlast, hrun⟩ := ih '(' gap
    refine ⟨')', rfl, ?_⟩
    rw [String.toList_append, String.toList_append, Scan.run_append, Scan.run_append, h.run_open, hrun, h.run_close,
      hlast, Bool.or_false]
  | and he hf ihe ihf => exact h.complete_infix ihe (by decide) ihf
  | or he hf ihe ihf => exact h.complete_infix ihe (by decide) ihf

variable {cs : List Condition} {c : Condition}

/-- Of parts of which one is missing, or none there. -/
theorem Scannable.gap_join (h : Scannable quote opening closing column mark) {sep : String} (hsep : isInfix sep = true)
    (hblank : sep.toList.getLast? = some ' ') (hover : ∀ c ∈ cs, c.Over quote column mark)
    (ih : ∀ c ∈ cs, c.isBlank = false → c.wellFormed = false → ∀ prev gap,
      (Scan.run opening closing ⟨some prev, gap⟩ (c.text quote).toList).gap = true)
    (hmissing : cs = [] ∨ ∃ c ∈ cs, c.wellFormed = false) (hprev : expectsOperand prev = true) :
    (Scan.run opening closing ⟨some prev, gap⟩ (join sep (cs.map (Condition.text quote)) ++ ")").toList).gap = true := by
  induction cs generalizing prev gap with
  | nil =>
    show (Scan.run opening closing ⟨some prev, gap⟩ ")".toList).gap = true
    rw [h.run_close, hprev, Bool.or_true]
  | cons c cs ihcs =>
    have hover' : ∀ d ∈ cs, d.Over quote column mark := fun d hd => hover d (List.mem_cons_of_mem _ hd)
    by_cases hformed : c.wellFormed = true
    · obtain ⟨last, hlast, hrun⟩ := h.complete (c.isExpression (hover c List.mem_cons_self) hformed) prev gap
      -- the missing part is a later one
      obtain ⟨d, hd, hlater⟩ : ∃ d ∈ cs, d.wellFormed = false := by
        rcases hmissing with hnil | ⟨d, hd, hlater⟩
        · cases hnil
        · rcases List.mem_cons.1 hd with rfl | hd
          · rw [hformed] at hlater
            cases hlater
          · exact ⟨d, hd, hlater⟩
      cases cs with
      | nil => cases hd
      | cons e cs =>
        rw [List.map_cons, List.map_cons, join, String.append_assoc, String.append_assoc, String.toList_append,
          String.toList_append, Scan.run_append, Scan.run_append, hrun, h.run_infix hsep,
          List.getLastD_eq_getLast?, hblank]
        exact ihcs hover' (fun d hd => ih d (List.mem_cons_of_mem _ hd)) (.inr ⟨d, hd, hlater⟩) rfl
    · have hformed : c.wellFormed = false := by simpa using hformed
      obtain ⟨rest, hrest, hgap⟩ : ∃ rest : String, join sep ((c :: cs).map (Condition.text quote)) ++ ")" =
          c.text quote ++ rest ∧ ∀ prev gap, expectsOperand prev = true →
            (Scan.run opening closing ⟨some prev, gap⟩ rest.toList).gap = true := by
        cases cs with
        | nil =>
          refine ⟨")", rfl, fun prev gap hprev => ?_⟩
          rw [h.run_close, hprev, Bool.or_true]
        | cons d cs =>
          refine ⟨sep ++ (join sep ((d :: cs).map (Condition.text quote)) ++ ")"), ?_, fun prev gap hprev => ?_⟩
          · rw [List.map_cons, List.map_cons, join, String.append_assoc, String.append_assoc]
          · rw [String.toList_append, Scan.run_append, h.run_infix hsep, hprev, Bool.or_true]
            exact Scan.gap_run rfl
      rw [hrest, String.toList_append, Scan.run_append]
      cases hcblank : c.isBlank with
      | true =>
        have hempty := (Condition.text_eq_empty_iff quote c).2 hcblank
        rw [hempty]
        exact hgap prev gap hprev
      | false => exact Scan.gap_run (ih c List.mem_cons_self hcblank hformed prev gap)

theorem missing_of_not_wellFormed (h : (!cs.isEmpty && Condition.wellFormedParts cs) = false) :
    cs = [] ∨ ∃ c ∈ cs, c.wellFormed = false := by
  by_contra hnot
  rw [not_or] at hnot
  have hparts : Condition.wellFormedParts cs = true := (Condition.wellFormedParts_iff cs).2 fun c hc => by
    by_contra hc'
    exact hnot.2 ⟨c, hc, by simpa using hc'⟩
  have hne : cs.isEmpty = false := by simpa using hnot.1
  rw [hparts, hne] at h
  cases h

theorem Scannable.gap_group (h : Scannable quote opening closing column mark) {sep : String} (hsep : isInfix sep = true)
    (hblank : sep.toList.getLast? = some ' ') (hover : ∀ c ∈ cs, c.Over quote column mark)
    (ih : ∀ c ∈ cs, c.isBlank = false → c.wellFormed = false → ∀ prev gap,
      (Scan.run opening closing ⟨some prev, gap⟩ (c.text quote).toList).gap = true)
    (hformed : (!cs.isEmpty && Condition.wellFormedParts cs) = false) :
    (Scan.run opening closing ⟨some prev, gap⟩
      ("(" ++ join sep (cs.map (Condition.text quote)) ++ ")").toList).gap = true := by
  rw [String.append_assoc, String.toList_append, Scan.run_append, h.run_open]
  exact h.gap_join hsep hblank hover ih (missing_of_not_wellFormed hformed) rfl

/-- **Where a part is missing** the scanner finds a gap. -/
theorem Scannable.gap_of_not_wellFormed (h : Scannable quote opening closing column mark) (c : Condition)
    (hover : c.Over quote column mark) (hblank : c.isBlank = false) (hformed : c.wellFormed = false) (prev : Char)
    (gap : Bool) : (Scan.run opening closing ⟨some prev, gap⟩ (c.text quote).toList).gap = true := by
  induction c using Condition.ind generalizing prev gap with
  | blank => cases hblank
  | constant b => cases hformed
  | compare n op p => cases hformed
  | among n negate p => cases hformed
  | between n low high => cases hformed
  | all cs ih =>
    rw [Condition.text, Condition.texts_eq]
    exact h.gap_group (by decide) (by decide) (fun c hc => hover.all hc)
      (fun c hc hblank hformed => ih c hc (hover.all hc) hblank hformed) hformed
  | any cs ih =>
    rw [Condition.text, Condition.texts_eq]
    exact h.gap_group (by decide) (by decide) (fun c hc => hover.any hc)
      (fun c hc hblank hformed => ih c hc (hover.any hc) hblank hformed) hformed

/-- **The text of a condition** is a boolean expression if and only if no part is missing. -/
theorem Scannable.isExpression_iff (h : Scannable quote opening closing column mark) (hover : c.Over quote column mark)
    (hblank : c.isBlank = false) : IsExpression column mark (c.text quote) ↔ c.wellFormed = true := by
  refine ⟨fun he => ?_, c.isExpression hover⟩
  by_contra hnot
  obtain ⟨last, -, hrun⟩ := h.complete he ')' false
  have hgap := h.gap_of_not_wellFormed c hover hblank (by simpa using hnot) ')' false
  rw [hrun] at hgap
  cases hgap

end

end NpsSdk.Lib.Sql
