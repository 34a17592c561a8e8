import NpsSdk.Nop.ConditionSyntax

/-!
# What conditions mean

The value of an expression tree, in terms of the results it speaks of, and the theorem that the evaluator returns
this value for every text of the tree.
-/

namespace NpsSdk.Nop

open NpsSdk.Lib

/-! ### Paths -/

/-- The names that a path goes through. -/
def pathSegments (raw : String) : List String := (split raw '.').tail

structure PlainSegment (segment : String) : Prop where
  ne_empty : segment ≠ ""
  not_proto : segment ≠ "__proto__"
  not_inherited : segment ∉ inheritedNames

structure PlainPath (raw : String) : Prop where
  root : startsWith raw "$." = true
  segments : ∀ segment ∈ pathSegments raw, PlainSegment segment
  depth : (pathSegments raw).length ≤ maxInputMappingDepth

def ownMember : Json → String → Option Json
  | .obj members, name => JsMap.find name members
  | _, _ => none

/-- What a path leads to, if there is anything. -/
def lookup (context : Context) : List String → Option Json
  | [] => none
  | nodeId :: fields => (context.get nodeId).join.bind fun result => fields.foldlM ownMember result

/-- The value of what a path leads to: what is missing is `null`. -/
def meaningOf (found : Option Json) : CondValue := (found.map CondValue.ofJson).getD .null

variable {raw : String} {context : Context}

theorem splitChars_ne_nil (sep : Char) (cs : List Char) : splitChars sep cs ≠ [] := by
  cases cs with
  | nil => exact List.cons_ne_nil _ _
  | cons c cs =>
    rw [splitChars]
    split_ifs
    · exact List.cons_ne_nil _ _
    · split <;> exact List.cons_ne_nil _ _

theorem split_of_root (h : startsWith raw "$." = true) :
    split raw '.' = "$" :: pathSegments raw ∧ pathSegments raw ≠ [] := by
  obtain ⟨cs, hcs⟩ := List.isPrefixOf_iff_prefix.1 h
  have hsplit : splitChars '.' raw.toList = ['$'] :: splitChars '.' cs := by
    rw [← hcs]
    exact @splitChars_append '.' ['$'] cs (by decide)
  rw [pathSegments, split, hsplit]
  exact ⟨rfl, fun hnil => splitChars_ne_nil '.' cs (List.map_eq_nil_iff.1 hnil)⟩

theorem PlainPath.pathParts_eq (h : PlainPath raw) : pathParts raw = "$" :: pathSegments raw := by
  have hall : ∀ segment ∈ split raw '.', decide (segment ≠ "") = true := by
    rw [(split_of_root h.root).1]
    intro segment hmem
    rcases List.mem_cons.1 hmem with rfl | hmem
    · decide
    · exact decide_eq_true (h.segments segment hmem).ne_empty
  rw [pathParts, List.filter_eq_self.2 hall, (split_of_root h.root).1]

theorem PlainPath.pathError_eq (h : PlainPath raw) : pathError raw = none := by
  obtain ⟨cs, hcs⟩ := List.isPrefixOf_iff_prefix.1 h.root
  have hblank : isBlank raw = false := by
    rw [isBlank, ← hcs]
    rfl
  have hdepth : ¬ maxInputMappingDepth + 1 < (pathParts raw).length := by
    rw [h.pathParts_eq, List.length_cons]
    have := h.depth
    omega
  rw [pathError, hblank, if_neg Bool.false_ne_true, if_neg (not_not.2 h.root), if_neg hdepth]

theorem PlainSegment.followPart_eq {segment : String} (h : PlainSegment segment) (v : Json) :
    followPart (.json v) segment = match ownMember v segment with
      | some w => .json w
      | none => .undefined := by
  cases v with
  | obj members =>
    have hnone : inherited segment = .undefined := by rw [inherited, if_neg h.not_proto, if_neg h.not_inherited]
    cases hfind : JsMap.find segment members <;> simp only [followPart, ownMember, hnone, hfind]
  | _ => rfl

theorem foldl_followPart_undefined (segments : List String) : segments.foldl followPart .undefined = .undefined := by
  induction segments with
  | nil => rfl
  | cons segment segments ih => exact ih

theorem foldl_followPart {segments : List String} (h : ∀ segment ∈ segments, PlainSegment segment) (v : Json) :
    segments.foldl followPart (.json v) = match segments.foldlM ownMember v with
      | some w => .json w
      | none => .undefined := by
  induction segments generalizing v with
  | nil => rfl
  | cons segment segments ih =>
    rw [List.foldl_cons, (h segment List.mem_cons_self).followPart_eq, List.foldlM_cons]
    cases ownMember v segment with
    | none => exact foldl_followPart_undefined segments
    | some w => exact ih (fun s hs => h s (List.mem_cons_of_mem _ hs)) w

/-- **A path of plain names** leads to own members only. -/
theorem PlainPath.ofResolved_eq (h : PlainPath raw) (context : Context) :
    CondValue.ofResolved (pathValue raw context) = meaningOf (lookup context (pathSegments raw)) := by
  have hne := (split_of_root h.root).2
  obtain ⟨nodeId, fields, hsegments⟩ := List.exists_cons_of_ne_nil hne
  have hplain : ∀ segment ∈ fields, PlainSegment segment := fun segment hmem =>
    h.segments segment (by rw [hsegments]; exact List.mem_cons_of_mem _ hmem)
  rw [pathValue, h.pathParts_eq, hsegments, lookup]
  dsimp only
  cases context.get nodeId with
  | none => rfl
  | some result =>
    cases result with
    | none => rfl
    | some v =>
      show CondValue.ofResolved (fields.foldl followPart (.json v)) = meaningOf (fields.foldlM ownMember v)
      rw [foldl_followPart hplain]
      cases fields.foldlM ownMember v <;> rfl

/-! ### Trees -/

/-- A bare value counts as true when it is not zero, not empty, or neither a number nor a text. -/
def CondValue.Truthy : CondValue → Prop
  | .null => False
  | .bool b => b = true
  | .number n => n ≠ 0
  | .string s => s ≠ ""
  | .builtin _ => True

/-- Two values of one type are equal; `NaN` equals nothing. -/
def CondValue.Equal (a b : CondValue) : Prop := a = b ∧ a ≠ .number .nan

/-- An order holds between two numbers or two texts only. -/
def CondValue.Ordered (number : JsDouble → JsDouble → Prop) (string : String → String → Prop) :
    CondValue → CondValue → Prop
  | .number a, .number b => number a b
  | .string a, .string b => string a b
  | _, _ => False

/-- What a comparison says of two values. -/
def ComparisonOp.Holds (op : ComparisonOp) (a b : CondValue) : Prop :=
  match op with
  | .eq => a.Equal b
  | .neq => ¬ a.Equal b
  | .gt => CondValue.Ordered (fun a b => b < a) (fun a b => ¬ nameLe a b) a b
  | .gte => CondValue.Ordered (fun a b => b ≤ a) (fun a b => nameLe b a) a b
  | .lt => CondValue.Ordered (fun a b => a < b) (fun a b => ¬ nameLe b a) a b
  | .lte => CondValue.Ordered (fun a b => a ≤ b) (fun a b => nameLe a b) a b

def Operand.meaning (context : Context) : Operand → CondValue
  | .path raw => meaningOf (lookup context (pathSegments raw))
  | .number raw => .number (stringToNumber raw)
  | .string raw => .string raw
  | .null => .null

def RightOperand.meaning (context : Context) : RightOperand → CondValue
  | .operand o => o.meaning context
  | .bool b => .bool b

/-- What an expression tree says of the results. -/
def Cond.Holds (context : Context) : Cond → Prop
  | .literal b => b = true
  | .operand o => (o.meaning context).Truthy
  | .comparison o op v => op.Holds (o.meaning context) (v.meaning context)
  | .not c => ¬ c.Holds context
  | .and a b => a.Holds context ∧ b.Holds context
  | .or a b => a.Holds context ∨ b.Holds context

def Operand.PlainPaths : Operand → Prop
  | .path raw => PlainPath raw
  | _ => True

def RightOperand.PlainPaths : RightOperand → Prop
  | .operand o => o.PlainPaths
  | .bool _ => True

def Cond.PlainPaths : Cond → Prop
  | .literal _ => True
  | .operand o => o.PlainPaths
  | .comparison o _ v => o.PlainPaths ∧ v.PlainPaths
  | .not c => c.PlainPaths
  | .and a b | .or a b => a.PlainPaths ∧ b.PlainPaths

/-! ### The evaluator -/

theorem CondValue.asTruthy_iff (v : CondValue) : v.asTruthy = true ↔ v.Truthy := by
  cases v with
  | number n =>
    have hne : n.eq 0 = true ↔ n = 0 := by
      simp only [JsDouble.eq, decide_eq_true_eq, and_iff_left_iff_imp]
      rintro rfl
      exact JsDouble.noConfusion
    simp [asTruthy, Truthy, ← hne]
  | _ => simp [asTruthy, Truthy]

theorem CondValue.eq_iff (a b : CondValue) : a.eq b = true ↔ a.Equal b := by
  unfold CondValue.eq Equal
  split
  · simp [JsDouble.eq]
  · rename_i hne
    rw [decide_eq_true_eq, iff_self_and]
    rintro rfl rfl
    exact hne _ _ rfl rfl

theorem CondValue.compare_iff (a b : CondValue) (op : ComparisonOp) : a.compare op b = true ↔ op.Holds a b := by
  cases op with
  | eq => exact a.eq_iff b
  | neq =>
    show (!a.eq b) = true ↔ ¬ a.Equal b
    rw [← a.eq_iff b, Bool.not_eq_true']
    exact (iff_of_eq (Bool.not_eq_true _)).symm
  | _ => cases a <;> cases b <;> simp [compare, ComparisonOp.Holds, CondValue.Ordered]

theorem Operand.value_eq {o : Operand} (h : o.PlainPaths) (context : Context) : o.value context = o.meaning context := by
  cases o with
  | path raw => exact PlainPath.ofResolved_eq h context
  | _ => rfl

theorem RightOperand.value_eq {v : RightOperand} (h : v.PlainPaths) (context : Context) :
    v.value context = v.meaning context := by
  cases v with
  | operand o => exact o.value_eq h context
  | bool b => rfl

theorem Cond.eval_iff {c : Cond} (h : c.PlainPaths) (context : Context) : c.eval context = true ↔ c.Holds context := by
  induction c with
  | literal b => exact Iff.rfl
  | operand o =>
    rw [eval, o.value_eq h]
    exact CondValue.asTruthy_iff _
  | comparison o op v =>
    rw [eval, o.value_eq h.1, v.value_eq h.2]
    exact CondValue.compare_iff _ _ op
  | not c ih => rw [eval, Bool.not_eq_true', ← Bool.not_eq_true, ih h, Holds]
  | and a b iha ihb => rw [eval, Bool.and_eq_true, iha h.1, ihb h.2, Holds]
  | or a b iha ihb => rw [eval, Bool.or_eq_true, iha h.1, ihb h.2, Holds]

theorem Operand.pathsOk {o : Operand} (h : o.PlainPaths) : PathsOk [o.token] := by
  intro raw hraw
  cases o with
  | path raw' =>
    cases List.mem_singleton.1 hraw
    exact PlainPath.pathError_eq h
  | _ => cases List.mem_singleton.1 hraw

theorem RightOperand.pathsOk {v : RightOperand} (h : v.PlainPaths) : PathsOk [v.token] := by
  cases v with
  | operand o => exact o.pathsOk h
  | bool b =>
    intro raw hraw
    cases b <;> cases List.mem_singleton.1 hraw

theorem Derives.pathsOk {level : Level} {c : Cond} {ts : List Token} (h : Derives level c ts) (hc : c.PlainPaths) :
    PathsOk ts := by
  induction h with
  | literal b =>
    intro raw hraw
    cases b <;> cases List.mem_singleton.1 hraw
  | operand o => exact o.pathsOk hc
  | comparison o op v => exact (o.pathsOk hc.1).append (PathsOk.cons (v.pathsOk hc.2) rfl)
  | parens _ ih =>
    refine PathsOk.cons ((ih hc).append fun raw hraw => ?_) rfl
    cases List.mem_singleton.1 hraw
  | not _ ih => exact PathsOk.cons (ih hc) rfl
  | ofNot _ ih => exact ih hc
  | and _ _ iha ihb => exact (iha hc.1).append (PathsOk.cons (ihb hc.2) rfl)
  | ofAnd _ ih => exact ih hc
  | or _ _ iha ihb => exact (iha hc.1).append (PathsOk.cons (ihb hc.2) rfl)

/-- **Meaning.**  For every text that spells a tree with plain paths, and every context, the evaluator returns the
truth value of the tree. -/
theorem evaluateCondition_meaning {c : Cond} (hc : c.PlainPaths) {ts : List Token} (hd : Derives .or c ts)
    {s : String} (hs : Layout ts s.toList) (context : Context) :
    ∃ b, evaluateCondition s context = .ok b ∧ (b = true ↔ c.Holds context) := by
  have hblank := hs.not_blank hd.ne_nil
  have hparse := @Derives.parse _ _ [] context hd (hd.pathsOk hc) .nil (parserFuel ts) (by unfold parserFuel; omega)
  refine ⟨c.eval context, ?_, c.eval_iff hc context⟩
  rw [List.append_nil] at hparse
  rw [evaluateCondition, hblank, if_neg Bool.false_ne_true, tokenize_of_layout hs hd]
  dsimp only
  rw [hparse]

/-! ### The tokens of a tree -/

/-- The tokens of a tree, with brackets around all of its parts. -/
def Cond.full : Cond → List Token
  | .literal b => [boolToken b]
  | .operand o => [o.token]
  | .comparison o op v => [o.token, .op op, v.token]
  | .not c => .not :: .lParen :: (c.full ++ [.rParen])
  | .and a b => .lParen :: (a.full ++ [.rParen]) ++ .and :: .lParen :: (b.full ++ [.rParen])
  | .or a b => .lParen :: (a.full ++ [.rParen]) ++ .or :: .lParen :: (b.full ++ [.rParen])

/-- The tokens of a tree within an expression of the level, with brackets where they are needed. -/
def Cond.minimal : Level → Cond → List Token
  | _, .literal b => [boolToken b]
  | _, .operand o => [o.token]
  | _, .comparison o op v => [o.token, .op op, v.token]
  | _, .not c => .not :: c.minimal .not
  | .not, .and a b => .lParen :: (a.minimal .and ++ .and :: b.minimal .and ++ [.rParen])
  | _, .and a b => a.minimal .and ++ .and :: b.minimal .and
  | .or, .or a b => a.minimal .or ++ .or :: b.minimal .or
  | _, .or a b => .lParen :: (a.minimal .or ++ .or :: b.minimal .or ++ [.rParen])

theorem Derives.lift {c : Cond} {ts : List Token} (h : Derives .not c ts) (level : Level) : Derives level c ts := by
  cases level with
  | or => exact .ofAnd (.ofNot h)
  | and => exact .ofNot h
  | not => exact h

theorem Cond.derives_minimal (c : Cond) (level : Level) : Derives level c (c.minimal level) := by
  induction c generalizing level with
  | literal b => cases level <;> exact (Derives.literal b).lift _
  | operand o => cases level <;> exact (Derives.operand o).lift _
  | comparison o op v => cases level <;> exact (Derives.comparison o op v).lift _
  | not c ih => cases level <;> exact (Derives.not (ih .not)).lift _
  | and a b iha ihb =>
    have hand : Derives .and (.and a b) _ := .and (iha .and) (ihb .and)
    cases level with
    | or => exact .ofAnd hand
    | and => exact hand
    | not => exact .parens (.ofAnd hand)
  | or a b iha ihb =>
    have hor : Derives .or (.or a b) _ := .or (iha .or) (ihb .or)
    cases level with
    | or => exact hor
    | and => exact .ofNot (.parens hor)
    | not => exact .parens hor

instance (segment : String) : Decidable (PlainSegment segment) :=
  decidable_of_iff (segment ≠ "" ∧ segment ≠ "__proto__" ∧ segment ∉ inheritedNames)
    ⟨fun ⟨h1, h2, h3⟩ => ⟨h1, h2, h3⟩, fun ⟨h1, h2, h3⟩ => ⟨h1, h2, h3⟩⟩

instance (raw : String) : Decidable (PlainPath raw) :=
  decidable_of_iff (startsWith raw "$." = true ∧ (∀ segment ∈ pathSegments raw, PlainSegment segment) ∧
      (pathSegments raw).length ≤ maxInputMappingDepth)
    ⟨fun ⟨h1, h2, h3⟩ => ⟨h1, h2, h3⟩, fun ⟨h1, h2, h3⟩ => ⟨h1, h2, h3⟩⟩

/-- Not flagged, or certain enough. -/
def flaggedTree : Cond :=
  .or (.not (.comparison (.path "$.check.flagged") .eq (.bool true)))
    (.comparison (.path "$.check.score") .gte (.operand (.number "0.5")))

def checked : Context := JsMap.empty.set "check" (some (.obj [("flagged", .bool true)]))

theorem flagged_meaning : ∃ b, evaluateCondition "! $.check.flagged==true||$.check.score >= 0.5 " checked = .ok b ∧
    (b = true ↔ flaggedTree.Holds checked) := by
  have hflagged : PlainPath "$.check.flagged" := by decide
  have hscore : PlainPath "$.check.score" := by decide
  have htokens : tokenizeFrom "" 60 "! $.check.flagged==true||$.check.score >= 0.5 ".toList =
      .ok (flaggedTree.minimal .or) := by decide
  have hplain : flaggedTree.PlainPaths := ⟨⟨hflagged, trivial⟩, hscore, trivial⟩
  refine evaluateCondition_meaning hplain (flaggedTree.derives_minimal .or)
    (layout_of_tokenizeFrom htokens (by decide) (by decide) fun raw hraw => ?_) checked
  obtain rfl : raw = "0.5" := by
    simpa [flaggedTree, Cond.minimal, Operand.token, RightOperand.token, boolToken] using hraw
  decide

end NpsSdk.Nop
