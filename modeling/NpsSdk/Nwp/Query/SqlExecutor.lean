import NpsSdk.Lib.SqlPieces
import NpsSdk.Nwp.Query.FilterTranslator

/-!
# Named parameters become positions

`expandNamedParameters`: every `@name` of a text is replaced by the placeholder of the next position, or by a list
of placeholders where the parameter is an array.
-/

namespace NpsSdk.Nwp.Query

open NpsSdk.Lib NpsSdk.Lib.Sql

section

variable (params : SqlParameters) (placeholder : ℕ → String)

/-- The rewritten text and the arguments; an argument is `undefined` where there is no such parameter. -/
def expandTokens : ℕ → List Token → String × List (Option FilterValue)
  | _, [] => ("", [])
  | counter, .char c :: rest =>
    let (rewritten, args) := expandTokens counter rest
    (String.singleton c ++ rewritten, args)
  | counter, .mark name :: rest =>
    match JsMap.get params name with
    | some (.arr values) =>
      if values.isEmpty then
        let (rewritten, args) := expandTokens counter rest
        ("(NULL)" ++ rewritten, args)
      else
        let holders := (List.range' (counter + 1) values.length).map placeholder
        let (rewritten, args) := expandTokens (counter + values.length) rest
        ("(" ++ join ", " holders ++ ")" ++ rewritten, values.map some ++ args)
    | value =>
      let (rewritten, args) := expandTokens (counter + 1) rest
      (placeholder (counter + 1) ++ rewritten, value :: args)

def expandNamedParameters (sql : String) : String × List (Option FilterValue) :=
  expandTokens params placeholder 0 (tokens sql.toList)

end

/-! ### Positions -/

/-- A part of a rewritten text: a text, or the placeholder of a position. -/
inductive Segment where
  | text (s : String)
  | position (i : ℕ)

namespace Segment

def render (placeholder : ℕ → String) : Segment → String
  | .text s => s
  | .position i => placeholder i

def position? : Segment → Option ℕ
  | .text _ => none
  | .position i => some i

end Segment

/-- What is bound for a parameter: an array item by item. -/
def spread : Option FilterValue → List (Option FilterValue)
  | some (.arr values) => values.map some
  | value => [value]

/-- The text of some segments. -/
def renderAll (placeholder : ℕ → String) (segments : List Segment) : String :=
  segments.foldr (fun s rest => s.render placeholder ++ rest) ""

/-- The placeholders of some positions, as a list is written. -/
def holderSegments : List ℕ → List Segment
  | [] => []
  | [i] => [.position i]
  | i :: j :: is => .position i :: .text ", " :: holderSegments (j :: is)

theorem renderAll_append (placeholder : ℕ → String) (a b : List Segment) :
    renderAll placeholder (a ++ b) = renderAll placeholder a ++ renderAll placeholder b := by
  induction a with
  | nil => exact String.empty_append.symm
  | cons s a ih =>
    show s.render placeholder ++ renderAll placeholder (a ++ b) = s.render placeholder ++ renderAll placeholder a ++ _
    rw [ih, String.append_assoc]

theorem renderAll_holderSegments (placeholder : ℕ → String) (is : List ℕ) :
    renderAll placeholder (holderSegments is) = join ", " (is.map placeholder) := by
  induction is with
  | nil => rfl
  | cons i is ih =>
    cases is with
    | nil => exact String.append_empty
    | cons j is =>
      show placeholder i ++ (", " ++ renderAll placeholder (holderSegments (j :: is))) = _
      rw [ih, ← String.append_assoc]
      rfl

theorem positions_holderSegments (is : List ℕ) : (holderSegments is).filterMap Segment.position? = is := by
  induction is with
  | nil => rfl
  | cons i is ih =>
    cases is with
    | nil => rfl
    | cons j is => exact congrArg (i :: ·) ih

variable (params : SqlParameters)

/-- Whatever the placeholders are, those of a rewritten text are for the positions after `counter`, one for each
argument, and the arguments are what is bound for the marks of the text, in their order. -/
def Positional (counter : ℕ) (ts : List Token) : Prop :=
  ∃ segments : List Segment, ∃ args : List (Option FilterValue),
    (∀ placeholder, expandTokens params placeholder counter ts = (renderAll placeholder segments, args)) ∧
    segments.filterMap Segment.position? = List.range' (counter + 1) args.length ∧
    args = (ts.filterMap Token.mark?).flatMap fun name => spread (JsMap.get params name)

theorem positional (counter : ℕ) (ts : List Token) : Positional params counter ts := by
  induction ts generalizing counter with
  | nil => exact ⟨[], [], fun _ => rfl, rfl, rfl⟩
  | cons t ts ih =>
    cases t with
    | char c =>
      obtain ⟨segments, args, hrender, hpositions, hargs⟩ := ih counter
      exact ⟨.text (String.singleton c) :: segments, args, fun placeholder => by
        rw [expandTokens, hrender]; rfl, hpositions, hargs⟩
    | mark name =>
      have hscalar : ∀ value, JsMap.get params name = value → (∀ values, value ≠ some (.arr values)) →
          Positional params counter (.mark name :: ts) := by
        intro value hvalue hne
        obtain ⟨segments, args, hrender, hpositions, hargs⟩ := ih (counter + 1)
        have hspread : spread value = [value] := by
          unfold spread
          split
          · rename_i values
            exact absurd rfl (hne values)
          · rfl
        refine ⟨.position (counter + 1) :: segments, value :: args, fun placeholder => ?_, ?_, ?_⟩
        · rw [expandTokens, hvalue]
          split
          · rename_i values
            exact absurd rfl (hne values)
          · rw [hrender]; rfl
        · show (counter + 1) :: segments.filterMap Segment.position? = List.range' (counter + 1) (args.length + 1)
          rw [hpositions, List.range'_succ]
        · show _ = spread (JsMap.get params name) ++ _
          rw [hvalue, hspread, hargs]
          rfl
      cases hvalue : JsMap.get params name with
      | none => exact hscalar none hvalue nofun
      | some v =>
        cases v with
        | arr values =>
          by_cases hempty : values.isEmpty = true
          · obtain ⟨segments, args, hrender, hpositions, hargs⟩ := ih counter
            refine ⟨.text "(NULL)" :: segments, args, fun placeholder => ?_, hpositions, ?_⟩
            · rw [expandTokens, hvalue]
              dsimp only
              rw [if_pos hempty, hrender]
              rfl
            · show _ = spread (JsMap.get params name) ++ _
              rw [hvalue, List.isEmpty_iff.1 hempty, hargs]
              rfl
          · obtain ⟨segments, args, hrender, hpositions, hargs⟩ := ih (counter + values.length)
            refine ⟨.text "(" :: (holderSegments (List.range' (counter + 1) values.length) ++ .text ")" :: segments),
              values.map some ++ args, fun placeholder => ?_, ?_, ?_⟩
            · rw [expandTokens, hvalue]
              dsimp only
              rw [if_neg hempty, hrender]
              show _ = ("(" ++ renderAll placeholder (_ ++ _), _)
              rw [renderAll_append, renderAll_holderSegments]
              show _ = ("(" ++ (_ ++ (")" ++ _)), _)
              simp only [String.append_assoc]
              rfl
            · show (holderSegments _ ++ _).filterMap Segment.position? = _
              rw [List.filterMap_append, positions_holderSegments]
              show _ ++ segments.filterMap Segment.position? = _
              rw [hpositions, List.length_append, List.length_map, ← List.range'_append_1]
              congr 2
              omega
            · show _ = spread (JsMap.get params name) ++ _
              rw [hvalue, hargs]
              rfl
        | null => exact hscalar _ hvalue nofun
        | bool b => exact hscalar _ hvalue nofun
        | num q => exact hscalar _ hvalue nofun
        | str s => exact hscalar _ hvalue nofun
        | obj members => exact hscalar _ hvalue nofun

end NpsSdk.Nwp.Query
