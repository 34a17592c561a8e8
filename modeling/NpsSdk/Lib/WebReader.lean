import NpsSdk.Lib.WebHost

/-!
# Reading web addresses

How `new URL` reads an `http` or `https` address: the scheme, any number of slashes of either kind, the
authority up to the next slash, question mark or number sign, and the path, in which dot segments are
resolved.  The reading of a host is a parameter, and so is the writing of a character of a path.

A text that goes on after another at the end of a segment has a path below that of the other, if it does not
go up.
-/

namespace NpsSdk.Lib.WebReader

open UrlHost (cleaned afterScheme afterUserinfo splitPort isPort isControlOrSpace isTabOrNewline)

/-! ### Parts -/

def isSlash (c : Char) : Bool := c = '/' || c = '\\'

def isEnd (c : Char) : Bool := isSlash c || c = '?' || c = '#'

structure Parts where
  secure : Bool
  authority : List Char
  /-- From the character that ends the authority. -/
  rest : List Char

/-- The scheme, and what follows it. -/
def readScheme (cs : List Char) : Option (Bool × List Char) :=
  match afterScheme "https".toList cs with
  | some rest => some (true, rest)
  | none => (afterScheme "http".toList cs).map fun rest => (false, rest)

def parts (cs : List Char) : Option Parts :=
  (readScheme cs).map fun r =>
    let body := r.2.dropWhile isSlash
    ⟨r.1, body.takeWhile (!isEnd ·), body.dropWhile (!isEnd ·)⟩

/-! ### The authority -/

/-- The port, unless it is the one of the scheme. -/
def portOf (secure : Bool) (digits : List Char) : Option ℕ :=
  if digits = [] then none
  else if digitsValue digits = (if secure then 443 else 80) then none
  else some (digitsValue digits)

section

variable (readHost : List Char → Option WebHost) (encode : Char → List Char)

def readAuthority (secure : Bool) (authority : List Char) : Option (WebHost × Option ℕ) :=
  match afterUserinfo authority with
  | none => none
  | some text =>
    match splitPort false text with
    | ([], _) => none
    | (host, none) => (readHost host).map fun h => (h, none)
    | (host, some digits) => if isPort digits then (readHost host).map fun h => (h, portOf secure digits) else none

/-! ### The path -/

/-- The pieces between slashes of either kind. -/
def splitSlashes : List Char → List (List Char)
  | [] => [[]]
  | c :: cs =>
    if isSlash c then [] :: splitSlashes cs
    else match splitSlashes cs with
      | [] => [[c]]
      | p :: ps => (c :: p) :: ps

def isSingleDot (piece : List Char) : Bool := lowerAscii piece ∈ [".".toList, "%2e".toList]

def isDoubleDot (piece : List Char) : Bool :=
  lowerAscii piece ∈ ["..".toList, ".%2e".toList, "%2e.".toList, "%2e%2e".toList]

/-- Adds a piece that is followed by a slash. -/
def addPiece (path : List (List Char)) (piece : List Char) : List (List Char) :=
  if isDoubleDot piece then path.dropLast
  else if isSingleDot piece then path
  else path ++ [piece.flatMap encode]

def addLast (path : List (List Char)) (piece : List Char) : List (List Char) :=
  if isDoubleDot piece then path.dropLast ++ [[]]
  else if isSingleDot piece then path ++ [[]]
  else path ++ [piece.flatMap encode]

/-- The segments of a path. -/
def segments (pieces : List (List Char)) : List (List Char) :=
  addLast encode (pieces.dropLast.foldl (addPiece encode) []) (pieces.getLastD [])

def pathText (segments : List (List Char)) : List Char := segments.flatMap fun s => '/' :: s

/-- The path of a text that stands between an authority and a query. -/
def pathOf (cs : List Char) : List Char := pathText (segments encode (splitSlashes cs.tail))

/-- The part of a text that stands before its query and its fragment. -/
def beforeQuery (cs : List Char) : List Char := cs.takeWhile fun c => c ≠ '?' && c ≠ '#'

/-- What stands for the path in a text. -/
def rawPath (cs : List Char) : Option (List Char) := (parts (cleaned cs)).map fun p => beforeQuery p.rest

/-- An `http` or `https` address. -/
def readWeb (cs : List Char) : Option WebUrl :=
  match parts (cleaned cs) with
  | none => none
  | some p =>
    (readAuthority readHost p.secure p.authority).map fun r =>
      ⟨p.secure, r.1, r.2, pathOf encode (beforeQuery p.rest)⟩

end

/-! ### Paths that go on -/

section paths

variable (encode : Char → List Char) {c : Char} {u v t : List Char} {ps qs base : List (List Char)}

theorem splitSlashes_ne_nil (cs : List Char) : splitSlashes cs ≠ [] := by
  cases cs with
  | nil => exact List.cons_ne_nil _ _
  | cons c cs =>
    rw [splitSlashes]
    split
    · exact List.cons_ne_nil _ _
    · split <;> exact List.cons_ne_nil _ _

theorem splitSlashes_append (hc : isSlash c = true) :
    splitSlashes (u ++ c :: v) = splitSlashes u ++ splitSlashes v := by
  induction u with
  | nil =>
    rw [List.nil_append]
    conv_lhs => rw [splitSlashes, if_pos hc]
    rfl
  | cons d u ih =>
    rw [List.cons_append, splitSlashes, splitSlashes]
    by_cases hd : isSlash d = true
    · rw [if_pos hd, if_pos hd, ih]
      rfl
    · rw [if_neg hd, if_neg hd, ih]
      cases hu : splitSlashes u with
      | nil => exact absurd hu (splitSlashes_ne_nil u)
      | cons p ps => rfl

theorem foldl_addPiece (base : List (List Char)) (hps : ∀ p ∈ ps, isDoubleDot p = false) :
    ∃ more, ps.foldl (addPiece encode) base = base ++ more := by
  induction ps generalizing base with
  | nil => exact ⟨[], (List.append_nil base).symm⟩
  | cons p ps ih =>
    obtain ⟨more, hmore⟩ := ih (addPiece encode base p) fun q hq => hps q (List.mem_cons_of_mem p hq)
    rw [List.foldl_cons, hmore, addPiece, hps p List.mem_cons_self, if_neg Bool.false_ne_true]
    split_ifs
    · exact ⟨more, rfl⟩
    · exact ⟨_, List.append_assoc _ _ _⟩

theorem segments_append (hne : qs ≠ []) (hqs : ∀ p ∈ qs, isDoubleDot p = false) : ∃ s more,
    segments encode (ps ++ qs) = ps.foldl (addPiece encode) [] ++ s :: more := by
  obtain ⟨more, hmore⟩ := foldl_addPiece encode (ps.foldl (addPiece encode) [])
    fun p hp => hqs p (List.dropLast_subset qs hp)
  have hlast : isDoubleDot (qs.getLast hne) = false := hqs _ (List.getLast_mem hne)
  have hadded : ∃ s, addLast encode (ps.foldl (addPiece encode) [] ++ more) (qs.getLast hne) =
      ps.foldl (addPiece encode) [] ++ more ++ [s] := by
    rw [addLast, hlast, if_neg Bool.false_ne_true]
    split_ifs
    · exact ⟨_, rfl⟩
    · exact ⟨_, rfl⟩
  obtain ⟨s, hs⟩ := hadded
  have hget : (ps ++ qs).getLastD [] = qs.getLast hne := by
    rw [List.getLastD_eq_getLast?, List.getLast?_append_of_ne_nil _ hne, List.getLast?_eq_some_getLast hne]
    rfl
  rw [segments, List.dropLast_append_of_ne_nil hne, List.foldl_append, hmore, hget, hs, List.append_assoc]
  cases more with
  | nil => exact ⟨s, [], rfl⟩
  | cons r more => exact ⟨r, more ++ [s], rfl⟩

theorem segments_eq (hne : ps ≠ []) : segments encode ps = ps.foldl (addPiece encode) [] ∨
    segments encode ps = ps.foldl (addPiece encode) [] ++ [[]] := by
  have hlast : ps.getLastD [] = ps.getLast hne := by
    rw [List.getLastD_eq_getLast?, List.getLast?_eq_some_getLast hne]
    rfl
  have hfold : ps.foldl (addPiece encode) [] =
      addPiece encode (ps.dropLast.foldl (addPiece encode) []) (ps.getLast hne) := by
    conv_lhs => rw [← List.dropLast_append_getLast hne, List.foldl_append]
    rfl
  rw [segments, hlast, hfold, addLast, addPiece]
  split_ifs
  · exact .inr rfl
  · exact .inr rfl
  · exact .inl rfl

/-- The second path is the first or, with a slash between, goes on after it. -/
def AtBoundary (p q : List Char) : Prop :=
  ∃ r, q = p ++ r ∧ (p.getLast? = some '/' ∨ r = [] ∨ r.head? = some '/')

/-- A text goes on with another at the end of a segment, and does not go up. -/
structure GoesOn (u t : List Char) : Prop where
  boundary : (∃ w c, u = w ++ [c] ∧ isSlash c = true) ∨ t = [] ∨ ∃ c v, t = c :: v ∧ isSlash c = true
  down : ∀ p ∈ splitSlashes t, isDoubleDot p = false

theorem segments_slash (ps : List (List Char)) :
    segments encode (ps ++ [[]]) = ps.foldl (addPiece encode) [] ++ [[]] := by
  rw [segments, List.dropLast_concat, List.getLastD_concat]
  rfl

theorem atBoundary_segments {start : List (List Char)} (hqs : qs ≠ []) (hdown : ∀ p ∈ qs, isDoubleDot p = false)
    (hstart : start = ps.foldl (addPiece encode) [] ∨ start = ps.foldl (addPiece encode) [] ++ [[]]) :
    AtBoundary (pathText start) (pathText (segments encode (ps ++ qs))) := by
  obtain ⟨s, more, hsegments⟩ := @segments_append encode ps qs hqs hdown
  rw [hsegments]
  rcases hstart with h | h
  · rw [h]
    refine ⟨pathText (s :: more), ?_, .inr (.inr rfl)⟩
    rw [pathText, List.flatMap_append]
    rfl
  · rw [h]
    refine ⟨s ++ pathText more, ?_, .inl ?_⟩
    · simp [pathText]
    · simp [pathText]

/-- **Paths at a boundary.**  The path of a text that goes on with another is at a boundary of the path of the
longer one. -/
theorem atBoundary_of_goesOn (h : GoesOn u t) : AtBoundary (pathOf encode u) (pathOf encode (u ++ t)) := by
  unfold pathOf
  rcases h.boundary with ⟨w, c, rfl, hc⟩ | rfl | ⟨c, v, rfl, hc⟩
  · cases w with
    | nil =>
      have hu : splitSlashes ([] ++ [c]).tail = [] ++ [[]] := rfl
      have ht : splitSlashes ([] ++ [c] ++ t).tail = [] ++ splitSlashes t := rfl
      rw [hu, ht]
      exact atBoundary_segments encode (splitSlashes_ne_nil t) h.down (.inr (segments_slash encode _))
    | cons d w =>
      have hu : splitSlashes (d :: w ++ [c]).tail = splitSlashes w ++ [[]] := splitSlashes_append hc
      have ht : splitSlashes (d :: w ++ [c] ++ t).tail = splitSlashes w ++ splitSlashes t := by
        rw [List.append_assoc]
        exact splitSlashes_append hc
      rw [hu, ht]
      exact atBoundary_segments encode (splitSlashes_ne_nil t) h.down (.inr (segments_slash encode _))
  · rw [List.append_nil]
    exact ⟨[], (List.append_nil _).symm, .inr (.inl rfl)⟩
  · have hdown : ∀ p ∈ splitSlashes v, isDoubleDot p = false := by
      intro p hp
      refine h.down p ?_
      rw [splitSlashes, if_pos hc]
      exact List.mem_cons_of_mem _ hp
    cases u with
    | nil =>
      have hu : splitSlashes ([] : List Char).tail = [] ++ [[]] := rfl
      have ht : splitSlashes ([] ++ c :: v).tail = [] ++ splitSlashes v := rfl
      rw [hu, ht]
      exact atBoundary_segments encode (splitSlashes_ne_nil v) hdown (.inr (segments_slash encode _))
    | cons d u =>
      have ht : splitSlashes (d :: u ++ c :: v).tail = splitSlashes u ++ splitSlashes v := splitSlashes_append hc
      rw [ht]
      exact atBoundary_segments encode (splitSlashes_ne_nil v) hdown (segments_eq encode (splitSlashes_ne_nil u))

end paths

end NpsSdk.Lib.WebReader
