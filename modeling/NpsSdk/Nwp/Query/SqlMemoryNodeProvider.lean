import NpsSdk.Nwp.Query.SqlQueryBuilder

/-!
# The SQL memory node provider

`SqlMemoryNodeProvider`: one page of a query with the cursor of the next, and the loop of `stream`.  The database
is behind an executor, which is asked again for every page.
-/

namespace NpsSdk.Nwp.Query

open NpsSdk.Lib

/-- A row of a result: its columns by name. -/
abbrev SqlRow (V : Type) := List (String × V)

/-- What the database answers to the `n`-th query; `none` is an error. -/
abbrev SqlExecutor (V : Type) := ℕ → String → SqlParameters → Option (List (SqlRow V))

inductive QueryFailure where
  | thrown (e : Thrown)
  | database

structure SqlMemoryNodeProviderOptions where
  defaultLimit : Option ℚ := none
  maxLimit : Option ℚ := none

def SqlMemoryNodeProviderOptions.resolveLimits (opts : SqlMemoryNodeProviderOptions) : SqlQueryOptions where
  defaultLimit := opts.defaultLimit.getD 20
  maxLimit := opts.maxLimit.getD 1000

namespace SqlMemoryNodeProvider

open SqlQueryBuilder

variable {V : Type} (host : Host) (schema : SqlMemoryNodeSchema) (dialect : DatabaseDialect)
  (executor : SqlExecutor V) (opts : SqlMemoryNodeProviderOptions)

def execute (n : ℕ) (frame : QueryFrame) : Except QueryFailure (List (SqlRow V)) :=
  match build host schema dialect frame opts.resolveLimits with
  | .error e => .error (.thrown e)
  | .ok built =>
    match executor n built.sql built.params with
    | none => .error .database
    | some rows => .ok rows

def query (n : ℕ) (frame : QueryFrame) : Except QueryFailure (List (SqlRow V) × Option String) := do
  let rows ← execute host schema dialect executor opts n frame
  let limit := opts.resolveLimits.limitOf frame
  let nextCursor := if (rows.length : ℚ) = limit then encodeCursor host (decodeCursor host frame.cursor + limit)
    else none
  pure (rows, nextCursor)

/-- One turn of the loop of `stream`: the rows that are yielded and, if the loop goes on, the next cursor. -/
def streamTurn (frame : QueryFrame) (n : ℕ) (cursor : Option String) :
    Except QueryFailure (List (SqlRow V) × Option (Option String)) := do
  let pageLimit := opts.resolveLimits.limitOf frame
  let pageFrame := { frame with cursor, limit := some pageLimit }
  let rows ← execute host schema dialect executor opts n pageFrame
  if rows.isEmpty then pure ([], none)
  -- a page that is not full is the last one
  else if (rows.length : ℚ) = pageLimit then
    pure (rows, some (encodeCursor host (decodeCursor host cursor + rows.length)))
  else pure (rows, none)

end SqlMemoryNodeProvider

/-! ### Cursors are read back -/

namespace SqlQueryBuilder

variable {host : Host}

/-- What the host language is relied on for: bytes in UTF-8 and the cursor texts are read back. -/
structure ReadsCursors (host : Host) : Prop where
  utf8Text : ∀ s : List Char, host.utf8Text (s.flatMap String.utf8EncodeChar) = String.ofList s
  parse : ∀ n : ℕ, host.parse (String.ofList (cursorText host n)) = some (.obj [("o", .num n)])

theorem sextets_padCursor (cursor : List Char) : sextets (padCursor cursor) = sextets cursor := by
  have hmap : ∀ cs : List Char,
      sextets (cs.map fun c => if c = '-' then '+' else if c = '_' then '/' else c) = sextets cs := by
    intro cs
    induction cs with
    | nil => rfl
    | cons c cs ih =>
      rw [List.map_cons]
      by_cases hminus : c = '-'
      · subst hminus
        exact congrArg (62 :: ·) ih
      · by_cases hscore : c = '_'
        · subst hscore
          exact congrArg (63 :: ·) ih
        · rw [if_neg hminus, if_neg hscore, sextets, sextets, ih]
  have hpad : ∀ cs rest : List Char, sextets (cs ++ '=' :: rest) = sextets cs := by
    intro cs rest
    induction cs with
    | nil => rfl
    | cons c cs ih => rw [List.cons_append, sextets, sextets, ih]
  unfold padCursor
  dsimp only
  split
  · rw [hpad, hmap]
  · rw [hpad, hmap]
  · exact hmap cursor

theorem decodeCursor_encodeCursor_of_reads {n : ℕ}
    (hutf8 : ∀ s : List Char, host.utf8Text (s.flatMap String.utf8EncodeChar) = String.ofList s)
    (hparse : host.parse (String.ofList (cursorText host n)) = some (.obj [("o", .num n)])) :
    decodeCursor host (encodeCursor host n) = n := by
  unfold encodeCursor
  split_ifs with hn
  · have : n = 0 := by
      have : (0 : ℚ) ≤ n := Nat.cast_nonneg n
      exact_mod_cast le_antisymm hn this
    rw [this]
    rfl
  · unfold decodeCursor
    have hne : String.ofList (base64urlOfBytes ((cursorText host n).flatMap String.utf8EncodeChar)) ≠ "" := by
      intro hempty
      have hback := congrArg (fun s : String => bytesOfBase64 s.toList) hempty
      rw [String.toList_ofList, bytesOfBase64_base64urlOfBytes] at hback
      have hbrace : String.utf8EncodeChar '\x7b' = [123] := by decide
      have hhead : ∃ rest, cursorText host n = '\x7b' :: rest := ⟨_, rfl⟩
      obtain ⟨rest, hrest⟩ := hhead
      rw [hrest, List.flatMap_cons, hbrace] at hback
      exact absurd hback (List.cons_ne_nil _ _)
    rw [truthy, if_neg hne]
    dsimp only
    rw [bytesOfBase64, String.toList_ofList, sextets_padCursor, ← bytesOfBase64, bytesOfBase64_base64urlOfBytes,
      hutf8, hparse]
    show Int.tdiv (n : ℚ).num (n : ℚ).den = n
    simp

theorem decodeCursor_encodeCursor (hhost : ReadsCursors host) (n : ℕ) : decodeCursor host (encodeCursor host n) = n :=
  decodeCursor_encodeCursor_of_reads hhost.utf8Text (hhost.parse n)

/-! ### A host -/

def decimal (n : ℕ) : JsNumber := .ofNat n

/-- A host that knows the letters without accents, the natural numbers and the texts of cursors. -/
def sampleHost : Host where
  toLowerCase s := String.ofList (s.toList.map Char.toLower)
  toUpperCase s := String.ofList (s.toList.map Char.toUpper)
  print q := decimal q.num.toNat
  utf8Text bytes := (bytes.toByteArray.utf8Decode?.map fun cs => String.ofList cs.toList).getD ""
  parse s :=
    let cs := s.toList
    if cs.take 5 = "\x7b\"o\":".toList then some (.obj [("o", .num (Nat.ofDigitChars 10 (cs.drop 5).dropLast 0))])
    else none

theorem sampleHost_readsCursors : ReadsCursors sampleHost where
  utf8Text s := by
    show (Option.map _ (List.utf8Encode s).utf8Decode?).getD "" = _
    rw [List.utf8Decode?_utf8Encode]
    rfl
  parse n := by
    have hdigits : ((decimal n).text ++ ['\x7d']).dropLast = Nat.toDigits 10 n := List.dropLast_concat
    have hcs : (String.ofList (cursorText sampleHost n)).toList =
        "\x7b\"o\":".toList ++ ((decimal n).text ++ ['\x7d']) := by
      rw [String.toList_ofList, cursorText, List.append_assoc]
      simp [sampleHost]
    have htake : (String.ofList (cursorText sampleHost n)).toList.take 5 = "\x7b\"o\":".toList := by
      rw [hcs]
      exact List.take_left' rfl
    have hdrop : (String.ofList (cursorText sampleHost n)).toList.drop 5 = (decimal n).text ++ ['\x7d'] := by
      rw [hcs]
      exact List.drop_left' rfl
    show (if (String.ofList (cursorText sampleHost n)).toList.take 5 = _ then
      some (FilterValue.obj [("o", .num (Nat.ofDigitChars 10
        ((String.ofList (cursorText sampleHost n)).toList.drop 5).dropLast 0))]) else none) = _
    rw [if_pos htake, hdrop, hdigits, Nat.ofDigitChars_ten_toDigits]

end SqlQueryBuilder

end NpsSdk.Nwp.Query
