import NpsSdk.Nwp.BudgetTrimming
import NpsSdk.Wire.NwpFrames

/-!
# What lowering a limit changes

`MemoryNodeServer` builds a frame anew to lower its limit, out of the first eight of its fifteen fields.  The
cursor is among the others, so a client that follows `next_cursor` is given the first page again.
-/

namespace NpsSdk.Nwp

open NpsSdk.Lib Query

/-- A frame with all its fields. -/
structure SentQuery extends QueryFrame where
  anchorRef : Option String := none
  vectorSearch : Option Wire.VectorSearchOptions := none
  depth : Option ℚ := none
  autoAnchor : Option Bool := none
  stream : Option Bool := none
  aggregate : Option Json := none
  tokenBudget : Option ℚ := none
  tokenizer : Option String := none
  requestId : Option String := none

/-- The fields that a frame with a lowered limit is built without. -/
structure SentQuery.Unset (frame : SentQuery) : Prop where
  cursor : frame.cursor = none
  autoAnchor : frame.autoAnchor = none
  stream : frame.stream = none
  aggregate : frame.aggregate = none
  tokenBudget : frame.tokenBudget = none
  tokenizer : frame.tokenizer = none
  requestId : frame.requestId = none

namespace MemoryNodeServer

variable (server : MemoryNodeServer) (provider : SentQuery → Except String MemoryNodeQueryResult) (frame : SentQuery)

/-- The frame with the limit lowered to what the server allows. -/
def capped : SentQuery := { frame with limit := some (server.maxLimit.getD 1000) }

/-- The frame that the provider is asked for. -/
def capLimit : SentQuery :=
  match frame.limit with
  | none => frame
  | some limit =>
    let clamped := min limit (server.maxLimit.getD 1000)
    if clamped = limit then frame
    else {
      anchorRef := frame.anchorRef
      filter := frame.filter
      limit := some clamped
      offset := frame.offset
      orderBy := frame.orderBy
      fields := frame.fields
      vectorSearch := frame.vectorSearch
      depth := frame.depth
    }

/-- The frames that a client sends, each with the cursor of the answer before. -/
def sends : ℕ → Option SentQuery
  | 0 => some frame
  | k + 1 => (sends k).bind fun sent =>
    match provider (server.capLimit sent) with
    | .ok result => result.nextCursor.map fun c => { sent with cursor := some c }
    | .error _ => none

/-- The frames that the provider is asked for in the meantime. -/
def asks (k : ℕ) : Option SentQuery := (server.sends provider frame k).map server.capLimit

/-- Lowering the limit of a frame changes nothing else: not the frame, and not the pages that follow. -/
structure ClampsLimitOnly : Prop where
  kept : server.capLimit frame = server.capped frame
  followed : ∀ k, server.asks provider frame k = server.asks provider (server.capped frame) k

variable {server provider frame}

theorem capLimit_of_clamps (h : server.Clamps frame.toQueryFrame) : server.capLimit frame =
    { anchorRef := frame.anchorRef, filter := frame.filter, limit := some (server.maxLimit.getD 1000),
      offset := frame.offset, orderBy := frame.orderBy, fields := frame.fields, vectorSearch := frame.vectorSearch,
      depth := frame.depth } := by
  obtain ⟨limit, hlimit, hlt⟩ := h
  have hne : ¬ min limit (server.maxLimit.getD 1000) = limit := by
    rw [min_eq_right hlt.le]
    exact hlt.ne
  unfold capLimit
  rw [hlimit]
  dsimp only
  rw [if_neg hne, min_eq_right hlt.le]

theorem capLimit_capped : server.capLimit (server.capped frame) = server.capped frame := by
  unfold capLimit capped
  simp

theorem capLimit_eq_iff (h : server.Clamps frame.toQueryFrame) :
    server.capLimit frame = server.capped frame ↔ frame.Unset := by
  rw [capLimit_of_clamps h, capped]
  constructor
  · intro heq
    simp only [SentQuery.mk.injEq, QueryFrame.mk.injEq, true_and] at heq
    obtain ⟨hcursor, hautoAnchor, hstream, haggregate, hbudget, htokenizer, hid⟩ := heq
    exact ⟨hcursor.symm, hautoAnchor.symm, hstream.symm, haggregate.symm, hbudget.symm, htokenizer.symm, hid.symm⟩
  · intro hunset
    simp only [hunset.cursor, hunset.autoAnchor, hunset.stream, hunset.aggregate, hunset.tokenBudget,
      hunset.tokenizer, hunset.requestId]

/-- A client that gets no next cursor sends no second frame. -/
theorem asks_of_last (sent : SentQuery)
    (h : ∀ result, provider (server.capLimit sent) = .ok result → result.nextCursor = none) (k : ℕ) :
    server.asks provider sent (k + 1) = none := by
  have hsends : server.sends provider sent (k + 1) = none := by
    induction k with
    | zero =>
      rw [sends, sends, Option.bind_some]
      cases hresult : provider (server.capLimit sent) with
      | error e => rfl
      | ok result => simp [h result hresult]
    | succ k ih => rw [sends, ih, Option.bind_none]
  rw [asks, hsends, Option.map_none]

/-- **Lowering a limit changes nothing else exactly for frames without the other fields**, and only where there is
no second page. -/
theorem clampsLimitOnly_iff (server : MemoryNodeServer) (provider : SentQuery → Except String MemoryNodeQueryResult)
    (frame : SentQuery) :
    (server.Clamps frame.toQueryFrame → server.ClampsLimitOnly provider frame) ↔
      (server.Clamps frame.toQueryFrame → frame.Unset ∧
        ∀ result, provider (server.capped frame) = .ok result → result.nextCursor = none) := by
  refine forall_congr' fun hclamps => ?_
  constructor
  · intro h
    refine ⟨(capLimit_eq_iff hclamps).1 h.kept, fun result hresult => ?_⟩
    cases hcursor : result.nextCursor with
    | none => rfl
    | some c =>
      have hnext := h.followed 1
      have hsecond : server.Clamps { frame with cursor := some c }.toQueryFrame := hclamps
      simp only [asks, sends, Option.bind_some, h.kept, capLimit_capped, hresult, hcursor, Option.map_some,
        Option.some.injEq] at hnext
      rw [capLimit_of_clamps hsecond] at hnext
      have hlost := congrArg (fun sent : SentQuery => sent.cursor) hnext
      simp [capLimit, capped] at hlost
  · rintro ⟨hunset, hlast⟩
    have hkept := (capLimit_eq_iff hclamps).2 hunset
    refine ⟨hkept, fun k => ?_⟩
    cases k with
    | zero => simp [asks, sends, hkept, capLimit_capped]
    | succ k =>
      rw [asks_of_last frame (by rwa [hkept]), asks_of_last (server.capped frame) (by rwa [capLimit_capped])]

/-- The second request of a client that follows the cursor of a page. -/
theorem cursor_dropped : ¬ ∀ (server : MemoryNodeServer) (provider : SentQuery → Except String MemoryNodeQueryResult)
    (frame : SentQuery), server.Clamps frame.toQueryFrame → server.ClampsLimitOnly provider frame := by
  intro h
  have hkept := (h { provider := fun _ => .ok { rows := [] }, maxLimit := some 100, anchorId := "" }
    (fun _ => .ok { rows := [] }) { limit := some 5000, cursor := some "eyJvIjoxMDB9" } ⟨5000, rfl, by norm_num⟩).kept
  rw [capLimit_eq_iff ⟨5000, rfl, by norm_num⟩] at hkept
  cases hkept.cursor

end MemoryNodeServer

end NpsSdk.Nwp
