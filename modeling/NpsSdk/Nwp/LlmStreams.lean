import NpsSdk.Nwp.LlmSettlement

/-!
# What a stream of a completion shows

The frames that the generator of a completion yields, and the assistant turn that it commits.  The fields
of a terminal frame stand in the last frame only; the receipt of a context is the one of a commit, and what
was committed is spelled by the frames.  An error code of a frame is passed on wherever it stands; it is not
one of these fields.
-/

namespace NpsSdk.Nwp.StatefulLlm

open NpsSdk.Lib
open ActionNode (Thrown)

/-! ### Frames -/

def contentOf (frames : List ChunkFrame) : List String :=
  frames.flatMap fun frame => frame.data.filterMap LlmCompleteStreamChunkDto.contentDelta

def toolCallsOf (frames : List ChunkFrame) : List LlmToolCallDto :=
  frames.flatMap fun frame => frame.data.flatMap fun chunk => chunk.toolCalls.getD []

def receiptsOf (frame : ChunkFrame) : List LlmContextReceiptDto :=
  frame.data.filterMap LlmCompleteStreamChunkDto.context

def turnOf (frames : List ChunkFrame) : LlmMessageDto where
  role := "assistant"
  content := if String.join (contentOf frames) = "" then none else some (String.join (contentOf frames))
  toolCalls := if toolCallsOf frames = [] then none else some (toolCallsOf frames)

/-- No chunk has a stop reason, an error, a usage or a receipt. -/
def isPlain (frame : ChunkFrame) : Bool := !frame.data.any hasTerminalField

/-- The generator has yielded its terminal frame, or it ends. -/
def Coordination.over (g : Coordination) : Bool :=
  match g.point with
  | .yielded true | .closing _ | .done _ => true
  | _ => false

/-! ### The invariant -/

def Coordination.Spells (g : Coordination) (frames : List ChunkFrame) : Prop :=
  g.content = contentOf frames ∧ g.toolCalls = toolCallsOf frames ∧ ∀ frame ∈ g.yields, isPlain frame = true

/-- Where the generator goes on, it has accumulated what it has yielded, and the frame it is about to. -/
def Coordination.Accumulated (g : Coordination) : Prop :=
  match g.point with
  | .start | .pulling | .yielded false => g.Spells g.yields
  | .authorizing sanitized _ => g.Spells (g.yields ++ [sanitized]) ∧ receiptsOf sanitized = []
  | .yielded true | .closing _ | .done _ => True

/-- What the generator has shown; `Committed` tells of which turns there are which receipts. -/
structure Shown (Committed : LlmMessageDto → LlmContextReceiptDto → Prop) (g : Coordination) : Prop where
  plain : ∀ frame ∈ g.yields.dropLast, isPlain frame = true
  stored : ∀ frame ∈ g.yields, ∀ receipt ∈ receiptsOf frame, Committed (turnOf g.yields) receipt
  accumulated : g.Accumulated

variable {R : Type} {options : StatefulLlmActionOptions} {storeOptions : LlmContextStoreOptions}
  {amb : StoreAmbient} {t t' : Turn} {g g' : Coordination} {frame : ChunkFrame}
  {C C' : LlmMessageDto → LlmContextReceiptDto → Prop}

theorem receiptsOf_plain (h : isPlain frame = true) : receiptsOf frame = [] := by
  rw [receiptsOf, List.filterMap_eq_nil_iff]
  intro chunk hchunk
  simp only [isPlain, Bool.not_eq_true', List.any_eq_false] at h
  have hnone := h chunk hchunk
  simp only [hasTerminalField, Bool.or_eq_true, not_or] at hnone
  exact Option.not_isSome_iff_eq_none.1 hnone.2

theorem Shown.mono (h : Shown C g) (hmono : ∀ turn receipt, C turn receipt → C' turn receipt) : Shown C' g where
  plain := h.plain
  stored frame hframe receipt hreceipt := hmono _ _ (h.stored frame hframe receipt hreceipt)
  accumulated := h.accumulated

theorem Shown.of_plain (hplain : ∀ frame ∈ g.yields, isPlain frame = true) (h : g.Accumulated) : Shown C g where
  plain frame hframe := hplain frame ((List.dropLast_sublist _).subset hframe)
  stored frame hframe receipt hreceipt := by
    rw [receiptsOf_plain (hplain frame hframe)] at hreceipt
    cases hreceipt
  accumulated := h

theorem Shown.of_over (h : Shown C g) (hyields : g'.yields = g.yields) (hover : g'.over = true) : Shown C g' where
  plain := by
    rw [hyields]
    exact h.plain
  stored := by
    rw [hyields]
    exact h.stored
  accumulated := by
    unfold Coordination.over at hover
    unfold Coordination.Accumulated
    split at hover
    · rename_i hpoint
      rw [hpoint]
      trivial
    · rename_i hpoint
      rw [hpoint]
      trivial
    · rename_i hpoint
      rw [hpoint]
      trivial
    · cases hover

theorem Shown.empty : Shown C {} :=
  .of_plain (fun _ h => nomatch h) ⟨rfl, rfl, fun _ h => nomatch h⟩

theorem Shown.over_of_terminal (h : Shown C g) (hframe : frame ∈ g.yields) (hterminal : isPlain frame = false) :
    g.over = true := by
  have hnot : ¬ ∀ frame ∈ g.yields, isPlain frame = true := by
    intro hplain
    rw [hplain frame hframe] at hterminal
    cases hterminal
  have haccumulated := h.accumulated
  unfold Coordination.Accumulated at haccumulated
  unfold Coordination.over
  split at haccumulated
  · exact absurd haccumulated.2.2 hnot
  · exact absurd haccumulated.2.2 hnot
  · exact absurd haccumulated.2.2 hnot
  · exact absurd haccumulated.1.2.2 hnot
  · rename_i hpoint
    rw [hpoint]
  · rename_i hpoint
    rw [hpoint]
  · rename_i hpoint
    rw [hpoint]

/-! ### Calls on the generator -/

theorem resume_yields (r : Resume) : (resume g r).yields = g.yields := by
  unfold resume
  split <;> rfl

theorem resume_over (r : Resume) (h : g.over = true) : (resume g r).over = true := by
  unfold Coordination.over at h
  unfold resume
  split
  · rename_i hpoint
    rw [hpoint] at h
    cases h
  · rfl
  · rfl
  · rename_i hpoint
    rw [hpoint] at h
    cases h
  · rfl
  · rfl
  · rfl
  · exact h
  · exact h

theorem resume_shown (r : Resume) (h : Shown C g) : Shown C (resume g r) := by
  have hspells : g.point = .start ∨ g.point = .yielded false → g.Spells g.yields := by
    have haccumulated := h.accumulated
    unfold Coordination.Accumulated at haccumulated
    rintro (hpoint | hpoint)
    · rw [hpoint] at haccumulated
      exact haccumulated
    · rw [hpoint] at haccumulated
      exact haccumulated
  unfold resume
  split
  · rename_i hpoint
    exact ⟨h.plain, h.stored, hspells (.inl hpoint)⟩
  · exact h.of_over rfl rfl
  · exact h.of_over rfl rfl
  · rename_i hpoint
    exact ⟨h.plain, h.stored, hspells (.inr hpoint)⟩
  · exact h.of_over rfl rfl
  · exact h.of_over rfl rfl
  · exact h.of_over rfl rfl
  · exact h
  · exact ⟨h.plain, h.stored, h.accumulated⟩

theorem yields_shown {last : Bool}
    (h : Shown C { g with yields := g.yields ++ [frame], point := .yielded last }) :
    Shown C (yields g frame last) := by
  unfold yields
  dsimp only
  split
  · exact h
  · exact resume_shown _ ⟨h.plain, h.stored, h.accumulated⟩

theorem yields_plain (hplain : ∀ frame ∈ g.yields, isPlain frame = true) (hframe : isPlain frame = true)
    (hcontent : g.content = contentOf (g.yields ++ [frame]))
    (htoolCalls : g.toolCalls = toolCallsOf (g.yields ++ [frame])) : Shown C (yields g frame false) := by
  have hall : ∀ frame' ∈ g.yields ++ [frame], isPlain frame' = true := by
    intro frame' hmem
    rcases List.mem_append.1 hmem with hmem | hmem
    · exact hplain frame' hmem
    · rw [List.mem_singleton.1 hmem]
      exact hframe
  exact yields_shown (.of_plain hall ⟨hcontent, htoolCalls, hall⟩)

theorem yields_last (hplain : ∀ frame ∈ g.yields, isPlain frame = true)
    (hstored : ∀ receipt ∈ receiptsOf frame, C (turnOf (g.yields ++ [frame])) receipt) :
    Shown C (yields g frame true) := by
  refine yields_shown ⟨?_, ?_, trivial⟩
  · show ∀ frame' ∈ (g.yields ++ [frame]).dropLast, isPlain frame' = true
    rw [List.dropLast_concat]
    exact hplain
  · intro frame' hmem receipt hreceipt
    rcases List.mem_append.1 hmem with hmem | hmem
    · rw [receiptsOf_plain (hplain frame' hmem)] at hreceipt
      cases hreceipt
    · rw [List.mem_singleton.1 hmem] at hreceipt
      exact hstored receipt hreceipt

/-! ### Blocks of the generator -/

/-- The turn goes on with a generator whose frames are shown. -/
structure Streams (C : LlmMessageDto → LlmContextReceiptDto → Prop) (t t' : Turn) : Prop where
  reservation : t'.call.reservation = t.call.reservation
  streaming : ∃ g, t'.call.phase = .streaming g ∧ Shown C g

structure Ends (t : Turn) (g : Coordination) (t' : Turn) : Prop where
  reservation : t'.call.reservation = t.call.reservation
  streaming : ∃ g', t'.call.phase = .streaming g' ∧ g'.yields = g.yields ∧ g'.over = true

theorem Ends.streams (h : Ends t g t') (hg : Shown C g) : Streams C t t' where
  reservation := h.reservation
  streaming := by
    obtain ⟨g', hphase, hyields, hover⟩ := h.streaming
    exact ⟨g', hphase, hg.of_over hyields hover⟩

theorem abort_reservation (storeOptions : LlmContextStoreOptions) (amb : StoreAmbient) (t : Turn)
    (errorCode : String) : (abort storeOptions amb t errorCode).2.call.reservation = t.call.reservation := by
  unfold abort
  split <;> rfl

theorem commit_reservation (storeOptions : LlmContextStoreOptions) (amb : StoreAmbient) (t : Turn)
    (assistant : LlmMessageDto) : (commit storeOptions amb t assistant).2.call.reservation = t.call.reservation := by
  unfold commit
  split <;> rfl

theorem finallyBlock_ends {ending : Ending} : Ends t g (finallyBlock storeOptions amb t g ending) := by
  have hreservation := abort_reservation storeOptions amb t NWP_NODE_UNAVAILABLE
  unfold finallyBlock
  split
  · exact ⟨rfl, _, rfl, rfl, rfl⟩
  · split
    · rename_i heq
      rw [heq] at hreservation
      exact ⟨hreservation, _, rfl, rfl, rfl⟩
    · rename_i heq
      rw [heq] at hreservation
      exact ⟨hreservation, _, rfl, rfl, rfl⟩

theorem closed_ends {ending : Ending} {answer : Except Thrown Unit} :
    Ends t g (closed storeOptions amb t g ending answer) := by
  unfold closed
  split
  · exact finallyBlock_ends
  · exact finallyBlock_ends

theorem throwInLoop_ends {thrown : Thrown} : Ends t g (throwInLoop t g thrown) := ⟨rfl, _, rfl, rfl, rfl⟩

theorem abortInLoop_ends {thrown : Thrown} : Ends t g (abortInLoop storeOptions amb t g thrown) := by
  have hreservation := abort_reservation storeOptions amb t (abortCode thrown)
  unfold abortInLoop
  split
  · rename_i heq
    rw [heq] at hreservation
    exact ⟨hreservation, _, rfl, rfl, rfl⟩
  · rename_i heq
    rw [heq] at hreservation
    exact ⟨hreservation, _, rfl, rfl, rfl⟩

/-- What a block that ends the generator shows, whatever it has accumulated. -/
theorem Ends.shows (h : Ends t g' t') (hg : Shown C g) (hyields : g'.yields = g.yields) : Streams C t t' where
  reservation := h.reservation
  streaming := by
    obtain ⟨g'', hphase, hsame, hover⟩ := h.streaming
    exact ⟨g'', hphase, hg.of_over (hsame.trans hyields) hover⟩

variable {sanitized : ChunkFrame}

theorem terminal_streams (hg : Shown C g)
    (hspells : g'.Spells (g.yields ++ [sanitized])) (hyields : g'.yields = g.yields)
    (hnone : receiptsOf sanitized = []) : Streams C t (terminal storeOptions amb t g' sanitized) := by
  obtain ⟨hcontent, htoolCalls, hplain⟩ := hspells
  unfold terminal
  dsimp only
  split
  · have hreservation := abort_reservation storeOptions amb t (sanitized.errorCode.getD NWP_NODE_UNAVAILABLE)
    split
    · rename_i heq
      rw [heq] at hreservation
      exact ⟨hreservation, _, rfl, hg.of_over hyields rfl⟩
    · rename_i heq
      rw [heq] at hreservation
      refine ⟨hreservation, _, rfl, yields_last hplain ?_⟩
      intro receipt hreceipt
      change receipt ∈ receiptsOf sanitized at hreceipt
      rw [hnone] at hreceipt
      cases hreceipt
  · split
    · exact throwInLoop_ends.shows hg hyields
    · refine ⟨rfl, _, rfl, .of_plain hplain ⟨⟨?_, ?_, hplain⟩, hnone⟩⟩
      · show g'.content = contentOf (g'.yields ++ [sanitized])
        rw [hyields, hcontent]
      · show g'.toolCalls = toolCallsOf (g'.yields ++ [sanitized])
        rw [hyields, htoolCalls]

theorem filterMap_withContext {chunks : List (LlmCompleteStreamChunkDto R)} :
    (chunks.map fun chunk => (chunk.withContext none : LlmCompleteStreamChunkDto LlmContextReceiptDto)).filterMap
        LlmCompleteStreamChunkDto.contentDelta = chunks.filterMap LlmCompleteStreamChunkDto.contentDelta := by
  rw [List.filterMap_map]
  rfl

theorem isPlain_withContext {chunks : List (LlmCompleteStreamChunkDto R)}
    (h : chunks.any hasTerminalField = false) (hdata : frame.data = chunks.map (·.withContext none)) :
    isPlain frame = true := by
  rw [isPlain, hdata, Bool.not_eq_true', List.any_eq_false]
  intro chunk hchunk
  obtain ⟨supplied, hsupplied, rfl⟩ := List.mem_map.1 hchunk
  have hnone : ¬ hasTerminalField supplied = true := List.any_eq_false.1 h supplied hsupplied
  simp only [hasTerminalField, Bool.or_eq_true, not_or] at hnone
  simp [hasTerminalField, LlmCompleteStreamChunkDto.withContext, hnone.1.1.1, hnone.1.1.2, hnone.1.2]

theorem loopBody_streams {f : SuppliedFrame R} (hg : Shown C g) (hspells : g.Spells g.yields) :
    Streams C t (loopBody storeOptions amb t g f) := by
  obtain ⟨hcontent, htoolCalls, hplain⟩ := hspells
  unfold loopBody
  split
  · exact throwInLoop_ends.streams hg
  split
  · exact throwInLoop_ends.streams hg
  split
  · exact throwInLoop_ends.streams hg
  rename_i chunks hchunks
  split
  · exact throwInLoop_ends.streams hg
  rename_i hfields
  dsimp only
  have hnone : ∀ frame : ChunkFrame, frame.data = chunks.map (·.withContext none) → receiptsOf frame = [] := by
    intro frame hdata
    rw [receiptsOf, hdata, List.filterMap_map]
    exact List.filterMap_eq_nil_iff.2 fun _ _ => rfl
  have hspelled : ∀ frame : ChunkFrame, frame.data = chunks.map (·.withContext none) →
      g.content ++ chunks.filterMap LlmCompleteStreamChunkDto.contentDelta = contentOf (g.yields ++ [frame]) ∧
        (g.toolCalls ++ chunks.flatMap fun chunk => chunk.toolCalls.getD []) = toolCallsOf (g.yields ++ [frame]) := by
    intro frame hdata
    constructor
    · rw [hcontent, contentOf, contentOf, List.flatMap_append, List.flatMap_singleton, hdata, filterMap_withContext]
    · rw [htoolCalls, toolCallsOf, toolCallsOf, List.flatMap_append, List.flatMap_singleton, hdata, List.flatMap_map]
      rfl
  split
  · obtain ⟨hspellsContent, hspellsCalls⟩ := hspelled { f with data := chunks.map (·.withContext none) } rfl
    exact terminal_streams hg ⟨hspellsContent, hspellsCalls, hplain⟩ rfl (hnone _ rfl)
  · rename_i hlast
    have hfieldless : chunks.any hasTerminalField = false := by
      by_contra hany
      exact hfields ⟨hlast, Bool.not_eq_false _ ▸ hany⟩
    obtain ⟨hspellsContent, hspellsCalls⟩ := hspelled (rewriteStreamFrame
      { f with data := chunks.map (·.withContext none) } f.errorCode) rfl
    exact ⟨rfl, _, rfl, yields_plain hplain (isPlain_withContext hfieldless rfl) hspellsContent hspellsCalls⟩

/-! ### The commit -/

theorem map_modify_eq {α β : Type} {f : α → α} {p : α → β} (h : ∀ a, p (f a) = p a) (l : List α) (i : ℕ) :
    (l.modify i f).map p = l.map p := by
  induction l generalizing i with
  | nil => simp
  | cons a l ih =>
    cases i with
    | zero => simp [h]
    | succ i => simp [ih]

theorem mem_modify {α : Type} {f : α → α} {l : List α} {i : ℕ} {a : α} (h : a ∈ l.modify i f) :
    a ∈ l ∨ ∃ b ∈ l, a = f b := by
  obtain ⟨j, hj⟩ := List.mem_iff_getElem?.1 h
  rw [List.getElem?_modify] at hj
  obtain ⟨b, hb, rfl⟩ := Option.map_eq_some_iff.1 hj
  split
  · exact .inr ⟨b, List.mem_of_getElem? hb, rfl⟩
  · exact .inl (List.mem_of_getElem? hb)

variable {receipt : LlmContextReceiptDto}

theorem spelled_of_receipt {frames : List ChunkFrame} {index : ℕ}

    (hdata : frame.data = sanitized.data.modify index (·.withContext (some receipt))) :
    contentOf (frames ++ [frame]) = contentOf (frames ++ [sanitized]) ∧
      toolCallsOf (frames ++ [frame]) = toolCallsOf (frames ++ [sanitized]) := by
  constructor
  · have hsame := congrArg (List.filterMap id) (map_modify_eq (f := (·.withContext (some receipt)))
      (p := LlmCompleteStreamChunkDto.contentDelta) (fun _ => rfl) sanitized.data index)
    rw [List.filterMap_map, List.filterMap_map] at hsame
    simp only [contentOf, List.flatMap_append, List.flatMap_singleton, hdata]
    rw [show sanitized.data.filterMap LlmCompleteStreamChunkDto.contentDelta = _ from hsame.symm]
    rfl
  · have hsame := congrArg List.flatten (map_modify_eq (f := (·.withContext (some receipt)))
      (p := fun chunk : LlmCompleteStreamChunkDto LlmContextReceiptDto => chunk.toolCalls.getD [])
      (fun _ => rfl) sanitized.data index)
    rw [← List.flatMap_def, ← List.flatMap_def] at hsame
    rw [toolCallsOf, toolCallsOf, List.flatMap_append, List.flatMap_append, List.flatMap_singleton,
      List.flatMap_singleton, hdata, hsame]

theorem receiptsOf_of_receipt {index : ℕ} {receipt receipt' : LlmContextReceiptDto}
    (hdata : frame.data = sanitized.data.modify index (·.withContext (some receipt)))
    (hnone : receiptsOf sanitized = []) (h : receipt' ∈ receiptsOf frame) : receipt' = receipt := by
  obtain ⟨chunk, hchunk, hsome⟩ := List.mem_filterMap.1 h
  rw [hdata] at hchunk
  rcases mem_modify hchunk with hold | ⟨supplied, -, rfl⟩
  · have hmem : receipt' ∈ receiptsOf sanitized := List.mem_filterMap.2 ⟨chunk, hold, hsome⟩
    rw [hnone] at hmem
    cases hmem
  · exact (Option.some.inj hsome).symm

theorem commit_ok_of_eq {assistant : LlmMessageDto} (h : commit storeOptions amb t assistant = (.ok receipt, t')) :
    Nwp.commit storeOptions amb t.store t.call.reservation assistant = (.ok receipt, t'.store) := by
  unfold commit at h
  split at h
  · cases h
  · rename_i hok
    cases h
    exact hok

theorem commitStream_streams {index : ℕ} {answer : Except Thrown Unit} (hg : Shown C g)
    (hspells : g.Spells (g.yields ++ [sanitized])) (hnone : receiptsOf sanitized = [])
    (hC : answer = .ok () → ∀ turn receipt, Nwp.commit storeOptions amb t.store t.call.reservation turn =
      (.ok receipt, (commitStream options storeOptions amb t g sanitized index answer).store) → C turn receipt) :
    Streams C t (commitStream options storeOptions amb t g sanitized index answer) := by
  obtain ⟨hcontent, htoolCalls, hplain⟩ := hspells
  unfold commitStream at hC ⊢
  split at hC
  · exact abortInLoop_ends.streams hg
  · rename_i hauthorized
    have hanswer : answer = .ok () := (checkAuthorization_ok (unlessAborted_ok hauthorized).1).2
    have hreservation := commit_reservation storeOptions amb t (assistantTurn g)
    split at hC
    · rename_i e t' heq
      rw [heq] at hreservation
      have hends : Ends t' g (abortInLoop storeOptions (laterAmbient amb) t' g (mapStoreError e)) :=
        abortInLoop_ends
      exact ⟨hends.reservation.trans hreservation, (hends.streams hg).streaming⟩
    · rename_i receipt t' heq
      rw [heq] at hreservation
      have hdata : (rewriteStreamFrame { sanitized with
          data := sanitized.data.modify index (·.withContext (some receipt)) } sanitized.errorCode).data =
          sanitized.data.modify index (·.withContext (some receipt)) := rfl
      refine ⟨hreservation, _, rfl, yields_last hplain ?_⟩
      generalize rewriteStreamFrame { sanitized with
        data := sanitized.data.modify index (·.withContext (some receipt)) } sanitized.errorCode = frame at hdata ⊢
      have hturn : assistantTurn g = turnOf (g.yields ++ [frame]) := by
        obtain ⟨hsameContent, hsameCalls⟩ := spelled_of_receipt hdata
        rw [assistantTurn, turnOf, hsameContent, hsameCalls, ← hcontent, ← htoolCalls]
      intro receipt' hreceipt'
      rw [receiptsOf_of_receipt hdata hnone hreceipt']
      show C (turnOf (g.yields ++ [frame])) receipt
      rw [← hturn]
      have hcommitted := commit_ok_of_eq heq
      exact hC hanswer _ _ hcommitted

/-! ### Calls -/

def CallShown (C : LlmMessageDto → LlmContextReceiptDto → Prop) (c : LlmCall) : Prop :=
  ∀ g, c.phase = .streaming g → Shown C g

structure Onward (c c' : LlmCall) : Prop where
  reservation : c'.reservation = c.reservation
  afterwards : ∀ g, c.phase = .streaming g → g.over = true →
    ∃ g', c'.phase = .streaming g' ∧ g'.yields = g.yields ∧ g'.over = true

theorem Onward.refl (c : LlmCall) : Onward c c := ⟨rfl, fun g hphase hover => ⟨g, hphase, rfl, hover⟩⟩

theorem Onward.trans {c c' c'' : LlmCall} (h : Onward c c') (h' : Onward c' c'') : Onward c c'' where
  reservation := h'.reservation.trans h.reservation
  afterwards g hphase hover := by
    obtain ⟨g', hphase', hyields', hover'⟩ := h.afterwards g hphase hover
    obtain ⟨g'', hphase'', hyields'', hover''⟩ := h'.afterwards g' hphase' hover'
    exact ⟨g'', hphase'', hyields''.trans hyields', hover''⟩

theorem Streams.onward (h : Streams C t t') (hphase : t.call.phase = .streaming g) (hover : g.over = false) :
    Onward t.call t'.call ∧ CallShown C t'.call := by
  obtain ⟨g', hphase', hshown⟩ := h.streaming
  constructor
  · refine ⟨h.reservation, fun g'' hphase'' hover'' => ?_⟩
    rw [hphase] at hphase''
    cases hphase''
    rw [hover] at hover''
    cases hover''
  · intro g'' hphase''
    rw [hphase'] at hphase''
    cases hphase''
    exact hshown

theorem Ends.onward (h : Ends t g t') (hphase : t.call.phase = .streaming g) (hg : Shown C g) :
    Onward t.call t'.call ∧ CallShown C t'.call := by
  obtain ⟨g', hphase', hyields, hover⟩ := h.streaming
  constructor
  · refine ⟨h.reservation, fun g'' hphase'' _ => ?_⟩
    rw [hphase] at hphase''
    cases hphase''
    exact ⟨g', hphase', hyields, hover⟩
  · intro g'' hphase''
    rw [hphase'] at hphase''
    cases hphase''
    exact hg.of_over hyields hover

theorem onward_of_silent (hreservation : t'.call.reservation = t.call.reservation)
    (hbefore : ∀ g, t.call.phase ≠ .streaming g) (hafter : ∀ g, t'.call.phase = .streaming g → g = {}) :
    Onward t.call t'.call ∧ CallShown C t'.call := by
  refine ⟨⟨hreservation, fun g hphase => absurd hphase (hbefore g)⟩, fun g hphase => ?_⟩
  rw [hafter g hphase]
  exact .empty

variable (storeOptions amb t) in
theorem abortAndFinish_silent (errorCode : String) (outcome : Except Thrown Completion) :
    (abortAndFinish storeOptions amb t errorCode outcome).call.reservation = t.call.reservation ∧
      ∀ g, (abortAndFinish storeOptions amb t errorCode outcome).call.phase = .streaming g → g = {} := by
  have hreservation := abort_reservation storeOptions amb t errorCode
  unfold abortAndFinish
  split
  · rename_i heq
    rw [heq] at hreservation
    exact ⟨hreservation, fun _ hphase => by cases hphase⟩
  · rename_i heq
    rw [heq] at hreservation
    exact ⟨hreservation, fun _ hphase => by cases hphase⟩

variable (storeOptions amb t) in
theorem executed_silent (answer : Except Thrown (Option (ActionExecutionResult R))) :
    (executed storeOptions amb t answer).call.reservation = t.call.reservation ∧
      ∀ g, (executed storeOptions amb t answer).call.phase = .streaming g → t.call.phase = .executing → g = {} := by
  have hfinish : ∀ {errorCode : String} {outcome : Except Thrown Completion},
      (abortAndFinish storeOptions amb t errorCode outcome).call.reservation = t.call.reservation ∧
        ∀ g, (abortAndFinish storeOptions amb t errorCode outcome).call.phase = .streaming g →
          t.call.phase = .executing → g = {} := by
    intro errorCode outcome
    have hfinished := abortAndFinish_silent storeOptions amb t errorCode outcome
    exact ⟨hfinished.1, fun g hphase _ => hfinished.2 g hphase⟩
  unfold executed
  split
  · exact hfinish
  · split
    · exact ⟨rfl, fun g hphase _ => by cases hphase⟩
    · exact hfinish
  · split
    · split
      · refine ⟨rfl, fun g hphase _ => ?_⟩
        cases hphase
        rfl
      · exact hfinish
    · split
      · exact hfinish
      · dsimp only
        split
        · exact hfinish
        · exact ⟨rfl, fun g hphase _ => by cases hphase⟩

variable (options storeOptions amb t) in
theorem commitResponse_silent (response : LlmCompleteActionResponse LlmContextReceiptDto) (anchorRef : String)
    (tokenEst : Option ℚ) (answer : Except Thrown Unit) :
    (commitResponse options storeOptions amb t response anchorRef tokenEst answer).call.reservation =
        t.call.reservation ∧
      ∀ g, (commitResponse options storeOptions amb t response anchorRef tokenEst answer).call.phase =
        .streaming g → g = {} := by
  unfold commitResponse
  split
  · exact abortAndFinish_silent _ _ _ _ _
  · have hreservation := commit_reservation storeOptions amb t
      { role := "assistant", content := response.content, toolCalls := response.toolCalls }
    split
    · rename_i heq
      rw [heq] at hreservation
      exact ⟨hreservation, fun _ hphase => by cases hphase⟩
    · rename_i heq
      rw [heq] at hreservation
      exact ⟨hreservation, fun _ hphase => by cases hphase⟩

/-- **One turn** of a call. -/
theorem callStep_onward {e : Event R} (h : CallShown C t.call)
    (hC : ∀ amb i, e = .authorized amb i (.ok ()) → ∀ turn receipt,
      Nwp.commit storeOptions amb t.store t.call.reservation turn =
        (.ok receipt, (callStep options storeOptions t e).store) → C turn receipt) :
    Onward t.call (callStep options storeOptions t e).call ∧ CallShown C (callStep options storeOptions t e).call := by
  have hsame : Onward t.call t.call ∧ CallShown C t.call := ⟨.refl _, h⟩
  cases e with
  | complete amb agentNid frame => exact hsame
  | release amb agentNid contextId baseVersion key => exact hsame
  | sweep now => exact hsame
  | aborted j => exact ⟨⟨rfl, (Onward.refl t.call).afterwards⟩, h⟩
  | executed amb j answer =>
    unfold callStep
    dsimp only
    split
    · rename_i hphase
      obtain ⟨hreservation, hsilent⟩ := executed_silent storeOptions amb t answer
      refine onward_of_silent hreservation (fun g hstreaming => ?_) fun g hstreaming => hsilent g hstreaming hphase
      rw [hphase] at hstreaming
      cases hstreaming
    · exact hsame
  | authorized amb j answer =>
    unfold callStep at hC ⊢
    dsimp only at hC ⊢
    split at hC
    · rename_i response anchorRef tokenEst hphase
      obtain ⟨hreservation, hsilent⟩ :=
        commitResponse_silent options storeOptions amb t response anchorRef tokenEst answer
      refine onward_of_silent hreservation (fun g hstreaming => ?_) hsilent
      rw [hphase] at hstreaming
      cases hstreaming
    · rename_i g hphase
      split at hC
      · rename_i sanitized index hpoint
        have hshown := h g hphase
        have haccumulated := hshown.accumulated
        unfold Coordination.Accumulated at haccumulated
        rw [hpoint] at haccumulated
        refine (commitStream_streams hshown haccumulated.1 haccumulated.2 fun hanswer => ?_).onward hphase ?_
        · subst hanswer
          exact hC amb j rfl
        · rw [Coordination.over, hpoint]
      · exact hsame
    · exact hsame
  | resumed j r =>
    unfold callStep
    dsimp only
    split
    · rename_i g hphase
      have hshown := h g hphase
      constructor
      · refine ⟨rfl, fun g' hphase' hover => ?_⟩
        rw [hphase] at hphase'
        cases hphase'
        exact ⟨resume g r, rfl, resume_yields r, resume_over r hover⟩
      · intro g' hphase'
        cases hphase'
        exact resume_shown r hshown
    · exact hsame
  | pulled amb j item =>
    unfold callStep
    dsimp only
    split
    · rename_i g hphase
      split
      · rename_i hpoint
        have hshown := h g hphase
        have haccumulated := hshown.accumulated
        unfold Coordination.Accumulated at haccumulated
        rw [hpoint] at haccumulated
        have hover : g.over = false := by rw [Coordination.over, hpoint]
        cases item with
        | frame f => exact (loopBody_streams hshown haccumulated).onward hphase hover
        | done => exact (finallyBlock_ends.streams hshown).onward hphase hover
        | throws thrown => exact (finallyBlock_ends.streams hshown).onward hphase hover
      · exact hsame
    · exact hsame
  | closed amb j answer =>
    unfold callStep
    dsimp only
    split
    · rename_i g hphase
      split
      · exact closed_ends.onward hphase (h g hphase)
      · exact hsame
    · exact hsame

/-! ### Runs -/

variable {s : Provider} {i : ℕ} {c c' : LlmCall} {es : List (Event R)} {e : Event R}

variable (options storeOptions amb s) in
theorem complete_calls (agentNid : Option String) (frame : ActionFrame) :
    (complete options storeOptions amb s agentNid frame).calls = s.calls ∨
      ∃ c : LlmCall, c.phase = .executing ∧
        (complete options storeOptions amb s agentNid frame).calls = s.calls ++ [c] := by
  unfold complete
  dsimp only
  split
  · exact .inl rfl
  · exact .inl rfl
  · split
    · exact .inl rfl
    · split
      · exact .inl rfl
      · exact .inr ⟨_, rfl, rfl⟩

variable (options storeOptions s e) in
/-- What an event does to the calls: none of them changes, one arrives, or one takes a turn. -/
theorem providerStep_calls : (providerStep options storeOptions s e).calls = s.calls ∨
    (∃ c : LlmCall, c.phase = .executing ∧ (providerStep options storeOptions s e).calls = s.calls ++ [c]) ∨
    ∃ i c, s.calls[i]? = some c ∧ e.call? = some i ∧
      (providerStep options storeOptions s e).store =
        (callStep options storeOptions { store := s.store, call := c } e).store ∧
      (providerStep options storeOptions s e).calls =
        s.calls.set i (callStep options storeOptions { store := s.store, call := c } e).call := by
  cases he : e.call? with
  | some i =>
    rcases providerStep_turn options storeOptions he with heq | ⟨c, hget, heq⟩
    · exact .inl (congrArg Provider.calls heq)
    · exact .inr (.inr ⟨i, c, hget, rfl, congrArg Provider.store heq, congrArg Provider.calls heq⟩)
  | none =>
    cases e with
    | complete amb agentNid frame =>
      rcases complete_calls options storeOptions amb s agentNid frame with h | h
      · exact .inl h
      · exact .inr (.inl h)
    | release amb agentNid contextId baseVersion key =>
      refine .inl ?_
      unfold providerStep
      dsimp only
      split <;> rfl
    | sweep now => exact .inl rfl
    | _ => cases he

variable (options storeOptions) in
/-- The commit of a turn for the reservation, after the authorization of the `i`-th call, was answered with
the receipt. -/
def CommittedIn (es : List (Event R)) (i : ℕ) (r : LlmContextMutationReservation) (turn : LlmMessageDto)
    (receipt : LlmContextReceiptDto) : Prop :=
  ∃ pre amb post, es = pre ++ .authorized amb i (.ok ()) :: post ∧
    Nwp.commit storeOptions amb (providerAfter options storeOptions pre).store r turn =
      (.ok receipt, (providerAfter options storeOptions (pre ++ [.authorized amb i (.ok ())])).store)

theorem CommittedIn.snoc {r : LlmContextMutationReservation} {turn : LlmMessageDto}
    (h : CommittedIn options storeOptions es i r turn receipt) :
    CommittedIn options storeOptions (es ++ [e]) i r turn receipt := by
  obtain ⟨pre, amb, post, rfl, hcommit⟩ := h
  exact ⟨pre, amb, post ++ [e], by simp, hcommit⟩

theorem providerAfter_snoc : providerAfter options storeOptions (es ++ [e]) =
    providerStep options storeOptions (providerAfter options storeOptions es) e := run_snoc

def AllShown (options : StatefulLlmActionOptions) (storeOptions : LlmContextStoreOptions)
    (es : List (Event R)) : Prop :=
  ∀ (i : ℕ) (c : LlmCall), (providerAfter options storeOptions es).calls[i]? = some c →
    CallShown (CommittedIn options storeOptions es i c.reservation) c

/-- **One event**: what the calls have shown was committed, and each call goes on. -/
theorem allShown_snoc (h : AllShown options storeOptions es) : AllShown options storeOptions (es ++ [e]) ∧
    ∀ (i : ℕ) (c : LlmCall), (providerAfter options storeOptions es).calls[i]? = some c →
      ∃ c', (providerAfter options storeOptions (es ++ [e])).calls[i]? = some c' ∧ Onward c c' := by
  have hlater : ∀ (i : ℕ) (c : LlmCall), (providerAfter options storeOptions es).calls[i]? = some c →
      CallShown (CommittedIn options storeOptions (es ++ [e]) i c.reservation) c :=
    fun i c hi g hphase => (h i c hi g hphase).mono fun _ _ => CommittedIn.snoc
  rcases providerStep_calls options storeOptions (providerAfter options storeOptions es) e with
    hcalls | ⟨new, hnew, hcalls⟩ | ⟨j, d, hj, hevent, hstore, hcalls⟩
  · rw [← providerAfter_snoc] at hcalls
    constructor
    · intro i c hi
      rw [hcalls] at hi
      exact hlater i c hi
    · intro i c hi
      exact ⟨c, by rw [hcalls, hi], .refl c⟩
  · rw [← providerAfter_snoc] at hcalls
    constructor
    · intro i c hi
      rw [hcalls] at hi
      rcases getElem?_snoc_cases hi with ⟨-, rfl⟩ | hi
      · intro g hphase
        rw [hnew] at hphase
        cases hphase
      · exact hlater i c hi
    · intro i c hi
      have hlt : i < (providerAfter options storeOptions es).calls.length := (List.getElem?_eq_some_iff.1 hi).1
      exact ⟨c, by rw [hcalls, List.getElem?_append_left hlt, hi], .refl c⟩
  · rw [← providerAfter_snoc] at hcalls hstore
    have hcommits : ∀ amb i, e = .authorized amb i (.ok ()) → ∀ turn receipt,
        Nwp.commit storeOptions amb (providerAfter options storeOptions es).store d.reservation turn =
          (.ok receipt, (callStep options storeOptions
            { store := (providerAfter options storeOptions es).store, call := d } e).store) →
        CommittedIn options storeOptions (es ++ [e]) j d.reservation turn receipt := by
      rintro amb k rfl turn receipt hcommit
      cases hevent
      exact ⟨es, amb, [], rfl, by rw [hcommit, hstore]⟩
    have hturn : Onward d (callStep options storeOptions
          { store := (providerAfter options storeOptions es).store, call := d } e).call ∧
        CallShown (CommittedIn options storeOptions (es ++ [e]) j d.reservation)
          (callStep options storeOptions
            { store := (providerAfter options storeOptions es).store, call := d } e).call :=
      callStep_onward (t := { store := (providerAfter options storeOptions es).store, call := d })
        (hlater j d hj) hcommits
    obtain ⟨honward, hshown⟩ := hturn
    constructor
    · intro i c hi
      rw [hcalls] at hi
      rcases getElem?_set_cases hj hi with ⟨rfl, rfl⟩ | ⟨hne, hi⟩
      · rw [honward.reservation]
        exact hshown
      · exact hlater i c hi
    · intro i c hi
      have hlt : i < (providerAfter options storeOptions es).calls.length := (List.getElem?_eq_some_iff.1 hi).1
      by_cases hij : j = i
      · subst hij
        rw [hj] at hi
        cases hi
        exact ⟨_, by rw [hcalls, List.getElem?_set_self hlt], honward⟩
      · exact ⟨c, by rw [hcalls, List.getElem?_set_ne hij, hi], .refl c⟩

theorem allShown (es : List (Event R)) : AllShown options storeOptions es := by
  induction es using List.reverseRecOn with
  | nil =>
    intro i c hi
    simp [providerAfter] at hi
  | append_singleton es e ih => exact (allShown_snoc ih).1

theorem onward_append (es es' : List (Event R)) (hi : (providerAfter options storeOptions es).calls[i]? = some c) :
    ∃ c', (providerAfter options storeOptions (es ++ es')).calls[i]? = some c' ∧ Onward c c' := by
  induction es' using List.reverseRecOn with
  | nil => exact ⟨c, by rw [List.append_nil, hi], .refl c⟩
  | append_singleton es' e ih =>
    obtain ⟨c', hi', honward⟩ := ih
    obtain ⟨c'', hi'', honward'⟩ := (allShown_snoc (e := e) (allShown (es ++ es'))).2 i c' hi'
    exact ⟨c'', by rw [← List.append_assoc, hi''], honward.trans honward'⟩

/-- What the stream of the `i`-th call has shown after the events. -/
structure Truthful (options : StatefulLlmActionOptions) (storeOptions : LlmContextStoreOptions)
    (es : List (Event R)) (i : ℕ) (c : LlmCall) (g : Coordination) : Prop where
  /-- Only the last frame has a stop reason, an error, a usage or a receipt. -/
  terminal : ∀ frame ∈ g.yields.dropLast, ∀ chunk ∈ frame.data,
    chunk.stopReason = none ∧ chunk.error = none ∧ chunk.usage = none ∧ chunk.context = none
  /-- A receipt was answered to the commit of the turn that the frames spell. -/
  stored : ∀ frame ∈ g.yields, ∀ chunk ∈ frame.data, ∀ receipt, chunk.context = some receipt →
    CommittedIn options storeOptions es i c.reservation (turnOf g.yields) receipt
  /-- Nothing is yielded after a frame with one of these fields. -/
  final : ∀ frame ∈ g.yields, ∀ chunk ∈ frame.data,
    (chunk.stopReason.isSome ∨ chunk.error.isSome ∨ chunk.usage.isSome ∨ chunk.context.isSome) →
    ∀ es', ∃ c' g', (providerAfter options storeOptions (es ++ es')).calls[i]? = some c' ∧
      c'.phase = .streaming g' ∧ g'.yields = g.yields

/-- **What the client saw is what was stored**: in every run, whatever the provider, the authorizer, the
store and the consumer do. -/
theorem streams_truthful (options : StatefulLlmActionOptions) (storeOptions : LlmContextStoreOptions)
    (es : List (Event R)) (i : ℕ) (c : LlmCall) (g : Coordination)
    (hi : (providerAfter options storeOptions es).calls[i]? = some c) (hphase : c.phase = .streaming g) :
    Truthful options storeOptions es i c g := by
  have hshown := allShown es i c hi g hphase
  refine ⟨fun frame hframe chunk hchunk => ?_, fun frame hframe chunk hchunk receipt hsome => ?_,
    fun frame hframe chunk hchunk hfield es' => ?_⟩
  · have hplain := hshown.plain frame hframe
    rw [isPlain, Bool.not_eq_true', List.any_eq_false] at hplain
    have hnone := hplain chunk hchunk
    simpa [hasTerminalField, and_assoc] using hnone
  · exact hshown.stored frame hframe receipt (List.mem_filterMap.2 ⟨chunk, hchunk, hsome⟩)
  · have hterminal : isPlain frame = false := by
      rw [isPlain, Bool.not_eq_false', List.any_eq_true]
      refine ⟨chunk, hchunk, ?_⟩
      simp only [hasTerminalField, Bool.or_eq_true]
      tauto
    have hover := hshown.over_of_terminal hframe hterminal
    obtain ⟨c', hi', honward⟩ := onward_append es es' hi
    obtain ⟨g', hphase', hyields, -⟩ := honward.afterwards g hphase hover
    exact ⟨c', g', hi', hphase', hyields⟩

def receiptsShown (s : Provider) (i : ℕ) : Option (List (List String)) :=
  match s.calls[i]? with
  | some { phase := .streaming g, .. } =>
    some (g.yields.map fun frame => (receiptsOf frame).map LlmContextReceiptDto.contextId)
  | _ => none

/-- A stream of one frame shows the receipt of its context. -/
theorem streamedRun_truthful : ∃ c g, Truthful nodeOptions contextOptions streamedRun 0 c g ∧
    g.yields.map (fun frame => (receiptsOf frame).map LlmContextReceiptDto.contextId) =
      [["AAAAAAAAAAAAAAAAAAAAAA"]] := by
  have hshown : receiptsShown (providerAfter nodeOptions contextOptions streamedRun) 0 =
      some [["AAAAAAAAAAAAAAAAAAAAAA"]] := by decide +kernel
  unfold receiptsShown at hshown
  split at hshown
  · rename_i frame request owner reservation g answer signalAborted settlements hcall
    exact ⟨_, g, streams_truthful nodeOptions contextOptions streamedRun 0 _ g hcall rfl, Option.some.inj hshown⟩
  · cases hshown

end NpsSdk.Nwp.StatefulLlm
