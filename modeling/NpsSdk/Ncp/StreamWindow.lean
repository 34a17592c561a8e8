import NpsSdk.Ncp.StreamManager

/-!
# The window of a stream that is sent

Any calls, in any order.  A window that is granted bounds the frames sent on it, and a paused stream sends
nothing, exactly as long as no window is negative and no stream is opened anew with a window while it is
paused.
-/

namespace NpsSdk.Ncp

open NpsSdk.Lib

variable {V : Type}

/-! ### Accounts -/

/-- The last window that was granted to a stream, and the frames that were sent on it since. -/
structure Account where
  grant : Option ℤ := none
  spent : ℕ := 0

def StreamFrame.opening (frame : StreamFrame V) : Option ℤ := if frame.seq = 0 then frame.window_size else none

def book (id : String) (account : Account) (s : StreamManager V) : StreamCall V → Account
  | .receive _ => account
  | .updateWindow streamId newSize => if streamId = id then { grant := some newSize } else account
  | .send frame =>
    if frame.stream_id ≠ id then account
    else match frame.opening with
      | some window => { grant := some window }
      | none =>
        if frame.seq ≠ 0 ∧ (send s frame).1.isOk then { account with spent := account.spent + 1 } else account

def accountOf (maxConcurrent : JsDouble) (id : String) (es : List (StreamCall V)) : Account :=
  noted (book id) (streamStep maxConcurrent) {} {} es

/-- **Flow control** of a stream: no more frames are sent than were granted, and a stream that is paused
refuses the next one. -/
structure Paced (s : StreamManager V) (id : String) (account : Account) : Prop where
  granted : ∀ window, account.grant = some window → (account.spent : ℤ) ≤ window
  refused : isPaused s id = true → ∀ frame : StreamFrame V, frame.stream_id = id → frame.seq ≠ 0 →
    (send s frame).1.isOk = false

def grantsRightly (s : StreamManager V) : StreamCall V → Bool
  | .receive _ => true
  | .updateWindow _ newSize => decide (0 ≤ newSize)
  | .send frame =>
    match frame.opening with
    | none => true
    | some window => decide (0 ≤ window) && (!isPaused s frame.stream_id || window == 0)

variable {maxConcurrent : JsDouble} {s : StreamManager V} {frame : StreamFrame V} {id streamId : String}
  {out : OutgoingStream} {account : Account} {window : ℤ}

/-! ### What a call does -/

theorem outgoingOf_setOutgoing :
    outgoingOf (setOutgoing s streamId out) id = if id = streamId then out else outgoingOf s id := by
  unfold outgoingOf setOutgoing
  rw [JsMap.get_set]
  split <;> rfl

theorem isPaused_eq : isPaused s id = (outgoingOf s id).paused := by
  unfold isPaused outgoingOf
  cases s.outgoing.get id with
  | none => rfl
  | some out => rfl

theorem send_opening (h : frame.opening = some window) : send s frame = (.ok (),
    setOutgoing s frame.stream_id { outgoingOf s frame.stream_id with remainingWindow := some window }) := by
  unfold StreamFrame.opening at h
  unfold send
  rw [h]

theorem send_unpaced (h : frame.opening = none) (hwindow : (outgoingOf s frame.stream_id).remainingWindow = none) :
    send s frame = (.ok (), setOutgoing s frame.stream_id (outgoingOf s frame.stream_id)) := by
  unfold StreamFrame.opening at h
  unfold send
  dsimp only
  rw [h, hwindow]

theorem send_exhausted (h : frame.opening = none) (hwindow : (outgoingOf s frame.stream_id).remainingWindow = some 0) :
    send s frame = (.error (.windowOverflow frame.stream_id),
      setOutgoing s frame.stream_id (outgoingOf s frame.stream_id)) := by
  unfold StreamFrame.opening at h
  unfold send
  dsimp only
  rw [h, hwindow]
  exact if_pos rfl

theorem send_paced {remaining : ℤ} (h : frame.opening = none)
    (hwindow : (outgoingOf s frame.stream_id).remainingWindow = some remaining) (hne : remaining ≠ 0) :
    send s frame = (.ok (), setOutgoing s frame.stream_id
      { outgoingOf s frame.stream_id with remainingWindow := some (remaining - 1) }) := by
  unfold StreamFrame.opening at h
  unfold send
  dsimp only
  rw [h, hwindow]
  exact if_neg hne

theorem opening_of_seq_ne (h : frame.seq ≠ 0) : frame.opening = none := if_neg h

/-! ### The invariant -/

/-- The window that remains covers what may still be sent on the grant. -/
structure Covers (out : OutgoingStream) (account : Account) : Prop where
  ungranted : out.remainingWindow = none → account.grant = none
  remaining : ∀ r, out.remainingWindow = some r → 0 ≤ r ∧
    ∃ window, account.grant = some window ∧ r + account.spent ≤ window
  paused : out.paused = true → out.remainingWindow = some 0

theorem Covers.paced (h : Covers (outgoingOf s id) account) : Paced s id account where
  granted window hgrant := by
    cases hwindow : (outgoingOf s id).remainingWindow with
    | none =>
      rw [h.ungranted hwindow] at hgrant
      cases hgrant
    | some r =>
      obtain ⟨hpos, window', hgrant', hle⟩ := h.remaining r hwindow
      rw [hgrant, Option.some.injEq] at hgrant'
      omega
  refused hpaused frame hid hseq := by
    rw [isPaused_eq] at hpaused
    subst hid
    rw [send_exhausted (opening_of_seq_ne hseq) (h.paused hpaused)]
    rfl

theorem covers_empty : Covers (outgoingOf ({} : StreamManager V) id) {} where
  ungranted _ := rfl
  remaining _ h := by cases h
  paused h := by cases h

theorem covers_granted {paused : Bool} (hpos : 0 ≤ window) (hpaused : paused = true → window = 0) :
    Covers { remainingWindow := some window, paused } { grant := some window } where
  ungranted h := by cases h
  remaining r h := by
    cases h
    exact ⟨hpos, window, rfl, by simp⟩
  paused h := by
    show some window = some 0
    rw [hpaused h]

theorem covers_send (h : Covers (outgoingOf s id) account) (hgrants : grantsRightly s (.send frame) = true) :
    Covers (outgoingOf (send s frame).2 id) (book id account s (.send frame)) := by
  by_cases hid : frame.stream_id = id
  · subst hid
    cases hopening : frame.opening with
    | some window =>
      have hbook : book frame.stream_id account s (.send frame) = { grant := some window } := by
        simp [book, hopening]
      rw [hbook, send_opening hopening, outgoingOf_setOutgoing, if_pos rfl]
      simp only [grantsRightly, hopening, Bool.and_eq_true, decide_eq_true_eq, Bool.or_eq_true,
        Bool.not_eq_true', beq_iff_eq, isPaused_eq] at hgrants
      refine covers_granted hgrants.1 fun hpaused => ?_
      rcases hgrants.2 with hrunning | hzero
      · rw [hpaused] at hrunning
        cases hrunning
      · exact hzero
    | none =>
      cases hwindow : (outgoingOf s frame.stream_id).remainingWindow with
      | none =>
        rw [send_unpaced hopening hwindow, outgoingOf_setOutgoing, if_pos rfl]
        have hgrant : (book frame.stream_id account s (.send frame)).grant = account.grant := by
          simp only [book, hopening, ne_eq, not_true_eq_false, if_false]
          split <;> rfl
        refine ⟨fun hnone => hgrant.trans (h.ungranted hnone), fun r hr => ?_, h.paused⟩
        rw [hwindow] at hr
        cases hr
      | some r =>
        obtain ⟨hpos, window, hgrant, hle⟩ := h.remaining r hwindow
        by_cases hzero : r = 0
        · subst hzero
          have hbook : book frame.stream_id account s (.send frame) = account := by
            simp [book, hopening, send_exhausted hopening hwindow, Except.isOk, Except.toBool]
          rw [hbook, send_exhausted hopening hwindow, outgoingOf_setOutgoing, if_pos rfl]
          exact h
        · rw [send_paced hopening hwindow hzero, outgoingOf_setOutgoing, if_pos rfl]
          have hbook : (book frame.stream_id account s (.send frame)).grant = account.grant ∧
              (book frame.stream_id account s (.send frame)).spent ≤ account.spent + 1 := by
            simp only [book, hopening, ne_eq, not_true_eq_false, if_false]
            split
            · exact ⟨rfl, le_refl _⟩
            · exact ⟨rfl, Nat.le_succ _⟩
          refine ⟨nofun, fun r' hr' => ?_, fun hpaused => ?_⟩
          · cases hr'
            exact ⟨by omega, window, hbook.1.trans hgrant, by omega⟩
          · rw [h.paused hpaused, Option.some.injEq] at hwindow
            omega
  · -- a frame of another stream
    have hbook : book id account s (.send frame) = account := by simp [book, hid]
    have hout : outgoingOf (send s frame).2 id = outgoingOf s id := by
      cases hopening : frame.opening with
      | some window =>
        rw [send_opening hopening, outgoingOf_setOutgoing, if_neg (Ne.symm hid)]
      | none =>
        cases hwindow : (outgoingOf s frame.stream_id).remainingWindow with
        | none => rw [send_unpaced hopening hwindow, outgoingOf_setOutgoing, if_neg (Ne.symm hid)]
        | some r =>
          by_cases hzero : r = 0
          · subst hzero
            rw [send_exhausted hopening hwindow, outgoingOf_setOutgoing, if_neg (Ne.symm hid)]
          · rw [send_paced hopening hwindow hzero, outgoingOf_setOutgoing, if_neg (Ne.symm hid)]
    rw [hbook, hout]
    exact h

theorem outgoing_receive : (receive maxConcurrent s frame).2.outgoing = s.outgoing := by
  unfold receive
  split
  · unfold receiveOn
    split_ifs <;> rfl
  · split_ifs
    · rfl
    · rfl
    · unfold receiveOn
      split_ifs <;> rfl

theorem covers_step (h : Covers (outgoingOf s id) account) (e : StreamCall V) (hgrants : grantsRightly s e = true) :
    Covers (outgoingOf (streamStep maxConcurrent s e) id) (book id account s e) := by
  cases e with
  | receive frame =>
    have hout : outgoingOf (receive maxConcurrent s frame).2 id = outgoingOf s id := by
      rw [outgoingOf, outgoing_receive, outgoingOf]
    rw [streamStep, hout]
    exact h
  | send frame => exact covers_send h hgrants
  | updateWindow streamId newSize =>
    rw [streamStep, updateWindow, outgoingOf_setOutgoing]
    unfold book
    dsimp only
    by_cases hid : streamId = id
    · rw [if_pos hid.symm, if_pos hid]
      refine covers_granted (of_decide_eq_true hgrants) fun hpaused => ?_
      exact eq_of_beq hpaused
    · rw [if_neg (Ne.symm hid), if_neg hid]
      exact h

/-! ### Runs -/

theorem covers_streamsAfter {es : List (StreamCall V)}
    (h : Along (streamStep maxConcurrent) (fun s e => grantsRightly s e = true) {} es) :
    Covers (outgoingOf (streamsAfter maxConcurrent es) id) (accountOf maxConcurrent id es) := by
  induction es using List.reverseRecOn with
  | nil => exact covers_empty
  | append_singleton es e ih =>
    obtain ⟨hes, he⟩ := along_snoc.1 h
    rw [streamsAfter, run_snoc, accountOf, noted_snoc]
    exact covers_step (ih hes) e he

variable (maxConcurrent) in
theorem grantsRightly_of_paced (accounts : String → Account) (e : StreamCall V)
    (h : ∀ id, Paced (streamStep maxConcurrent s e) id (book id (accounts id) s e)) : grantsRightly s e = true := by
  cases e with
  | receive frame => rfl
  | updateWindow streamId newSize =>
    have hbook : book streamId (accounts streamId) s (.updateWindow streamId newSize) =
        { grant := some newSize } := by simp [book]
    have hpaced := h streamId
    rw [hbook] at hpaced
    exact decide_eq_true (hpaced.granted newSize rfl)
  | send frame =>
    cases hopening : frame.opening with
    | none => simp [grantsRightly, hopening]
    | some window =>
      have hbook : book frame.stream_id (accounts frame.stream_id) s (.send frame) =
          { grant := some window } := by simp [book, hopening]
      have hpaced := h frame.stream_id
      rw [hbook, streamStep, send_opening hopening] at hpaced
      have hpos : 0 ≤ window := hpaced.granted window rfl
      simp only [grantsRightly, hopening, Bool.and_eq_true, decide_eq_true_eq, Bool.or_eq_true,
        Bool.not_eq_true', beq_iff_eq]
      refine ⟨hpos, ?_⟩
      cases hpaused : isPaused s frame.stream_id with
      | false => exact .inl rfl
      | true =>
        -- the stream is still paused, so the window is used up
        right
        by_contra hne
        rw [isPaused_eq] at hpaused
        have hstill : isPaused (setOutgoing s frame.stream_id
            { outgoingOf s frame.stream_id with remainingWindow := some window }) frame.stream_id = true := by
          rw [isPaused_eq, outgoingOf_setOutgoing, if_pos rfl]
          exact hpaused
        have hone : (1 : JsDouble) ≠ 0 := by decide
        have hrefused := hpaced.refused hstill
          { stream_id := frame.stream_id, seq := 1, is_last := false, data := [] } rfl hone
        rw [send_paced (opening_of_seq_ne hone) (by rw [outgoingOf_setOutgoing, if_pos rfl]) hne]
          at hrefused
        cases hrefused

/-- **Flow control holds in every state of a run exactly if** no call of it grants a negative window, or
opens a paused stream anew with a window. -/
theorem paced_iff_grantsRightly (maxConcurrent : JsDouble) (es : List (StreamCall V)) :
    (∀ pre post, es = pre ++ post → ∀ id,
      Paced (streamsAfter maxConcurrent pre) id (accountOf maxConcurrent id pre)) ↔
    Along (streamStep maxConcurrent) (fun s e => grantsRightly s e = true) {} es := by
  constructor
  · intro h pre e post hes
    refine grantsRightly_of_paced maxConcurrent (fun id => accountOf maxConcurrent id pre) e fun id => ?_
    have hpaced := h (pre ++ [e]) post (by rw [hes, List.append_assoc, List.singleton_append]) id
    rw [streamsAfter, run_snoc, accountOf, noted_snoc] at hpaced
    exact hpaced
  · intro h pre post hes id
    refine (covers_streamsAfter fun pre' e post' hpre => h pre' e (post' ++ post) ?_).paced
    rw [hes, hpre, List.append_assoc, List.cons_append]

def negativeRun : List (StreamCall Unit) :=
  [ .updateWindow "s" (-1),
    .send { stream_id := "s", seq := 1, is_last := false, data := [] } ]

/-- A stream that is paused, and then opened anew. -/
def reopenedRun : List (StreamCall Unit) :=
  [ .updateWindow "s" 0,
    .send { stream_id := "s", seq := 0, is_last := false, data := [], window_size := some 5 } ]

/-- **Flow control fails**: a negative window is overrun, and a stream that is opened anew sends while it is
paused. -/
theorem unpaced_runs : ¬ Paced (streamsAfter 32 negativeRun) "s" (accountOf 32 "s" negativeRun) ∧
    ¬ Paced (streamsAfter 32 reopenedRun) "s" (accountOf 32 "s" reopenedRun) := by
  constructor
  · intro h
    have hgranted : (1 : ℤ) ≤ -1 := h.granted (-1) (by decide)
    omega
  · intro h
    have hrefused := h.refused (by decide)
      { stream_id := "s", seq := 1, is_last := false, data := [] } rfl (by decide)
    revert hrefused
    decide

end NpsSdk.Ncp
