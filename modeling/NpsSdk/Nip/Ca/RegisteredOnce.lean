import NpsSdk.Nip.Ca.Registration

/-!
# Each NID is registered once

The registrations in flight refine the protocol of `Lib/CheckThenAct` (`Tracks`): a registration that has
found its NID free holds it until it has saved its record.
-/

namespace NpsSdk.Nip.Ca

open NpsSdk.Lib
open CheckThenAct (Phase Once Alone start)

/-! ### Runs of registrations -/

/-- Looking the NID up finds a record. -/
def SeesTaken (nid : String) : (o : CaOp) → Except CaError o.Res → Prop
  | .store (.getByNid n), r => n = nid → ∃ record : NipCertRecord, r = .ok (some record)
  | _, _ => True

/-- As long as the NID is found taken, the call saves no record of it. -/
def Yields {α : Type} (nid : String) (p : CaAsync α) : Prop := p.Keeps (Spares nid) (SeesTaken nid)

/-- When the turn looks a NID up and finds it free, no other call has found it free and can still save a
record of it. -/
def FindsAlone (sha256 : String → String) (w : CaPool) (i : ℕ) (amb : ℕ → Ambient) : Prop :=
  ∀ c p nid, w.calls[i]? = some (c, p) →
    CaOp.store (.getByNid nid) ∈ p.turnOps (exec sha256) CaOp.awaited amb w.state →
    w.state.certs.getByNid nid = none → ∀ j q, j ≠ i → w.calls[j]? = some q → Yields nid q.2

/-- No other call is in flight, or the NIDs that the turn looks up are taken. -/
def undisturbed (sha256 : String → String) (w : CaPool) (i : ℕ) (amb : ℕ → Ambient) : Bool :=
  decide (w.calls.length ≤ 1) ||
    match w.calls[i]? with
    | none => true
    | some (_, p) => (p.turnOps (exec sha256) CaOp.awaited amb w.state).all fun
      | .store (.getByNid n) => (w.state.certs.getByNid n).isSome
      | _ => true

theorem findsAlone_of_undisturbed {sha256 : String → String} {w : CaPool} {i : ℕ} {amb : ℕ → Ambient}
    (h : undisturbed sha256 w i amb = true) : FindsAlone sha256 w i amb := by
  intro c p nid hi hmem hfree j q hne hj
  rcases Bool.or_eq_true_iff.1 h with hone | htaken
  · have hlength : w.calls.length ≤ 1 := of_decide_eq_true hone
    have hi' := (List.getElem?_eq_some_iff.1 hi).1
    have hj' := (List.getElem?_eq_some_iff.1 hj).1
    omega
  · rw [hi] at htaken
    have hsome := List.all_eq_true.1 htaken _ hmem
    dsimp only at hsome
    rw [hfree] at hsome
    cases hsome

/-- Only registrations are started, the clock shows dates that can be written, and a NID is found free
alone. -/
def RegistersAlone (ca : NipCaService) (sha256 : String → String) (w : CaPool) : CaTurn → Prop
  | .start c => c.registers = true
  | .resume i amb => (∀ n, ca.DatesWritten ((amb n).time 0)) ∧ FindsAlone sha256 w i amb

/-- The `i`-th call has succeeded for the NID. -/
def succeeded (w : CaPool) (nid : String) (i : ℕ) : Bool :=
  match w.calls[i]? with
  | some (_, .done (.ok (.ident frame))) => frame.nid == nid
  | _ => false

theorem succeeded_iff {w : CaPool} {nid : String} {i : ℕ} : succeeded w nid i = true ↔
    ∃ c frame, w.calls[i]? = some (c, .done (.ok (.ident frame))) ∧ frame.nid = nid := by
  unfold succeeded
  constructor
  · intro h
    split at h
    · rename_i c frame hi
      exact ⟨c, frame, hi, by simpa using h⟩
    · cases h
  · rintro ⟨c, frame, hi, hnid⟩
    rw [hi]
    simpa using hnid

def recordsOf (s : InMemoryNipCaStore) (nid : String) : ℕ := s.records.countP fun r => r.nid == nid

/-- The registrations of a NID since the store was `s₀`. -/
structure RegisteredOnce (ca : NipCaService) (s₀ : InMemoryNipCaStore) (w : CaPool) (nid : String) : Prop where
  /-- None has succeeded and no record was added, or one has succeeded and one record was added. -/
  once : (∀ i, ¬ succeeded w nid i = true) ∧ recordsOf w.state.certs nid = recordsOf s₀ nid ∨
    (∃ i, succeeded w nid i = true ∧ ∀ j, succeeded w nid j = true → j = i) ∧
      recordsOf w.state.certs nid = recordsOf s₀ nid + 1
  /-- A call that has succeeded was for the NID of its frame. -/
  answered : ∀ q ∈ w.calls, ∀ frame, q.2 = .done (.ok (.ident frame)) →
    ∀ t, q.1.target ca = some t → frame.nid = t
  /-- A call that has failed found its NID taken, unless its own arguments were refused. -/
  refused : ∀ q ∈ w.calls, ∀ e, q.2 = .done (.error e) → q.1.acceptable ca = true →
    ∃ n, e = alreadyExists n ∧ ∀ t, q.1.target ca = some t → n = t

/-! ### Refinement -/

/-- The phase of a registration in the protocol. -/
def Staged (ca : NipCaService) (q : CaCall × CaAsync CaReply) : Phase String → Prop
  | .idle => q.1.acceptable ca = true ∧ (Seeks ca q.1 q.2 ∨ ∃ n, q.2 = .done (.error (alreadyExists n)) ∧
      ∀ t, q.1.target ca = some t → n = t) ∨ q.1.acceptable ca = false ∧ Doomed q.2
  | .holding n => q.1.acceptable ca = true ∧ (∀ t, q.1.target ca = some t → n = t) ∧
      (Draws ca n q.2 ∨ ∃ serial, Saves n serial q.2)
  | .acted _ => False
  | .done n => (∀ t, q.1.target ca = some t → n = t) ∧ ∃ frame, q.2 = .done (.ok (.ident frame)) ∧ frame.nid = n

/-- The record the program is about to save. -/
def inHand : CaAsync CaReply → Option NipCertRecord
  | .op (.store (.save r)) _ => some r
  | _ => none

/-- No two serials are equal, of those in the store and those about to be saved. -/
structure SerialsApart (w : CaPool) : Prop where
  drawn : SerialsDrawn w.state.certs
  inHand : ∀ (i : ℕ) (q : CaCall × CaAsync CaReply) (r : NipCertRecord), w.calls[i]? = some q →
    inHand q.2 = some r → (∃ n < w.state.certs.serialCounter, r.serial = serialOf n) ∧
      ∀ x ∈ w.state.certs.records, x.serial ≠ r.serial
  apart : ∀ (i j : ℕ) (q q' : CaCall × CaAsync CaReply) (r r' : NipCertRecord), w.calls[i]? = some q →
    w.calls[j]? = some q' → Ca.inHand q.2 = some r → Ca.inHand q'.2 = some r' → r.serial = r'.serial → i = j

/-- The pool is at a state of the protocol, since the store was `s₀`. -/
structure Tracks (ca : NipCaService) (s₀ : InMemoryNipCaStore) (w : CaPool)
    (a : CheckThenAct.State String) : Prop where
  staged : ∀ (i : ℕ) (q : CaCall × CaAsync CaReply), w.calls[i]? = some q → Staged ca q (a.phase i)
  beyond : ∀ i, w.calls[i]? = none → a.phase i = .idle
  marked : ∀ n, a.marked n ↔ ∃ r ∈ w.state.certs.records, r.nid = n
  counted : ∀ n, recordsOf w.state.certs n = recordsOf s₀ n + a.acts n
  serials : SerialsApart w

section

variable {ca : NipCaService} {sha256 : String → String} {s₀ : InMemoryNipCaStore} {w : CaPool}
  {a : CheckThenAct.State String} {c : CaCall} {p p' : CaAsync CaReply} {n : String} {i : ℕ}
  {s : InMemoryNipCaStore}

/-! ### Stages -/

theorem Doomed.op {o : CaOp} {k : Except CaError o.Res → CaAsync CaReply} {s : CaState} {amb : Ambient}
    (h : Doomed (.op o k)) : Doomed (k (exec sha256 amb o s).1) ∧
      (exec sha256 amb o s).2.certs.records = s.certs.records ∧
      s.certs.serialCounter ≤ (exec sha256 amb o s).2.certs.serialCounter := by
  obtain ⟨⟨hwrites, hkeeps⟩, hpasses⟩ := h
  refine ⟨⟨hkeeps _ trivial, (hpasses _).resolve_left id⟩, ?_⟩
  cases o with
  | store o =>
    cases o with
    | save record => cases hwrites
    | revoke nid reason t => cases hwrites
    | nextSerial => exact ⟨rfl, Nat.le_succ _⟩
    | _ => exact ⟨rfl, le_rfl⟩
  | _ => exact ⟨rfl, le_rfl⟩

theorem Doomed.advance {s : CaState} {amb : ℕ → Ambient} (h : Doomed p) :
    Doomed (p.advance (exec sha256) CaOp.awaited amb s).1 ∧
      (p.advance (exec sha256) CaOp.awaited amb s).2.certs.records = s.certs.records ∧
      s.certs.serialCounter ≤ (p.advance (exec sha256) CaOp.awaited amb s).2.certs.serialCounter := by
  refine Async.advance_induction (M := fun p (s' : CaState) => Doomed p ∧
    s'.certs.records = s.certs.records ∧ s.certs.serialCounter ≤ s'.certs.serialCounter)
    (C := fun _ => True) ?_ (fun _ _ => trivial) ⟨h, rfl, le_rfl⟩
  intro o k s' amb' _ hM
  obtain ⟨hdoomed, hrecords, hcounter⟩ := hM
  have hop : Doomed (k (exec sha256 amb' o s').1) ∧ (exec sha256 amb' o s').2.certs.records = s'.certs.records ∧
      s'.certs.serialCounter ≤ (exec sha256 amb' o s').2.certs.serialCounter := hdoomed.op
  exact ⟨hop.1, hop.2.1.trans hrecords, hcounter.trans hop.2.2⟩

theorem Doomed.inHand (h : Doomed p) : inHand p = none := by
  unfold Ca.inHand
  split
  · exact absurd h.1.1 (by simp [CaOp.writes])
  · rfl

theorem Seeks.inHand (h : Seeks ca c p) : inHand p = none := by
  rcases h with ⟨nid, k, rfl, -⟩ | ⟨k, rfl, -⟩
  · rfl
  · rfl

theorem Draws.inHand (h : Draws ca n p) : inHand p = none := by
  obtain ⟨k, rfl, -⟩ := h
  rfl

theorem Saves.inHand {serial : String} (h : Saves n serial p) :
    ∃ r, inHand p = some r ∧ r.nid = n ∧ r.serial = serial := by
  obtain ⟨r, k, frame, rfl, hnid, hserial, -, -⟩ := h
  exact ⟨r, rfl, hnid, hserial⟩

theorem not_yields_of_holding {t : ℤ} (ht : ca.DatesWritten t) (h : Staged ca (c, p) (.holding n)) : ¬ Yields n p := by
  obtain ⟨-, -, hdraws | ⟨serial, hsaves⟩⟩ := h
  · rintro hyields
    obtain ⟨k, rfl, hk⟩ := hdraws
    obtain ⟨k', hk', hsaves⟩ := hk t ht
    have hserial := hyields.2 (.ok t) trivial
    rw [hk'] at hserial
    obtain ⟨r, k'', frame, heq, hnid, -⟩ := hsaves "0x1"
    have hsave := hserial.2 (.ok "0x1") trivial
    rw [heq] at hsave
    exact hsave.1 hnid
  · rintro hyields
    obtain ⟨r, k, frame, rfl, hnid, -⟩ := hsaves
    exact hyields.1 hnid

/-! ### Serials -/

theorem SerialsApart.mono {w' : CaPool} (h : SerialsApart w)
    (hcalls : ∀ (j : ℕ) (q : CaCall × CaAsync CaReply) (r : NipCertRecord), w'.calls[j]? = some q →
      Ca.inHand q.2 = some r → ∃ q', w.calls[j]? = some q' ∧ Ca.inHand q'.2 = some r)
    (hrecords : w'.state.certs.records = w.state.certs.records)
    (hcounter : w.state.certs.serialCounter ≤ w'.state.certs.serialCounter) : SerialsApart w' where
  drawn r hr := by
    rw [hrecords] at hr
    obtain ⟨n, hn, hserial⟩ := h.drawn r hr
    exact ⟨n, by omega, hserial⟩
  inHand j q r hj hq := by
    obtain ⟨q', hj', hq'⟩ := hcalls j q r hj hq
    obtain ⟨⟨n, hn, hserial⟩, hfresh⟩ := h.inHand j q' r hj' hq'
    rw [hrecords]
    exact ⟨⟨n, by omega, hserial⟩, hfresh⟩
  apart i j q q' r r' hi hj hq hq' heq := by
    obtain ⟨b, hib, hb⟩ := hcalls i q r hi hq
    obtain ⟨b', hjb, hb'⟩ := hcalls j q' r' hj hq'
    exact h.apart i j b b' r r' hib hjb hb hb' heq

theorem SerialsApart.draw (h : SerialsApart w) (hi : w.calls[i]? = some (c, p))
    (hp' : Saves n (serialOf w.state.certs.serialCounter) p') {t : CaState}
    (hcerts : t.certs = w.state.certs.nextSerial.2) : SerialsApart ⟨t, w.calls.set i (c, p')⟩ := by
  obtain ⟨r₀, hr₀, -, hserial₀⟩ := hp'.inHand
  have hrecords : t.certs.records = w.state.certs.records := by rw [hcerts]; rfl
  have hcounter : t.certs.serialCounter = w.state.certs.serialCounter + 1 := by rw [hcerts]; rfl
  -- a serial that was drawn before is another one
  have hother : ∀ m < w.state.certs.serialCounter, serialOf m ≠ r₀.serial := by
    intro m hm heq
    have := serialOf_injective (heq.trans hserial₀)
    omega
  refine ⟨?_, ?_, ?_⟩
  · intro r hr
    obtain ⟨m, hm, hserial⟩ := h.drawn r (hrecords ▸ hr)
    exact ⟨m, by show m < t.certs.serialCounter; omega, hserial⟩
  · intro j q r hj hq
    rcases getElem?_set_cases hi hj with ⟨rfl, rfl⟩ | ⟨hne, hj⟩
    · obtain rfl : r₀ = r := by simpa [hr₀] using hq
      refine ⟨⟨w.state.certs.serialCounter, by show _ < t.certs.serialCounter; omega, hserial₀⟩, ?_⟩
      intro x hx
      obtain ⟨m, hm, hserial⟩ := h.drawn x (hrecords ▸ hx)
      rw [hserial]
      exact hother m hm
    · obtain ⟨⟨m, hm, hserial⟩, hfresh⟩ := h.inHand j q r hj hq
      exact ⟨⟨m, by show m < t.certs.serialCounter; omega, hserial⟩, fun x hx => hfresh x (hrecords ▸ hx)⟩
  · intro j j' q q' r r' hj hj' hq hq' heq
    rcases getElem?_set_cases hi hj with ⟨rfl, rfl⟩ | ⟨hne, hold⟩
    · rcases getElem?_set_cases hi hj' with ⟨rfl, rfl⟩ | ⟨hne', hold'⟩
      · rfl
      · obtain rfl : r₀ = r := by simpa [hr₀] using hq
        obtain ⟨⟨m, hm, hserial⟩, -⟩ := h.inHand j' q' r' hold' hq'
        exact absurd (hserial.symm.trans heq.symm) (hother m hm)
    · rcases getElem?_set_cases hi hj' with ⟨rfl, rfl⟩ | ⟨hne', hold'⟩
      · obtain rfl : r₀ = r' := by simpa [hr₀] using hq'
        obtain ⟨⟨m, hm, hserial⟩, -⟩ := h.inHand j q r hold hq
        exact absurd (hserial.symm.trans heq) (hother m hm)
      · exact h.apart j j' q q' r r' hold hold' hq hq' heq

theorem SerialsApart.save (h : SerialsApart w) {r : NipCertRecord} (hi : w.calls[i]? = some (c, p))
    (hp : Ca.inHand p = some r) (hp' : Ca.inHand p' = none) {t : CaState}
    (hcerts : t.certs = { w.state.certs with records := w.state.certs.records ++ [r] }) :
    SerialsApart ⟨t, w.calls.set i (c, p')⟩ := by
  have hrecords : t.certs.records = w.state.certs.records ++ [r] := by rw [hcerts]
  have hcounter : t.certs.serialCounter = w.state.certs.serialCounter := by rw [hcerts]
  -- the call has nothing in hand now, so what is in hand was so before, with another call
  have hold : ∀ (j : ℕ) (q : CaCall × CaAsync CaReply) (r' : NipCertRecord),
      (w.calls.set i (c, p'))[j]? = some q → Ca.inHand q.2 = some r' → j ≠ i ∧ w.calls[j]? = some q := by
    intro j q r' hj hq
    rcases getElem?_set_cases hi hj with ⟨rfl, rfl⟩ | ⟨hne, hj⟩
    · rw [show Ca.inHand (c, p').2 = none from hp'] at hq
      cases hq
    · exact ⟨hne, hj⟩
  obtain ⟨⟨m, hm, hserial⟩, hfresh⟩ := h.inHand i (c, p) r hi hp
  refine ⟨?_, ?_, ?_⟩
  · intro x hx
    show ∃ m < t.certs.serialCounter, x.serial = serialOf m
    rw [hcounter]
    rcases List.mem_append.1 (hrecords ▸ hx) with hx | hx
    · exact h.drawn x hx
    · rw [List.mem_singleton.1 hx]
      exact ⟨m, hm, hserial⟩
  · intro j q r' hj hq
    obtain ⟨hne, hj⟩ := hold j q r' hj hq
    obtain ⟨hdrawn, hfresh'⟩ := h.inHand j q r' hj hq
    refine ⟨?_, ?_⟩
    · show ∃ m < t.certs.serialCounter, r'.serial = serialOf m
      rw [hcounter]
      exact hdrawn
    · intro x hx
      rcases List.mem_append.1 (hrecords ▸ hx) with hx | hx
      · exact hfresh' x hx
      · rw [List.mem_singleton.1 hx]
        intro heq
        exact hne (h.apart j i q (c, p) r' r hj hi hq hp heq.symm)
  · intro j j' q q' r₁ r₂ hj hj' hq hq' heq
    exact h.apart j j' q q' r₁ r₂ (hold j q r₁ hj hq).2 (hold j' q' r₂ hj' hq').2 hq hq' heq

/-! ### Turns -/

section Turns

variable {amb : ℕ → Ambient} {t : CaState}

def LookedUp (ca : NipCaService) (sha256 : String → String) (c : CaCall) (p : CaAsync CaReply)
    (amb : ℕ → Ambient) (t : CaState) : Prop :=
  (p.advance (exec sha256) CaOp.awaited amb t).2 = t ∧ ∃ n, (∀ nid, c.target ca = some nid → n = nid) ∧
    CaOp.store (.getByNid n) ∈ p.turnOps (exec sha256) CaOp.awaited amb t ∧
    ((∃ r, t.certs.getByNid n = some r) ∧
        (p.advance (exec sha256) CaOp.awaited amb t).1 = .done (.error (alreadyExists n)) ∨
      t.certs.getByNid n = none ∧ Draws ca n (p.advance (exec sha256) CaOp.awaited amb t).1)

theorem LooksUp.advance (h : LooksUp ca c p) : LookedUp ca sha256 c p amb t := by
  obtain ⟨n, k, rfl, htarget, htaken, hfree⟩ := h
  refine ⟨rfl, n, htarget, List.mem_singleton_self _, ?_⟩
  show (∃ r, t.certs.getByNid n = some r) ∧ k (.ok (t.certs.getByNid n)) = _ ∨ _ ∧
    Draws ca n (k (.ok (t.certs.getByNid n)))
  cases hget : t.certs.getByNid n with
  | none => exact .inr ⟨rfl, hfree⟩
  | some r => exact .inl ⟨⟨r, rfl⟩, htaken r⟩

theorem Seeks.advance (h : Seeks ca c p) : LookedUp ca sha256 c p amb t := by
  rcases h with hlooks | ⟨k, rfl, hk⟩
  · exact hlooks.advance
  · -- the random text is drawn in the same turn
    obtain ⟨hsame, n, htarget, hmem, hcases⟩ := @LooksUp.advance ca sha256 c (k (.ok ((amb 0).random 0)))
      (fun m => amb (m + 1)) t (hk _)
    exact ⟨hsame, n, htarget, List.mem_cons_of_mem _ hmem, hcases⟩

theorem Draws.advance (h : Draws ca n p) (ht : ca.DatesWritten ((amb 0).time 0)) :
    (p.advance (exec sha256) CaOp.awaited amb t).2.certs = t.certs.nextSerial.2 ∧
      Saves n (serialOf t.certs.serialCounter) (p.advance (exec sha256) CaOp.awaited amb t).1 := by
  obtain ⟨k, rfl, hk⟩ := h
  obtain ⟨k', hk', hsaves⟩ := hk _ ht
  have hadvance : (Async.op CaOp.now k).advance (exec sha256) CaOp.awaited amb t =
      (k (.ok ((amb 0).time 0))).advance (exec sha256) CaOp.awaited (fun m => amb (m + 1)) t := rfl
  rw [hadvance, hk']
  exact ⟨rfl, hsaves _⟩

theorem Saves.advance {r : NipCertRecord} {serial : String} (h : Saves n serial p) (hr : Ca.inHand p = some r)
    (hfresh : ∀ x ∈ t.certs.records, x.serial ≠ r.serial) :
    (p.advance (exec sha256) CaOp.awaited amb t).2.certs = { t.certs with records := t.certs.records ++ [r] } ∧
      ∃ frame, (p.advance (exec sha256) CaOp.awaited amb t).1 = .done (.ok (.ident frame)) ∧ frame.nid = n := by
  obtain ⟨r', k, frame, rfl, -, -, hk, hframe⟩ := h
  obtain rfl : r' = r := by simpa [Ca.inHand] using hr
  have hsave : t.certs.save r' = (.ok (), { t.certs with records := t.certs.records ++ [r'] }) := by
    unfold InMemoryNipCaStore.save
    rw [if_neg]
    simp only [List.any_eq_true, not_exists, not_and, beq_iff_eq]
    exact hfresh
  have hadvance : (Async.op (CaOp.store (.save r')) k).advance (exec sha256) CaOp.awaited amb t =
      (k (exec sha256 (amb 0) (.store (.save r')) t).1, (exec sha256 (amb 0) (.store (.save r')) t).2) := rfl
  rw [hadvance]
  simp only [exec, execStore, hsave]
  exact ⟨trivial, frame, hk, hframe⟩

theorem Tracks.turn {a' : CheckThenAct.State String} (phase : Phase String) (h : Tracks ca s₀ w a)
    (hi : w.calls[i]? = some (c, p)) (hstaged : Staged ca (c, p') phase)
    (hphase : a'.phase = Function.update a.phase i phase)
    (hmarked : ∀ n, a'.marked n ↔ ∃ r ∈ t.certs.records, r.nid = n)
    (hcounted : ∀ n, recordsOf t.certs n = recordsOf s₀ n + a'.acts n)
    (hserials : SerialsApart ⟨t, w.calls.set i (c, p')⟩) : Tracks ca s₀ ⟨t, w.calls.set i (c, p')⟩ a' where
  staged j q hj := by
    rw [hphase]
    rcases getElem?_set_cases hi hj with ⟨rfl, rfl⟩ | ⟨hne, hj⟩
    · rwa [Function.update_self]
    · rw [Function.update_of_ne hne]
      exact h.staged j q hj
  beyond j hj := by
    have hnone : w.calls[j]? = none := by
      rw [List.getElem?_eq_none_iff] at hj ⊢
      simpa using hj
    have hne : j ≠ i := by
      rintro rfl
      rw [hi] at hnone
      cases hnone
    rw [hphase, Function.update_of_ne hne]
    exact h.beyond j hnone
  marked := hmarked
  counted := hcounted
  serials := hserials

theorem Tracks.quiet (h : Tracks ca s₀ w a) (hi : w.calls[i]? = some (c, p))
    (hstaged : Staged ca (c, p') (a.phase i)) (hhand : inHand p' = none)
    (hrecords : t.certs.records = w.state.certs.records)
    (hcounter : w.state.certs.serialCounter ≤ t.certs.serialCounter) : Tracks ca s₀ ⟨t, w.calls.set i (c, p')⟩ a := by
  have hsame : ∀ n, recordsOf t.certs n = recordsOf w.state.certs n := by
    intro n
    rw [recordsOf, hrecords, recordsOf]
  refine h.turn _ hi hstaged (Function.update_eq_self i a.phase).symm ?_ ?_ ?_
  · rw [hrecords]
    exact h.marked
  · intro n
    rw [hsame]
    exact h.counted n
  · refine h.serials.mono ?_ hrecords hcounter
    intro j q r hj hq
    rcases getElem?_set_cases hi hj with ⟨rfl, rfl⟩ | ⟨hne, hj⟩
    · rw [show inHand (c, p').2 = none from hhand] at hq
      cases hq
    · exact ⟨q, hj, hq⟩

theorem Tracks.free_iff (h : Tracks ca s₀ w a) : w.state.certs.getByNid n = none ↔ ¬ a.marked n := by
  rw [h.marked]
  constructor
  · rintro hnone ⟨r, hr, hnid⟩
    exact InMemoryNipCaStore.getByNid_eq_none hnone r hr hnid
  · intro hno
    cases hget : w.state.certs.getByNid n with
    | none => rfl
    | some r =>
      obtain ⟨hr, hnid⟩ := InMemoryNipCaStore.mem_of_getByNid hget
      exact absurd ⟨r, hr, hnid⟩ hno

theorem Tracks.alone (h : Tracks ca s₀ w a) (hi : w.calls[i]? = some (c, p)) (hidle : a.phase i = .idle)
    (hdates : ca.DatesWritten ((amb 0).time 0)) (hfinds : FindsAlone sha256 w i amb)
    (hmem : CaOp.store (.getByNid n) ∈ p.turnOps (exec sha256) CaOp.awaited amb w.state)
    (hfree : w.state.certs.getByNid n = none) : Alone a (.look i n) := by
  refine ⟨h.free_iff.1 hfree, ?_⟩
  rintro j (hj | hj)
  · cases hq : w.calls[j]? with
    | none =>
      rw [h.beyond j hq] at hj
      cases hj
    | some q =>
      have hne : j ≠ i := by
        rintro rfl
        rw [hidle] at hj
        cases hj
      have hstaged := h.staged j q hq
      rw [hj] at hstaged
      exact not_yields_of_holding hdates hstaged (hfinds c p n hi hmem hfree j q hne hq)
  · cases hq : w.calls[j]? with
    | none =>
      rw [h.beyond j hq] at hj
      cases hj
    | some q =>
      have hstaged := h.staged j q hq
      rw [hj] at hstaged
      exact hstaged

theorem Tracks.idle (h : Tracks ca s₀ w a) (hi : w.calls[i]? = some (c, p)) (hidle : a.phase i = .idle)
    (hdates : ca.DatesWritten ((amb 0).time 0)) (hfinds : FindsAlone sha256 w i amb) :
    ∃ es, Along CheckThenAct.step Alone a es ∧ Tracks ca s₀
      ⟨(p.advance (exec sha256) CaOp.awaited amb w.state).2,
        w.calls.set i (c, (p.advance (exec sha256) CaOp.awaited amb w.state).1)⟩ (run CheckThenAct.step a es) := by
  have hstaged := h.staged i (c, p) hi
  rw [hidle] at hstaged
  rcases hstaged with ⟨hacceptable, hseeks | ⟨n, hended, htarget⟩⟩ | ⟨hrefused, hdoomed⟩
  · obtain ⟨hsame, n, htarget, hmem, ⟨-, hfails⟩ | ⟨hfree, hdraws⟩⟩ := hseeks.advance (t := w.state)
    · refine ⟨[], along_nil, ?_⟩
      rw [hsame, hfails]
      refine h.quiet hi ?_ rfl rfl le_rfl
      rw [hidle]
      exact .inl ⟨hacceptable, .inr ⟨n, rfl, htarget⟩⟩
    · have halone : Alone a (.look i n) := h.alone hi hidle hdates hfinds hmem hfree
      refine ⟨[.look i n], along_cons.2 ⟨halone, along_nil⟩, ?_⟩
      rw [hsame]
      rw [run_cons, run_nil, CheckThenAct.step_look hidle]
      refine h.turn (.holding n) hi ⟨hacceptable, htarget, .inl hdraws⟩ rfl h.marked h.counted ?_
      refine h.serials.mono ?_ rfl le_rfl
      intro j q r hj hq
      rcases getElem?_set_cases hi hj with ⟨rfl, rfl⟩ | ⟨hne, hj⟩
      · rw [hdraws.inHand] at hq
        cases hq
      · exact ⟨q, hj, hq⟩
  · subst hended
    refine ⟨[], along_nil, h.quiet hi ?_ rfl rfl le_rfl⟩
    rw [hidle]
    exact .inl ⟨hacceptable, .inr ⟨n, rfl, htarget⟩⟩
  · obtain ⟨hdoomed', hrecords, hcounter⟩ := hdoomed.advance (s := w.state)
    refine ⟨[], along_nil, h.quiet hi ?_ hdoomed'.inHand hrecords hcounter⟩
    rw [hidle]
    exact .inr ⟨hrefused, hdoomed'⟩

/-- The turn of a call that has found its NID free. -/
theorem Tracks.holding (h : Tracks ca s₀ w a) (hi : w.calls[i]? = some (c, p))
    (hholding : a.phase i = .holding n) (hdates : ca.DatesWritten ((amb 0).time 0)) :
    ∃ es, Along CheckThenAct.step Alone a es ∧ Tracks ca s₀
      ⟨(p.advance (exec sha256) CaOp.awaited amb w.state).2,
        w.calls.set i (c, (p.advance (exec sha256) CaOp.awaited amb w.state).1)⟩ (run CheckThenAct.step a es) := by
  have hstaged := h.staged i (c, p) hi
  rw [hholding] at hstaged
  obtain ⟨hacceptable, htarget, hdraws | ⟨serial, hsaves⟩⟩ := hstaged
  · obtain ⟨hcerts, hsaves⟩ := hdraws.advance (t := w.state) hdates
    have hrecords : (p.advance (exec sha256) CaOp.awaited amb w.state).2.certs.records =
        w.state.certs.records := by rw [hcerts]; rfl
    refine ⟨[], along_nil, ?_⟩
    refine h.turn (a.phase i) hi ?_ (Function.update_eq_self i a.phase).symm ?_ ?_ ?_
    · rw [hholding]
      exact ⟨hacceptable, htarget, .inr ⟨_, hsaves⟩⟩
    · rw [hrecords]
      exact h.marked
    · intro m
      rw [recordsOf, hrecords]
      exact h.counted m
    · exact h.serials.draw hi hsaves hcerts
  · obtain ⟨r, hr, hnid, -⟩ := hsaves.inHand
    have hfresh := (h.serials.inHand i (c, p) r hi hr).2
    obtain ⟨hcerts, frame, hdone, hframe⟩ := hsaves.advance (t := w.state) hr hfresh
    have hrecords : (p.advance (exec sha256) CaOp.awaited amb w.state).2.certs.records =
        w.state.certs.records ++ [r] := by rw [hcerts]
    refine ⟨[.act i, .mark i], along_cons.2 ⟨trivial, along_cons.2 ⟨trivial, along_nil⟩⟩, ?_⟩
    -- the record is the act and the mark at once
    have hacted : (CheckThenAct.step a (.act i)).phase i = .acted n := by
      rw [CheckThenAct.step_act hholding]
      exact Function.update_self ..
    rw [run_cons, run_cons, run_nil, CheckThenAct.step_mark hacted, CheckThenAct.step_act hholding, hdone]
    refine h.turn (.done n) hi ⟨htarget, frame, rfl, hframe⟩ ?_ ?_ ?_ ?_
    · exact Function.update_idem ..
    · intro m
      rw [hrecords]
      simp only [List.mem_append, List.mem_singleton, h.marked]
      constructor
      · rintro (rfl | ⟨x, hx, hm⟩)
        · exact ⟨r, .inr rfl, hnid⟩
        · exact ⟨x, .inl hx, hm⟩
      · rintro ⟨x, hx | rfl, hm⟩
        · exact .inr ⟨x, hx, hm⟩
        · exact .inl (hm.symm.trans hnid)
    · intro m
      have hcount := h.counted m
      by_cases hm : m = n
      · subst hm
        simp [recordsOf, hrecords, hnid] at hcount ⊢
        omega
      · have hne : r.nid ≠ m := fun heq => hm (heq.symm.trans hnid)
        simpa [recordsOf, hrecords, hne, Function.update_of_ne hm] using hcount
    · exact h.serials.save hi hr rfl hcerts

/-- **The calls refine the protocol**: a turn is matched by events of it, in which no look is disturbed. -/
theorem Tracks.step {e : CaTurn} (h : Tracks ca s₀ w a) (he : RegistersAlone ca sha256 w e) :
    ∃ es, Along CheckThenAct.step Alone a es ∧ Tracks ca s₀ (caTurn ca sha256 w e) (run CheckThenAct.step a es) := by
  cases e with
  | start c =>
    refine ⟨[], along_nil, ?_⟩
    have hidle : a.phase w.calls.length = .idle := h.beyond _ (by simp)
    have hhand : inHand (c.program ca) = none := by
      cases hc : c.acceptable ca with
      | true => exact (seeks_program hc).inHand
      | false => exact (doomed_program he hc).inHand
    refine ⟨?_, ?_, h.marked, h.counted, ?_⟩
    · intro j q hj
      rcases getElem?_snoc_cases hj with ⟨rfl, rfl⟩ | hj
      · show Staged ca (c, c.program ca) (a.phase w.calls.length)
        rw [hidle]
        cases hc : c.acceptable ca with
        | true => exact .inl ⟨hc, .inl (seeks_program hc)⟩
        | false => exact .inr ⟨hc, doomed_program he hc⟩
      · exact h.staged j q hj
    · intro j hj
      refine h.beyond j ?_
      rw [List.getElem?_eq_none_iff] at hj ⊢
      have : (w.calls ++ [(c, c.program ca)]).length ≤ j := hj
      rw [List.length_append] at this
      omega
    · refine h.serials.mono ?_ rfl le_rfl
      intro j q r hj hq
      rcases getElem?_snoc_cases hj with ⟨rfl, rfl⟩ | hj
      · rw [show inHand (c, c.program ca).2 = none from hhand] at hq
        cases hq
      · exact ⟨q, hj, hq⟩
  | resume i amb =>
    obtain ⟨hdates, hfinds⟩ := he
    unfold caTurn
    cases hi : w.calls[i]? with
    | none =>
      rw [Pool.step_resume_none hi]
      exact ⟨[], along_nil, h⟩
    | some q =>
      obtain ⟨c, p⟩ := q
      rw [Pool.step_resume hi]
      cases hphase : a.phase i with
      | idle => exact h.idle hi hphase (hdates 0) hfinds
      | holding n => exact h.holding hi hphase (hdates 0)
      | acted n =>
        have hstaged := h.staged i (c, p) hi
        rw [hphase] at hstaged
        exact hstaged.elim
      | done n =>
        have hstaged := h.staged i (c, p) hi
        rw [hphase] at hstaged
        obtain ⟨htarget, frame, hdone, hframe⟩ := hstaged
        obtain rfl : p = .done (.ok (.ident frame)) := hdone
        refine ⟨[], along_nil, h.quiet hi ?_ rfl rfl le_rfl⟩
        rw [hphase]
        exact ⟨htarget, frame, rfl, hframe⟩

end Turns

/-! ### What the calls have answered -/

theorem Staged.of_ok {frame : CaIdentFrame} {phase : Phase String}
    (h : Staged ca (c, .done (.ok (.ident frame))) phase) :
    phase = .done frame.nid ∧ ∀ t, c.target ca = some t → frame.nid = t := by
  cases phase with
  | idle =>
    rcases h with ⟨-, (⟨n, k, heq, -⟩ | ⟨k, heq, -⟩) | ⟨n, heq, -⟩⟩ | ⟨-, -, hpasses⟩
    · cases heq
    · cases heq
    · cases heq
    · exact absurd rfl (hpasses (.ident frame))
  | holding n =>
    obtain ⟨-, -, ⟨k, heq, -⟩ | ⟨serial, r, k, frame', heq, -⟩⟩ := h
    · cases heq
    · cases heq
  | acted n => exact h.elim
  | done n =>
    obtain ⟨htarget, frame', heq, hnid⟩ := h
    cases heq
    exact ⟨by rw [hnid], fun t ht => hnid.trans (htarget t ht)⟩

theorem Staged.of_error {e : CaError} {phase : Phase String} (h : Staged ca (c, .done (.error e)) phase)
    (hc : c.acceptable ca = true) : ∃ n, e = alreadyExists n ∧ ∀ t, c.target ca = some t → n = t := by
  cases phase with
  | idle =>
    rcases h with ⟨-, (⟨n, k, heq, -⟩ | ⟨k, heq, -⟩) | ⟨n, heq, htarget⟩⟩ | ⟨hrefused, -⟩
    · cases heq
    · cases heq
    · cases heq
      exact ⟨n, rfl, htarget⟩
    · rw [show c.acceptable ca = false from hrefused] at hc
      cases hc
  | holding n =>
    obtain ⟨-, -, ⟨k, heq, -⟩ | ⟨serial, r, k, frame', heq, -⟩⟩ := h
    · cases heq
    · cases heq
  | acted n => exact h.elim
  | done n =>
    obtain ⟨-, frame, heq, -⟩ := h
    cases heq

theorem Tracks.done_iff (h : Tracks ca s₀ w a) : a.phase i = .done n ↔ succeeded w n i = true := by
  rw [succeeded_iff]
  symm
  constructor
  · rintro ⟨c, frame, hi, rfl⟩
    exact (h.staged i _ hi).of_ok.1
  · intro hdone
    cases hi : w.calls[i]? with
    | none =>
      rw [h.beyond i hi] at hdone
      cases hdone
    | some q =>
      have hstaged := h.staged i q hi
      rw [hdone] at hstaged
      obtain ⟨-, frame, hq, hnid⟩ := hstaged
      obtain ⟨c, p⟩ := q
      obtain rfl : p = .done (.ok (.ident frame)) := hq
      exact ⟨c, frame, rfl, hnid⟩

theorem Tracks.acted_iff (h : Tracks ca s₀ w a) : a.Acted i n ↔ succeeded w n i = true := by
  rw [← h.done_iff]
  constructor
  · rintro (hacted | hdone)
    · cases hi : w.calls[i]? with
      | none =>
        rw [h.beyond i hi] at hacted
        cases hacted
      | some q =>
        have hstaged := h.staged i q hi
        rw [hacted] at hstaged
        exact hstaged.elim
    · exact hdone
  · exact .inr

theorem Tracks.registeredOnce (h : Tracks ca s₀ w a) (honce : Once a n) : RegisteredOnce ca s₀ w n where
  once := by
    have hcount := h.counted n
    rcases honce.acts with ⟨hzero, hnone⟩ | ⟨hone, i, hi, hunique⟩
    · left
      refine ⟨fun i hi => hnone i (h.acted_iff.2 hi), ?_⟩
      omega
    · right
      refine ⟨⟨i, h.acted_iff.1 hi, fun j hj => hunique j (h.acted_iff.2 hj)⟩, ?_⟩
      omega
  answered q hq frame hdone := by
    obtain ⟨i, hi⟩ := List.mem_iff_getElem?.1 hq
    obtain ⟨c, p⟩ := q
    obtain rfl : p = .done (.ok (.ident frame)) := hdone
    exact (h.staged i _ hi).of_ok.2
  refused q hq e hfailed hc := by
    obtain ⟨i, hi⟩ := List.mem_iff_getElem?.1 hq
    obtain ⟨c, p⟩ := q
    obtain rfl : p = .done (.error e) := hfailed
    exact (h.staged i _ hi).of_error hc

end

/-- The protocol before any call, where the NIDs of the records are marked. -/
def registrationStart (s : InMemoryNipCaStore) : CheckThenAct.State String :=
  start fun n => ∃ r ∈ s.records, r.nid = n

/-- **The runs refine the protocol**: a run in which each NID is found free alone is matched by a run of the
protocol in which each look is alone. -/
theorem tracks_run {ca : NipCaService} {sha256 : String → String} {s : CaState} {es : List CaTurn}
    (hs : SerialsDrawn s.certs) (halone : Along (caTurn ca sha256) (RegistersAlone ca sha256) ⟨s, []⟩ es) :
    ∃ fs, Along CheckThenAct.step Alone (registrationStart s.certs) fs ∧
      Tracks ca s.certs (run (caTurn ca sha256) ⟨s, []⟩ es)
        (run CheckThenAct.step (registrationStart s.certs) fs) := by
  refine run_induction_along (P := RegistersAlone ca sha256) (I := fun w => ∃ fs,
    Along CheckThenAct.step Alone (registrationStart s.certs) fs ∧
      Tracks ca s.certs w (run CheckThenAct.step (registrationStart s.certs) fs)) ?_ ?_ halone
  · refine ⟨[], along_nil, ?_, fun _ _ => rfl, fun _ => Iff.rfl, fun _ => rfl, hs, ?_, ?_⟩
    · intro i q hi
      simp at hi
    · intro i q r hi
      simp at hi
    · intro i j q q' r r' hi
      simp at hi
  · rintro w e ⟨fs, hfs, htracks⟩ he
    obtain ⟨gs, hgs, htracks'⟩ := htracks.step he
    refine ⟨fs ++ gs, along_append hfs hgs, ?_⟩
    rw [run_append]
    exact htracks'

/-- **Each NID is registered once**: in every interleaving in which no registration finds a NID free while
another one that has found it free can still save it, one registration of a NID succeeds at most, it alone
adds a record, and the others fail because the NID exists. -/
theorem registered_once (ca : NipCaService) (sha256 : String → String) (s : CaState) (es : List CaTurn)
    (hs : SerialsDrawn s.certs) (halone : Along (caTurn ca sha256) (RegistersAlone ca sha256) ⟨s, []⟩ es)
    (nid : String) : RegisteredOnce ca s.certs (run (caTurn ca sha256) ⟨s, []⟩ es) nid := by
  obtain ⟨fs, hfs, htracks⟩ := tracks_run hs halone
  exact htracks.registeredOnce (CheckThenAct.once_run hfs nid)

/-! ### Two registrations of one agent -/

def registerAs (pubKey : String) : CaCall := .register "agent" "a" pubKey [] "{}" none

/-- The second starts after the first has ended. -/
def registeredInTurn : List CaTurn :=
  [.start (registerAs "ed25519:a"), .resume 0 (onDay 0), .resume 0 (onDay 0), .resume 0 (onDay 0),
    .start (registerAs "ed25519:b"), .resume 1 (onDay 0), .resume 1 (onDay 0)]

/-- Both look the NID up before one of them saves. -/
def registeredTogether : List CaTurn :=
  [.start (registerAs "ed25519:a"), .start (registerAs "ed25519:b"), .resume 0 (onDay 0), .resume 1 (onDay 0),
    .resume 0 (onDay 0), .resume 0 (onDay 0), .resume 1 (onDay 0), .resume 1 (onDay 0)]

theorem datesWritten_plainCa : plainCa.DatesWritten (0 * 86400000) := by
  refine ⟨by decide, ?_, by decide⟩
  intro entityType
  unfold NipCaService.validityOf
  split
  · decide
  · decide

theorem registeredInTurn_once :
    RegisteredOnce plainCa {} (run (caTurn plainCa id) ⟨{}, []⟩ registeredInTurn) sampleAgent := by
  refine registered_once plainCa id {} registeredInTurn (by simp [SerialsDrawn]) ?_ sampleAgent
  have hturn : ∀ (w : CaPool) (i : ℕ), undisturbed id w i (onDay 0) = true →
      RegistersAlone plainCa id w (.resume i (onDay 0)) := fun w i h =>
    ⟨fun _ => datesWritten_plainCa, findsAlone_of_undisturbed h⟩
  refine along_cons.2 ⟨rfl, along_cons.2 ⟨hturn _ _ (by decide), along_cons.2
    ⟨hturn _ _ (by decide), along_cons.2 ⟨hturn _ _ (by decide), along_cons.2 ⟨rfl,
      along_cons.2 ⟨hturn _ _ (by decide), along_cons.2 ⟨hturn _ _ (by decide), along_nil⟩⟩⟩⟩⟩⟩⟩

/-- Both registrations succeed, with acceptable arguments and in a fresh store. -/
theorem registered_twice : let w := run (caTurn plainCa id) ⟨{}, []⟩ registeredTogether
    (∀ q ∈ w.calls, q.1.registers = true ∧ q.1.acceptable plainCa = true) ∧
      succeeded w sampleAgent 0 = true ∧ succeeded w sampleAgent 1 = true ∧
      ¬ RegisteredOnce plainCa {} w sampleAgent := by
  have hfirst : succeeded (run (caTurn plainCa id) ⟨{}, []⟩ registeredTogether) sampleAgent 0 = true := by
    decide
  have hsecond : succeeded (run (caTurn plainCa id) ⟨{}, []⟩ registeredTogether) sampleAgent 1 = true := by
    decide
  refine ⟨by decide, hfirst, hsecond, ?_⟩
  intro h
  rcases h.once with ⟨hnone, -⟩ | ⟨⟨i, -, hunique⟩, -⟩
  · exact hnone 0 hfirst
  · have h0 := hunique 0 hfirst
    have h1 := hunique 1 hsecond
    omega

end NpsSdk.Nip.Ca
