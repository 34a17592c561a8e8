import NpsSdk.Alpha20.AdmissionSoundness
import NpsSdk.Alpha20.SqliteProjectionReplayStore

/-!
# Admissions that share a replay store

Any number of admissions in flight take turns, over a store that is atomic on the issuer and the
projection.  Two of them are admitted for one projection only if the store has let go of the first
claim when it answers the second; `sqliteReplayStore` is such a store.
-/

namespace NpsSdk.Alpha20

open NpsSdk.Lib

/-- **A replay store that is atomic** on an issuer and a projection.  `η` is what a call of it meets beside
its state, as the reading of its clock. -/
structure AtomicReplayStore (σ η : Type) where
  claim : η → ReplayClaim → σ → Except Failure ReplayAnswer × σ
  /-- The claim of a projection of an issuer is retained. -/
  retains : η → String → String → σ → Prop
  /-- What is claimed was not retained before, and is retained after. -/
  claimed : ∀ a input s, (claim a input s).1 = .ok .claimed →
    ¬ retains a input.issuer input.projectionId s ∧
      retains a input.issuer input.projectionId (claim a input s).2

/-- What an operation of an admission meets: what is answered to it, and what a call of the store meets. -/
structure AdmissionAmbient (η : Type) where
  answer : (o : AdmissionOp) → Except Failure o.Res
  store : η

structure AdmissionCall where
  carriers : List String
  requestJson : String

abbrev AdmissionWorld (σ : Type) :=
  Pool AdmissionCall σ AdmissionOp AdmissionOp.Res Failure AdmittedInvocation

/-- An admission takes a turn, or something else happens to the store. -/
inductive AdmissionEvent (σ η : Type)
  | turn (t : Turn AdmissionCall (AdmissionAmbient η))
  | store (s : σ)

variable {σ η : Type} (host : Host) (store : AtomicReplayStore σ η)

/-- The store answers the claims; all other answers come from outside. -/
def admissionExec (a : AdmissionAmbient η) (o : AdmissionOp) (s : σ) : Except Failure o.Res × σ :=
  match o with
  | .claim input => store.claim a.store input s
  | o => (a.answer o, s)

def admissionProgram (c : AdmissionCall) : Admission AdmittedInvocation :=
  admitInvocationProjection host c.carriers c.requestJson

def admissionStep (w : AdmissionWorld σ) : AdmissionEvent σ η → AdmissionWorld σ
  | .turn t => w.step (admissionExec store) AdmissionOp.waits (admissionProgram host) t
  | .store s => { w with state := s }

def admissionsAfter (s : σ) (es : List (AdmissionEvent σ η)) : AdmissionWorld σ :=
  run (admissionStep host store) ⟨s, []⟩ es

/-- The event is a turn of the `i`-th admission. -/
def AdmissionEvent.IsTurnOf (e : AdmissionEvent σ η) (i : ℕ) : Prop := ∃ amb, e = .turn (.resume i amb)

/-! ### The turn of a claim -/

/-- The claim of a projection was answered `claimed`. -/
def ClaimedAs (issuer projectionId : String) : Exchange AdmissionOp AdmissionOp.Res Failure → Prop
  | ⟨.claim input, .ok .claimed⟩ => input.issuer = issuer ∧ input.projectionId = projectionId
  | _ => False

def AdmittedAs (issuer projectionId : String) (a : AdmittedInvocation) : Prop :=
  a.issuer = issuer ∧ a.projectionId = projectionId

variable {host store} {w : AdmissionWorld σ} {e : AdmissionEvent σ η} {es : List (AdmissionEvent σ η)}
  {s : σ} {i j : ℕ} {issuer projectionId : String}

theorem admission_passes (c : AdmissionCall) :
    Async.PassesTo (ClaimedAs issuer projectionId) (AdmittedAs issuer projectionId) (admissionProgram host c) := by
  have hclaimed : ∀ log a, Decided host c.carriers c.requestJson log (.ok a) →
      AdmittedAs issuer projectionId a → ∃ x ∈ log, ClaimedAs issuer projectionId x := by
    intro log a h ha
    obtain ⟨vetted, x, -, rfl, rfl⟩ := h
    exact ⟨_, List.mem_append_right _ List.mem_cons_self, ha⟩
  rcases admission_always.passesTo hclaimed with ⟨x, hx, -⟩ | hpass
  · cases hx
  · exact hpass

/-- The event is a turn of the `i`-th admission in which the projection is claimed. -/
structure ClaimsIn (host : Host) (store : AtomicReplayStore σ η) (w : AdmissionWorld σ)
    (e : AdmissionEvent σ η) (i : ℕ) (issuer projectionId : String) : Prop where
  turn : e.IsTurnOf i
  claimed : ∃ a, ¬ store.retains a issuer projectionId w.state ∧
    store.retains a issuer projectionId (admissionStep host store w e).state

theorem claimsIn_of_turn {amb : ℕ → AdmissionAmbient η} {c : AdmissionCall}
    {p : Admission AdmittedInvocation} (hcall : w.calls[i]? = some (c, p))
    (h : ∃ x ∈ p.turnLog (admissionExec store) AdmissionOp.waits amb w.state,
      ClaimedAs issuer projectionId x) : ClaimsIn host store w (.turn (.resume i amb)) i issuer projectionId := by
  obtain ⟨⟨o, answer⟩, hx, hhit⟩ := h
  have hstate : (admissionStep host store w (.turn (.resume i amb))).state =
      (p.advance (admissionExec store) AdmissionOp.waits amb w.state).2 := by
    rw [admissionStep, Pool.step_resume hcall]
  have hquiet : ∀ (a : AdmissionAmbient η) (o : AdmissionOp) (s : σ), o.waits = false →
      (admissionExec store a o s).2 = s := by
    intro a o s ho
    cases o with
    | claim input => cases ho
    | _ => rfl
  cases o with
  | claim input =>
    obtain ⟨a, hanswer, hnext⟩ := Async.exchange_of_turn hx rfl hquiet
    match answer, hhit with
    | .ok .claimed, ⟨hissuer, hid⟩ =>
      obtain ⟨hbefore, hafter⟩ := store.claimed a.store input w.state hanswer.symm
      rw [hissuer, hid] at hbefore hafter
      exact ⟨⟨amb, rfl⟩, a.store, hbefore, by rw [hstate, hnext]; exact hafter⟩
  | _ => exact hhit.elim

/-- Either the claim of an admission is still to come, or there was a turn in which it was made. -/
theorem claim_made {c : AdmissionCall} {p : Admission AdmittedInvocation}
    (hcall : (admissionsAfter host store s es).calls[i]? = some (c, p)) :
    Async.PassesTo (ClaimedAs issuer projectionId) (AdmittedAs issuer projectionId) p ∨
      ∃ pre e post, es = pre ++ e :: post ∧
        ClaimsIn host store (admissionsAfter host store s pre) e i issuer projectionId := by
  induction es using List.reverseRecOn generalizing c p with
  | nil => simp [admissionsAfter] at hcall
  | append_singleton es e ih =>
    have hsnoc : admissionsAfter host store s (es ++ [e]) =
        admissionStep host store (admissionsAfter host store s es) e := run_snoc
    have hearlier : ∀ {p'}, (admissionsAfter host store s es).calls[i]? = some (c, p') →
        (Async.PassesTo (ClaimedAs issuer projectionId) (AdmittedAs issuer projectionId) p' →
          Async.PassesTo (ClaimedAs issuer projectionId) (AdmittedAs issuer projectionId) p ∨
            ClaimsIn host store (admissionsAfter host store s es) e i issuer projectionId) →
        Async.PassesTo (ClaimedAs issuer projectionId) (AdmittedAs issuer projectionId) p ∨
          ∃ pre e' post, es ++ [e] = pre ++ e' :: post ∧
            ClaimsIn host store (admissionsAfter host store s pre) e' i issuer projectionId := by
      intro p' hcall' hpass
      rcases ih hcall' with h | ⟨pre, e', post, rfl, h⟩
      · rcases hpass h with h | h
        · exact .inl h
        · exact .inr ⟨es, e, [], rfl, h⟩
      · exact .inr ⟨pre, e', post ++ [e], by simp, h⟩
    rw [hsnoc] at hcall
    cases e with
    | store s' => exact hearlier hcall .inl
    | turn t =>
      cases t with
      | start c' =>
        simp only [admissionStep, Pool.step_start] at hcall
        rcases lt_or_ge i (admissionsAfter host store s es).calls.length with hlt | hge
        · rw [List.getElem?_append_left hlt] at hcall
          exact hearlier hcall .inl
        · rw [List.getElem?_append_right hge, List.getElem?_singleton] at hcall
          split at hcall
          · cases hcall
            exact .inl (admission_passes c)
          · cases hcall
      | resume k amb =>
        cases hk : (admissionsAfter host store s es).calls[k]? with
        | none =>
          rw [admissionStep, Pool.step_resume_none hk] at hcall
          exact hearlier hcall .inl
        | some cp =>
          obtain ⟨c', p'⟩ := cp
          rw [admissionStep, Pool.step_resume hk] at hcall
          dsimp only at hcall
          by_cases hik : k = i
          · subst hik
            have hlt : k < (admissionsAfter host store s es).calls.length := by
              by_contra hge
              rw [List.getElem?_eq_none (not_lt.1 hge)] at hk
              cases hk
            rw [List.getElem?_set_self hlt, Option.some.injEq, Prod.mk.injEq] at hcall
            obtain ⟨rfl, rfl⟩ := hcall
            refine hearlier hk fun hpass => ?_
            rcases hpass.advance with hhit | hrest
            · exact .inr (claimsIn_of_turn hk hhit)
            · exact .inl hrest
          · rw [List.getElem?_set_ne hik] at hcall
            exact hearlier hcall .inl

/-! ### At most one admission -/

theorem earlier_or_later {α : Type} {pre pre' post post' : List α} {a b : α}
    (h : pre ++ a :: post = pre' ++ b :: post') (hne : a ≠ b) :
    (∃ mid, pre' = pre ++ a :: mid) ∨ ∃ mid, pre = pre' ++ b :: mid := by
  rcases List.append_eq_append_iff.1 h with ⟨mid, hpre, hrest⟩ | ⟨mid, hpre, hrest⟩
  · cases mid with
    | nil =>
      cases hrest
      exact absurd rfl hne
    | cons x mid =>
      cases hrest
      exact .inl ⟨mid, hpre⟩
  · cases mid with
    | nil =>
      cases hrest
      exact absurd rfl hne
    | cons x mid =>
      cases hrest
      exact .inr ⟨mid, hpre⟩

/-- A turn of the `i`-th admission leaves the claim of the projection retained, and a later turn of the
`j`-th one meets it no longer retained. -/
def Released (host : Host) (store : AtomicReplayStore σ η) (s : σ) (es : List (AdmissionEvent σ η))
    (i j : ℕ) (issuer projectionId : String) : Prop :=
  ∃ (pre mid post : List (AdmissionEvent σ η)) (first second : AdmissionEvent σ η),
    es = pre ++ first :: mid ++ second :: post ∧ first.IsTurnOf i ∧ second.IsTurnOf j ∧
    (∃ a, store.retains a issuer projectionId (admissionsAfter host store s (pre ++ [first])).state) ∧
    ∃ a, ¬ store.retains a issuer projectionId (admissionsAfter host store s (pre ++ first :: mid)).state

theorem released_of_claims {pre mid post : List (AdmissionEvent σ η)} {first second : AdmissionEvent σ η}
    (hfirst : ClaimsIn host store (admissionsAfter host store s pre) first i issuer projectionId)
    (hsecond : ClaimsIn host store (admissionsAfter host store s (pre ++ first :: mid)) second j issuer
      projectionId) (hes : es = pre ++ first :: mid ++ second :: post) :
    Released host store s es i j issuer projectionId := by
  obtain ⟨a, -, hafter⟩ := hfirst.claimed
  obtain ⟨b, hbefore, -⟩ := hsecond.claimed
  have hsnoc : admissionsAfter host store s (pre ++ [first]) =
      admissionStep host store (admissionsAfter host store s pre) first := run_snoc
  rw [← hsnoc] at hafter
  exact ⟨pre, mid, post, first, second, hes, hfirst.turn, hsecond.turn, ⟨a, hafter⟩, b, hbefore⟩

theorem claimsIn_of_admitted {c : AdmissionCall} {x : AdmittedInvocation}
    (hcall : (admissionsAfter host store s es).calls[i]? = some (c, .done (.ok x))) :
    ∃ pre e post, es = pre ++ e :: post ∧
      ClaimsIn host store (admissionsAfter host store s pre) e i x.issuer x.projectionId := by
  rcases claim_made hcall with hpass | h
  · exact absurd ⟨rfl, rfl⟩ (hpass x rfl)
  · exact h

/-- What a call of the durable store meets: the replica, the reading of the clock and what throws. -/
structure SqliteAmbient where
  store : SqliteProjectionReplayStore
  clock : JsDouble
  fails : Statement → Bool

def ReplayClaim.input (x : ReplayClaim) : ClaimInput where
  audience := x.audience
  issuer := x.issuer
  projectionId := x.projectionId
  acceptBefore := .fin x.acceptBefore
  retainUntil := .fin x.retainUntil

/-- The row of a projection is there, and its retention is not over. -/
def SqliteRetains (a : SqliteAmbient) (issuer projectionId : String) (db : ReplayDatabase) : Prop :=
  ∃ now retain, a.clock.safeInteger = some now ∧ db.replays.get (issuer, projectionId) = some retain ∧
    now < retain

theorem retains_of_claimed {a : SqliteAmbient} {x : ClaimInput} {db db' : ReplayDatabase}
    (h : claim a.store db { input := x, clock := a.clock, fails := a.fails } = (some .claimed, db')) :
    ¬ SqliteRetains a x.issuer x.projectionId db ∧ SqliteRetains a x.issuer x.projectionId db' := by
  unfold claim at h
  split at h
  · cases h
  · rename_i acceptBefore retainUntil hcheck
    dsimp only at hcheck h
    split at h
    · cases h
    · rename_i answer db₁ htransaction
      cases h
      obtain ⟨now, hclock, -, heffect⟩ := effect_of_transaction htransaction
      obtain ⟨-, -, hle⟩ := checkInput_le hcheck
      cases heffect with
      | claimed early absent room =>
        refine ⟨?_, now, retainUntil, hclock, JsMap.get_set_self _ _ _, early.trans_le hle⟩
        rintro ⟨now', retain, hclock', hrow, hlt⟩
        obtain rfl := Option.some.inj (hclock.symm.trans hclock')
        rw [JsMap.has, row_kept hrow hlt] at absent
        cases absent

/-- A call of the durable store. -/
def SqliteAmbient.claim (a : SqliteAmbient) (x : ReplayClaim) (db : ReplayDatabase) :
    Option ClaimAnswer × ReplayDatabase :=
  Alpha20.claim a.store db { input := x.input, clock := a.clock, fails := a.fails }

/-- What an admission sees of an answer; a store that throws is one that fails. -/
def answerOf : Option ClaimAnswer → Except Failure ReplayAnswer
  | none => .error .other
  | some .claimed => .ok .claimed
  | some .duplicate => .ok .duplicate
  | some .expired => .ok .expired

theorem eq_claimed_of_answerOf {o : Option ClaimAnswer} (h : answerOf o = .ok .claimed) : o = some .claimed := by
  match o, h with
  | some .claimed, _ => rfl

/-- **The durable store is atomic** on the issuer and the projection. -/
def sqliteReplayStore : AtomicReplayStore ReplayDatabase SqliteAmbient where
  claim a x db := (answerOf (a.claim x db).1, (a.claim x db).2)
  retains := SqliteRetains
  claimed _ _ _ h := retains_of_claimed (Prod.ext (eq_claimed_of_answerOf h) rfl)

end NpsSdk.Alpha20
