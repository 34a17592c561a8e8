import NpsSdk.Lib.Runs

/-!
# Checking first and acting later

Parties that share a set of marked keys: a party looks whether a key is marked, acts on the key later, and
marks it after that; what it saw when it looked may have changed by then.  Outsiders may close a key, which
marks it.  Where a look that finds a key unmarked, and a closing, happen while no other party has found the
key unmarked, each key is acted on once at most, and a closed key never.
-/

namespace NpsSdk.Lib.CheckThenAct

variable {κ : Type}

inductive Phase (κ : Type) where
  | idle
  /-- Has found the key unmarked. -/
  | holding (k : κ)
  /-- Has acted on the key, and not marked it yet. -/
  | acted (k : κ)
  | done (k : κ)

structure State (κ : Type) where
  phase : ℕ → Phase κ
  marked : κ → Prop
  /-- How often each key has been acted on. -/
  acts : κ → ℕ
  /-- The keys that were unmarked when an outsider closed them. -/
  closed : κ → Prop

/-- What happens: a party finds a key unmarked, gives up, acts, or marks; an outsider closes a key. -/
inductive Event (κ : Type) where
  | look (i : ℕ) (k : κ)
  | drop (i : ℕ)
  | act (i : ℕ)
  | mark (i : ℕ)
  | close (k : κ)

variable [DecidableEq κ]

/-- One event; what a party is not ready for does nothing. -/
def step (s : State κ) : Event κ → State κ
  | .look i k =>
    match s.phase i with
    | .idle => { s with phase := Function.update s.phase i (.holding k) }
    | _ => s
  | .drop i =>
    match s.phase i with
    | .holding _ => { s with phase := Function.update s.phase i .idle }
    | _ => s
  | .act i =>
    match s.phase i with
    | .holding k =>
      { s with
        phase := Function.update s.phase i (.acted k)
        acts := Function.update s.acts k (s.acts k + 1) }
    | _ => s
  | .mark i =>
    match s.phase i with
    | .acted k =>
      { s with
        phase := Function.update s.phase i (.done k)
        marked := fun k' => k' = k ∨ s.marked k' }
    | _ => s
  | .close k =>
    { s with
      marked := fun k' => k' = k ∨ s.marked k'
      closed := fun k' => k' = k ∨ s.closed k' }

/-- The party has found the key unmarked and not marked it yet. -/
def State.Has (s : State κ) (i : ℕ) (k : κ) : Prop := s.phase i = .holding k ∨ s.phase i = .acted k

/-- The party has acted on the key. -/
def State.Acted (s : State κ) (i : ℕ) (k : κ) : Prop := s.phase i = .acted k ∨ s.phase i = .done k

/-- The event comes while no other party has found its key unmarked. -/
def Alone (s : State κ) : Event κ → Prop
  | .look _ k => ¬ s.marked k ∧ ∀ j, ¬ s.Has j k
  | .close k => ¬ s.marked k ∧ ∀ j, ¬ s.Has j k
  | _ => True

/-- Nobody has done anything. -/
def start (marked : κ → Prop) : State κ where
  phase := fun _ => .idle
  marked := marked
  acts := fun _ => 0
  closed := fun _ => False

/-! ### What events lead to -/

variable {s : State κ} {i j : ℕ} {k k' : κ}

theorem step_look (h : s.phase i = .idle) :
    step s (.look i k) = { s with phase := Function.update s.phase i (.holding k) } := by
  simp [step, h]

theorem step_drop (h : s.phase i = .holding k) :
    step s (.drop i) = { s with phase := Function.update s.phase i .idle } := by
  simp [step, h]

theorem step_act (h : s.phase i = .holding k) : step s (.act i) =
    { s with
      phase := Function.update s.phase i (.acted k)
      acts := Function.update s.acts k (s.acts k + 1) } := by
  simp [step, h]

theorem step_mark (h : s.phase i = .acted k) : step s (.mark i) =
    { s with
      phase := Function.update s.phase i (.done k)
      marked := fun k' => k' = k ∨ s.marked k' } := by
  simp [step, h]

/-- **Acted on once at most**: who has found the key unmarked is alone, a key is acted on by one party if it
is, which has it still or has marked it, and a closed key is acted on by none. -/
structure Once (s : State κ) (k : κ) : Prop where
  unique : ∀ i j, s.Has i k → s.Has j k → i = j
  marked : s.marked k → ∀ i, ¬ s.Has i k
  done : ∀ i, s.phase i = .done k → s.marked k
  acts : s.acts k = 0 ∧ (∀ i, ¬ s.Acted i k) ∨
    s.acts k = 1 ∧ ∃ i, s.Acted i k ∧ ∀ j, s.Acted j k → j = i
  closed : s.closed k → s.marked k ∧ s.acts k = 0

omit [DecidableEq κ] in
theorem once_start (marked : κ → Prop) (k : κ) : Once (start marked) k where
  unique i j h := by simp [State.Has, start] at h
  marked _ i := by simp [State.Has, start]
  done i h := by simp [start] at h
  acts := .inl ⟨rfl, by simp [State.Acted, start]⟩
  closed h := h.elim

omit [DecidableEq κ] in
theorem Once.untouched (h : Once s k) (hi : s.phase i = .holding k) : s.acts k = 0 ∧ ∀ j, ¬ s.Acted j k := by
  rcases h.acts with h0 | ⟨-, j, hj, -⟩
  · exact h0
  · exfalso
    rcases hj with hj | hj
    · have hij : i = j := h.unique i j (.inl hi) (.inr hj)
      rw [hij, hj] at hi
      cases hi
    · exact h.marked (h.done j hj) i (.inl hi)

omit [DecidableEq κ] in
theorem update_cases {p q : Phase κ} (h : Function.update s.phase i p j = q) :
    j = i ∧ p = q ∨ j ≠ i ∧ s.phase j = q := by
  by_cases hij : j = i
  · subst hij
    exact .inl ⟨rfl, by simpa using h⟩
  · exact .inr ⟨hij, by simpa [hij] using h⟩

theorem Once.look (h : ∀ k, Once s k) (hi : s.phase i = .idle) (halone : Alone s (.look i k)) (k' : κ) :
    Once (step s (.look i k)) k' := by
  rw [step_look hi]
  have hhas : ∀ j, State.Has { s with phase := Function.update s.phase i (.holding k) } j k' →
      j = i ∧ k = k' ∨ s.Has j k' := by
    rintro j (hj | hj)
    · rcases update_cases hj with ⟨rfl, hp⟩ | ⟨-, hp⟩
      · exact .inl ⟨rfl, by injection hp⟩
      · exact .inr (.inl hp)
    · rcases update_cases hj with ⟨-, hp⟩ | ⟨-, hp⟩
      · cases hp
      · exact .inr (.inr hp)
  have hacted : ∀ j, State.Acted { s with phase := Function.update s.phase i (.holding k) } j k' ↔ s.Acted j k' := by
    intro j
    by_cases hj : j = i
    · simp [State.Acted, hj, hi]
    · simp [State.Acted, hj]
  constructor
  · intro a b ha hb
    rcases hhas a ha with ⟨rfl, rfl⟩ | ha'
    · rcases hhas b hb with ⟨rfl, -⟩ | hb'
      · rfl
      · exact absurd hb' (halone.2 b)
    · rcases hhas b hb with ⟨rfl, rfl⟩ | hb'
      · exact absurd ha' (halone.2 a)
      · exact (h k').unique a b ha' hb'
  · intro hm a ha
    rcases hhas a ha with ⟨rfl, rfl⟩ | ha'
    · exact halone.1 hm
    · exact (h k').marked hm a ha'
  · intro a ha
    rcases update_cases ha with ⟨-, hp⟩ | ⟨-, hp⟩
    · cases hp
    · exact (h k').done a hp
  · simp only [hacted]
    exact (h k').acts
  · exact (h k').closed

theorem Once.drop (h : ∀ k, Once s k) (hi : s.phase i = .holding k) (k' : κ) : Once (step s (.drop i)) k' := by
  rw [step_drop hi]
  have hhas : ∀ j, State.Has { s with phase := Function.update s.phase i .idle } j k' → s.Has j k' := by
    rintro j (hj | hj)
    · rcases update_cases hj with ⟨-, hp⟩ | ⟨-, hp⟩
      · cases hp
      · exact .inl hp
    · rcases update_cases hj with ⟨-, hp⟩ | ⟨-, hp⟩
      · cases hp
      · exact .inr hp
  have hacted : ∀ j, State.Acted { s with phase := Function.update s.phase i .idle } j k' ↔ s.Acted j k' := by
    intro j
    by_cases hj : j = i
    · simp [State.Acted, hj, hi]
    · simp [State.Acted, hj]
  constructor
  · exact fun a b ha hb => (h k').unique a b (hhas a ha) (hhas b hb)
  · exact fun hm a ha => (h k').marked hm a (hhas a ha)
  · intro a ha
    rcases update_cases ha with ⟨-, hp⟩ | ⟨-, hp⟩
    · cases hp
    · exact (h k').done a hp
  · simp only [hacted]
    exact (h k').acts
  · exact (h k').closed

theorem Once.act (h : ∀ k, Once s k) (hi : s.phase i = .holding k) (k' : κ) : Once (step s (.act i)) k' := by
  rw [step_act hi]
  have hphase : ∀ j (k'' : κ), State.Has { s with
        phase := Function.update s.phase i (.acted k)
        acts := Function.update s.acts k (s.acts k + 1) } j k'' → s.Has j k'' := by
    rintro j k'' (hj | hj)
    · rcases update_cases hj with ⟨-, hp⟩ | ⟨-, hp⟩
      · cases hp
      · exact .inl hp
    · rcases update_cases hj with ⟨rfl, hp⟩ | ⟨-, hp⟩
      · cases hp
        exact .inl hi
      · exact .inr hp
  have hhas := fun j => hphase j k'
  obtain ⟨h0, hnone⟩ := (h k).untouched hi
  constructor
  · exact fun a b ha hb => (h k').unique a b (hhas a ha) (hhas b hb)
  · exact fun hm a ha => (h k').marked hm a (hhas a ha)
  · intro a ha
    rcases update_cases ha with ⟨-, hp⟩ | ⟨-, hp⟩
    · cases hp
    · exact (h k').done a hp
  · by_cases hk : k' = k
    · subst hk
      refine .inr ⟨by simp [h0], i, by simp [State.Acted], ?_⟩
      rintro j (hj | hj)
      · rcases update_cases hj with ⟨hji, -⟩ | ⟨-, hp⟩
        · exact hji
        · exact absurd (.inl hp) (hnone j)
      · rcases update_cases hj with ⟨hji, -⟩ | ⟨-, hp⟩
        · exact hji
        · exact absurd (.inr hp) (hnone j)
    · have hacted : ∀ j, State.Acted { s with
            phase := Function.update s.phase i (.acted k)
            acts := Function.update s.acts k (s.acts k + 1) } j k' ↔ s.Acted j k' := by
        intro j
        by_cases hj : j = i
        · simp [State.Acted, hj, hi, Ne.symm hk]
        · simp [State.Acted, hj]
      simp only [hacted, Function.update_of_ne hk]
      exact (h k').acts
  · intro hc
    obtain ⟨hm, hz⟩ := (h k').closed hc
    refine ⟨hm, ?_⟩
    by_cases hk : k' = k
    · subst hk
      exact absurd (.inl hi) ((h k').marked hm i)
    · simpa [Function.update_of_ne hk] using hz

theorem Once.mark (h : ∀ k, Once s k) (hi : s.phase i = .acted k) (k' : κ) : Once (step s (.mark i)) k' := by
  rw [step_mark hi]
  have hhas : ∀ j, State.Has { s with
        phase := Function.update s.phase i (.done k)
        marked := fun k' => k' = k ∨ s.marked k' } j k' → j ≠ i ∧ s.Has j k' := by
    rintro j (hj | hj)
    · rcases update_cases hj with ⟨-, hp⟩ | ⟨hne, hp⟩
      · cases hp
      · exact ⟨hne, .inl hp⟩
    · rcases update_cases hj with ⟨-, hp⟩ | ⟨hne, hp⟩
      · cases hp
      · exact ⟨hne, .inr hp⟩
  have hacted : ∀ j, State.Acted { s with
        phase := Function.update s.phase i (.done k)
        marked := fun k' => k' = k ∨ s.marked k' } j k' ↔ s.Acted j k' := by
    intro j
    by_cases hj : j = i
    · simp [State.Acted, hj, hi]
    · simp [State.Acted, hj]
  constructor
  · exact fun a b ha hb => (h k').unique a b (hhas a ha).2 (hhas b hb).2
  · rintro (rfl | hm) a ha
    · exact (hhas a ha).1 ((h k').unique a i (hhas a ha).2 (.inr hi))
    · exact (h k').marked hm a (hhas a ha).2
  · intro a ha
    rcases update_cases ha with ⟨-, hp⟩ | ⟨-, hp⟩
    · cases hp
      exact .inl rfl
    · exact .inr ((h k').done a hp)
  · simp only [hacted]
    exact (h k').acts
  · intro hc
    obtain ⟨hm, hz⟩ := (h k').closed hc
    exact ⟨.inr hm, hz⟩

theorem Once.close (h : ∀ k, Once s k) (halone : Alone s (.close k)) (k' : κ) : Once (step s (.close k)) k' := by
  constructor
  · exact (h k').unique
  · rintro (rfl | hm) a ha
    · exact halone.2 a ha
    · exact (h k').marked hm a ha
  · exact fun a ha => .inr ((h k').done a ha)
  · exact (h k').acts
  · rintro (rfl | hc)
    · refine ⟨.inl rfl, ?_⟩
      rcases (h k').acts with h0 | ⟨-, i, hi, -⟩
      · exact h0.1
      · exfalso
        rcases hi with hi | hi
        · exact halone.2 i (.inr hi)
        · exact halone.1 ((h k').done i hi)
    · obtain ⟨hm, hz⟩ := (h k').closed hc
      exact ⟨.inr hm, hz⟩

theorem step_cases (s : State κ) (e : Event κ) : step s e = s ∨
    (∃ i k, e = .look i k ∧ s.phase i = .idle) ∨ (∃ i k, e = .drop i ∧ s.phase i = .holding k) ∨
    (∃ i k, e = .act i ∧ s.phase i = .holding k) ∨ (∃ i k, e = .mark i ∧ s.phase i = .acted k) ∨
    ∃ k, e = .close k := by
  cases e with
  | look i k =>
    cases hi : s.phase i with
    | idle => exact .inr (.inl ⟨i, k, rfl, hi⟩)
    | _ => simp [step, hi]
  | drop i =>
    cases hi : s.phase i with
    | holding k => exact .inr (.inr (.inl ⟨i, k, rfl, hi⟩))
    | _ => simp [step, hi]
  | act i =>
    cases hi : s.phase i with
    | holding k => exact .inr (.inr (.inr (.inl ⟨i, k, rfl, hi⟩)))
    | _ => simp [step, hi]
  | mark i =>
    cases hi : s.phase i with
    | acted k => exact .inr (.inr (.inr (.inr (.inl ⟨i, k, rfl, hi⟩))))
    | _ => simp [step, hi]
  | close k => exact .inr (.inr (.inr (.inr (.inr ⟨k, rfl⟩))))

/-- **Each event preserves it**, of the keys that are looked at alone. -/
theorem Once.step (h : ∀ k, Once s k) (e : Event κ) (halone : Alone s e) (k : κ) : Once (CheckThenAct.step s e) k := by
  rcases step_cases s e with hsame | ⟨i, k', rfl, hi⟩ | ⟨i, k', rfl, hi⟩ | ⟨i, k', rfl, hi⟩ |
    ⟨i, k', rfl, hi⟩ | ⟨k', rfl⟩
  · rw [hsame]
    exact h k
  · exact Once.look h hi halone k
  · exact Once.drop h hi k
  · exact Once.act h hi k
  · exact Once.mark h hi k
  · exact Once.close h halone k

/-- **In a run of lonely looks, each key is acted on once at most.** -/
theorem once_run {marked : κ → Prop} {es : List (Event κ)} (h : Along CheckThenAct.step Alone (start marked) es)
    (k : κ) : Once (run CheckThenAct.step (start marked) es) k :=
  run_induction_along (I := fun s => ∀ k, Once s k) (once_start marked) (fun _ e hs he => Once.step hs e he) h k

end NpsSdk.Lib.CheckThenAct
