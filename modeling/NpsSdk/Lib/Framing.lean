import Mathlib.Data.List.Basic

/-!
# Frames in a stream

A reader that cuts frames off the front of what has come in.  Where the length of a frame is told by the
part that has come in already, and not told otherwise by more of it, the frames are the same however the
stream is split.
-/

namespace NpsSdk.Lib

/-- The length of the frame a buffer starts with, if the frame is complete. -/
structure Framing (β : Type*) where
  length : List β → Option ℕ
  fits : ∀ {b n}, length b = some n → 0 < n ∧ n ≤ b.length
  stable : ∀ {b c n}, length b = some n → length (b ++ c) = some n

namespace Framing

variable {β : Type*} (F : Framing β)

/-- The frames at the start of a buffer, and what is left, in at most so many steps. -/
def cutWithin : ℕ → List β → List (List β) × List β
  | 0, b => ([], b)
  | fuel + 1, b =>
    match F.length b with
    | none => ([], b)
    | some n => (b.take n :: (cutWithin fuel (b.drop n)).1, (cutWithin fuel (b.drop n)).2)

/-- The complete frames at the start of a buffer, and what is left. -/
def cut (b : List β) : List (List β) × List β := F.cutWithin b.length b

variable {F} {b c : List β} {n : ℕ}

theorem cutWithin_of_none (fuel : ℕ) (h : F.length b = none) : F.cutWithin fuel b = ([], b) := by
  cases fuel with
  | zero => rfl
  | succ fuel => simp only [cutWithin, h]

theorem cutWithin_of_some (fuel : ℕ) (h : F.length b = some n) : F.cutWithin (fuel + 1) b =
    (b.take n :: (F.cutWithin fuel (b.drop n)).1, (F.cutWithin fuel (b.drop n)).2) := by
  simp only [cutWithin, h]

theorem cutWithin_eq {fuel fuel' : ℕ} (h : b.length ≤ fuel) (h' : b.length ≤ fuel') :
    F.cutWithin fuel b = F.cutWithin fuel' b := by
  induction fuel generalizing b fuel' with
  | zero =>
    have hnone : F.length b = none := by
      cases hb : F.length b with
      | none => rfl
      | some n =>
        have := F.fits hb
        omega
    rw [cutWithin_of_none _ hnone, cutWithin_of_none _ hnone]
  | succ fuel ih =>
    cases hb : F.length b with
    | none => rw [cutWithin_of_none _ hb, cutWithin_of_none _ hb]
    | some n =>
      obtain ⟨hpos, hle⟩ := F.fits hb
      have hdrop := b.length_drop (i := n)
      obtain ⟨k, rfl⟩ := Nat.exists_eq_succ_of_ne_zero (show fuel' ≠ 0 by omega)
      rw [cutWithin_of_some _ hb, cutWithin_of_some _ hb, @ih _ k (by omega) (by omega)]

theorem cut_of_none (h : F.length b = none) : F.cut b = ([], b) := cutWithin_of_none _ h

theorem cut_of_some (h : F.length b = some n) :
    F.cut b = (b.take n :: (F.cut (b.drop n)).1, (F.cut (b.drop n)).2) := by
  obtain ⟨hpos, hle⟩ := F.fits h
  obtain ⟨fuel, hfuel⟩ := Nat.exists_eq_succ_of_ne_zero (show b.length ≠ 0 by omega)
  have hdrop : (b.drop n).length ≤ fuel := by
    rw [List.length_drop]
    omega
  rw [cut, hfuel, cutWithin_of_some _ h, cutWithin_eq hdrop (Nat.le_refl _)]
  rfl

theorem cut_induction {P : List β → Prop} (hnone : ∀ b, F.length b = none → P b)
    (hsome : ∀ b n, F.length b = some n → P (b.drop n) → P b) (b : List β) : P b := by
  induction hlen : b.length using Nat.strongRecOn generalizing b with
  | ind k ih =>
    cases h : F.length b with
    | none => exact hnone b h
    | some n =>
      obtain ⟨hpos, hle⟩ := F.fits h
      apply hsome b n h
      apply ih (b.drop n).length _ _ rfl
      rw [List.length_drop]
      omega

theorem length_rest (b : List β) : F.length (F.cut b).2 = none := by
  induction b using F.cut_induction with
  | hnone b h =>
    rw [cut_of_none h]
    exact h
  | hsome b n h ih =>
    rw [cut_of_some h]
    exact ih

/-- **The frames do not depend on the splitting**: those of the first part, and then those of what it has
left together with the second part. -/
theorem cut_append (b c : List β) : F.cut (b ++ c) =
    ((F.cut b).1 ++ (F.cut ((F.cut b).2 ++ c)).1, (F.cut ((F.cut b).2 ++ c)).2) := by
  induction b using F.cut_induction with
  | hnone b h => rw [cut_of_none h, List.nil_append]
  | hsome b n h ih =>
    have hle := (F.fits h).2
    rw [cut_of_some (F.stable h), cut_of_some h, List.take_append_of_le_length hle,
      List.drop_append_of_le_length hle, ih, List.cons_append]

theorem cut_flatten {frames : List (List β)} (h : ∀ f ∈ frames, F.length f = some f.length) :
    F.cut frames.flatten = (frames, []) := by
  induction frames with
  | nil =>
    have hnone : F.length [] = none := by
      cases hn : F.length [] with
      | none => rfl
      | some n =>
        have hfits := F.fits hn
        simp only [List.length_nil] at hfits
        omega
    exact cut_of_none hnone
  | cons f frames ih =>
    have hrest := ih fun f hf => h f (List.mem_cons_of_mem _ hf)
    rw [List.flatten_cons, cut_of_some (F.stable (h f List.mem_cons_self)), List.take_left, List.drop_left, hrest]

/-! ### Frames that end with a separator -/

variable [DecidableEq β]

theorem idxOf?_append_of_some {sep : β} {i : ℕ} (h : b.idxOf? sep = some i) (c : List β) :
    (b ++ c).idxOf? sep = some i := by
  unfold List.idxOf? at h ⊢
  rw [List.findIdx?_append, h]
  rfl

/-- A frame is what comes up to a separator, with the separator. -/
def upTo (sep : β) : Framing β where
  length b := (b.idxOf? sep).map (· + 1)
  fits h := by
    obtain ⟨i, hi, rfl⟩ := Option.map_eq_some_iff.1 h
    obtain ⟨hlt, -⟩ := List.idxOf?_eq_some_iff.1 hi
    omega
  stable := by
    intro b c n h
    obtain ⟨i, hi, rfl⟩ := Option.map_eq_some_iff.1 h
    rw [idxOf?_append_of_some hi]
    rfl

theorem length_upTo {sep : β} {piece : List β} (h : sep ∉ piece) (c : List β) :
    (upTo sep).length (piece ++ sep :: c) = some (piece.length + 1) := by
  show ((piece ++ sep :: c).idxOf? sep).map (· + 1) = _
  have hidx : (piece ++ sep :: c).idxOf? sep = some piece.length := by
    unfold List.idxOf?
    rw [List.findIdx?_append, List.findIdx?_eq_none_iff.2 fun x hx => by
      rw [beq_eq_false_iff_ne]
      rintro rfl
      exact h hx]
    simp [List.findIdx?_cons]
  rw [hidx]
  rfl

theorem cut_upTo {sep : β} {pieces : List (List β)} (h : ∀ piece ∈ pieces, sep ∉ piece) :
    (upTo sep).cut (pieces.flatMap fun piece => piece ++ [sep]) = (pieces.map fun piece => piece ++ [sep], []) := by
  induction pieces with
  | nil => rfl
  | cons piece pieces ih =>
    have hpieces := ih fun p hp => h p (List.mem_cons_of_mem _ hp)
    have hlength := length_upTo (h piece (by simp)) (pieces.flatMap fun piece => piece ++ [sep])
    have hsplit : (piece :: pieces).flatMap (fun piece => piece ++ [sep]) =
        (piece ++ [sep]) ++ pieces.flatMap fun piece => piece ++ [sep] := List.flatMap_cons
    rw [hsplit, cut_of_some (by rw [List.append_assoc]; exact hlength),
      List.take_left' (by simp), List.drop_left' (by simp), hpieces]
    rfl

end Framing

end NpsSdk.Lib
