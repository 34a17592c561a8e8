import Mathlib.Data.List.Induction
import Mathlib.Data.Nat.Log
import Mathlib.Tactic.Ring

/-!
# Merkle trees over lists

The tree of a list is cut at the largest power of two below its length.  A *climb* hashes a leaf together
with the siblings of a path, on the sides that the bits of a number say; a *descent* follows the same bits
down from the root, over the sizes of the trees only.

Where no two of the blocks that are hashed collide, a climb that ends at the root of a tree has started at
the leaf to which the descent leads (`climb_sound`).
-/

namespace NpsSdk.Lib.Merkle

variable {α H : Type}

/-- What is hashed. -/
inductive Block (α H : Type)
  | empty
  | leaf (a : α)
  | node (left right : H)

/-! ### Cutting a list -/

/-- The binary logarithm of the place where a list of length `n` is cut. -/
def level (n : ℕ) : ℕ := Nat.log 2 (n - 1)

/-- The largest power of two below `n`. -/
def cut (n : ℕ) : ℕ := 2 ^ level n

theorem cut_pos (n : ℕ) : 0 < cut n := Nat.pow_pos (by decide)

theorem cut_lt {n : ℕ} (h : 2 ≤ n) : cut n < n := by
  have hle : 2 ^ Nat.log 2 (n - 1) ≤ n - 1 := Nat.pow_log_le_self 2 (by omega)
  unfold cut level
  omega

theorem le_two_mul_cut (n : ℕ) : n ≤ 2 * cut n := by
  have hlt : n - 1 < 2 ^ (Nat.log 2 (n - 1) + 1) := Nat.lt_pow_succ_log_self (by decide) _
  rw [Nat.pow_succ] at hlt
  unfold cut level
  omega

theorem level_eq {a n : ℕ} (hlo : 2 ^ a < n) (hhi : n ≤ 2 ^ (a + 1)) : level n = a :=
  Nat.log_eq_of_pow_le_of_lt_pow (by omega) (by omega)

theorem length_take_cut {xs : List α} (h : 2 ≤ xs.length) : (xs.take (cut xs.length)).length = cut xs.length := by
  rw [List.length_take]
  exact Nat.min_eq_left (cut_lt h).le

theorem length_drop_cut (xs : List α) : (xs.drop (cut xs.length)).length = xs.length - cut xs.length :=
  List.length_drop

theorem take_cut_ne_nil {xs : List α} (h : 2 ≤ xs.length) : xs.take (cut xs.length) ≠ [] := by
  rw [← List.length_pos_iff, length_take_cut h]
  exact cut_pos _

theorem drop_cut_ne_nil {xs : List α} (h : 2 ≤ xs.length) : xs.drop (cut xs.length) ≠ [] := by
  have hlt := cut_lt h
  rw [← List.length_pos_iff, length_drop_cut]
  omega

theorem cut_induction {motive : List α → Prop} (empty : motive []) (single : ∀ a, motive [a])
    (node : ∀ xs : List α, 2 ≤ xs.length → motive (xs.take (cut xs.length)) →
      motive (xs.drop (cut xs.length)) → motive xs) : ∀ xs : List α, motive xs
  | [] => empty
  | [a] => single a
  | a :: b :: rest => by
    have h2 : 2 ≤ (a :: b :: rest).length := by simp
    have hlt := cut_lt h2
    have hpos := cut_pos (a :: b :: rest).length
    have htake := length_take_cut h2
    have hdrop := length_drop_cut (a :: b :: rest)
    exact node _ h2 (cut_induction empty single node _) (cut_induction empty single node _)
  termination_by xs => xs.length
  decreasing_by
    · rw [htake]
      exact hlt
    · rw [hdrop]
      omega

/-! ### Trees -/

variable (digest : Block α H → H)

/-- The head of the tree of a list. -/
def root (xs : List α) : H :=
  if _h : 2 ≤ xs.length then
    digest (.node (root (xs.take (cut xs.length))) (root (xs.drop (cut xs.length))))
  else match xs with
    | [] => digest .empty
    | a :: _ => digest (.leaf a)
termination_by xs.length
decreasing_by
  · rw [length_take_cut _h]
    exact cut_lt _h
  · rw [length_drop_cut]
    have := cut_pos xs.length
    omega

/-- The blocks that are hashed for the tree of a list. -/
def blocks (xs : List α) : List (Block α H) :=
  if _h : 2 ≤ xs.length then
    .node (root digest (xs.take (cut xs.length))) (root digest (xs.drop (cut xs.length))) ::
      (blocks (xs.take (cut xs.length)) ++ blocks (xs.drop (cut xs.length)))
  else match xs with
    | [] => [.empty]
    | a :: _ => [.leaf a]
termination_by xs.length
decreasing_by
  · rw [length_take_cut _h]
    exact cut_lt _h
  · rw [length_drop_cut]
    have := cut_pos xs.length
    omega

/-- The audit path of the leaf at `i`, from the leaf to the root. -/
def auditPath (xs : List α) (i : ℕ) : List H :=
  if _h : 2 ≤ xs.length then
    if i < cut xs.length then
      auditPath (xs.take (cut xs.length)) i ++ [root digest (xs.drop (cut xs.length))]
    else auditPath (xs.drop (cut xs.length)) (i - cut xs.length) ++ [root digest (xs.take (cut xs.length))]
  else []
termination_by xs.length
decreasing_by
  · rw [length_take_cut _h]
    exact cut_lt _h
  · rw [length_drop_cut]
    have := cut_pos xs.length
    omega

section Equations

variable {digest} {xs : List α} {i : ℕ} {a : α}

theorem root_single : root digest [a] = digest (.leaf a) := by
  rw [root]
  exact dif_neg (by simp)

theorem root_node (h : 2 ≤ xs.length) : root digest xs =
    digest (.node (root digest (xs.take (cut xs.length))) (root digest (xs.drop (cut xs.length)))) := by
  rw [root]
  exact dif_pos h

theorem blocks_single : blocks digest [a] = [.leaf a] := by
  rw [blocks]
  exact dif_neg (by simp)

theorem blocks_node (h : 2 ≤ xs.length) : blocks digest xs =
    .node (root digest (xs.take (cut xs.length))) (root digest (xs.drop (cut xs.length))) ::
      (blocks digest (xs.take (cut xs.length)) ++ blocks digest (xs.drop (cut xs.length))) := by
  rw [blocks]
  exact dif_pos h

theorem blocks_take_subset (h : 2 ≤ xs.length) : blocks digest (xs.take (cut xs.length)) ⊆ blocks digest xs := by
  rw [blocks_node h]
  exact fun b hb => List.mem_cons_of_mem _ (List.mem_append_left _ hb)

theorem blocks_drop_subset (h : 2 ≤ xs.length) : blocks digest (xs.drop (cut xs.length)) ⊆ blocks digest xs := by
  rw [blocks_node h]
  exact fun b hb => List.mem_cons_of_mem _ (List.mem_append_right _ hb)

theorem top_mem_blocks (h : 2 ≤ xs.length) :
    .node (root digest (xs.take (cut xs.length))) (root digest (xs.drop (cut xs.length))) ∈ blocks digest xs := by
  rw [blocks_node h]
  exact List.mem_cons_self

theorem auditPath_single : auditPath digest [a] i = [] := by
  rw [auditPath]
  exact dif_neg (by simp)

theorem auditPath_left (h : 2 ≤ xs.length) (hi : i < cut xs.length) : auditPath digest xs i =
    auditPath digest (xs.take (cut xs.length)) i ++ [root digest (xs.drop (cut xs.length))] := by
  rw [auditPath, dif_pos h, if_pos hi]

theorem auditPath_right (h : 2 ≤ xs.length) (hi : ¬ i < cut xs.length) : auditPath digest xs i =
    auditPath digest (xs.drop (cut xs.length)) (i - cut xs.length) ++ [root digest (xs.take (cut xs.length))] := by
  rw [auditPath, dif_pos h, if_neg hi]

end Equations

/-! ### Climbing and descending -/

def pair (right : Bool) (h sibling : H) : Block α H := if right then .node sibling h else .node h sibling

/-- Hashing up a path, from level `i` on. -/
def climbFrom (bit : ℕ → Bool) : ℕ → H → List H → H
  | _, h, [] => h
  | i, h, s :: path => climbFrom bit (i + 1) (digest (pair (bit i) h s)) path

def climb (bit : ℕ → Bool) (h : H) (path : List H) : H := climbFrom digest bit 0 h path

/-- The blocks that are hashed on the way. -/
def climbBlocksFrom (bit : ℕ → Bool) : ℕ → H → List H → List (Block α H)
  | _, _, [] => []
  | i, h, s :: path => pair (bit i) h s :: climbBlocksFrom bit (i + 1) (digest (pair (bit i) h s)) path

def climbBlocks (bit : ℕ → Bool) (h : H) (path : List H) : List (Block α H) :=
  climbBlocksFrom digest bit 0 h path

/-- The leaf to which the bits below `l` lead, from the top of a tree of `n` leaves: none where they stop
above a leaf, or go on below one. -/
def descend (bit : ℕ → Bool) : ℕ → ℕ → Option ℕ
  | 0, n => if n = 1 then some 0 else none
  | l + 1, n =>
    if n < 2 then none
    else if bit l then (descend bit l (n - cut n)).map (cut n + ·) else descend bit l (cut n)

section Climb

variable {digest} {bit : ℕ → Bool} {h s : H} {path : List H} {xs : List α} {i j l n : ℕ} {a : α}
  {S : Set (Block α H)}

theorem climbFrom_snoc : climbFrom digest bit i h (path ++ [s]) =
    digest (pair (bit (i + path.length)) (climbFrom digest bit i h path) s) := by
  induction path generalizing i h with
  | nil => rfl
  | cons t path ih =>
    show climbFrom digest bit (i + 1) _ (path ++ [s]) = _
    rw [ih, List.length_cons, Nat.add_right_comm, Nat.add_assoc]
    rfl

theorem climb_snoc : climb digest bit h (path ++ [s]) =
    digest (pair (bit path.length) (climb digest bit h path) s) := by
  rw [climb, climbFrom_snoc, Nat.zero_add]
  rfl

theorem climbBlocks_snoc : climbBlocks digest bit h (path ++ [s]) =
    climbBlocks digest bit h path ++ [pair (bit path.length) (climb digest bit h path) s] := by
  unfold climbBlocks climb
  suffices hfrom : ∀ i, climbBlocksFrom digest bit i h (path ++ [s]) = climbBlocksFrom digest bit i h path ++
      [pair (bit (i + path.length)) (climbFrom digest bit i h path) s] by
    have h0 := hfrom 0
    rw [Nat.zero_add] at h0
    exact h0
  intro i
  induction path generalizing i h with
  | nil => rfl
  | cons t path ih =>
    show _ :: climbBlocksFrom digest bit (i + 1) _ (path ++ [s]) = _
    rw [ih, List.length_cons, Nat.add_right_comm, Nat.add_assoc]
    rfl

theorem descend_lt (hj : descend bit l n = some j) : j < n := by
  induction l generalizing n j with
  | zero =>
    unfold descend at hj
    split_ifs at hj with hn
    cases hj
    omega
  | succ l ih =>
    unfold descend at hj
    split_ifs at hj with hn hbit
    · obtain ⟨j', hj', rfl⟩ := Option.map_eq_some_iff.1 hj
      have := ih hj'
      have := cut_lt (Nat.le_of_not_lt hn)
      omega
    · have := ih hj
      have := cut_lt (Nat.le_of_not_lt hn)
      omega

theorem descend_right (hn : 2 ≤ n) (hbit : bit l = true) :
    descend bit (l + 1) n = (descend bit l (n - cut n)).map (cut n + ·) := by
  rw [descend, if_neg (Nat.not_lt.2 hn), if_pos hbit]

theorem descend_left (hn : 2 ≤ n) (hbit : bit l = false) : descend bit (l + 1) n = descend bit l (cut n) := by
  rw [descend, if_neg (Nat.not_lt.2 hn), hbit]
  rfl

theorem getElem?_take_cut (hj : j < cut xs.length) : (xs.take (cut xs.length))[j]? = xs[j]? :=
  List.getElem?_take_of_lt hj

theorem getElem?_drop_cut : (xs.drop (cut xs.length))[j]? = xs[cut xs.length + j]? := List.getElem?_drop

theorem getElem?_past_cut (hi : ¬ i < cut xs.length) (ha : xs[i]? = some a) :
    (xs.drop (cut xs.length))[i - cut xs.length]? = some a := by
  rw [getElem?_drop_cut, Nat.add_sub_cancel' (Nat.le_of_not_lt hi)]
  exact ha

/-- **A climb to the root of a tree** has started at the leaf to which the descent leads. -/
theorem climb_sound (hS : Set.InjOn digest S) (hne : xs ≠ []) (hxs : ∀ b ∈ blocks digest xs, b ∈ S)
    (hleaf : .leaf a ∈ S) (hpath : ∀ b ∈ climbBlocks digest bit (digest (.leaf a)) path, b ∈ S)
    (hroot : climb digest bit (digest (.leaf a)) path = root digest xs) :
    ∃ j, descend bit path.length xs.length = some j ∧ xs[j]? = some a := by
  induction path using List.reverseRecOn generalizing xs with
  | nil =>
    match xs, hne with
    | [b], _ =>
      rw [root_single] at hroot
      rw [blocks_single] at hxs
      have hab := hS hleaf (hxs _ List.mem_cons_self) hroot
      injection hab with hab
      exact ⟨0, rfl, by rw [hab]; rfl⟩
    | b :: c :: rest, _ =>
      have h2 : 2 ≤ (b :: c :: rest).length := by simp
      rw [root_node h2] at hroot
      cases hS hleaf (hxs _ (top_mem_blocks h2)) hroot
  | append_singleton path s ih =>
    rw [climb_snoc] at hroot
    rw [climbBlocks_snoc] at hpath
    have htop : pair (bit path.length) (climb digest bit (digest (.leaf a)) path) s ∈ S := hpath _ (by simp)
    have hrest : ∀ b ∈ climbBlocks digest bit (digest (.leaf a)) path, b ∈ S :=
      fun b hb => hpath b (List.mem_append_left _ hb)
    by_cases h2 : 2 ≤ xs.length
    · rw [root_node h2] at hroot
      have hpair := hS htop (hxs _ (top_mem_blocks h2)) hroot
      rw [List.length_append, List.length_singleton]
      cases hbit : bit path.length with
      | true =>
        rw [hbit] at hpair
        injection hpair with _ hright
        obtain ⟨j, hj, hget⟩ := ih (drop_cut_ne_nil h2) (fun b hb => hxs b (blocks_drop_subset h2 hb)) hrest hright
        rw [length_drop_cut] at hj
        rw [getElem?_drop_cut] at hget
        exact ⟨cut xs.length + j, by rw [descend_right h2 hbit, hj]; rfl, hget⟩
      | false =>
        rw [hbit] at hpair
        injection hpair with hleft _
        obtain ⟨j, hj, hget⟩ := ih (take_cut_ne_nil h2) (fun b hb => hxs b (blocks_take_subset h2 hb)) hrest hleft
        rw [length_take_cut h2] at hj
        rw [getElem?_take_cut (descend_lt hj)] at hget
        exact ⟨j, by rw [descend_left h2 hbit]; exact hj, hget⟩
    · match xs, hne with
      | [b], _ =>
        rw [root_single] at hroot
        rw [blocks_single] at hxs
        have hab := hS htop (hxs _ List.mem_cons_self) hroot
        unfold pair at hab
        split at hab <;> cases hab
      | b :: c :: rest, _ => exact absurd (by simp) h2

theorem length_eq_one (hne : xs ≠ []) (h : ¬ 2 ≤ xs.length) : ∃ a, xs = [a] := by
  have hpos := List.length_pos_iff.2 hne
  exact List.length_eq_one_iff.1 (by omega)

theorem leaf_mem_blocks (ha : xs[i]? = some a) : .leaf a ∈ blocks digest xs := by
  induction xs using cut_induction generalizing i with
  | empty => cases ha
  | single b =>
    rw [blocks_single]
    have hmem := List.mem_of_getElem? ha
    rw [List.mem_singleton.1 hmem]
    exact List.mem_cons_self
  | node xs h2 ihtake ihdrop =>
    by_cases hi : i < cut xs.length
    · exact blocks_take_subset h2 (ihtake ((getElem?_take_cut hi).trans ha))
    · exact blocks_drop_subset h2 (ihdrop (getElem?_past_cut hi ha))

theorem root_eq_digest (hne : xs ≠ []) : ∃ b ∈ blocks digest xs, root digest xs = digest b := by
  by_cases h2 : 2 ≤ xs.length
  · exact ⟨_, top_mem_blocks h2, root_node h2⟩
  · obtain ⟨b, rfl⟩ := length_eq_one hne h2
    exact ⟨_, @leaf_mem_blocks _ _ digest _ 0 _ rfl, root_single⟩

variable (digest) in
/-- To every leaf that a descent reaches there is a climb, by way of the tree. -/
theorem exists_climb (hj : descend bit l xs.length = some j) (ha : xs[j]? = some a) :
    ∃ path : List H, path.length = l ∧ climb digest bit (digest (.leaf a)) path = root digest xs ∧
      (∀ b ∈ climbBlocks digest bit (digest (.leaf a)) path, b ∈ blocks digest xs) ∧
      ∀ s ∈ path, ∃ b ∈ blocks digest xs, s = digest b := by
  induction l generalizing xs j with
  | zero =>
    unfold descend at hj
    split_ifs at hj with hn
    cases hj
    obtain ⟨b, rfl⟩ := List.length_eq_one_iff.1 hn
    cases ha
    exact ⟨[], rfl, root_single.symm, nofun, nofun⟩
  | succ l ih =>
    have h2 : 2 ≤ xs.length := by
      by_contra hlt
      rw [descend, if_pos (Nat.lt_of_not_le hlt)] at hj
      cases hj
    rw [root_node h2]
    cases hbit : bit l with
    | true =>
      rw [descend_right h2 hbit] at hj
      obtain ⟨j', hj', rfl⟩ := Option.map_eq_some_iff.1 hj
      rw [← length_drop_cut] at hj'
      rw [← getElem?_drop_cut] at ha
      obtain ⟨path, rfl, hclimb, hblocks, hsiblings⟩ := ih hj' ha
      refine ⟨path ++ [root digest (xs.take (cut xs.length))], by simp, ?_, ?_, ?_⟩
      · rw [climb_snoc, hclimb, hbit]
        rfl
      · intro b hb
        rw [climbBlocks_snoc, List.mem_append, List.mem_singleton, hclimb, hbit] at hb
        rcases hb with hb | rfl
        · exact blocks_drop_subset h2 (hblocks b hb)
        · exact top_mem_blocks h2
      · intro s hs
        rcases List.mem_append.1 hs with hs | hs
        · obtain ⟨b, hb, rfl⟩ := hsiblings s hs
          exact ⟨b, blocks_drop_subset h2 hb, rfl⟩
        · obtain ⟨b, hb, heq⟩ := @root_eq_digest _ _ digest _ (take_cut_ne_nil h2)
          exact ⟨b, blocks_take_subset h2 hb, (List.mem_singleton.1 hs).trans heq⟩
    | false =>
      rw [descend_left h2 hbit] at hj
      rw [← getElem?_take_cut (descend_lt hj)] at ha
      rw [← length_take_cut h2] at hj
      obtain ⟨path, rfl, hclimb, hblocks, hsiblings⟩ := ih hj ha
      refine ⟨path ++ [root digest (xs.drop (cut xs.length))], by simp, ?_, ?_, ?_⟩
      · rw [climb_snoc, hclimb, hbit]
        rfl
      · intro b hb
        rw [climbBlocks_snoc, List.mem_append, List.mem_singleton, hclimb, hbit] at hb
        rcases hb with hb | rfl
        · exact blocks_take_subset h2 (hblocks b hb)
        · exact top_mem_blocks h2
      · intro s hs
        rcases List.mem_append.1 hs with hs | hs
        · obtain ⟨b, hb, rfl⟩ := hsiblings s hs
          exact ⟨b, blocks_take_subset h2 hb, rfl⟩
        · obtain ⟨b, hb, heq⟩ := @root_eq_digest _ _ digest _ (drop_cut_ne_nil h2)
          exact ⟨b, blocks_drop_subset h2 hb, (List.mem_singleton.1 hs).trans heq⟩

/-! ### Audit paths -/

/-- The audit path is climbed to the root if the bits lead down to its leaf. -/
theorem climb_auditPath (ha : xs[i]? = some a) (hi : descend bit (auditPath digest xs i).length xs.length = some i) :
    climb digest bit (digest (.leaf a)) (auditPath digest xs i) = root digest xs := by
  induction xs using cut_induction generalizing i with
  | empty => cases ha
  | single b =>
    obtain rfl : i = 0 := by
      have := descend_lt hi
      simp only [List.length_singleton] at this
      omega
    cases ha
    rw [auditPath_single, root_single]
    rfl
  | node xs h2 ihtake ihdrop =>
    by_cases hcut : i < cut xs.length
    · rw [auditPath_left h2 hcut] at hi ⊢
      rw [List.length_append, List.length_singleton] at hi
      cases hbit : bit (auditPath digest (xs.take (cut xs.length)) i).length with
      | true =>
        rw [descend_right h2 hbit] at hi
        obtain ⟨j, -, rfl⟩ := Option.map_eq_some_iff.1 hi
        omega
      | false =>
        rw [descend_left h2 hbit] at hi
        rw [climb_snoc, hbit, ihtake ((getElem?_take_cut hcut).trans ha) (by rw [length_take_cut h2]; exact hi),
          root_node h2]
        rfl
    · rw [auditPath_right h2 hcut] at hi ⊢
      rw [List.length_append, List.length_singleton] at hi
      cases hbit : bit (auditPath digest (xs.drop (cut xs.length)) (i - cut xs.length)).length with
      | true =>
        rw [descend_right h2 hbit] at hi
        obtain ⟨j, hj, hij⟩ := Option.map_eq_some_iff.1 hi
        obtain rfl : i - cut xs.length = j := by omega
        rw [climb_snoc, hbit, ihdrop (getElem?_past_cut hcut ha) (by rw [length_drop_cut]; exact hj), root_node h2]
        rfl
      | false =>
        rw [descend_left h2 hbit] at hi
        exact absurd (descend_lt hi) hcut

/-- Different lists have different heads. -/
theorem eq_of_root_eq {ys : List α} (hS : Set.InjOn digest S) (hne : xs ≠ []) (hne' : ys ≠ [])
    (hxs : ∀ b ∈ blocks digest xs, b ∈ S) (hys : ∀ b ∈ blocks digest ys, b ∈ S)
    (hroot : root digest xs = root digest ys) : xs = ys := by
  induction xs using cut_induction generalizing ys with
  | empty => exact absurd rfl hne
  | single a =>
    rw [root_single] at hroot
    rw [blocks_single] at hxs
    by_cases h2 : 2 ≤ ys.length
    · rw [root_node h2] at hroot
      cases hS (hxs _ List.mem_cons_self) (hys _ (top_mem_blocks h2)) hroot
    · obtain ⟨b, rfl⟩ := length_eq_one hne' h2
      rw [root_single] at hroot
      rw [blocks_single] at hys
      have hab := hS (hxs _ List.mem_cons_self) (hys _ List.mem_cons_self) hroot
      injection hab with hab
      rw [hab]
  | node xs h2 ihtake ihdrop =>
    rw [root_node h2] at hroot
    by_cases h2' : 2 ≤ ys.length
    · rw [root_node h2'] at hroot
      have hnodes := hS (hxs _ (top_mem_blocks h2)) (hys _ (top_mem_blocks h2')) hroot
      injection hnodes with hleft hright
      have heq := ihtake (take_cut_ne_nil h2) (take_cut_ne_nil h2') (fun b hb => hxs b (blocks_take_subset h2 hb))
        (fun b hb => hys b (blocks_take_subset h2' hb)) hleft
      have heq' := ihdrop (drop_cut_ne_nil h2) (drop_cut_ne_nil h2') (fun b hb => hxs b (blocks_drop_subset h2 hb))
        (fun b hb => hys b (blocks_drop_subset h2' hb)) hright
      rw [← List.take_append_drop (cut xs.length) xs, heq, heq', List.take_append_drop]
    · obtain ⟨b, rfl⟩ := length_eq_one hne' h2'
      rw [root_single] at hroot
      rw [blocks_single] at hys
      cases hS (hxs _ (top_mem_blocks h2)) (hys _ List.mem_cons_self) hroot

theorem testBit_add {d o : ℕ} (ho : 2 ^ (d + 1) ∣ o) (hi : i < 2 ^ (d + 1)) :
    Nat.testBit (o + i) d = decide (2 ^ d ≤ i) := by
  obtain ⟨c, rfl⟩ := ho
  have hpos : 0 < 2 ^ d := Nat.pow_pos (by decide)
  have hdiv : (2 ^ (d + 1) * c + i) / 2 ^ d = 2 * c + i / 2 ^ d := by
    rw [Nat.pow_succ, Nat.mul_assoc, Nat.mul_add_div hpos]
  rw [Nat.testBit_eq_decide_div_mod_eq, hdiv, decide_eq_decide]
  rw [Nat.pow_succ] at hi
  by_cases hle : 2 ^ d ≤ i
  · have hone : i / 2 ^ d = 1 := Nat.div_eq_of_lt_le (by omega) (by omega)
    omega
  · have hzero : i / 2 ^ d = 0 := Nat.div_eq_of_lt (by omega)
    omega

theorem cut_pow (d : ℕ) : cut (2 ^ (d + 1)) = 2 ^ d := by
  have hlt : 2 ^ d < 2 ^ (d + 1) := Nat.pow_lt_pow_succ (by decide)
  rw [cut, level_eq hlt (le_refl _)]

theorem two_le_pow (d : ℕ) : 2 ≤ 2 ^ (d + 1) := by
  have hpos : 0 < 2 ^ d := Nat.pow_pos (by decide)
  rw [Nat.pow_succ]
  omega

/-- In a tree of `2 ^ d` leaves the bits of its position lead down to every leaf. -/
theorem descend_pow {d o : ℕ} (ho : 2 ^ d ∣ o) (hi : i < 2 ^ d) :
    descend (Nat.testBit (o + i)) d (2 ^ d) = some i := by
  induction d generalizing o i with
  | zero =>
    obtain rfl : i = 0 := by
      rw [pow_zero] at hi
      omega
    rfl
  | succ d ih =>
    have hhalf : 2 ^ (d + 1) - 2 ^ d = 2 ^ d := by
      rw [Nat.pow_succ]
      omega
    have hdvd : 2 ^ d ∣ o := (Nat.pow_dvd_pow 2 (Nat.le_succ d)).trans ho
    have hbit := testBit_add ho hi
    by_cases hle : 2 ^ d ≤ i
    · rw [decide_eq_true hle] at hbit
      rw [descend_right (two_le_pow d) hbit, cut_pow, hhalf]
      have hrest := ih (o := o + 2 ^ d) (i := i - 2 ^ d) (Nat.dvd_add hdvd (Nat.dvd_refl _)) (by
        rw [Nat.pow_succ] at hi
        omega)
      rw [show o + 2 ^ d + (i - 2 ^ d) = o + i by omega] at hrest
      rw [hrest]
      simp only [Option.map_some, Option.some.injEq]
      omega
    · rw [decide_eq_false hle] at hbit
      rw [descend_left (two_le_pow d) hbit, cut_pow]
      exact ih hdvd (by omega)

theorem length_auditPath_pow {d : ℕ} (hlen : xs.length = 2 ^ d) (hi : i < 2 ^ d) :
    (auditPath digest xs i).length = d := by
  induction d generalizing xs i with
  | zero =>
    obtain ⟨a, rfl⟩ := List.length_eq_one_iff.1 hlen
    rw [auditPath_single]
    rfl
  | succ d ih =>
    have h2 : 2 ≤ xs.length := by
      rw [hlen]
      exact two_le_pow d
    have hcut : cut xs.length = 2 ^ d := by rw [hlen, cut_pow]
    by_cases hlt : i < cut xs.length
    · rw [auditPath_left h2 hlt, List.length_append, List.length_singleton,
        ih ((length_take_cut h2).trans hcut) (hcut ▸ hlt)]
    · have hdrop : (xs.drop (cut xs.length)).length = 2 ^ d := by
        rw [length_drop_cut, hcut, hlen, Nat.pow_succ]
        omega
      rw [auditPath_right h2 hlt, List.length_append, List.length_singleton, ih hdrop (by
        rw [Nat.pow_succ] at hi
        omega)]

/-- The bits of a position lead down the way its audit path comes up.  The tree may begin at a position `o`
that its own bits do not reach. -/
theorem descend_auditPath {o : ℕ} (hS : Set.InjOn digest S) (hbits : bit = Nat.testBit (o + i))
    (ho : 2 ≤ xs.length → 2 ^ (level xs.length + 1) ∣ o) (ha : xs[i]? = some a) (hxs : ∀ b ∈ blocks digest xs, b ∈ S)
    (hpath : ∀ b ∈ climbBlocks digest bit (digest (.leaf a)) (auditPath digest xs i), b ∈ S)
    (hroot : climb digest bit (digest (.leaf a)) (auditPath digest xs i) = root digest xs) :
    descend bit (auditPath digest xs i).length xs.length = some i := by
  induction xs using cut_induction generalizing i o with
  | empty => cases ha
  | single b =>
    obtain ⟨hi, -⟩ := List.getElem?_eq_some_iff.1 ha
    obtain rfl : i = 0 := by
      rw [List.length_singleton] at hi
      omega
    rw [auditPath_single]
    rfl
  | node xs h2 _ ihdrop =>
    have ho := ho h2
    obtain ⟨hi, -⟩ := List.getElem?_eq_some_iff.1 ha
    have hlt := cut_lt h2
    have hle := le_two_mul_cut xs.length
    have hi2 : i < 2 ^ (level xs.length + 1) := by
      rw [Nat.pow_succ]
      unfold cut at hle
      omega
    have hbit : bit (level xs.length) = decide (cut xs.length ≤ i) := by
      rw [hbits]
      exact testBit_add ho hi2
    by_cases hcut : i < cut xs.length
    · -- the left part is full, and its bits are the lower ones
      rw [decide_eq_false (Nat.not_le.2 hcut)] at hbit
      rw [auditPath_left h2 hcut, List.length_append, List.length_singleton,
        length_auditPath_pow (length_take_cut h2) hcut, descend_left h2 hbit]
      rw [hbits]
      exact descend_pow ((Nat.pow_dvd_pow 2 (Nat.le_succ _)).trans ho) hcut
    · rw [decide_eq_true (Nat.not_lt.1 hcut)] at hbit
      rw [auditPath_right h2 hcut] at hpath hroot ⊢
      rw [climb_snoc, root_node h2] at hroot
      rw [climbBlocks_snoc] at hpath
      have hnodes := hS (hpath _ (by simp)) (hxs _ (top_mem_blocks h2)) hroot
      rw [List.length_append, List.length_singleton]
      have hshift : bit = Nat.testBit (o + cut xs.length + (i - cut xs.length)) := by
        rw [hbits, show o + cut xs.length + (i - cut xs.length) = o + i by omega]
      have hdropS : ∀ b ∈ blocks digest (xs.drop (cut xs.length)), b ∈ S :=
        fun b hb => hxs b (blocks_drop_subset h2 hb)
      cases hside : bit (auditPath digest (xs.drop (cut xs.length)) (i - cut xs.length)).length with
      | true =>
        rw [hside] at hnodes
        injection hnodes with _ hright
        have hget := getElem?_past_cut hcut ha
        have hdvd : 2 ≤ (xs.drop (cut xs.length)).length →
            2 ^ (level (xs.drop (cut xs.length)).length + 1) ∣ o + cut xs.length := by
          intro h2'
          have hlevel : level (xs.drop (cut xs.length)).length < level xs.length := by
            have hcutlt := cut_lt h2'
            rw [length_drop_cut] at hcutlt
            refine (Nat.pow_lt_pow_iff_right (show 1 < 2 by decide)).1 ?_
            show cut (xs.drop (cut xs.length)).length < cut xs.length
            rw [length_drop_cut]
            omega
          have hpow : 2 ^ (level (xs.drop (cut xs.length)).length + 1) ∣ cut xs.length :=
            Nat.pow_dvd_pow 2 hlevel
          exact Nat.dvd_add (hpow.trans ((Nat.pow_dvd_pow 2 (Nat.le_succ _)).trans ho)) hpow
        have hrest := ihdrop hshift hdvd hget hdropS (fun b hb => hpath b (List.mem_append_left _ hb)) hright
        rw [length_drop_cut] at hrest
        rw [descend_right h2 hside, hrest]
        simp only [Option.map_some, Option.some.injEq]
        omega
      | false =>
        -- the left part would have to be the right part as well
        rw [hside] at hnodes
        injection hnodes with _ hright
        have hsame := eq_of_root_eq hS (take_cut_ne_nil h2) (drop_cut_ne_nil h2)
          (fun b hb => hxs b (blocks_take_subset h2 hb)) hdropS hright
        have hlen : (xs.drop (cut xs.length)).length = 2 ^ level xs.length := by
          rw [← hsame]
          exact length_take_cut h2
        have hidrop : i - cut xs.length < 2 ^ level xs.length := by
          rw [length_drop_cut] at hlen
          omega
        rw [length_auditPath_pow hlen hidrop, hbit] at hside
        cases hside

/-- **The audit path of a leaf is climbed to the root exactly if** the bits of its position lead down to
it. -/
theorem climb_auditPath_iff (hS : Set.InjOn digest S) (ha : xs[i]? = some a) (hxs : ∀ b ∈ blocks digest xs, b ∈ S)
    (hpath : ∀ b ∈ climbBlocks digest (Nat.testBit i) (digest (.leaf a)) (auditPath digest xs i), b ∈ S) :
    climb digest (Nat.testBit i) (digest (.leaf a)) (auditPath digest xs i) = root digest xs ↔
      descend (Nat.testBit i) (auditPath digest xs i).length xs.length = some i := by
  constructor
  · have hzero : Nat.testBit i = Nat.testBit (0 + i) := by rw [Nat.zero_add]
    exact descend_auditPath hS hzero (fun _ => Nat.dvd_zero _) ha hxs hpath
  · exact climb_auditPath ha

end Climb

/-! ### Small trees -/

section Small

variable {digest} {a b c : α}

theorem cut_pair : cut [a, b].length = 1 := show cut 2 = 1 by decide

theorem cut_triple : cut [a, b, c].length = 2 := show cut 3 = 2 by decide

theorem root_pair : root digest [a, b] = digest (.node (digest (.leaf a)) (digest (.leaf b))) := by
  rw [root_node (by simp), cut_pair]
  show digest (.node (root digest [a]) (root digest [b])) = _
  rw [root_single, root_single]

theorem root_triple : root digest [a, b, c] =
    digest (.node (digest (.node (digest (.leaf a)) (digest (.leaf b)))) (digest (.leaf c))) := by
  rw [root_node (by simp), cut_triple]
  show digest (.node (root digest [a, b]) (root digest [c])) = _
  rw [root_pair, root_single]

theorem blocks_pair : blocks digest [a, b] = [.node (digest (.leaf a)) (digest (.leaf b)), .leaf a, .leaf b] := by
  rw [blocks_node (by simp), cut_pair]
  show .node (root digest [a]) (root digest [b]) :: (blocks digest [a] ++ blocks digest [b]) = _
  rw [root_single, root_single, blocks_single, blocks_single]
  rfl

theorem blocks_triple : blocks digest [a, b, c] =
    [.node (digest (.node (digest (.leaf a)) (digest (.leaf b)))) (digest (.leaf c)),
      .node (digest (.leaf a)) (digest (.leaf b)), .leaf a, .leaf b, .leaf c] := by
  rw [blocks_node (by simp), cut_triple]
  show .node (root digest [a, b]) (root digest [c]) :: (blocks digest [a, b] ++ blocks digest [c]) = _
  rw [root_pair, root_single, blocks_pair, blocks_single]
  rfl

theorem auditPath_triple_first : auditPath digest [a, b, c] 0 = [digest (.leaf b), digest (.leaf c)] := by
  rw [auditPath_left (by simp) (by rw [cut_triple]; decide), cut_triple]
  show auditPath digest [a, b] 0 ++ [root digest [c]] = _
  rw [auditPath_left (by simp) (by rw [cut_pair]; decide), cut_pair]
  show auditPath digest [a] 0 ++ [root digest [b]] ++ [root digest [c]] = _
  rw [auditPath_single, root_single, root_single]
  rfl

theorem auditPath_triple_last :
    auditPath digest [a, b, c] 2 = [digest (.node (digest (.leaf a)) (digest (.leaf b)))] := by
  rw [auditPath_right (by simp) (by rw [cut_triple]; decide), cut_triple]
  show auditPath digest [c] 0 ++ [root digest [a, b]] = _
  rw [auditPath_single, root_pair]
  rfl

end Small

end NpsSdk.Lib.Merkle
