import NpsSdk.Lib.Buffer
import NpsSdk.Lib.Bytes
import NpsSdk.Lib.Except
import NpsSdk.Lib.JsDouble
import NpsSdk.Lib.JsValue
import NpsSdk.Lib.Merkle

/-!
# Inclusion proofs of reputation logs

`ReputationLogClient.verifyInclusion`, over any SHA-256.  An entry is the JSON value it is written as.
-/

namespace NpsSdk.Nip.Reputation

open NpsSdk.Lib

structure SignedTreeHead where
  tree_size : JsDouble
  /-- In base64url. -/
  sha256_root_hash : String

structure InclusionProof where
  leaf_index : JsDouble
  tree_size : JsDouble
  leaf_hash : String
  audit_path : List String

inductive RangeError
  /-- `BigInt` of a number that is not an integer. -/
  | notAnInteger
  /-- `set` beyond the end of a buffer. -/
  | outOfBounds
deriving DecidableEq

/-! ### Canonical JSON -/

mutual
def sortedValue : Json → Json
  | .arr items => .arr (sortedItems items)
  | .obj members =>
    -- a member of this name sets the prototype instead
    .obj (fromEntries (((sortedMembers members).filter (·.1 ≠ "__proto__")).insertionSort
      fun a b => unitsLe (utf16 a.1) (utf16 b.1) = true))
  | v => v
def sortedItems : List Json → List Json
  | [] => []
  | v :: vs => sortedValue v :: sortedItems vs
def sortedMembers : List (String × Json) → List (String × Json)
  | [] => []
  | (k, v) :: ms => (k, sortedValue v) :: sortedMembers ms
end

/-- Canonical JSON with all object keys sorted recursively. -/
def sortedJson (obj : Json) : String := String.ofList (sortedValue obj).text

/-- `new TextEncoder().encode(text)`. -/
def utf8 (text : List Char) : Bytes := text.flatMap String.utf8EncodeChar

def leafBytes (entry : Json) : Bytes := utf8 (sortedValue entry).text

/-! ### Verification -/

def base64urlDecode (s : String) : Bytes := bytesOfBase64 s.toList

/-- `buf.set(bytes, offset)`. -/
def setBytes (buf bytes : Bytes) (offset : ℕ) : Except RangeError Bytes :=
  if buf.length < offset + bytes.length then .error .outOfBounds
  else .ok (buf.take offset ++ bytes ++ buf.drop (offset + bytes.length))

/-- `(BigInt(leaf_index) >> BigInt(i)) & 1n`. -/
def indexBit (leaf_index : JsDouble) (i : ℕ) : Except RangeError Bool :=
  match leaf_index with
  | .fin q => if q.den = 1 then .ok (q.num / 2 ^ i % 2 != 0) else .error .notAnInteger
  | _ => .error .notAnInteger

variable (sha256 : Bytes → Bytes)

def hashPair (leaf_index : JsDouble) (i : ℕ) (nodeHash sibling : Bytes) : Except RangeError Bytes := do
  let buf := 0x01 :: List.replicate 64 0
  if ← indexBit leaf_index i then
    let buf ← setBytes buf sibling 1
    let buf ← setBytes buf nodeHash 33
    .ok (sha256 buf)
  else
    let buf ← setBytes buf nodeHash 1
    let buf ← setBytes buf sibling 33
    .ok (sha256 buf)

/-- Folding up the audit path, from level `i` on. -/
def foldPath (leaf_index : JsDouble) : ℕ → Bytes → List String → Except RangeError Bytes
  | _, nodeHash, [] => .ok nodeHash
  | i, nodeHash, sibling :: audit_path => do
    let nodeHash ← hashPair sha256 leaf_index i nodeHash (base64urlDecode sibling)
    foldPath leaf_index (i + 1) nodeHash audit_path

def verifyInclusion (proof : InclusionProof) (sth : SignedTreeHead) (entry : Json) :
    Except RangeError Bool :=
  let computedLeafHash := sha256 (0x00 :: leafBytes entry)
  if computedLeafHash ≠ base64urlDecode proof.leaf_hash then .ok false
  else do
    let nodeHash ← foldPath sha256 proof.leaf_index 0 computedLeafHash proof.audit_path
    .ok (nodeHash == base64urlDecode sth.sha256_root_hash)

end NpsSdk.Nip.Reputation

/-!
## Which inclusion proofs are accepted

`verifyInclusion` climbs the path of a proof by the bits of the leaf index alone, and reads neither size.  It
accepts the audit path of an entry exactly if these bits, as many as the path has hashes, lead from the root
down to the entry; and what it accepts is in the log at the leaf index exactly if the leaf they lead to is
there.
-/

namespace NpsSdk.Nip.Reputation

open NpsSdk.Lib NpsSdk.Lib.Merkle

/-! ### Heads of logs -/

/-- What is hashed for a block: the prefix tells leaves from nodes. -/
def blockBytes : Block Bytes Bytes → Bytes
  | .empty => []
  | .leaf bytes => 0x00 :: bytes
  | .node left right => 0x01 :: (left ++ right)

variable (sha256 : Bytes → Bytes)

def digest (b : Block Bytes Bytes) : Bytes := sha256 (blockBytes b)

def leaves (log : List Json) : List Bytes := log.map leafBytes

structure IsHeadOf (sth : SignedTreeHead) (log : List Json) : Prop where
  tree_size : sth.tree_size = .fin log.length
  root : base64urlDecode sth.sha256_root_hash = root (digest sha256) (leaves log)

/-- The proof is the one of the entry at `i`. -/
structure IsProofOf (proof : InclusionProof) (log : List Json) (i : ℕ) (entry : Json) : Prop where
  leaf_index : proof.leaf_index = .fin i
  tree_size : proof.tree_size = .fin log.length
  leaf_hash : base64urlDecode proof.leaf_hash = digest sha256 (.leaf (leafBytes entry))
  audit_path : proof.audit_path.map base64urlDecode = auditPath (digest sha256) (leaves log) i

/-- The bits of a leaf index; of a number that is not an integer they are not read. -/
def bits (leaf_index : JsDouble) (i : ℕ) : Bool :=
  match leaf_index with
  | .fin q => q.num / 2 ^ i % 2 != 0
  | _ => false

/-- A sibling as it stands in a buffer. -/
def sibling32 (sibling : Bytes) : Bytes := (sibling ++ List.replicate 32 0).take 32

/-- The hashes of an audit path, as they stand in the buffers. -/
def siblings (audit_path : List String) : List Bytes := audit_path.map fun s => sibling32 (base64urlDecode s)

def treeStrings (log : List Json) : List Bytes := (blocks (digest sha256) (leaves log)).map blockBytes

/-- What is hashed to verify a proof. -/
def proofStrings (proof : InclusionProof) (entry : Json) : List Bytes :=
  (.leaf (leafBytes entry) :: climbBlocks (digest sha256) (bits proof.leaf_index)
    (digest sha256 (.leaf (leafBytes entry))) (siblings proof.audit_path)).map blockBytes

def CollisionFree (strings : List Bytes) : Prop := Set.InjOn sha256 {b | b ∈ strings}

/-- **The entry is the leaf** of the log at the index of the proof, and the proof is of the size of the tree. -/
def Included (log : List Json) (sth : SignedTreeHead) (proof : InclusionProof) (entry : Json) : Prop :=
  (∃ j : ℕ, proof.leaf_index = .fin j ∧ (leaves log)[j]? = some (leafBytes entry)) ∧
    proof.leaf_index < sth.tree_size ∧ proof.tree_size = sth.tree_size

/-- The leaf of a tree of `n` leaves to which the `l` lowest bits of an index lead, from the root. -/
def leadsTo (leaf_index : JsDouble) (l n : ℕ) : Option ℕ :=
  if l = 0 ∨ leaf_index.isInteger then descend (bits leaf_index) l n else none

variable {sha256} {log : List Json} {sth : SignedTreeHead} {proof : InclusionProof} {entry : Json}
  {leaf_index : JsDouble} {i n : ℕ} {nodeHash r : Bytes} {audit_path : List String}

/-! ### Climbing -/

theorem bits_nat (n : ℕ) : bits (.fin n) = Nat.testBit n := by
  funext i
  show (((n : ℚ)).num / 2 ^ i % 2 != 0) = _
  rw [Nat.testBit_eq_decide_div_mod_eq, Rat.num_natCast]
  have hcast : (n : ℤ) / 2 ^ i % 2 = ((n / 2 ^ i % 2 : ℕ) : ℤ) := by push_cast; rfl
  rw [hcast]
  rcases Nat.mod_two_eq_zero_or_one (n / 2 ^ i) with h | h <;> rw [h] <;> rfl

theorem indexBit_eq (h : leaf_index.isInteger = true) : indexBit leaf_index i = .ok (bits leaf_index i) := by
  cases leaf_index with
  | fin q => exact if_pos (of_decide_eq_true h)
  | nan | negInf | posInf => cases h

theorem indexBit_ok {b : Bool} (h : indexBit leaf_index i = .ok b) : leaf_index.isInteger = true := by
  cases leaf_index with
  | fin q =>
    unfold indexBit at h
    dsimp only at h
    split_ifs at h with hden
    exact decide_eq_true hden
  | nan | negInf | posInf => cases h

theorem length_sibling32 (s : Bytes) : (sibling32 s).length = 32 := by
  rw [sibling32, List.length_take, List.length_append, List.length_replicate]
  omega

theorem sibling32_eq {s : Bytes} (h : s.length = 32) : sibling32 s = s := by
  rw [sibling32, ← h, List.take_left']
  rfl

theorem setBytes_ok {buf bytes out : Bytes} {offset : ℕ} : setBytes buf bytes offset = .ok out ↔
    offset + bytes.length ≤ buf.length ∧ out = buf.take offset ++ bytes ++ buf.drop (offset + bytes.length) := by
  unfold setBytes
  split_ifs with h
  · simp only [false_iff, not_and]
    omega
  · rw [Except.ok.injEq]
    constructor
    · intro heq
      exact ⟨by omega, heq.symm⟩
    · intro heq
      exact heq.2.symm

theorem take_pad {s : Bytes} {k : ℕ} (hk : 32 ≤ s.length + k) : (s ++ List.replicate k 0).take 32 = sibling32 s := by
  rw [sibling32, List.take_append, List.take_append, List.take_replicate, List.take_replicate]
  congr 2
  omega

theorem setBytes_right {s buf buf' : Bytes} (hnode : nodeHash.length = 32)
    (hbuf : setBytes (0x01 :: List.replicate 64 0) s 1 = .ok buf)
    (hbuf' : setBytes buf nodeHash 33 = .ok buf') : buf' = 0x01 :: (sibling32 s ++ nodeHash) := by
  obtain ⟨hlen, rfl⟩ := setBytes_ok.1 hbuf
  obtain ⟨-, rfl⟩ := setBytes_ok.1 hbuf'
  simp only [List.length_cons, List.length_replicate] at hlen
  have hrest : (0x01 :: List.replicate 64 (0 : UInt8)).drop (1 + s.length) = List.replicate (64 - s.length) 0 := by
    rw [Nat.add_comm, List.drop_succ_cons, List.drop_replicate]
  rw [hrest, hnode]
  show 0x01 :: ((s ++ List.replicate (64 - s.length) 0).take 32 ++ nodeHash ++
    (s ++ List.replicate (64 - s.length) 0).drop 64) = _
  have hend : (s ++ List.replicate (64 - s.length) (0 : UInt8)).drop 64 = [] := by
    rw [List.drop_eq_nil_iff, List.length_append, List.length_replicate]
    omega
  rw [take_pad (by omega), hend, List.append_nil]

theorem setBytes_left {s buf buf' : Bytes} (hnode : nodeHash.length = 32)
    (hbuf : setBytes (0x01 :: List.replicate 64 0) nodeHash 1 = .ok buf)
    (hbuf' : setBytes buf s 33 = .ok buf') : buf' = 0x01 :: (nodeHash ++ sibling32 s) := by
  obtain ⟨-, rfl⟩ := setBytes_ok.1 hbuf
  obtain ⟨hlen, rfl⟩ := setBytes_ok.1 hbuf'
  rw [hnode] at hlen ⊢
  have hbuffer : (0x01 :: List.replicate 64 (0 : UInt8)).take 1 ++ nodeHash ++
      (0x01 :: List.replicate 64 (0 : UInt8)).drop (1 + 32) = 0x01 :: nodeHash ++ List.replicate 32 0 := rfl
  rw [hbuffer] at hlen ⊢
  have hhead : (0x01 :: nodeHash : Bytes).length = 33 := by rw [List.length_cons, hnode]
  rw [List.length_append, hhead, List.length_replicate] at hlen
  have hzeros : s.length ≤ 32 := by omega
  rw [List.take_left' hhead, List.drop_append, hhead, List.drop_eq_nil_of_le (by omega), List.nil_append,
    List.drop_replicate, List.append_assoc, List.cons_append]
  have hpad : s ++ List.replicate (32 - (33 + s.length - 33)) 0 = sibling32 s := by
    rw [← take_pad (k := 32 - (33 + s.length - 33)) (by omega), List.take_of_length_le]
    rw [List.length_append, List.length_replicate]
    omega
  rw [hpad]

/-- A pair that is hashed is a block of the tree, whatever the length of the sibling. -/
theorem hashPair_eq {sibling : Bytes} (hnode : nodeHash.length = 32)
    (h : hashPair sha256 leaf_index i nodeHash sibling = .ok r) :
    leaf_index.isInteger = true ∧ r = digest sha256 (pair (bits leaf_index i) nodeHash (sibling32 sibling)) := by
  unfold hashPair at h
  obtain ⟨b, hbit, h⟩ := ok_bind.1 h
  have hint := indexBit_ok hbit
  rw [indexBit_eq hint, Except.ok.injEq] at hbit
  subst hbit
  refine ⟨hint, ?_⟩
  cases hside : bits leaf_index i with
  | true =>
    rw [hside, if_pos rfl] at h
    obtain ⟨buf, hbuf, h⟩ := ok_bind.1 h
    obtain ⟨buf', hbuf', h⟩ := ok_bind.1 h
    cases h
    rw [setBytes_right hnode hbuf hbuf']
    rfl
  | false =>
    rw [hside, if_neg nofun] at h
    obtain ⟨buf, hbuf, h⟩ := ok_bind.1 h
    obtain ⟨buf', hbuf', h⟩ := ok_bind.1 h
    cases h
    rw [setBytes_left hnode hbuf hbuf']
    rfl

variable (sha256 i) in
theorem hashPair_isOk {sibling : Bytes} (hint : leaf_index.isInteger = true) (hnode : nodeHash.length = 32)
    (hsibling : sibling.length = 32) : ∃ r, hashPair sha256 leaf_index i nodeHash sibling = .ok r := by
  unfold hashPair
  have hset : ∀ {buf bytes : Bytes} {offset : ℕ}, buf.length = 65 → bytes.length = 32 → offset ≤ 33 →
      ∃ buf', setBytes buf bytes offset = .ok buf' ∧ buf'.length = 65 := by
    intro buf bytes offset hbuf hbytes hoffset
    refine ⟨_, setBytes_ok.2 ⟨by omega, rfl⟩, ?_⟩
    simp only [List.length_append, List.length_take, List.length_drop]
    omega
  rw [indexBit_eq hint]
  have hzero : (0x01 :: List.replicate 64 (0 : UInt8)).length = 65 := rfl
  cases bits leaf_index i with
  | true =>
    obtain ⟨buf, hbuf, hlen⟩ := hset hzero hsibling (show 1 ≤ 33 by omega)
    obtain ⟨buf', hbuf', -⟩ := hset hlen hnode (le_refl 33)
    exact ⟨sha256 buf', ok_bind.2 ⟨true, rfl, ok_bind.2 ⟨buf, hbuf, ok_bind.2 ⟨buf', hbuf', rfl⟩⟩⟩⟩
  | false =>
    obtain ⟨buf, hbuf, hlen⟩ := hset hzero hnode (show 1 ≤ 33 by omega)
    obtain ⟨buf', hbuf', -⟩ := hset hlen hsibling (le_refl 33)
    exact ⟨sha256 buf', ok_bind.2 ⟨false, rfl, ok_bind.2 ⟨buf, hbuf, ok_bind.2 ⟨buf', hbuf', rfl⟩⟩⟩⟩

section Fold

variable (hlength : ∀ bytes, (sha256 bytes).length = 32)

include hlength

theorem foldPath_eq (hnode : nodeHash.length = 32) (h : foldPath sha256 leaf_index i nodeHash audit_path = .ok r) :
    (audit_path.length = 0 ∨ leaf_index.isInteger = true) ∧
      r = climbFrom (digest sha256) (bits leaf_index) i nodeHash (siblings audit_path) := by
  induction audit_path generalizing i nodeHash with
  | nil =>
    cases h
    exact ⟨.inl rfl, rfl⟩
  | cons s audit_path ih =>
    obtain ⟨nodeHash', hpair, h⟩ := ok_bind.1 h
    obtain ⟨hint, rfl⟩ := hashPair_eq hnode hpair
    exact ⟨.inr hint, (ih (hlength _) h).2⟩

theorem foldPath_isOk (hint : audit_path.length = 0 ∨ leaf_index.isInteger = true) (hnode : nodeHash.length = 32)
    (hpath : ∀ s ∈ audit_path, (base64urlDecode s).length = 32) :
    ∃ r, foldPath sha256 leaf_index i nodeHash audit_path = .ok r := by
  induction audit_path generalizing i nodeHash with
  | nil => exact ⟨nodeHash, rfl⟩
  | cons s audit_path ih =>
    have hint := hint.resolve_left (Nat.succ_ne_zero _)
    obtain ⟨nodeHash', hpair⟩ := hashPair_isOk sha256 i hint hnode (hpath s List.mem_cons_self)
    have hnode' : nodeHash'.length = 32 := by
      rw [(hashPair_eq hnode hpair).2]
      exact hlength _
    obtain ⟨r, hr⟩ := ih (i := i + 1) (.inr hint) hnode' fun t ht => hpath t (List.mem_cons_of_mem _ ht)
    exact ⟨r, ok_bind.2 ⟨nodeHash', hpair, hr⟩⟩

theorem climb_of_verifyInclusion (h : verifyInclusion sha256 proof sth entry = .ok true) :
    base64urlDecode proof.leaf_hash = digest sha256 (.leaf (leafBytes entry)) ∧
      (proof.audit_path.length = 0 ∨ proof.leaf_index.isInteger = true) ∧
      climb (digest sha256) (bits proof.leaf_index) (digest sha256 (.leaf (leafBytes entry)))
        (siblings proof.audit_path) = base64urlDecode sth.sha256_root_hash := by
  unfold verifyInclusion at h
  dsimp only at h
  split_ifs at h with hleaf
  · cases h
  · obtain ⟨nodeHash, hfold, h⟩ := ok_bind.1 h
    rw [Except.ok.injEq, beq_iff_eq] at h
    obtain ⟨hint, rfl⟩ := foldPath_eq hlength (hlength _) hfold
    exact ⟨(not_not.1 hleaf).symm, hint, h⟩

theorem verifyInclusion_of_climb (hleaf : base64urlDecode proof.leaf_hash = digest sha256 (.leaf (leafBytes entry)))
    (hint : proof.audit_path.length = 0 ∨ proof.leaf_index.isInteger = true)
    (hpath : ∀ s ∈ proof.audit_path, (base64urlDecode s).length = 32)
    (hclimb : climb (digest sha256) (bits proof.leaf_index) (digest sha256 (.leaf (leafBytes entry)))
      (siblings proof.audit_path) = base64urlDecode sth.sha256_root_hash) :
    verifyInclusion sha256 proof sth entry = .ok true := by
  obtain ⟨r, hr⟩ := foldPath_isOk hlength hint (hlength (0x00 :: leafBytes entry)) hpath (i := 0)
  have heq := (foldPath_eq hlength (hlength _) hr).2
  unfold verifyInclusion
  dsimp only
  have hsame : ¬ sha256 (0x00 :: leafBytes entry) ≠ base64urlDecode proof.leaf_hash := not_not.2 hleaf.symm
  rw [if_neg hsame, hr]
  show Except.ok (r == base64urlDecode sth.sha256_root_hash) = _
  rw [heq, ← hclimb]
  exact congrArg Except.ok (beq_self_eq_true _)

/-! ### Collisions -/

def Sized : Block Bytes Bytes → Prop
  | .node left right => left.length = 32 ∧ right.length = 32
  | _ => True

omit hlength in
theorem blockBytes_injOn {b c : Block Bytes Bytes} (hb : Sized b) (hc : Sized c)
    (h : blockBytes b = blockBytes c) : b = c := by
  cases b <;> cases c <;> simp only [blockBytes, List.cons.injEq, reduceCtorEq] at h
  · rfl
  · rw [h.2]
  · exact absurd h.1 (by decide)
  · exact absurd h.1 (by decide)
  · obtain ⟨hleft, hright⟩ := List.append_inj h.2 (hb.1.trans hc.1.symm)
    rw [hleft, hright]

omit hlength in
theorem digest_injOn {strings : List Bytes} (hfree : CollisionFree sha256 strings) :
    Set.InjOn (digest sha256) {b | blockBytes b ∈ strings ∧ Sized b} :=
  fun _ hb _ hc h => blockBytes_injOn hb.2 hc.2 (hfree hb.1 hc.1 h)

theorem length_root (xs : List Bytes) : (root (digest sha256) xs).length = 32 := by
  unfold root
  split
  · exact hlength _
  · split <;> exact hlength _

theorem length_mem_auditPath (xs : List Bytes) (i : ℕ) : ∀ s ∈ auditPath (digest sha256) xs i, s.length = 32 := by
  induction xs using cut_induction generalizing i with
  | empty =>
    rw [auditPath]
    simp
  | single a =>
    rw [auditPath_single]
    simp
  | node xs h2 ihtake ihdrop =>
    intro s hs
    by_cases hi : i < cut xs.length
    · rw [auditPath_left h2 hi, List.mem_append, List.mem_singleton] at hs
      rcases hs with hs | rfl
      · exact ihtake i s hs
      · exact length_root hlength _
    · rw [auditPath_right h2 hi, List.mem_append, List.mem_singleton] at hs
      rcases hs with hs | rfl
      · exact ihdrop _ s hs
      · exact length_root hlength _

theorem sized_blocks (xs : List Bytes) : ∀ b ∈ blocks (digest sha256) xs, Sized b := by
  intro b hb
  induction xs using cut_induction with
  | empty =>
    rw [blocks] at hb
    rw [List.mem_singleton.1 (show b ∈ [.empty] from hb)]
    trivial
  | single a =>
    rw [blocks_single, List.mem_singleton] at hb
    rw [hb]
    trivial
  | node xs h2 ihtake ihdrop =>
    rw [blocks_node h2, List.mem_cons, List.mem_append] at hb
    rcases hb with rfl | hb | hb
    · exact ⟨length_root hlength _, length_root hlength _⟩
    · exact ihtake hb
    · exact ihdrop hb

theorem sized_climbBlocks {bit : ℕ → Bool} {path : List Bytes} (hnode : nodeHash.length = 32)
    (hpath : ∀ s ∈ path, s.length = 32) : ∀ b ∈ climbBlocks (digest sha256) bit nodeHash path, Sized b := by
  induction path using List.reverseRecOn with
  | nil => nofun
  | append_singleton path s ih =>
    intro b hb
    rw [climbBlocks_snoc, List.mem_append, List.mem_singleton] at hb
    rcases hb with hb | rfl
    · exact ih (fun t ht => hpath t (List.mem_append_left _ ht)) b hb
    · have hclimb : (climb (digest sha256) bit nodeHash path).length = 32 := by
        cases path using List.reverseRecOn with
        | nil => exact hnode
        | append_singleton path t =>
          rw [climb_snoc]
          exact hlength _
      have hs := hpath s (by simp)
      unfold pair
      split
      · exact ⟨hs, hclimb⟩
      · exact ⟨hclimb, hs⟩

/-! ### Acceptance -/

theorem injOn_blocks (hfree : CollisionFree sha256 (treeStrings sha256 log ++ proofStrings sha256 proof entry)) :
    ∃ S, Set.InjOn (digest sha256) S ∧ (∀ b ∈ blocks (digest sha256) (leaves log), b ∈ S) ∧
      .leaf (leafBytes entry) ∈ S ∧
      ∀ b ∈ climbBlocks (digest sha256) (bits proof.leaf_index) (digest sha256 (.leaf (leafBytes entry)))
        (siblings proof.audit_path), b ∈ S := by
  refine ⟨_, digest_injOn hfree, fun b hb => ⟨?_, sized_blocks hlength _ b hb⟩, ⟨?_, trivial⟩,
    fun b hb => ⟨?_, sized_climbBlocks hlength (hlength _) ?_ b hb⟩⟩
  · exact List.mem_append_left _ (List.mem_map_of_mem hb)
  · exact List.mem_append_right _ List.mem_cons_self
  · exact List.mem_append_right _ (List.mem_map_of_mem (List.mem_cons_of_mem _ hb))
  · intro s hs
    obtain ⟨t, -, rfl⟩ := List.mem_map.1 hs
    exact length_sibling32 _

theorem accepts_iff (hsth : IsHeadOf sha256 sth log) (hentry : log[i]? = some entry)
    (hproof : IsProofOf sha256 proof log i entry)
    (hfree : CollisionFree sha256 (treeStrings sha256 log ++ proofStrings sha256 proof entry)) :
    verifyInclusion sha256 proof sth entry = .ok true ↔
      leadsTo (.fin i) proof.audit_path.length log.length = some i := by
  have hlen : ∀ s ∈ proof.audit_path, (base64urlDecode s).length = 32 := by
    intro s hs
    refine length_mem_auditPath hlength (leaves log) i _ ?_
    rw [← hproof.audit_path]
    exact List.mem_map_of_mem hs
  have hsiblings : siblings proof.audit_path = auditPath (digest sha256) (leaves log) i := by
    rw [← hproof.audit_path]
    exact List.map_congr_left fun s hs => sibling32_eq (hlen s hs)
  have hpathlen : proof.audit_path.length = (auditPath (digest sha256) (leaves log) i).length := by
    rw [← hproof.audit_path, List.length_map]
  have hleaf : (leaves log)[i]? = some (leafBytes entry) := by
    rw [leaves, List.getElem?_map, hentry]
    rfl
  have hint : proof.leaf_index.isInteger = true := by
    rw [hproof.leaf_index]
    exact decide_eq_true (Rat.den_natCast i)
  have hlead : leadsTo (.fin i) proof.audit_path.length log.length =
      descend (Nat.testBit i) (auditPath (digest sha256) (leaves log) i).length (leaves log).length := by
    rw [leadsTo, if_pos (.inr (hproof.leaf_index ▸ hint)), bits_nat, hpathlen, leaves, List.length_map]
  obtain ⟨S, hS, htree, hleafS, hclimbS⟩ := injOn_blocks hlength hfree
  rw [hsiblings, hproof.leaf_index, bits_nat] at hclimbS
  rw [hlead, ← climb_auditPath_iff hS hleaf htree hclimbS]
  constructor
  · intro h
    have hclimb := (climb_of_verifyInclusion hlength h).2.2
    rw [hsiblings, hproof.leaf_index, bits_nat, hsth.root] at hclimb
    exact hclimb
  · intro h
    refine verifyInclusion_of_climb hlength hproof.leaf_hash (.inr hint) hlen ?_
    rw [hsiblings, hproof.leaf_index, bits_nat, hsth.root]
    exact h

theorem leadsTo_of_accepted (hsth : IsHeadOf sha256 sth log) (hlog : log ≠ [])
    (hfree : CollisionFree sha256 (treeStrings sha256 log ++ proofStrings sha256 proof entry))
    (h : verifyInclusion sha256 proof sth entry = .ok true) :
    ∃ j, leadsTo proof.leaf_index proof.audit_path.length log.length = some j ∧
      (leaves log)[j]? = some (leafBytes entry) := by
  obtain ⟨-, hint, hclimb⟩ := climb_of_verifyInclusion hlength h
  obtain ⟨S, hS, htree, hleafS, hclimbS⟩ := injOn_blocks hlength hfree
  have hne : leaves log ≠ [] := by
    rw [leaves, ne_eq, List.map_eq_nil_iff]
    exact hlog
  rw [hsth.root] at hclimb
  obtain ⟨j, hj, hget⟩ := climb_sound hS hne htree hleafS hclimbS hclimb
  rw [siblings, List.length_map, leaves, List.length_map] at hj
  exact ⟨j, by rw [leadsTo, if_pos hint, hj], hget⟩

/-- Wherever the bits of an index lead, there is a proof that is accepted. -/
theorem exists_accepted (hsth : IsHeadOf sha256 sth log)
    (hfree : CollisionFree sha256 (treeStrings sha256 log)) (tree_size : JsDouble) {l j : ℕ}
    (hj : leadsTo leaf_index l log.length = some j) :
    ∃ proof entry, proof.leaf_index = leaf_index ∧ proof.tree_size = tree_size ∧
      proof.audit_path.length = l ∧ log[j]? = some entry ∧
      CollisionFree sha256 (treeStrings sha256 log ++ proofStrings sha256 proof entry) ∧
      verifyInclusion sha256 proof sth entry = .ok true := by
  have hint : l = 0 ∨ leaf_index.isInteger = true := by
    by_contra hno
    rw [leadsTo, if_neg hno] at hj
    cases hj
  rw [leadsTo, if_pos hint] at hj
  obtain ⟨entry, hentry⟩ : ∃ entry, log[j]? = some entry :=
    ⟨_, List.getElem?_eq_getElem (descend_lt hj)⟩
  have hleaf : (leaves log)[j]? = some (leafBytes entry) := by
    rw [leaves, List.getElem?_map, hentry]
    rfl
  obtain ⟨path, hlen, hclimb, hblocks, hsiblings⟩ :=
    exists_climb (digest sha256) (show descend _ l (leaves log).length = some j by
      rw [leaves, List.length_map]
      exact hj) hleaf
  have hpath : ∀ s ∈ path, s.length = 32 := by
    intro s hs
    obtain ⟨b, -, rfl⟩ := hsiblings s hs
    exact hlength _
  have hdecode : ∀ bytes, base64urlDecode (String.ofList (base64urlOfBytes bytes)) = bytes := by
    intro bytes
    rw [base64urlDecode, String.toList_ofList, bytesOfBase64_base64urlOfBytes]
  have hwritten : siblings (path.map fun s => String.ofList (base64urlOfBytes s)) = path := by
    rw [siblings, List.map_map]
    refine (List.map_congr_left fun s hs => ?_).trans (List.map_id path)
    show sibling32 (base64urlDecode (String.ofList (base64urlOfBytes s))) = s
    rw [hdecode, sibling32_eq (hpath s hs)]
  refine ⟨{ leaf_index, tree_size
            leaf_hash := String.ofList (base64urlOfBytes (digest sha256 (.leaf (leafBytes entry))))
            audit_path := path.map fun s => String.ofList (base64urlOfBytes s) }, entry, rfl, rfl,
    (List.length_map _).trans hlen, hentry, hfree.mono fun b hb => ?_, ?_⟩
  · rcases List.mem_append.1 hb with hb | hb
    · exact hb
    · rw [proofStrings, hwritten] at hb
      obtain ⟨c, hc, rfl⟩ := List.mem_map.1 hb
      refine List.mem_map_of_mem ?_
      rcases List.mem_cons.1 hc with rfl | hc
      · exact leaf_mem_blocks hleaf
      · exact hblocks c hc
  · refine verifyInclusion_of_climb hlength (hdecode _) ?_ (fun s hs => ?_) ?_
    · rw [List.length_map, hlen]
      exact hint
    · obtain ⟨t, ht, rfl⟩ := List.mem_map.1 hs
      rw [hdecode]
      exact hpath t ht
    · rw [hwritten, hsth.root]
      exact hclimb

/-- **Complete and sound exactly where the bits of the index lead.**  The proof of an entry is accepted if and
only if they lead down to it.  What is accepted at an index, for a size and with a length of the path, is
included at that index if and only if they lead to no leaf, or to the leaf there, and the size is right. -/
theorem verifyInclusion_iff_leadsTo (hsth : IsHeadOf sha256 sth log) (hlog : log ≠ [])
    (hfree : CollisionFree sha256 (treeStrings sha256 log)) :
    (∀ i entry proof, log[i]? = some entry → IsProofOf sha256 proof log i entry →
      CollisionFree sha256 (treeStrings sha256 log ++ proofStrings sha256 proof entry) →
      (verifyInclusion sha256 proof sth entry = .ok true ↔
        leadsTo (.fin i) proof.audit_path.length log.length = some i)) ∧
    ∀ leaf_index tree_size l,
      (∀ proof entry, proof.leaf_index = leaf_index → proof.tree_size = tree_size →
        proof.audit_path.length = l →
        CollisionFree sha256 (treeStrings sha256 log ++ proofStrings sha256 proof entry) →
        verifyInclusion sha256 proof sth entry = .ok true → Included log sth proof entry) ↔
      ∀ j, leadsTo leaf_index l log.length = some j →
        (∃ j' : ℕ, leaf_index = .fin j' ∧ (leaves log)[j']? = (leaves log)[j]?) ∧
          tree_size = .fin log.length := by
  refine ⟨fun i entry proof hentry hproof hboth => accepts_iff hlength hsth hentry hproof hboth,
    fun leaf_index tree_size l => ⟨fun h j hj => ?_, ?_⟩⟩
  · obtain ⟨proof, entry, rfl, rfl, hlen, hentry, hboth, haccepted⟩ :=
      exists_accepted hlength hsth hfree tree_size hj
    obtain ⟨⟨j', hindex, hget⟩, -, hsize⟩ := h proof entry rfl rfl hlen hboth haccepted
    refine ⟨⟨j', hindex, hget.trans ?_⟩, hsize.trans hsth.tree_size⟩
    rw [leaves, List.getElem?_map, hentry]
    rfl
  · intro h proof entry hindex hsize hlen hboth haccepted
    subst hindex hsize hlen
    obtain ⟨j, hj, hget⟩ := leadsTo_of_accepted hlength hsth hlog hboth haccepted
    obtain ⟨⟨j', hindex, hget'⟩, hsize⟩ := h j hj
    refine ⟨⟨j', hindex, hget'.trans hget⟩, ?_, hsize.trans hsth.tree_size.symm⟩
    obtain ⟨hlt, -⟩ := List.getElem?_eq_some_iff.1 (hget'.trans hget)
    rw [leaves, List.length_map] at hlt
    rw [hindex, hsth.tree_size]
    exact decide_eq_true (Nat.cast_lt.2 hlt)

end Fold

/-! ### A log of three entries -/

/-- The text of a number that is written with one digit. -/
def digit (n : ℕ) (h : n < 10 := by decide) : Json :=
  .num ⟨[Char.ofNat (48 + n)], by revert n; decide, by simp⟩

def sampleEntry (seq : Json) : Json :=
  .obj [("v", digit 1), ("log_id", .str "log"), ("seq", seq), ("timestamp", .str "2026"),
    ("subject_nid", .str "a"), ("incident", .str "other"), ("severity", .str "info"), ("issuer_nid", .str "b"),
    ("signature", .str "ed25519:")]

def sampleLog : List Json := [sampleEntry (digit 1), sampleEntry (digit 2), sampleEntry (digit 3)]

def sampleLeaf (seq : Json) : Bytes := 0x00 :: leafBytes (sampleEntry seq)

/-- The hashes of the entries, and of the first two together. -/
def leaf1 : String := "wLrPve7g1a77By8Lhw25uWaF90fqh7Mg6InXfp2AIpg"
def leaf2 : String := "hw76-hc-th7rTzGFRR-hjZf4pgk791PFBbay7nDunx0"
def leaf3 : String := "wt2J7EfK6FiFTbKDyhkK7aitcjYeHFGKveZnpeFgMC4"
def node12 : String := "atKbugjvfFsfAisIlKQhIWkrQCJaok6aCc_XXsRAjA8"

def sampleHead : SignedTreeHead := ⟨3, "PbMo7wpeBFP6P5YRytCOGQ_9fZ-bxG1YZbHCIenUElc"⟩

def nodeOf (left right : String) : Bytes := 0x01 :: (base64urlDecode left ++ base64urlDecode right)

/-- SHA-256, of the strings that are hashed below. -/
def sampleSha256 (bytes : Bytes) : Bytes :=
  if bytes = sampleLeaf (digit 1) then base64urlDecode leaf1
  else if bytes = sampleLeaf (digit 2) then base64urlDecode leaf2
  else if bytes = sampleLeaf (digit 3) then base64urlDecode leaf3
  else if bytes = nodeOf leaf1 leaf2 then base64urlDecode node12
  else if bytes = nodeOf node12 leaf3 then base64urlDecode sampleHead.sha256_root_hash
  else if bytes = nodeOf leaf3 node12 then base64urlDecode "f0KtVFhBKrYrcrx5yxBG6ct3RRh_A1uwwLewx6DzBTM"
  else List.replicate 32 0

theorem length_sampleSha256 (bytes : Bytes) : (sampleSha256 bytes).length = 32 := by
  unfold sampleSha256
  split_ifs <;> decide

/-- The proof of the third entry, and the same under another index and size. -/
def proof3 (leaf_index tree_size : JsDouble) : InclusionProof :=
  { leaf_index, tree_size, leaf_hash := leaf3, audit_path := [node12] }

/-- The strings that are hashed. -/
def sampleStrings : List Bytes :=
  [sampleLeaf (digit 1), sampleLeaf (digit 2), sampleLeaf (digit 3), nodeOf leaf1 leaf2, nodeOf node12 leaf3,
    nodeOf leaf3 node12]

/-- The proof of the first entry. -/
def proof1 : InclusionProof :=
  { leaf_index := 0, tree_size := 3, leaf_hash := leaf1, audit_path := [leaf2, leaf3] }

theorem sample_evaluated :
    (digest sampleSha256 (.leaf (leafBytes (sampleEntry (digit 1)))) = base64urlDecode leaf1 ∧
      digest sampleSha256 (.leaf (leafBytes (sampleEntry (digit 2)))) = base64urlDecode leaf2 ∧
      digest sampleSha256 (.leaf (leafBytes (sampleEntry (digit 3)))) = base64urlDecode leaf3 ∧
      digest sampleSha256 (.node (base64urlDecode leaf1) (base64urlDecode leaf2)) = base64urlDecode node12 ∧
      digest sampleSha256 (.node (base64urlDecode node12) (base64urlDecode leaf3)) =
        base64urlDecode sampleHead.sha256_root_hash) ∧ (sampleStrings.map sampleSha256).Nodup ∧
    ((∀ b ∈ proofStrings sampleSha256 proof1 (sampleEntry (digit 1)), b ∈ sampleStrings) ∧
      (∀ b ∈ proofStrings sampleSha256 (proof3 2 3) (sampleEntry (digit 3)), b ∈ sampleStrings) ∧
      ∀ b ∈ proofStrings sampleSha256 (proof3 1 3) (sampleEntry (digit 3)), b ∈ sampleStrings) ∧
    verifyInclusion sampleSha256 (proof3 2 3) sampleHead (sampleEntry (digit 3)) = .ok false ∧
    verifyInclusion sampleSha256 (proof3 1 3) sampleHead (sampleEntry (digit 3)) = .ok true ∧
    leafBytes (sampleEntry (digit 2)) ≠ leafBytes (sampleEntry (digit 3)) := by
  decide +kernel

theorem sampleHead_isHeadOf : IsHeadOf sampleSha256 sampleHead sampleLog := by
  obtain ⟨h1, h2, h3, h12, hroot⟩ := sample_evaluated.1
  refine ⟨rfl, ?_⟩
  show _ = root _ [_, _, _]
  rw [root_triple, h1, h2, h3, h12, hroot]

theorem collisionFree_sample : CollisionFree sampleSha256 sampleStrings :=
  List.inj_on_of_nodup_map sample_evaluated.2.1

theorem treeStrings_sample : ∀ b ∈ treeStrings sampleSha256 sampleLog, b ∈ sampleStrings := by
  obtain ⟨h1, h2, h3, h12, -⟩ := sample_evaluated.1
  show ∀ b ∈ (blocks _ [_, _, _]).map blockBytes, b ∈ sampleStrings
  rw [blocks_triple, h1, h2, h3, h12]
  simp [sampleStrings, sampleLeaf, nodeOf, blockBytes]

theorem collisionFree_of_strings {strings : List Bytes} (h : ∀ b ∈ strings, b ∈ sampleStrings) :
    CollisionFree sampleSha256 (treeStrings sampleSha256 sampleLog ++ strings) := by
  refine collisionFree_sample.mono fun b hb => ?_
  rcases List.mem_append.1 hb with hb | hb
  · exact treeStrings_sample b hb
  · exact h b hb

theorem isProofOf_proof1 : IsProofOf sampleSha256 proof1 sampleLog 0 (sampleEntry (digit 1)) := by
  obtain ⟨h1, h2, h3, -⟩ := sample_evaluated.1
  refine ⟨rfl, rfl, h1.symm, ?_⟩
  show _ = auditPath _ [_, _, _] 0
  rw [auditPath_triple_first, h2, h3]
  rfl

theorem isProofOf_proof3 : IsProofOf sampleSha256 (proof3 2 3) sampleLog 2 (sampleEntry (digit 3)) := by
  obtain ⟨h1, h2, h3, h12, -⟩ := sample_evaluated.1
  refine ⟨rfl, rfl, h3.symm, ?_⟩
  show _ = auditPath _ [_, _, _] 2
  rw [auditPath_triple_last, h1, h2, h12]
  rfl

theorem proof1_accepted : verifyInclusion sampleSha256 proof1 sampleHead (sampleEntry (digit 1)) = .ok true :=
  ((verifyInclusion_iff_leadsTo length_sampleSha256 sampleHead_isHeadOf (by simp [sampleLog])
    (collisionFree_sample.mono treeStrings_sample)).1 0 _ proof1 rfl isProofOf_proof1
    (collisionFree_of_strings sample_evaluated.2.2.1.1)).2 (by decide)

/-- **A proof is refused, and another taken for an entry that is not there**: in a log of three entries, that of
the third entry is refused at its index, and accepted at the index of the second one. -/
theorem proof3_misjudged :
    (IsProofOf sampleSha256 (proof3 2 3) sampleLog 2 (sampleEntry (digit 3)) ∧
      CollisionFree sampleSha256 (treeStrings sampleSha256 sampleLog ++
        proofStrings sampleSha256 (proof3 2 3) (sampleEntry (digit 3))) ∧
      verifyInclusion sampleSha256 (proof3 2 3) sampleHead (sampleEntry (digit 3)) = .ok false) ∧
    CollisionFree sampleSha256 (treeStrings sampleSha256 sampleLog ++
      proofStrings sampleSha256 (proof3 1 3) (sampleEntry (digit 3))) ∧
    IsHeadOf sampleSha256 sampleHead sampleLog ∧
    verifyInclusion sampleSha256 (proof3 1 3) sampleHead (sampleEntry (digit 3)) = .ok true ∧
    ¬ Included sampleLog sampleHead (proof3 1 3) (sampleEntry (digit 3)) := by
  obtain ⟨-, -, ⟨-, hstrings, hstrings'⟩, hrefused, haccepted, hdifferent⟩ := sample_evaluated
  refine ⟨⟨isProofOf_proof3, collisionFree_of_strings hstrings, hrefused⟩,
    collisionFree_of_strings hstrings', sampleHead_isHeadOf, haccepted, ?_⟩
  rintro ⟨⟨j, hj, hget⟩, -⟩
  have hj : ((1 : ℕ) : ℚ) = j := by
    injection hj
  have hj : 1 = j := Nat.cast_inj.1 hj
  subst hj
  exact hdifferent (Option.some.inj hget)

end NpsSdk.Nip.Reputation
