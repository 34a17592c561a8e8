import Mathlib.Data.List.Basic
import Mathlib.Data.List.Induction
import Mathlib.Tactic.Ring

/-!
# Bytes

Byte buffers as lists, and the unsigned big-endian integers read from them and written to them.
-/

namespace NpsSdk.Lib

abbrev Bytes := List UInt8

/-- The number that big-endian bytes spell. -/
def beNat (bs : Bytes) : ℕ := bs.foldl (fun n b => n * 256 + b.toNat) 0

/-- The last `k` big-endian bytes of a number. -/
def beBytes : ℕ → ℕ → Bytes
  | 0, _ => []
  | k + 1, n => beBytes k (n / 256) ++ [UInt8.ofNat (n % 256)]

/-- `view.getUint…(at)`, of `k` bytes that are there. -/
def getUint (k pos : ℕ) (buf : Bytes) : ℕ := beNat ((buf.drop pos).take k)

/-- `view.setUint…(at, n)`, of `k` bytes that are there. -/
def setUint (k pos n : ℕ) (buf : Bytes) : Bytes :=
  buf.take pos ++ beBytes k n ++ buf.drop (pos + k)

@[simp] theorem length_beBytes (k n : ℕ) : (beBytes k n).length = k := by
  induction k generalizing n with
  | zero => rfl
  | succ k ih => simp [beBytes, ih]

theorem beNat_concat (bs : Bytes) (b : UInt8) : beNat (bs ++ [b]) = beNat bs * 256 + b.toNat := by
  simp [beNat, List.foldl_append]

theorem beNat_beBytes (k n : ℕ) : beNat (beBytes k n) = n % 256 ^ k := by
  induction k generalizing n with
  | zero => simp [beBytes, beNat, Nat.mod_one]
  | succ k ih =>
    have hbyte : (UInt8.ofNat (n % 256)).toNat = n % 256 := by simp
    rw [beBytes, beNat_concat, ih, hbyte, Nat.pow_succ, Nat.mul_comm (256 ^ k) 256, Nat.mod_mul]
    omega

theorem beNat_beBytes_of_lt {k n : ℕ} (h : n < 256 ^ k) : beNat (beBytes k n) = n := by
  rw [beNat_beBytes, Nat.mod_eq_of_lt h]

theorem beNat_append (as bs : Bytes) : beNat (as ++ bs) = beNat as * 256 ^ bs.length + beNat bs := by
  induction bs using List.reverseRecOn with
  | nil => simp [beNat]
  | append_singleton bs b ih =>
    rw [← List.append_assoc, beNat_concat, ih, beNat_concat, List.length_append, List.length_singleton, Nat.pow_succ]
    ring

theorem beBytes_add (j k n : ℕ) : beBytes (j + k) n = beBytes j (n / 256 ^ k) ++ beBytes k n := by
  induction k generalizing n with
  | zero => simp [beBytes]
  | succ k ih =>
    rw [← Nat.add_assoc, beBytes, ih, beBytes, Nat.div_div_eq_div_mul, ← Nat.pow_succ', List.append_assoc]

theorem getUint_append {k pos n : ℕ} (before after : Bytes) (hpos : before.length = pos)
    (hn : n < 256 ^ k) : getUint k pos (before ++ (beBytes k n ++ after)) = n := by
  subst hpos
  rw [getUint, List.drop_left, List.take_left' (length_beBytes k n), beNat_beBytes_of_lt hn]

/-!
## Elements of a tag, a length and a content

A grammar of nested elements over bytes: an element is a tag of one byte, a length field of a bounded number of
bytes, and as many bytes of content as the field says.  Bytes begin with one element at most, so what is nested
in them is told by the bytes alone.
-/

/-- The field of a length: the length itself if it is below 128, or the number of bytes that spell it and these
bytes, `width` of them at most. -/
inductive LengthField (width : ℕ) : Bytes → ℕ → Prop
  | short {b : UInt8} (h : b.toNat < 0x80) : LengthField width [b] b.toNat
  | long {b : UInt8} {digits : Bytes} (hb : b.toNat = 0x80 + digits.length) (hne : 0 < digits.length)
    (hle : digits.length ≤ width) : LengthField width (b :: digits) (beNat digits)

structure Element (width : ℕ) (bytes : Bytes) (tag : UInt8) (field content rest : Bytes) : Prop where
  length : LengthField width field content.length
  spelling : bytes = tag :: (field ++ (content ++ rest))

variable {width n n' : ℕ} {bytes field field' content content' rest rest' more more' : Bytes} {tag tag' : UInt8}

theorem LengthField.ne_nil (h : LengthField width field n) : field ≠ [] := by
  cases h <;> exact List.cons_ne_nil _ _

theorem LengthField.unique (h : LengthField width field n) (h' : LengthField width field' n')
    (heq : field ++ more = field' ++ more') : field = field' ∧ n = n' ∧ more = more' := by
  cases h with
  | short hb =>
    cases h' with
    | short hb' =>
      obtain ⟨rfl, rfl⟩ := List.cons.inj heq
      exact ⟨rfl, rfl, rfl⟩
    | long hb' _ _ =>
      obtain ⟨rfl, -⟩ := List.cons.inj heq
      omega
  | long hb _ _ =>
    cases h' with
    | short hb' =>
      obtain ⟨rfl, -⟩ := List.cons.inj heq
      omega
    | long hb' _ _ =>
      obtain ⟨rfl, hrest⟩ := List.cons.inj heq
      obtain ⟨rfl, rfl⟩ := List.append_inj hrest (by omega)
      exact ⟨rfl, rfl, rfl⟩

/-- **Bytes begin with one element at most.** -/
theorem Element.unique (h : Element width bytes tag field content rest)
    (h' : Element width bytes tag' field' content' rest') :
    tag = tag' ∧ field = field' ∧ content = content' ∧ rest = rest' := by
  obtain ⟨rfl, heq⟩ := List.cons.inj (h.spelling.symm.trans h'.spelling)
  obtain ⟨rfl, hlen, hrest⟩ := h.length.unique h'.length heq
  obtain ⟨rfl, rfl⟩ := List.append_inj hrest hlen
  exact ⟨rfl, rfl, rfl, rfl⟩

end NpsSdk.Lib
