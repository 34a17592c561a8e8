import Mathlib.Data.Nat.Bitwise
import NpsSdk.Nip.X509.Der

/-!
# What the reader reads

A reader takes the elements of its content one after the other, and looks at no byte beyond its content.
-/

namespace NpsSdk.Nip.X509

open NpsSdk.Lib

/-! ### Readings -/

namespace Reading

variable {α β : Type}

theorem bind_ok_iff {x : Reading α} {f : α → Reading β} {b : β} :
    (x >>= f).result = .ok b ↔ ∃ a, x.result = .ok a ∧ (f a).result = .ok b := by
  show (Reading.bind x f).result = _ ↔ _
  unfold Reading.bind
  cases h : x.result with
  | ok a => simp
  | error e => simp

@[simp] theorem pure_result (a : α) : (pure a : Reading α).result = .ok a := rfl

theorem refuseIf_ok_iff {p : Prop} [Decidable p] {message : String} {u : Unit} :
    (refuseIf p message).result = .ok u ↔ ¬ p := by
  unfold refuseIf
  split_ifs with h
  · simp [throw, h]
  · simp [Reading.pure, h]

/-- Every byte that is looked at is within the content that is read, and within the buffer. -/
def Inside (x : Reading α) : Prop := ∀ l ∈ x.looks, l.start ≤ l.index ∧ l.index < l.limit ∧ l.limit ≤ l.size

theorem inside_pure (a : α) : Inside (pure a : Reading α) := fun _ hl => absurd hl List.not_mem_nil

theorem inside_throw (e : DerException) : Inside (throw e : Reading α) := fun _ hl => absurd hl List.not_mem_nil

theorem inside_refuseIf {p : Prop} [Decidable p] {message : String} : Inside (refuseIf p message) := by
  unfold refuseIf
  split_ifs
  · exact inside_throw _
  · exact inside_pure ()

theorem Inside.bind {x : Reading α} {f : α → Reading β} (hx : Inside x)
    (hf : ∀ a, x.result = .ok a → Inside (f a)) : Inside (x >>= f) := by
  show Inside (Reading.bind x f)
  unfold Reading.bind
  cases h : x.result with
  | ok a =>
    intro l hl
    rcases List.mem_append.1 hl with hl | hl
    · exact hx l hl
    · exact hf a h l hl
  | error e => exact hx

end Reading

open Reading

namespace DerReader

variable {r next inner : DerReader} {tlv : Tlv} {tag : UInt8} {field content more : Bytes} {expected : Option ℕ}

/-! ### The bytes that are left -/

/-- The content that is not read yet. -/
def rest (r : DerReader) : Bytes := (r.buf.take r.limit).drop r.pos

/-- The cursor is behind the start of the content, and the content is in the buffer. -/
structure Valid (r : DerReader) : Prop where
  start_le : r.start ≤ r.pos
  limit_le : r.limit ≤ r.buf.length

theorem valid_new (buf : Bytes) : (new buf).Valid := ⟨le_rfl, le_rfl⟩

@[simp] theorem rest_new (buf : Bytes) : (new buf).rest = buf := by simp [new, rest]

theorem length_rest (h : r.Valid) : r.rest.length = r.limit - r.pos := by
  rw [rest, List.length_drop, List.length_take, Nat.min_eq_left h.limit_le]

theorem rest_drop (h : r.Valid) {k : ℕ} (hk : r.pos + k < r.limit) :
    r.rest.drop k = r.buf.getD (r.pos + k) 0 :: r.rest.drop (k + 1) := by
  have hlt : k < r.rest.length := by
    rw [length_rest h]
    omega
  have hsize : r.pos + k < r.buf.length := Nat.lt_of_lt_of_le hk h.limit_le
  rw [List.drop_eq_getElem_cons hlt]
  congr 1
  simp only [rest, List.getElem_drop, List.getElem_take, List.getD_eq_getElem?_getD, List.getElem?_eq_getElem hsize,
    Option.getD_some]

theorem hasData_iff (h : r.Valid) : r.hasData = true ↔ r.rest ≠ [] := by
  have := length_rest h
  rw [hasData, decide_eq_true_eq, ← List.length_pos_iff]
  omega

/-! ### Looking -/

theorem inside_look (h : r.Valid) {index : ℕ} (hstart : r.start ≤ index) (hlimit : index < r.limit) :
    Inside (r.look index) := by
  intro l hl
  obtain rfl := List.mem_singleton.1 hl
  exact ⟨hstart, hlimit, h.limit_le⟩

theorem inside_lookAll (h : r.Valid) {first last : ℕ} (hstart : r.start ≤ first) (hlimit : last ≤ r.limit) :
    Inside (r.lookAll first last) := by
  intro l hl
  obtain ⟨index, hindex, rfl⟩ := List.mem_map.1 hl
  rw [List.mem_range'_1] at hindex
  refine ⟨?_, ?_, h.limit_le⟩
  · show r.start ≤ index
    omega
  · show index < r.limit
    omega

theorem inside_lookLength (h : r.Valid) {n p length : ℕ} (hstart : r.start ≤ p) (hlimit : p + n ≤ r.limit) :
    Inside (r.lookLength p n length) := by
  induction n generalizing p length with
  | zero => exact inside_pure _
  | succ n ih =>
    refine (inside_look h hstart (by omega)).bind fun byte _ => ih (by omega) (by omega)

theorem inside_peekTag (h : r.Valid) : Inside r.peekTag := by
  refine inside_refuseIf.bind fun _ hdata => inside_look h h.start_le ?_
  have := refuseIf_ok_iff.1 hdata
  simpa [hasData] using this

theorem peekTag_ok (h : r.Valid) {n : ℕ} (hn : r.peekTag.result = .ok n) : ∃ b more, r.rest = b :: more ∧ n = b.toNat := by
  obtain ⟨_, hdata, hlook⟩ := bind_ok_iff.1 hn
  have hlt : r.pos < r.limit := by simpa [hasData] using refuseIf_ok_iff.1 hdata
  exact ⟨_, _, @rest_drop r h 0 hlt, (Except.ok.inj hlook).symm⟩

theorem lookLength_result (h : r.Valid) {n k length : ℕ} (hlimit : r.pos + k + n ≤ r.limit) :
    (r.lookLength (r.pos + k) n length).result =
      .ok (((r.rest.drop k).take n).foldl (fun n b => n * 256 + b.toNat) length) := by
  induction n generalizing k length with
  | zero => simp [lookLength]
  | succ n ih =>
    rw [rest_drop h (by omega), List.take_succ_cons, List.foldl_cons]
    exact @ih (k + 1) _ (by omega)

/-! ### Length fields -/

theorem and_lengthMask {n : ℕ} (h : n < 256) (hlong : ¬ n < 0x80) : n &&& 0x7f = n - 0x80 := by
  rw [show (0x7f : ℕ) = 2 ^ 7 - 1 from rfl, Nat.and_two_pow_sub_one_eq_mod]
  omega

theorem inside_parseLength (h : r.Valid) (hlimit : r.pos + 2 ≤ r.limit) : Inside r.parseLength := by
  have hstart := h.start_le
  refine (inside_look h (by omega) (by omega)).bind fun first _ => ?_
  dsimp only
  split_ifs
  · exact inside_pure _
  · refine inside_refuseIf.bind fun _ _ => inside_refuseIf.bind fun _ _ => inside_refuseIf.bind fun _ hfits => ?_
    have hfits := refuseIf_ok_iff.1 hfits
    exact (inside_lookLength h (by omega) (by omega)).bind fun _ _ => inside_pure _

/-- **A length is read** where the content that is left goes on with a length field. -/
theorem parseLength_ok_iff (h : r.Valid) (hlimit : r.pos + 2 ≤ r.limit) {length p : ℕ} :
    r.parseLength.result = .ok (length, p) ↔
      ∃ field more, LengthField 4 field length ∧ r.rest.drop 1 = field ++ more ∧ p = r.pos + 1 + field.length := by
  obtain ⟨first, hfirst⟩ : ∃ first, first = r.buf.getD (r.pos + 1) 0 := ⟨_, rfl⟩
  have hdrop : r.rest.drop 1 = first :: r.rest.drop 2 := hfirst ▸ rest_drop h (by omega)
  have hbyte : first.toNat < 256 := first.toNat_lt
  have hlength := length_rest h
  unfold parseLength
  rw [bind_ok_iff]
  simp only [look, Except.ok.injEq, exists_eq_left', ← hfirst]
  split_ifs with hshort
  · simp only [pure_result, Except.ok.injEq, Prod.mk.injEq]
    constructor
    · rintro ⟨rfl, rfl⟩
      exact ⟨[first], _, .short hshort, hdrop, rfl⟩
    · rintro ⟨field, more, hfield, heq, rfl⟩
      cases hfield with
      | short hb =>
        obtain ⟨rfl, -⟩ := List.cons.inj (hdrop.symm.trans heq)
        exact ⟨rfl, rfl⟩
      | long hb _ _ =>
        obtain ⟨rfl, -⟩ := List.cons.inj (hdrop.symm.trans heq)
        omega
  · rw [and_lengthMask hbyte hshort]
    simp only [bind_ok_iff, refuseIf_ok_iff, exists_const, pure_result, Except.ok.injEq, Prod.mk.injEq]
    have hread {n : ℕ} (hn : r.pos + 2 + n ≤ r.limit) : (r.lookLength (r.pos + 1 + 1) n 0).result =
        .ok (beNat ((r.rest.drop 2).take n)) := lookLength_result (k := 2) h hn
    constructor
    · rintro ⟨hne, hle, hfits, l, hl, rfl, rfl⟩
      rw [hread (by omega), Except.ok.injEq] at hl
      subst hl
      have htake : ((r.rest.drop 2).take (first.toNat - 0x80)).length = first.toNat - 0x80 := by
        rw [List.length_take, List.length_drop]
        omega
      refine ⟨first :: (r.rest.drop 2).take (first.toNat - 0x80), (r.rest.drop 2).drop (first.toNat - 0x80),
        .long (by omega) (by omega) (by omega), ?_, ?_⟩
      · rw [List.cons_append, List.take_append_drop, hdrop]
      · rw [List.length_cons, htake]
        omega
    · rintro ⟨field, more, hfield, heq, rfl⟩
      cases hfield with
      | short hb =>
        obtain ⟨rfl, -⟩ := List.cons.inj (hdrop.symm.trans heq)
        exact absurd hb hshort
      | @long b digits hb hpos hle =>
        rw [hdrop, List.cons_append] at heq
        obtain ⟨rfl, htail⟩ := List.cons.inj heq
        have hn : first.toNat - 0x80 = digits.length := by omega
        have hdigits : digits.length ≤ r.rest.length - 2 := by
          have := congrArg List.length htail
          rw [List.length_drop, List.length_append] at this
          omega
        rw [hn]
        refine ⟨by omega, by omega, by omega, _, hread (by omega), ?_, by rw [List.length_cons]; omega⟩
        rw [htail, List.take_left]

/-! ### Elements -/

/-- The reader goes on with an element, and comes to another reader behind it. -/
structure Takes (r : DerReader) (tag : UInt8) (field content : Bytes) (tlv : Tlv) : Prop where
  element : ∃ more, Element 4 r.rest tag field content more
  low : tag.toNat &&& 0x1f ≠ 0x1f
  tlv : tlv = { tag := tag.toNat, contentStart := r.pos + 1 + field.length
                contentEnd := r.pos + 1 + field.length + content.length
                stop := r.pos + 1 + field.length + content.length }

theorem inside_parseTlv (h : r.Valid) : Inside r.parseTlv := by
  refine inside_refuseIf.bind fun _ hfits => ?_
  have hfits := refuseIf_ok_iff.1 hfits
  refine (inside_look h h.start_le (by omega)).bind fun tag _ => inside_refuseIf.bind fun _ _ => ?_
  exact (inside_parseLength h (by omega)).bind fun lp _ => inside_refuseIf.bind fun _ _ => inside_pure _

/-- **An element is read** where the content that is left goes on with one. -/
theorem parseTlv_ok_iff (h : r.Valid) :
    r.parseTlv.result = .ok tlv ↔ ∃ tag field content, Takes r tag field content tlv := by
  have hlength := length_rest h
  unfold parseTlv
  simp only [bind_ok_iff, refuseIf_ok_iff, exists_const, look, Except.ok.injEq, exists_eq_left', pure_result]
  constructor
  · rintro ⟨hheader, hlow, ⟨length, p⟩, hp, hfits, rfl⟩
    obtain ⟨field, more, hfield, hdrop, rfl⟩ := (parseLength_ok_iff h (by omega)).1 hp
    have hmore : length ≤ more.length := by
      have := congrArg List.length hdrop
      rw [List.length_drop, List.length_append] at this
      omega
    have htake : (more.take length).length = length := by
      rw [List.length_take]
      omega
    refine ⟨r.buf.getD r.pos 0, field, more.take length, ⟨more.drop length, htake.symm ▸ hfield, ?_⟩, hlow, ?_⟩
    · rw [List.take_append_drop, ← hdrop]
      exact @rest_drop r h 0 (by omega)
    · rw [htake]
  · rintro ⟨tag, field, content, ⟨more, hfield, hbytes⟩, hlow, rfl⟩
    have hne : 0 < field.length := List.length_pos_iff.2 hfield.ne_nil
    have hsize := congrArg List.length hbytes
    simp only [List.length_cons, List.length_append] at hsize
    have hhead : tag = r.buf.getD r.pos 0 := by
      have := hbytes.symm.trans (@rest_drop r h 0 (by omega))
      exact (List.cons.inj this).1
    have hdrop : r.rest.drop 1 = field ++ (content ++ more) := by
      rw [hbytes]
      rfl
    rw [← hhead]
    exact ⟨by omega, hlow, (content.length, r.pos + 1 + field.length),
      (parseLength_ok_iff h (by omega)).2 ⟨field, _, hfield, hdrop, rfl⟩, by omega, rfl⟩

/-! ### The readers -/

def inside (r : DerReader) (tlv : Tlv) : DerReader :=
  { buf := r.buf, start := tlv.contentStart, pos := tlv.contentStart, limit := tlv.contentEnd }

def behind (r : DerReader) (tlv : Tlv) : DerReader := { r with pos := tlv.stop }

def Expects (expected : Option ℕ) (tag : UInt8) : Prop := ∀ e, expected = some e → tag.toNat = e

theorem checkTag_ok_iff {u : Unit} : (checkTag tag.toNat expected).result = .ok u ↔ Expects expected tag := by
  cases expected with
  | none => exact iff_of_true rfl fun e he => absurd he (Option.some_ne_none e).symm
  | some e =>
    refine refuseIf_ok_iff.trans (not_not.trans ⟨fun he e' he' => ?_, fun he => he e rfl⟩)
    cases he'
    exact he

theorem read_ok_iff (h : r.Valid) : (r.read expected).result = .ok (tlv, next) ↔
    next = r.behind tlv ∧ ∃ tag field content, Expects expected tag ∧ Takes r tag field content tlv := by
  unfold read
  simp only [bind_ok_iff, parseTlv_ok_iff h, pure_result, Except.ok.injEq, Prod.mk.injEq]
  constructor
  · rintro ⟨_, ⟨tag, field, content, htakes⟩, _, hexpected, rfl, rfl⟩
    rw [htakes.tlv] at hexpected
    exact ⟨rfl, tag, field, content, checkTag_ok_iff.1 hexpected, htakes⟩
  · rintro ⟨rfl, tag, field, content, hexpected, htakes⟩
    refine ⟨tlv, ⟨tag, field, content, htakes⟩, (), ?_, rfl, rfl⟩
    rw [htakes.tlv]
    exact checkTag_ok_iff.2 hexpected

theorem inside_read (h : r.Valid) : Inside (r.read expected) := by
  refine (inside_parseTlv h).bind fun tlv _ => ?_
  refine Inside.bind ?_ fun _ _ => inside_pure _
  cases expected with
  | none => exact inside_pure ()
  | some e => exact inside_refuseIf

section

variable (h : r.Valid) (htakes : Takes r tag field content tlv)

include h htakes

theorem Takes.stop_le : r.pos + 1 + field.length + content.length ≤ r.limit := by
  obtain ⟨more, hfield, hbytes⟩ := htakes.element
  have hlength := length_rest h
  rw [hbytes] at hlength
  simp only [List.length_cons, List.length_append] at hlength
  omega

theorem Takes.valid_inside : (r.inside tlv).Valid := by
  rw [htakes.tlv]
  exact ⟨le_rfl, (htakes.stop_le h).trans h.limit_le⟩

theorem Takes.valid_behind : (r.behind tlv).Valid := by
  have hstart := h.start_le
  rw [htakes.tlv]
  refine ⟨?_, h.limit_le⟩
  show r.start ≤ r.pos + 1 + field.length + content.length
  omega

theorem Takes.rests : (r.inside tlv).rest = content ∧ Element 4 r.rest tag field content (r.behind tlv).rest := by
  obtain ⟨more, helement⟩ := htakes.element
  have hstop := htakes.stop_le h
  have hbytes := helement.spelling
  have hcontent : r.rest.drop (1 + field.length) = content ++ more := by
    rw [hbytes, Nat.add_comm, List.drop_succ_cons, List.drop_left]
  have hmore : r.rest.drop (1 + field.length + content.length) = more := by
    rw [← List.drop_drop, hcontent, List.drop_left]
  have hfirst : tlv.contentStart = r.pos + (1 + field.length) := by
    rw [htakes.tlv]
    dsimp only
    omega
  have hlast : tlv.contentEnd = r.pos + (1 + field.length) + content.length := by
    rw [htakes.tlv]
    dsimp only
    omega
  have hnext : tlv.stop = r.pos + (1 + field.length + content.length) := by
    rw [htakes.tlv]
    dsimp only
    omega
  constructor
  · have hmin : min (r.pos + (1 + field.length) + content.length) r.limit =
        r.pos + (1 + field.length) + content.length := by omega
    calc (r.inside tlv).rest
        = (r.buf.take (r.pos + (1 + field.length) + content.length)).drop (r.pos + (1 + field.length)) := by
          rw [rest, inside, hfirst, hlast]
      _ = (r.rest.drop (1 + field.length)).take content.length := by
          rw [rest, List.drop_drop, List.take_drop, List.take_take, hmin]
      _ = content := by rw [hcontent, List.take_left]
  · have hbehind : (r.behind tlv).rest = more := by
      rw [← hmore, rest, rest, List.drop_drop, behind, hnext]
    rw [hbehind]
    exact helement

end

end DerReader

/-! ### Nesting -/

def Begins (bytes : Bytes) (tag : ℕ) (content more : Bytes) : Prop :=
  ∃ b field, b.toNat = tag ∧ Element 4 bytes b field content more

namespace DerReader

variable {r next inner : DerReader} {tlv : Tlv} {content : Bytes} {n : ℕ}

theorem read_ok (h : r.Valid) {expected : Option ℕ} (hok : (r.read expected).result = .ok (tlv, next)) :
    (∃ n, (∀ e, expected = some e → n = e) ∧ Begins r.rest n (r.inside tlv).rest next.rest) ∧
      (r.inside tlv).Valid ∧ next.Valid := by
  obtain ⟨rfl, tag, field, content, hexpected, htakes⟩ := (read_ok_iff h).1 hok
  obtain ⟨hinside, hbehind⟩ := htakes.rests h
  refine ⟨⟨tag.toNat, hexpected, tag, field, rfl, ?_⟩, htakes.valid_inside h, htakes.valid_behind h⟩
  rw [hinside]
  exact hbehind

theorem read_expected_ok (h : r.Valid) (hok : (r.read (some n)).result = .ok (tlv, next)) :
    Begins r.rest n (r.inside tlv).rest next.rest ∧ (r.inside tlv).Valid ∧ next.Valid := by
  obtain ⟨⟨_, hn, hbegins⟩, hvalid⟩ := read_ok h hok
  exact ⟨hn n rfl ▸ hbegins, hvalid⟩

theorem readSequence_ok (h : r.Valid) (hok : (r.readSequence n).result = .ok (inner, next)) :
    Begins r.rest n inner.rest next.rest ∧ inner.Valid ∧ next.Valid := by
  obtain ⟨⟨tlv, next'⟩, hread, heq⟩ := bind_ok_iff.1 hok
  cases heq
  exact read_expected_ok h hread

theorem inside_readSequence (h : r.Valid) : Inside (r.readSequence n) := (inside_read h).bind fun _ _ => inside_pure _

theorem skip_ok (h : r.Valid) (hok : r.skip.result = .ok next) :
    (∃ n content, Begins r.rest n content next.rest) ∧ next.Valid := by
  obtain ⟨⟨tlv, next'⟩, hread, heq⟩ := bind_ok_iff.1 hok
  cases heq
  obtain ⟨⟨n, -, hbegins⟩, -, hvalid⟩ := read_ok h hread
  exact ⟨⟨n, _, hbegins⟩, hvalid⟩

theorem inside_skip (h : r.Valid) : Inside r.skip := (inside_read h).bind fun _ _ => inside_pure _

theorem readContent_ok (h : r.Valid) (hok : (r.readContent n).result = .ok (content, next)) :
    Begins r.rest n content next.rest ∧ next.Valid := by
  obtain ⟨⟨tlv, next'⟩, hread, heq⟩ := bind_ok_iff.1 hok
  cases heq
  obtain ⟨hbegins, -, hvalid⟩ := read_expected_ok h hread
  exact ⟨hbegins, hvalid⟩

theorem inside_readContent (h : r.Valid) : Inside (r.readContent n) := (inside_read h).bind fun _ _ => inside_pure _

theorem readText_ok (h : r.Valid) (hok : (r.readText n).result = .ok (content, next)) :
    Begins r.rest n content next.rest ∧ next.Valid := by
  obtain ⟨⟨tlv, next'⟩, hread, hrest⟩ := bind_ok_iff.1 hok
  obtain ⟨_, -, heq⟩ := bind_ok_iff.1 hrest
  cases heq
  obtain ⟨hbegins, -, hvalid⟩ := read_expected_ok h hread
  exact ⟨hbegins, hvalid⟩

theorem inside_readText (h : r.Valid) : Inside (r.readText n) := by
  refine (inside_read h).bind fun a ha => ?_
  obtain ⟨tlv, next⟩ := a
  obtain ⟨-, tag, field, content, -, htakes⟩ := (read_ok_iff h).1 ha
  refine (inside_lookAll h ?_ ?_).bind fun _ _ => inside_pure _
  · have hstart := h.start_le
    rw [htakes.tlv]
    dsimp only
    omega
  · rw [htakes.tlv]
    exact htakes.stop_le h

end DerReader

end NpsSdk.Nip.X509
