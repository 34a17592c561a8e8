import NpsSdk.Nip.Phase3
import NpsSdk.Nip.X509.DerElements

/-!
# Attested lists

`readUtf8SequenceExtension` reads back what `derEncodeUtf8Sequence` writes, unless a string begins with a byte
order mark, which the decoder drops.  It reads other spellings too: longer length fields, and any bytes behind the
sequence.
-/

namespace NpsSdk.Nip

open NpsSdk.Lib

open X509 X509.Reading X509.DerReader

/-! ### Texts -/

theorem utf8Decode_eq_some_iff {bytes : Bytes} {text : List Char} :
    utf8Decode bytes = some text ↔ bytes = encodeText text := by
  have hencode (l : List Char) : l.utf8Encode = ByteArray.mk (encodeText l).toArray :=
    ByteArray.ext List.data_toByteArray
  unfold utf8Decode
  constructor
  · intro h
    obtain ⟨chars, hchars, rfl⟩ := Option.map_eq_some_iff.1 h
    have hisSome : (ByteArray.mk bytes.toArray).utf8Decode?.isSome := by rw [hchars]; rfl
    have hback := ByteArray.utf8Encode_get_utf8Decode? (h := hisSome)
    simp only [hchars, Option.get_some] at hback
    rw [hencode] at hback
    have := congrArg (fun b => b.data.toList) hback
    simpa using this.symm
  · rintro rfl
    rw [← hencode, List.utf8Decode?_utf8Encode]
    simp

/-- The text begins with a byte order mark. -/
def Marked (text : List Char) : Prop := text.head? = some '\ufeff'

instance (text : List Char) : Decidable (Marked text) := inferInstanceAs (Decidable (_ = _))

theorem withoutMark_eq_iff {text : List Char} : TextDecoder.withoutMark false text = text ↔ ¬ Marked text := by
  cases text with
  | nil => simp [TextDecoder.withoutMark, Marked]
  | cons c cs =>
    by_cases hc : c = '\ufeff'
    · simp [TextDecoder.withoutMark, Marked, hc]
    · simp [TextDecoder.withoutMark, Marked, hc]

theorem decodeFatal_eq_some_iff {bytes : Bytes} {s : String} : decodeFatal bytes = some s ↔
    ∃ text, bytes = encodeText text ∧ String.ofList (TextDecoder.withoutMark false text) = s := by
  simp only [decodeFatal, Option.map_eq_some_iff, utf8Decode_eq_some_iff]

/-- A string comes back unless it begins with a byte order mark. -/
theorem decodeFatal_encodeText_iff {s : String} : decodeFatal (encodeText s.toList) = some s ↔ ¬ Marked s.toList := by
  have hvalue : decodeFatal (encodeText s.toList) =
      some (String.ofList (TextDecoder.withoutMark false s.toList)) := by
    rw [decodeFatal, utf8Decode_eq_some_iff.2 rfl]
    rfl
  rw [hvalue, Option.some.injEq, ← withoutMark_eq_iff, ← String.toList_inj, String.toList_ofList]

theorem length_encodeText_le {bytes : Bytes} {s : String} (h : decodeFatal bytes = some s) :
    (encodeText s.toList).length ≤ bytes.length := by
  obtain ⟨text, rfl, rfl⟩ := decodeFatal_eq_some_iff.1 h
  rw [String.toList_ofList]
  cases text with
  | nil => exact le_rfl
  | cons c cs =>
    rw [TextDecoder.withoutMark]
    split_ifs
    · simp [encodeText]
    · exact le_rfl

/-! ### Length fields -/

def writtenField (n : ℕ) : Bytes :=
  if n < 0x80 then [UInt8.ofNat n] else UInt8.ofNat (0x80 ||| (lengthBytes 4 n).length) :: lengthBytes 4 n

theorem derEncode_eq (tag : ℕ) (content : Bytes) :
    derEncode tag content = UInt8.ofNat tag :: (writtenField content.length ++ content) := by
  unfold derEncode writtenField
  split_ifs
  · rfl
  · rfl

theorem length_lengthBytes_le (fuel n : ℕ) : (lengthBytes fuel n).length ≤ fuel := by
  induction fuel generalizing n with
  | zero => exact le_rfl
  | succ fuel ih =>
    unfold lengthBytes
    split_ifs
    · exact Nat.zero_le _
    · rw [List.length_append, List.length_singleton]
      exact Nat.succ_le_succ (ih _)

theorem beNat_lengthBytes {fuel n : ℕ} (h : n < 256 ^ fuel) (hfuel : fuel ≤ 4) : beNat (lengthBytes fuel n) = n := by
  induction fuel generalizing n with
  | zero =>
    have : n = 0 := by omega
    rw [this]
    rfl
  | succ fuel ih =>
    have hpow : (256 : ℕ) ^ (fuel + 1) ≤ 256 ^ 4 := Nat.pow_le_pow_right (by decide) hfuel
    have hsmall : n < 2 ^ 32 := lt_of_lt_of_le h hpow
    have hbyte : (UInt8.ofNat (n % 256)).toNat = n % 256 := UInt8.toNat_ofNat_of_lt' (Nat.mod_lt _ (by decide))
    unfold lengthBytes
    split_ifs with hzero
    · rw [hzero]
      rfl
    · rw [beNat_concat, Nat.mod_eq_of_lt hsmall, ih ?_ (by omega), hbyte]
      · omega
      · rw [Nat.pow_succ] at h
        omega

theorem beNat_lengthBytes_four {n : ℕ} (h : n ≠ 0) : beNat (lengthBytes 4 n) = n % 2 ^ 32 := by
  have hbyte : (UInt8.ofNat (n % 256)).toNat = n % 256 := UInt8.toNat_ofNat_of_lt' (Nat.mod_lt _ (by decide))
  have hrest : n % 2 ^ 32 / 256 < 256 ^ 3 := by omega
  rw [lengthBytes, if_neg h, beNat_concat, beNat_lengthBytes hrest (by decide), hbyte]
  omega

theorem lengthField_written (n : ℕ) : LengthField 4 (writtenField n) (if n < 0x80 then n else n % 2 ^ 32) := by
  unfold writtenField
  split_ifs with h
  · have hbyte : (UInt8.ofNat n).toNat = n := UInt8.toNat_ofNat_of_lt' (show _ < 256 by omega)
    have := @LengthField.short 4 (UInt8.ofNat n) (by omega)
    rwa [hbyte] at this
  · have hlength := length_lengthBytes_le 4 n
    have hpos : 0 < (lengthBytes 4 n).length := by
      rw [lengthBytes, if_neg (by omega), List.length_append]
      simp
    have hor : ∀ k, k ≤ 4 → 0x80 ||| k = 0x80 + k := by decide
    rw [← beNat_lengthBytes_four (by omega), hor _ hlength]
    exact .long (UInt8.toNat_ofNat_of_lt' (show _ < 256 by omega)) hpos hlength

theorem length_lengthBytes_of_lt {fuel k n : ℕ} (h : n < 256 ^ k) (hsmall : n < 2 ^ 32) :
    (lengthBytes fuel n).length ≤ k := by
  induction fuel generalizing k n with
  | zero => exact Nat.zero_le _
  | succ fuel ih =>
    unfold lengthBytes
    split_ifs with hzero
    · exact Nat.zero_le _
    · cases k with
      | zero => omega
      | succ k =>
        rw [Nat.pow_succ] at h
        rw [List.length_append, List.length_singleton, Nat.mod_eq_of_lt hsmall]
        exact Nat.succ_le_succ (ih (by omega) (by omega))

variable {field content more bytes : Bytes} {m n : ℕ}

theorem beNat_lt (digits : Bytes) : beNat digits < 256 ^ digits.length := by
  induction digits using List.reverseRecOn with
  | nil => exact Nat.one_pos
  | append_singleton digits b ih =>
    have hb := b.toNat_lt
    rw [beNat_concat, List.length_append, List.length_singleton, Nat.pow_succ]
    omega

theorem lt_of_lengthField (h : LengthField 4 field n) : n < 2 ^ 32 := by
  cases h with
  | short hb => omega
  | @long b digits _ _ hle =>
    have hpow : (256 : ℕ) ^ digits.length ≤ 256 ^ 4 := Nat.pow_le_pow_right (by decide) hle
    exact lt_of_lt_of_le (beNat_lt digits) hpow

theorem length_writtenField_le (h : LengthField 4 field n) (hmn : m ≤ n) : (writtenField m).length ≤ field.length := by
  have hn := lt_of_lengthField h
  unfold writtenField
  split_ifs with hm
  · exact List.length_pos_iff.2 h.ne_nil
  · cases h with
    | short hb => omega
    | @long b digits _ _ _ =>
      have hlt : m < 256 ^ digits.length := lt_of_le_of_lt hmn (beNat_lt digits)
      exact Nat.succ_le_succ (length_lengthBytes_of_lt hlt (by omega))

theorem lengthField_written_of_lt (h : n < 2 ^ 32) : LengthField 4 (writtenField n) n := by
  have := lengthField_written n
  split_ifs at this
  · exact this
  · rwa [Nat.mod_eq_of_lt h] at this

theorem element_derEncode {tag : ℕ} (h : content.length < 2 ^ 32) (more : Bytes) :
    Element 4 (derEncode tag content ++ more) (UInt8.ofNat tag) (writtenField content.length) content more where
  length := lengthField_written_of_lt h
  spelling := by simp [derEncode_eq]

/-! ### Sequences of strings -/

inductive Strings : Bytes → List (Bytes × Bytes) → List String → Prop
  | nil : Strings [] [] []
  | cons {bytes field content more : Bytes} {items : List (Bytes × Bytes)} {text : String} {texts : List String}
      (element : Element 4 bytes (UInt8.ofNat TAG_UTF8_STRING) field content more)
      (text_eq : decodeFatal content = some text) (rest : Strings more items texts) :
      Strings bytes ((field, content) :: items) (text :: texts)

variable {items items' : List (Bytes × Bytes)} {texts texts' : List String} {r next : DerReader} {text : String}

theorem Strings.unique (h : Strings bytes items texts) (h' : Strings bytes items' texts') :
    items = items' ∧ texts = texts' := by
  induction h generalizing items' texts' with
  | nil =>
    cases h' with
    | nil => exact ⟨rfl, rfl⟩
    | cons helement _ _ => cases helement.spelling
  | cons helement htext _ ih =>
    cases h' with
    | nil => cases helement.spelling
    | cons helement' htext' hrest' =>
      obtain ⟨-, rfl, rfl, rfl⟩ := helement.unique helement'
      obtain ⟨rfl, rfl⟩ := ih hrest'
      cases htext.symm.trans htext'
      exact ⟨rfl, rfl⟩

/-! ### Reading strings -/

theorem read_of_element (h : r.Valid) {tag : UInt8} (hlow : tag.toNat &&& 0x1f ≠ 0x1f)
    (helement : Element 4 r.rest tag field content more) :
    ∃ tlv, (r.read (some tag.toNat)).result = .ok (tlv, r.behind tlv) ∧ Takes r tag field content tlv ∧
      (r.behind tlv).rest = more := by
  have htakes : Takes r tag field content _ := ⟨⟨more, helement⟩, hlow, rfl⟩
  have hexpects : Expects (some tag.toNat) tag := fun e he => Option.some.inj he
  refine ⟨_, (read_ok_iff h).2 ⟨rfl, tag, field, content, hexpects, htakes⟩, htakes, ?_⟩
  exact ((htakes.rests h).2.unique helement).2.2.2

theorem readSequence_of_element (h : r.Valid)
    (helement : Element 4 r.rest (UInt8.ofNat TAG_SEQUENCE) field content more) :
    ∃ inner next, (r.readSequence TAG_SEQUENCE).result = .ok (inner, next) ∧ inner.rest = content ∧ inner.Valid := by
  obtain ⟨tlv, hread, htakes, -⟩ := read_of_element h (by decide) helement
  exact ⟨r.inside tlv, r.behind tlv, bind_ok_iff.2 ⟨_, hread, rfl⟩, (htakes.rests h).1, htakes.valid_inside h⟩

theorem readUtf8String_of_element (h : r.Valid)
    (helement : Element 4 r.rest (UInt8.ofNat TAG_UTF8_STRING) field content more)
    (htext : decodeFatal content = some text) :
    ∃ next, r.readUtf8String.result = .ok (text, next) ∧ next.rest = more ∧ next.Valid := by
  obtain ⟨tlv, hread, htakes, hmore⟩ := read_of_element h (by decide) helement
  have hcontent : subarray r.buf tlv.contentStart tlv.contentEnd = content := (htakes.rests h).1
  have hreadText : (r.readText TAG_UTF8_STRING).result = .ok (content, r.behind tlv) :=
    bind_ok_iff.2 ⟨_, hread, bind_ok_iff.2 ⟨(), rfl, by rw [hcontent]; rfl⟩⟩
  refine ⟨r.behind tlv, bind_ok_iff.2 ⟨_, hreadText, ?_⟩, hmore, htakes.valid_behind h⟩
  simp only [htext]
  rfl

theorem readUtf8String_ok (h : r.Valid) (hok : r.readUtf8String.result = .ok (text, next)) :
    (∃ field content, Element 4 r.rest (UInt8.ofNat TAG_UTF8_STRING) field content next.rest ∧
      decodeFatal content = some text) ∧ next.Valid := by
  obtain ⟨⟨content, next'⟩, hcontent, hok⟩ := bind_ok_iff.1 hok
  obtain ⟨⟨tag, field, htag, helement⟩, hvalid⟩ := readText_ok h hcontent
  obtain rfl : tag = UInt8.ofNat TAG_UTF8_STRING := UInt8.toNat_inj.1 htag
  cases htext : decodeFatal content with
  | none =>
    simp only [htext] at hok
    cases hok
  | some t =>
    simp only [htext] at hok
    cases hok
    exact ⟨⟨field, content, helement, htext⟩, hvalid⟩

/-- **The strings that are left are read**, where there is a turn for each byte at least. -/
theorem readStrings_ok_iff {fuel : ℕ} (h : r.Valid) (hfuel : r.rest.length ≤ fuel) :
    (readStrings fuel r).result = .ok texts ↔ ∃ items, Strings r.rest items texts := by
  induction fuel generalizing r texts with
  | zero =>
    have hrest : r.rest = [] := List.length_eq_zero_iff.1 (Nat.le_zero.1 hfuel)
    rw [hrest]
    simp only [readStrings, pure_result, Except.ok.injEq]
    constructor
    · rintro rfl
      exact ⟨[], .nil⟩
    · rintro ⟨items, hs⟩
      exact ((Strings.nil.unique hs).2)
  | succ fuel ih =>
    unfold readStrings
    have hdata := hasData_iff h
    split_ifs with hmore
    · rw [bind_ok_iff]
      constructor
      · rintro ⟨⟨text, next⟩, hread, hok⟩
        obtain ⟨⟨field, content, helement, htext⟩, hvalid⟩ := readUtf8String_ok h hread
        have hlength := congrArg List.length helement.spelling
        simp only [List.length_cons, List.length_append] at hlength
        obtain ⟨texts', hrest, heq⟩ := bind_ok_iff.1 hok
        cases heq
        obtain ⟨items, hs⟩ := (ih hvalid (by omega)).1 hrest
        exact ⟨_, .cons helement htext hs⟩
      · rintro ⟨items, hs⟩
        cases hs' : r.rest with
        | nil => exact absurd hs' (hdata.1 hmore)
        | cons b bs =>
          obtain ⟨bytes, hbytes⟩ : ∃ bytes, bytes = r.rest := ⟨_, rfl⟩
          rw [← hbytes] at hs
          cases hs with
          | nil => cases hbytes.trans hs'
          | cons helement htext hs =>
            rw [hbytes] at helement
            obtain ⟨next, hread, rfl, hvalid⟩ := readUtf8String_of_element h helement htext
            have hlength := congrArg List.length helement.spelling
            simp only [List.length_cons, List.length_append] at hlength
            exact ⟨_, hread, bind_ok_iff.2 ⟨_, (ih hvalid (by omega)).2 ⟨_, hs⟩, rfl⟩⟩
    · have hrest : r.rest = [] := by
        by_contra hc
        exact hmore (hdata.2 hc)
      rw [hrest, pure_result, Except.ok.injEq]
      constructor
      · rintro rfl
        exact ⟨[], .nil⟩
      · rintro ⟨items, hs⟩
        exact (Strings.nil.unique hs).2

/-- **What is read of an extension**: the strings of the sequence that its value begins with. -/
theorem readUtf8Sequence_ok_iff {value : Bytes} : (readUtf8Sequence value).result = .ok texts ↔
    ∃ field content more items, Element 4 value (UInt8.ofNat TAG_SEQUENCE) field content more ∧
      Strings content items texts := by
  have h0 := valid_new value
  unfold readUtf8Sequence
  rw [bind_ok_iff]
  constructor
  · rintro ⟨⟨seq, next⟩, hseq, hok⟩
    obtain ⟨⟨tag, field, htag, helement⟩, hvalid, -⟩ := readSequence_ok h0 hseq
    obtain rfl : tag = UInt8.ofNat TAG_SEQUENCE := UInt8.toNat_inj.1 htag
    rw [rest_new] at helement
    have hlength := congrArg List.length helement.spelling
    simp only [List.length_cons, List.length_append] at hlength
    obtain ⟨items, hs⟩ := (readStrings_ok_iff hvalid (by omega)).1 hok
    exact ⟨field, _, _, items, helement, hs⟩
  · rintro ⟨field, content, more, items, helement, hs⟩
    have hlength := congrArg List.length helement.spelling
    simp only [List.length_cons, List.length_append] at hlength
    rw [← rest_new value] at helement
    obtain ⟨inner, next, hseq, rfl, hvalid⟩ := readSequence_of_element h0 helement
    exact ⟨_, hseq, (readStrings_ok_iff hvalid (by omega)).2 ⟨items, hs⟩⟩

/-! ### What is written -/

/-- The content of the sequence that is written. -/
def written (texts : List String) : Bytes :=
  texts.flatMap fun v => derEncode TAG_UTF8_STRING (encodeText v.toList)

/-- The elements of the sequence that is written. -/
def writtenItems (texts : List String) : List (Bytes × Bytes) :=
  texts.map fun v => (writtenField (encodeText v.toList).length, encodeText v.toList)

theorem Strings.length_written_le (h : Strings bytes items texts) : (written texts).length ≤ bytes.length := by
  induction h with
  | nil => exact le_rfl
  | cons helement htext _ ih =>
    have hlength := congrArg List.length helement.spelling
    have hcontent := length_encodeText_le htext
    have hfield := length_writtenField_le helement.length hcontent
    simp only [written, List.flatMap_cons, derEncode_eq, List.length_append, List.length_cons] at ih hlength ⊢
    omega

theorem strings_written (hmark : ∀ v ∈ texts, ¬ Marked v.toList) (hlength : (written texts).length < 2 ^ 32) :
    Strings (written texts) (writtenItems texts) texts := by
  induction texts with
  | nil => exact .nil
  | cons v texts ih =>
    simp only [written, List.flatMap_cons, derEncode_eq, List.length_append, List.length_cons] at hlength
    refine .cons (element_derEncode (by omega) _) ?_ (ih (fun w hw => hmark w (List.mem_cons_of_mem _ hw)) ?_)
    · exact decodeFatal_encodeText_iff.2 (hmark v List.mem_cons_self)
    · simp only [written, derEncode_eq]
      omega

theorem Strings.of_written (h : Strings (written texts) items texts) (hlength : (written texts).length < 2 ^ 32) :
    (∀ v ∈ texts, ¬ Marked v.toList) ∧ items = writtenItems texts := by
  induction texts generalizing items with
  | nil =>
    obtain ⟨rfl, -⟩ := h.unique .nil
    exact ⟨fun v hv => absurd hv List.not_mem_nil, rfl⟩
  | cons v texts ih =>
    simp only [written, List.flatMap_cons, derEncode_eq, List.length_append, List.length_cons] at hlength
    obtain ⟨bytes, hbytes⟩ : ∃ bytes, bytes = written (v :: texts) := ⟨_, rfl⟩
    rw [← hbytes] at h
    cases h with
    | cons helement htext hrest =>
      rw [hbytes] at helement
      obtain ⟨-, rfl, rfl, rfl⟩ := helement.unique (element_derEncode (by omega) _)
      obtain ⟨hmark, rfl⟩ := ih hrest (by simp only [written, derEncode_eq]; omega)
      refine ⟨fun w hw => ?_, rfl⟩
      rcases List.mem_cons.1 hw with rfl | hw
      · exact decodeFatal_encodeText_iff.1 htext
      · exact hmark w hw

/-! ### Exactness -/

def ComesBack (texts : List String) : Prop :=
  ∀ (cert : List RawExtension) (oid : String) (ext : RawExtension),
    cert.find? (fun e => e.type == oid) = some ext → ext.value = derEncodeUtf8Sequence texts →
    readUtf8SequenceExtension cert oid = some texts

def ReadExactly (value : Bytes) : Prop :=
  ∀ (cert : List RawExtension) (oid : String) (ext : RawExtension) (texts : List String),
    cert.find? (fun e => e.type == oid) = some ext → ext.value = value →
    readUtf8SequenceExtension cert oid = some texts → texts ≠ [] → value = derEncodeUtf8Sequence texts

/-- Nothing stands behind the sequence, every length is spelled as it is written, and no string begins with a
mark, in a value that strings are read of. -/
def Spelled (value : Bytes) : Prop :=
  ∀ field content more items texts, Element 4 value (UInt8.ofNat TAG_SEQUENCE) field content more →
    Strings content items texts → texts ≠ [] →
    more = [] ∧ field = writtenField content.length ∧
      ∀ i ∈ items, i.1 = writtenField i.2.length ∧ ∃ text, i.2 = encodeText text ∧ ¬ Marked text

theorem readUtf8SequenceExtension_of_find {cert : List RawExtension} {oid : String} {ext : RawExtension}
    (hfind : cert.find? (fun e => e.type == oid) = some ext) : readUtf8SequenceExtension cert oid = some texts ↔
      (readUtf8Sequence ext.value).result = .ok texts ∨
        texts = [] ∧ ∃ e, (readUtf8Sequence ext.value).result = .error e := by
  unfold readUtf8SequenceExtension
  rw [hfind]
  cases h : (readUtf8Sequence ext.value).result with
  | ok values => simp [h]
  | error e => simp [h, eq_comm]

theorem find_only (value : Bytes) :
    [RawExtension.mk "" value].find? (fun e => e.type == "") = some (RawExtension.mk "" value) := rfl

theorem element_derEncodeUtf8Sequence (h : (written texts).length < 2 ^ 32) :
    Element 4 (derEncodeUtf8Sequence texts) (UInt8.ofNat TAG_SEQUENCE) (writtenField (written texts).length)
      (written texts) [] := by
  have helement := @element_derEncode _ TAG_SEQUENCE h []
  rwa [List.append_nil] at helement

theorem length_written_lt (h : (readUtf8Sequence bytes).result = .ok texts) : (written texts).length < 2 ^ 32 := by
  obtain ⟨field, content, more, items, helement, hs⟩ := readUtf8Sequence_ok_iff.1 h
  exact lt_of_le_of_lt hs.length_written_le (lt_of_lengthField helement.length)

theorem comesBack_iff (texts : List String) :
    ComesBack texts ↔ (∀ v ∈ texts, ¬ Marked v.toList) ∧ (written texts).length < 2 ^ 32 := by
  constructor
  · intro h
    have hfind := find_only (derEncodeUtf8Sequence texts)
    rcases (readUtf8SequenceExtension_of_find hfind).1 (h _ _ _ hfind rfl) with hok | ⟨rfl, -⟩
    · have hlt := length_written_lt hok
      obtain ⟨field, content, more, items, helement, hs⟩ := readUtf8Sequence_ok_iff.1 hok
      obtain ⟨-, -, rfl, -⟩ := helement.unique (element_derEncodeUtf8Sequence hlt)
      exact ⟨(hs.of_written hlt).1, hlt⟩
    · exact ⟨fun v hv => absurd hv List.not_mem_nil, by decide⟩
  · rintro ⟨hmark, hlt⟩ cert oid ext hfind hvalue
    rw [readUtf8SequenceExtension_of_find hfind, hvalue, readUtf8Sequence_ok_iff]
    exact .inl ⟨_, _, _, _, element_derEncodeUtf8Sequence hlt, strings_written hmark hlt⟩

theorem Strings.eq_written (h : Strings bytes items texts)
    (hspelled : ∀ i ∈ items, i.1 = writtenField i.2.length ∧ ∃ text, i.2 = encodeText text ∧ ¬ Marked text) :
    bytes = written texts := by
  induction h with
  | nil => rfl
  | cons helement htext _ ih =>
    obtain ⟨hfield, text, hcontent, hmark⟩ := hspelled _ List.mem_cons_self
    dsimp only at hfield hcontent
    subst hcontent hfield
    have hrest := ih fun i hi => hspelled i (List.mem_cons_of_mem _ hi)
    have hsame : decodeFatal (encodeText text) = some (String.ofList text) := by
      have := @decodeFatal_encodeText_iff (String.ofList text)
      rw [String.toList_ofList] at this
      exact this.2 hmark
    obtain rfl := Option.some.inj (htext.symm.trans hsame)
    rw [helement.spelling, hrest, written, written, List.flatMap_cons, derEncode_eq, String.toList_ofList]
    simp

theorem readExactly_iff (value : Bytes) : ReadExactly value ↔ Spelled value := by
  constructor
  · intro h field content more items texts helement hs hne
    have hok := readUtf8Sequence_ok_iff.2 ⟨field, content, more, items, helement, hs⟩
    have hlt := length_written_lt hok
    have hfind := find_only value
    have hvalue := h _ _ _ texts hfind rfl ((readUtf8SequenceExtension_of_find hfind).2 (.inl hok)) hne
    rw [hvalue] at helement
    obtain ⟨-, rfl, rfl, rfl⟩ := helement.unique (element_derEncodeUtf8Sequence hlt)
    obtain ⟨hmark, rfl⟩ := hs.of_written hlt
    refine ⟨rfl, rfl, fun i hi => ?_⟩
    obtain ⟨v, hv, rfl⟩ := List.mem_map.1 hi
    exact ⟨rfl, v.toList, rfl, hmark v hv⟩
  · rintro h cert oid ext texts hfind rfl hread hne
    rcases (readUtf8SequenceExtension_of_find hfind).1 hread with hok | ⟨hnil, -⟩
    · obtain ⟨field, content, more, items, helement, hs⟩ := readUtf8Sequence_ok_iff.1 hok
      obtain ⟨rfl, rfl, hspelled⟩ := h field content more items texts helement hs hne
      obtain rfl := hs.eq_written hspelled
      exact helement.spelling.trans (by simp [derEncodeUtf8Sequence, derEncode_eq, written])
    · exact absurd hnil hne

/-- **Attested lists are exact** just where no string begins with a mark and the value is spelled as it would be
written. -/
theorem attested_iff (texts : List String) (value : Bytes) : (ComesBack texts ↔
      (∀ v ∈ texts, ¬ Marked v.toList) ∧ (written texts).length < 2 ^ 32) ∧
    (ReadExactly value ↔ Spelled value) :=
  ⟨comesBack_iff texts, readExactly_iff value⟩

/-- A string that begins with a mark does not come back, and a byte behind a sequence is passed over. -/
theorem marked_and_trailing_not_exact : ¬ ComesBack ["\ufeffadmin"] ∧ ¬ ReadExactly [0x30, 3, 0x0c, 1, 0x61, 0xff] := by
  constructor
  · intro h
    have hread := h _ _ _ (find_only _) rfl
    exact absurd hread (by decide)
  · intro h
    have hread : readUtf8SequenceExtension [⟨"", [0x30, 3, 0x0c, 1, 0x61, 0xff]⟩] "" = some ["a"] := by decide
    exact absurd (h _ _ _ ["a"] (find_only _) rfl hread (by decide)) (by decide)

end NpsSdk.Nip
