import NpsSdk.Core.BinaryVector

/-!
# Payloads with a vector come back

A payload comes back exactly if it names no member `__proto__`, holds an array of numbers or nothing where its vector
is searched, and has lengths that fit their fields.
-/

namespace NpsSdk.Core.BinaryVector

open NpsSdk.Lib

def vectorOf (payload : JsValue) : Option JsValue :=
  match payload with
  | .obj members => match JsMap.find "vector_search" members with
    | some (.obj vectorSearch) => JsMap.find "vector" vectorSearch
    | _ => none
  | _ => none

def Exact (view : DataView) (payload : JsValue) : Prop :=
  ∀ items n, vectorOf payload = some (.arr items) → .num (.finite n) ∈ items →
    view.getFloat32 (view.setFloat32 n) = .finite n

/-- **The payloads that come back**: no object has a member `__proto__`, what there is at the vector is an array of
numbers, and the lengths of the vector and of the metadata fit their fields. -/
structure Carried (msgpack : MsgPack) (payload : JsValue) : Prop where
  protoFree : payload.ProtoFree
  vector {v : JsValue} (h : vectorOf payload = some v) :
    ∃ vector : List JsNumber, v = .arr (vector.map fun n => .num (.finite n)) ∧ vector.length < 256 ^ 4
  size {metadataBytes : Bytes} (h : msgpack.encode (own (extractVectorSearchVector payload []).1) = .ok metadataBytes) :
    metadataBytes.length < 256 ^ 4

/-! ### Objects without prototypes -/

theorem cloneMembers_cons {k : String} (hk : k ≠ "__proto__") (v : JsValue) (ms : List (String × JsValue)) :
    cloneMembers ((k, v) :: ms) = (k, cloneMetadata v) :: cloneMembers ms := by
  cases v <;> simp [cloneMembers, hk]

mutual
/-- A value without a member `__proto__` is copied as it is. -/
theorem cloneMetadata_of_protoFree : ∀ v : JsValue, v.ProtoFree → cloneMetadata v = v
  | .null, _ => rfl
  | .bool _, _ => rfl
  | .num _, _ => rfl
  | .str _, _ => rfl
  | .arr items, h => by rw [cloneMetadata, cloneItems_of_protoFree items h]
  | .obj members, h => by rw [cloneMetadata, cloneMembers_of_protoFree members h]
theorem cloneItems_of_protoFree : ∀ items, JsValue.ProtoFreeItems items → cloneItems items = items
  | [], _ => rfl
  | v :: vs, h => by rw [cloneItems, cloneMetadata_of_protoFree v h.1, cloneItems_of_protoFree vs h.2]
theorem cloneMembers_of_protoFree : ∀ members, JsValue.ProtoFreeMembers members → cloneMembers members = members
  | [], _ => rfl
  | (k, v) :: ms, h => by
    rw [cloneMembers_cons h.1, cloneMetadata_of_protoFree v h.2.1, cloneMembers_of_protoFree ms h.2.2]
end

mutual
theorem own_of_protoFree : ∀ v : JsValue, v.ProtoFree → own v = v
  | .null, _ => rfl
  | .bool _, _ => rfl
  | .num _, _ => rfl
  | .str _, _ => rfl
  | .arr items, h => by rw [own, ownItems_of_protoFree items h]
  | .obj members, h => by rw [own, ownMembers_of_protoFree members h]
theorem ownItems_of_protoFree : ∀ items, JsValue.ProtoFreeItems items → ownItems items = items
  | [], _ => rfl
  | v :: vs, h => by rw [ownItems, own_of_protoFree v h.1, ownItems_of_protoFree vs h.2]
theorem ownMembers_of_protoFree : ∀ members, JsValue.ProtoFreeMembers members → ownMembers members = members
  | [], _ => rfl
  | (k, v) :: ms, h => by
    rw [ownMembers, if_neg h.1, own_of_protoFree v h.2.1, ownMembers_of_protoFree ms h.2.2]
end

variable {key : String} {value : JsValue} {members : List (String × JsValue)}

theorem inherited_of_protoFree (h : JsValue.ProtoFreeMembers members) : inherited key members = none := by
  induction members with
  | nil => rfl
  | cons m ms ih =>
    obtain ⟨k, v⟩ := m
    rw [inherited, if_neg h.1, ih h.2.2]

theorem property_of_protoFree (h : JsValue.ProtoFreeMembers members) :
    property key (.obj members) = JsMap.find key members := by
  rw [property, inherited_of_protoFree h, Option.or_none]

theorem withProperty_of_find (h : JsMap.find key members = some value) (v : JsValue) :
    withProperty key v (.obj members) = .obj (JsMap.upsert key v members) := by
  rw [withProperty, if_pos (by rw [h]; rfl)]

theorem protoFree_upsert (h : JsValue.ProtoFreeMembers members) (hkey : key ≠ "__proto__") (hvalue : value.ProtoFree) :
    JsValue.ProtoFreeMembers (JsMap.upsert key value members) := by
  rw [JsValue.protoFreeMembers_iff] at *
  intro m hm
  rcases JsMap.mem_upsert hm with rfl | hm
  · exact ⟨hkey, hvalue⟩
  · exact h m hm

/-! ### Objects as the host has them -/

theorem eq_of_perm_of_keys {a b : List (String × JsValue)} (h : a.Perm b) (hkeys : a.map Prod.fst = b.map Prod.fst)
    (hn : (b.map Prod.fst).Nodup) : a = b := by
  induction a generalizing b with
  | nil => exact h.nil_eq
  | cons m a ih =>
    cases b with
    | nil => cases hkeys
    | cons m' b =>
      simp only [List.map_cons, List.cons.injEq] at hkeys
      obtain ⟨hne, hn'⟩ := List.nodup_cons.1 hn
      have hm : m ∈ m' :: b := h.mem_iff.1 List.mem_cons_self
      rcases List.mem_cons.1 hm with rfl | hmem
      · rw [ih (List.perm_cons _ |>.1 h) hkeys.2 hn']
      · exact absurd (hkeys.1 ▸ List.mem_map_of_mem hmem) hne

theorem fromEntries_of_keys {a b : List (String × JsValue)} (hkeys : b.map Prod.fst = a.map Prod.fst)
    (hn : (a.map Prod.fst).Nodup) (h : fromEntries a = a) : fromEntries b = b := by
  have hnames (l : List (String × JsValue)) :
      (l.map fun m => (m.1, ())) = (l.map Prod.fst).map fun k => (k, ()) := by
    rw [List.map_map]
    rfl
  have hunit : (fromEntries b).map (fun m => (m.1, ())) = b.map fun m => (m.1, ()) := by
    rw [← fromEntries_map (fun _ : JsValue => ()) b, hnames b, hkeys, ← hnames a,
      fromEntries_map (fun _ : JsValue => ()) a, h]
  refine eq_of_perm_of_keys (fromEntries_perm b) ?_ (hkeys ▸ hn)
  have hfst := congrArg (List.map Prod.fst) hunit
  rw [List.map_map, List.map_map] at hfst
  exact hfst

theorem plain_find (h : (JsValue.obj members).Plain) (hfind : JsMap.find key members = some value) : value.Plain :=
  JsValue.plainMembers_iff.1 h.2 _ (JsMap.mem_of_find hfind)

theorem protoFree_find (h : JsValue.ProtoFreeMembers members) (hfind : JsMap.find key members = some value) :
    value.ProtoFree :=
  (JsValue.protoFreeMembers_iff.1 h _ (JsMap.mem_of_find hfind)).2

theorem plain_upsert (h : (JsValue.obj members).Plain) (hfind : JsMap.find key members = some value) {v : JsValue}
    (hv : v.Plain) : (JsValue.obj (JsMap.upsert key v members)).Plain := by
  have hkeys := JsMap.keys_upsert_of_find hfind v
  refine ⟨⟨by rw [hkeys]; exact h.1.1, fromEntries_of_keys hkeys h.1.1 h.1.2⟩, JsValue.plainMembers_iff.2 fun m hm => ?_⟩
  rcases JsMap.mem_upsert hm with rfl | hm
  · exact hv
  · exact JsValue.plainMembers_iff.1 h.2 m hm

/-! ### Whole numbers -/

theorem value_ofNat (n : ℕ) : (JsNumber.ofNat n).value = .fin n := by
  have hdigits : (Nat.toDigits 10 n).all Char.isDigit = true := by
    rw [List.all_eq_true]
    exact fun c hc => Nat.isDigit_of_mem_toDigits (by decide) (by decide) hc
  have hvalue : digitsValue (Nat.toDigits 10 n) = n := Nat.ofDigitChars_ten_toDigits
  rw [JsNumber.value, JsNumber.ofNat, readDecimal_digits Nat.toDigits_ne_nil hdigits, hvalue]

theorem wholeNumber_of_find {n : ℕ} (h : JsMap.find key members = some (number n)) :
    wholeNumber key members = some (.ofNat n, (n : ℤ)) := by
  unfold wholeNumber
  rw [h, number]
  dsimp only
  rw [value_ofNat]
  simp

theorem plain_marker (index dim : ℕ) : (marker index dim).Plain := by
  -- the names of a marker are no array indices
  have hnames : ([(MARKER_KEY, .null), ("dtype", .null), ("dim", .null)].map
      (Prod.fst : String × JsValue → String)).Nodup := by decide
  exact ⟨⟨hnames, @fromEntries_of_keys [(MARKER_KEY, .null), ("dtype", .null), ("dim", .null)] _ rfl hnames
    (by decide)⟩, rfl, trivial, rfl, trivial⟩

theorem protoFree_marker (index dim : ℕ) : (marker index dim).ProtoFree := by
  simp [marker, number, JsValue.ProtoFree, JsValue.ProtoFreeMembers, MARKER_KEY]

/-! ### Vectors -/

variable {msgpack : MsgPack} {view : DataView} {bytes metadataBytes rest : Bytes} {vector : List JsNumber}
  {vectors : List (List JsNumber)}

theorem length_flatMap_setFloat32 (view : DataView) (vector : List JsNumber) :
    (vector.flatMap view.setFloat32).length = 4 * vector.length := by
  induction vector with
  | nil => rfl
  | cons n ns ih =>
    rw [List.flatMap_cons, List.length_append, view.length_setFloat32, ih, List.length_cons]
    omega

theorem readFloats_flatMap (view : DataView) (vector : List JsNumber) (rest : Bytes) :
    readFloats view vector.length (vector.flatMap view.setFloat32 ++ rest) =
      vector.map fun n => view.getFloat32 (view.setFloat32 n) := by
  induction vector with
  | nil => rfl
  | cons n ns ih =>
    have hlen := view.length_setFloat32 n
    rw [List.length_cons, readFloats, List.flatMap_cons, List.append_assoc, List.take_left' hlen,
      List.drop_left' hlen, ih, List.map_cons]

theorem readVectors_segment (hlen : vector.length < 256 ^ 4) : readVectors view 1 (segment view vector) =
    .ok ([vector.map fun n => view.getFloat32 (view.setFloat32 n)], []) := by
  have hdim : getUint 4 0 (segment view vector) = vector.length := getUint_append [] _ rfl hlen
  have hdrop : (segment view vector).drop 4 = vector.flatMap view.setFloat32 :=
    List.drop_left' (length_beBytes 4 _)
  have hsize := length_flatMap_setFloat32 view vector
  have hread := readFloats_flatMap view vector []
  rw [List.append_nil] at hread
  simp only [readVectors, hdim, hdrop]
  rw [if_neg (by simp [segment]), if_neg (by omega), hread, List.drop_of_length_le (by omega)]

theorem readVectors_segment_long (view : DataView) (hlen : 256 ^ 4 ≤ vector.length) : ∃ read rest,
    readVectors view 1 (segment view vector) = .ok (read, rest) ∧ rest ≠ [] := by
  have hdim : getUint 4 0 (segment view vector) = vector.length % 256 ^ 4 := by
    unfold getUint segment
    rw [List.drop_zero, List.take_left' (length_beBytes 4 _), beNat_beBytes]
  have hdrop : (segment view vector).drop 4 = vector.flatMap view.setFloat32 :=
    List.drop_left' (length_beBytes 4 _)
  have hsize := length_flatMap_setFloat32 view vector
  have hlt : vector.length % 256 ^ 4 < 256 ^ 4 := Nat.mod_lt _ (by norm_num)
  simp only [readVectors, hdim, hdrop]
  rw [if_neg (by simp [segment]), if_neg (by omega)]
  refine ⟨_, _, rfl, fun hnil => ?_⟩
  have hempty := congrArg List.length hnil
  rw [List.length_drop, List.length_nil] at hempty
  omega

/-! ### The prefix of a payload -/

theorem length_frameOf (view : DataView) (metadataBytes : Bytes) (vectors : List (List JsNumber)) :
    (frameOf view metadataBytes vectors).length =
      16 + (metadataBytes.length + (vectors.flatMap (segment view)).length) := by
  simp [frameOf, MAGIC]
  omega

theorem drop_frameOf : (frameOf view metadataBytes vectors).drop 16 =
    metadataBytes ++ vectors.flatMap (segment view) := by
  have heq : frameOf view metadataBytes vectors = (MAGIC ++ VERSION :: 0 :: (beBytes 2 vectors.length ++
      (beBytes 4 metadataBytes.length ++ beBytes 4 0))) ++ (metadataBytes ++ vectors.flatMap (segment view)) := by
    simp [frameOf]
  rw [heq]
  exact List.drop_left' (by simp [MAGIC])

/-- What is read of a payload that was written: the metadata as far as its length field says. -/
theorem decode_frameOf (hvectors : vectors.length < 256 ^ 2) :
    decodeBinaryVectorPayload msgpack view (frameOf view metadataBytes vectors) =
      decodeBody msgpack view (metadataBytes.take (metadataBytes.length % 256 ^ 4)) vectors.length
        ((metadataBytes ++ vectors.flatMap (segment view)).drop (metadataBytes.length % 256 ^ 4)) := by
  have hle : metadataBytes.length % 256 ^ 4 ≤ metadataBytes.length := Nat.mod_le _ _
  have hcount : getUint 2 6 (frameOf view metadataBytes vectors) = vectors.length :=
    getUint_append (MAGIC ++ [VERSION, 0]) _ rfl hvectors
  have hsize : getUint 4 8 (frameOf view metadataBytes vectors) = metadataBytes.length % 256 ^ 4 := by
    have heq : frameOf view metadataBytes vectors = (MAGIC ++ VERSION :: 0 :: beBytes 2 vectors.length) ++
        (beBytes 4 metadataBytes.length ++ (beBytes 4 0 ++ (metadataBytes ++ vectors.flatMap (segment view)))) := by
      simp [frameOf]
    unfold getUint
    rw [heq, List.drop_left' (by simp [MAGIC]), List.take_left' (length_beBytes 4 _), beNat_beBytes]
  have hreserved : getUint 4 12 (frameOf view metadataBytes vectors) = 0 := by
    have heq : frameOf view metadataBytes vectors = (MAGIC ++ VERSION :: 0 :: (beBytes 2 vectors.length ++
        beBytes 4 metadataBytes.length)) ++ (beBytes 4 0 ++ (metadataBytes ++ vectors.flatMap (segment view))) := by
      simp [frameOf]
    rw [heq]
    exact getUint_append _ _ (by simp [MAGIC]) (by norm_num)
  have htake : ((frameOf view metadataBytes vectors).drop PREFIX_SIZE).take (metadataBytes.length % 256 ^ 4) =
      metadataBytes.take (metadataBytes.length % 256 ^ 4) := by
    rw [PREFIX_SIZE, drop_frameOf, List.take_append_of_le_length hle]
  have hdrop : (frameOf view metadataBytes vectors).drop (PREFIX_SIZE + metadataBytes.length % 256 ^ 4) =
      (metadataBytes ++ vectors.flatMap (segment view)).drop (metadataBytes.length % 256 ^ 4) := by
    rw [← drop_frameOf, List.drop_drop]
    rfl
  have hlen := length_frameOf view metadataBytes vectors
  unfold decodeBinaryVectorPayload
  rw [if_neg (by rw [hlen, PREFIX_SIZE]; omega), if_neg (by simp [frameOf, MAGIC]),
    if_neg (by simp [frameOf, MAGIC]), if_neg (by rw [hreserved]; simp [frameOf, MAGIC])]
  simp only [hcount, hsize]
  have hfits : ¬ (frameOf view metadataBytes vectors).length - PREFIX_SIZE <
      metadataBytes.length % 256 ^ 4 := by
    rw [hlen, PREFIX_SIZE]
    omega
  rw [if_neg hfits, htake, hdrop] <;> rfl

/-! ### What is written -/

variable {vectorSearch : List (String × JsValue)}

theorem vectorOf_of_search (h : JsMap.find "vector_search" members = some (.obj vectorSearch)) :
    vectorOf (.obj members) = JsMap.find "vector" vectorSearch := by
  unfold vectorOf
  dsimp only
  rw [h]

theorem vectorOf_of_none (h : ∀ vectorSearch, JsMap.find "vector_search" members ≠ some (.obj vectorSearch)) :
    vectorOf (.obj members) = none := by
  unfold vectorOf
  dsimp only
  split
  · rename_i vectorSearch hsearch
    exact absurd hsearch (h vectorSearch)
  · rfl

theorem finiteNumbers_eq_some {items : List JsValue} :
    finiteNumbers items = some vector ↔ items = vector.map fun n => .num (.finite n) := by
  induction items generalizing vector with
  | nil =>
    cases vector <;> simp [finiteNumbers]
  | cons v vs ih =>
    match v with
    | .num (.finite n) =>
      simp only [finiteNumbers, Option.map_eq_some_iff, ih]
      constructor
      · rintro ⟨ns, rfl, rfl⟩
        rfl
      · intro h
        cases vector with
        | nil => cases h
        | cons n' ns =>
          cases h
          exact ⟨ns, rfl, rfl⟩
    | .num .nan | .num .infinity | .num .negInfinity | .null | .bool _ | .str _ | .arr _ | .obj _ =>
      cases vector <;> simp [finiteNumbers]

theorem extract_cases (hfree : JsValue.ProtoFreeMembers members) :
    (∃ vectorSearch vector, JsMap.find "vector_search" members = some (.obj vectorSearch) ∧
      JsMap.find "vector" vectorSearch = some (.arr (vector.map fun n => .num (.finite n))) ∧
      extractVectorSearchVector (.obj members) [] = (.obj (JsMap.upsert "vector_search"
        (.obj (JsMap.upsert "vector" (marker 0 vector.length) vectorSearch)) members), [vector])) ∨
    (∀ vector : List JsNumber, vectorOf (.obj members) ≠ some (.arr (vector.map fun n => .num (.finite n)))) ∧
      extractVectorSearchVector (.obj members) [] = (.obj members, []) := by
  unfold extractVectorSearchVector
  rw [property_of_protoFree hfree]
  split
  · rename_i vectorSearch hsearch
    rw [property_of_protoFree (protoFree_find hfree hsearch)]
    split
    · rename_i items hitems
      split
      · rename_i vector hvector
        refine .inl ⟨vectorSearch, vector, hsearch, ?_, ?_⟩
        · rw [hitems, finiteNumbers_eq_some.1 hvector]
        · rw [withProperty_of_find hsearch]
          rfl
      · rename_i hnone
        refine .inr ⟨fun vector heq => ?_, rfl⟩
        rw [vectorOf_of_search hsearch, hitems] at heq
        cases heq
        rw [finiteNumbers_eq_some.2 rfl] at hnone
        cases hnone
    · rename_i hnot
      exact .inr ⟨fun vector heq => hnot _ (vectorOf_of_search hsearch ▸ heq), rfl⟩
  · rename_i hnot
    refine .inr ⟨fun vector heq => ?_, rfl⟩
    rw [vectorOf_of_none hnot] at heq
    cases heq

theorem encode_ok {payload : JsValue} (hfree : payload.ProtoFree)
    (h : encodeBinaryVectorPayload msgpack view payload = .ok bytes) :
    ∃ members metadataBytes, payload = .obj members ∧
      msgpack.encode (own (extractVectorSearchVector payload []).1) = .ok metadataBytes ∧
      bytes = frameOf view metadataBytes (extractVectorSearchVector payload []).2 := by
  unfold encodeBinaryVectorPayload at h
  rw [cloneMetadata_of_protoFree payload hfree] at h
  split at h
  · rename_i members
    dsimp only at h
    split at h
    · cases h
    · split at h
      · rename_i metadataBytes hencode
        cases h
        exact ⟨members, metadataBytes, rfl, hencode, rfl⟩
      · cases h
  · cases h

/-! ### What is read -/

theorem restore_ok {vectors : List (List JsNum)} {v : JsValue}
    (h : restoreVectorSearchVector members vectors = .ok v) :
    (v = .obj members ∧ vectorOf (.obj members) = none) ∨ ∃ vectorSearch vector,
      JsMap.find "vector_search" members = some (.obj vectorSearch) ∧ vector ∈ vectors ∧
      v = .obj (JsMap.upsert "vector_search"
        (.obj (JsMap.upsert "vector" (.arr (vector.map .num)) vectorSearch)) members) := by
  unfold restoreVectorSearchVector at h
  split at h
  · rename_i vectorSearch hsearch
    split at h
    · rename_i hnone
      cases h
      exact .inl ⟨rfl, by rw [vectorOf_of_search hsearch, hnone]⟩
    · split at h
      · cases h
      · split at h
        · cases h
        · split at h
          · cases h
          · rename_i vector hvector
            split at h
            · cases h
            · split at h
              · cases h
              · cases h
                exact .inr ⟨vectorSearch, vector, hsearch, List.mem_of_getElem? hvector, rfl⟩
    · cases h
  · rename_i hnot
    cases h
    exact .inl ⟨rfl, vectorOf_of_none hnot⟩

theorem protoFree_numbers (vector : List JsNum) : (JsValue.arr (vector.map .num)).ProtoFree := by
  refine JsValue.protoFreeItems_iff.2 fun v hv => ?_
  obtain ⟨n, -, rfl⟩ := List.mem_map.1 hv
  trivial

/-- **Nothing that is read has a member `__proto__`.** -/
theorem protoFree_of_decode {v : JsValue} (hm : msgpack.Lawful)
    (h : decodeBinaryVectorPayload msgpack view bytes = .ok v) : v.ProtoFree := by
  unfold decodeBinaryVectorPayload at h
  split_ifs at h
  dsimp only at h
  split_ifs at h
  split at h
  · cases h
  · rename_i metadata hdecode
    have hfree : JsValue.ProtoFreeMembers metadata := hm.protoFree hdecode
    split at h
    · cases h
    · split_ifs at h
      rcases restore_ok h with ⟨rfl, -⟩ | ⟨vectorSearch, vector, hsearch, -, rfl⟩
      · exact hfree
      · refine protoFree_upsert hfree (by decide) ?_
        exact protoFree_upsert (protoFree_find hfree hsearch) (by decide) (protoFree_numbers vector)
  · cases h

/-! ### The round trip -/

theorem lt_of_decode {written v : JsValue} (hm : msgpack.Lawful) (hencode : msgpack.encode written = .ok metadataBytes)
    (hvectors : vectors.length < 256 ^ 2)
    (h : decodeBinaryVectorPayload msgpack view (frameOf view metadataBytes vectors) = .ok v) :
    metadataBytes.length < 256 ^ 4 := by
  by_contra hge
  have hlt : metadataBytes.length % 256 ^ 4 < 256 ^ 4 := Nat.mod_lt _ (by norm_num)
  rw [decode_frameOf hvectors, decodeBody] at h
  cases hpart : msgpack.decode (metadataBytes.take (metadataBytes.length % 256 ^ 4)) with
  | error err =>
    rw [hpart] at h
    cases h
  | ok part =>
    refine hm.whole hencode (List.take_append_drop (metadataBytes.length % 256 ^ 4) metadataBytes).symm ?_ hpart
    intro hnil
    have hempty := congrArg List.length hnil
    rw [List.length_drop, List.length_nil] at hempty
    omega

theorem decode_frameOf_of_lt (hsize : metadataBytes.length < 256 ^ 4) (hvectors : vectors.length < 256 ^ 2) :
    decodeBinaryVectorPayload msgpack view (frameOf view metadataBytes vectors) =
      decodeBody msgpack view metadataBytes vectors.length (vectors.flatMap (segment view)) := by
  rw [decode_frameOf hvectors, Nat.mod_eq_of_lt hsize, List.take_length, List.drop_left]

theorem restore_marker {vector : List JsNum} (hsearch : JsMap.find "vector_search" members = some (.obj vectorSearch))
    (hvector : JsMap.find "vector" vectorSearch = some (.arr (vector.map .num))) :
    restoreVectorSearchVector (JsMap.upsert "vector_search"
      (.obj (JsMap.upsert "vector" (marker 0 vector.length) vectorSearch)) members) [vector] = .ok (.obj members) := by
  have hindex (dim : ℕ) : wholeNumber MARKER_KEY
      [(MARKER_KEY, number 0), ("dtype", .str "float32"), ("dim", number dim)] = some (.ofNat 0, ((0 : ℕ) : ℤ)) :=
    wholeNumber_of_find rfl
  have hdim (dim : ℕ) : wholeNumber "dim"
      [(MARKER_KEY, number 0), ("dtype", .str "float32"), ("dim", number dim)] = some (.ofNat dim, (dim : ℤ)) :=
    wholeNumber_of_find rfl
  unfold restoreVectorSearchVector
  rw [JsMap.find_upsert, if_pos rfl]
  dsimp only
  rw [JsMap.find_upsert, if_pos rfl, marker]
  dsimp only
  rw [hindex]
  dsimp only
  rw [if_neg (by omega)]
  simp only [Int.toNat_natCast, List.getElem?_cons_zero]
  rw [if_neg (by simp [JsMap.find, MARKER_KEY]), hdim, if_neg (by simp), JsMap.upsert_upsert,
    JsMap.upsert_upsert, JsMap.upsert_of_find hvector, JsMap.upsert_of_find hsearch]

theorem comes_back_of_vector (hm : msgpack.Lawful)
    (hplain : (JsValue.obj members).Plain) (hfree : JsValue.ProtoFreeMembers members)
    (hsearch : JsMap.find "vector_search" members = some (.obj vectorSearch))
    (hvector : JsMap.find "vector" vectorSearch = some (.arr (vector.map fun n => .num (.finite n))))
    (hexact : ∀ n ∈ vector, view.getFloat32 (view.setFloat32 n) = .finite n)
    (hencode : msgpack.encode (own (.obj (JsMap.upsert "vector_search"
      (.obj (JsMap.upsert "vector" (marker 0 vector.length) vectorSearch)) members))) = .ok metadataBytes) :
    decodeBinaryVectorPayload msgpack view (frameOf view metadataBytes [vector]) = .ok (.obj members) ↔
      vector.length < 256 ^ 4 ∧ metadataBytes.length < 256 ^ 4 := by
  have hsearchFree : JsValue.ProtoFreeMembers vectorSearch := protoFree_find hfree hsearch
  have hmarkedFree : JsValue.ProtoFreeMembers (JsMap.upsert "vector_search"
      (.obj (JsMap.upsert "vector" (marker 0 vector.length) vectorSearch)) members) :=
    protoFree_upsert hfree (by decide) (protoFree_upsert hsearchFree (by decide) (protoFree_marker _ _))
  have hmarkedPlain : (JsValue.obj (JsMap.upsert "vector_search"
      (.obj (JsMap.upsert "vector" (marker 0 vector.length) vectorSearch)) members)).Plain :=
    plain_upsert hplain hsearch (plain_upsert (plain_find hplain hsearch) hvector (plain_marker _ _))
  rw [own_of_protoFree (.obj _) hmarkedFree] at hencode
  have hread := hm.decode_encode hmarkedPlain hmarkedFree hencode
  have hflat : [vector].flatMap (segment view) = segment view vector := List.flatMap_singleton _ _
  constructor
  · intro hdecode
    have hsize := lt_of_decode hm hencode (by simp) hdecode
    refine ⟨?_, hsize⟩
    by_contra hlong
    obtain ⟨read, rest, hsegment, hrest⟩ := readVectors_segment_long view (not_lt.1 hlong)
    rw [decode_frameOf_of_lt hsize (by simp), decodeBody, hread, hflat, List.length_singleton, hsegment] at hdecode
    simp only [hrest, ne_eq, not_false_eq_true, if_true] at hdecode
    cases hdecode
  · rintro ⟨hlen, hsize⟩
    have hnumbers : (vector.map fun n => view.getFloat32 (view.setFloat32 n)) = vector.map .finite :=
      List.map_congr_left hexact
    have hvector' : JsMap.find "vector" vectorSearch = some (.arr ((vector.map .finite).map .num)) := by
      rw [hvector, List.map_map]
      rfl
    have hrestore := restore_marker hsearch hvector'
    rw [List.length_map] at hrestore
    rw [decode_frameOf_of_lt hsize (by simp), decodeBody, hread, hflat, List.length_singleton, readVectors_segment hlen, hnumbers]
    exact hrestore

theorem comes_back_of_none (hm : msgpack.Lawful) (hplain : (JsValue.obj members).Plain)
    (hfree : JsValue.ProtoFreeMembers members) (hencode : msgpack.encode (own (.obj members)) = .ok metadataBytes) :
    decodeBinaryVectorPayload msgpack view (frameOf view metadataBytes []) = .ok (.obj members) ↔
      vectorOf (.obj members) = none ∧ metadataBytes.length < 256 ^ 4 := by
  have hown : own (.obj members) = .obj members := own_of_protoFree (.obj members) hfree
  rw [hown] at hencode
  have hread := hm.decode_encode hplain hfree hencode
  constructor
  · intro hdecode
    have hsize := lt_of_decode hm hencode (by simp) hdecode
    refine ⟨?_, hsize⟩
    rw [decode_frameOf_of_lt hsize (by simp), decodeBody, hread] at hdecode
    rcases restore_ok hdecode with ⟨-, hnone⟩ | ⟨_, vector, -, hmem, -⟩
    · exact hnone
    · cases hmem
  · rintro ⟨hnone, hsize⟩
    rw [decode_frameOf_of_lt hsize (by simp), decodeBody, hread]
    show restoreVectorSearchVector members [] = .ok (.obj members)
    unfold restoreVectorSearchVector
    split
    · rename_i vectorSearch hsearch
      rw [vectorOf_of_search hsearch] at hnone
      rw [hnone]
    · rfl

/-- **A payload comes back** exactly if it is one that does. -/
theorem decode_encode_iff (msgpack : MsgPack) (hm : msgpack.Lawful) (view : DataView) (payload : JsValue)
    (hplain : payload.Plain) (hexact : Exact view payload) (bytes : Bytes)
    (h : encodeBinaryVectorPayload msgpack view payload = .ok bytes) :
    decodeBinaryVectorPayload msgpack view bytes = .ok payload ↔ Carried msgpack payload := by
  by_cases hfree : payload.ProtoFree
  swap
  · exact ⟨fun hdecode => absurd (protoFree_of_decode hm hdecode) hfree,
      fun hcarried => absurd hcarried.protoFree hfree⟩
  obtain ⟨members, metadataBytes, rfl, hencode, rfl⟩ := encode_ok hfree h
  have hsize (hlt : metadataBytes.length < 256 ^ 4) {other : Bytes}
      (hother : msgpack.encode (own (extractVectorSearchVector (.obj members) []).1) = .ok other) :
      other.length < 256 ^ 4 := by
    rw [hencode] at hother
    cases hother
    exact hlt
  rcases extract_cases hfree with ⟨vectorSearch, vector, hsearch, hvector, heq⟩ | ⟨hnone, heq⟩
  · have hitems : vectorOf (.obj members) = some (.arr (vector.map fun n => .num (.finite n))) := by
      rw [vectorOf_of_search hsearch, hvector]
    have hexact' : ∀ n ∈ vector, view.getFloat32 (view.setFloat32 n) = .finite n := fun n hn =>
      hexact _ n hitems (List.mem_map_of_mem hn)
    rw [heq] at hencode ⊢
    rw [comes_back_of_vector hm hplain hfree hsearch hvector hexact' hencode]
    constructor
    · rintro ⟨hlen, hlt⟩
      refine ⟨hfree, fun hv => ?_, fun hother => hsize hlt hother⟩
      rw [hitems] at hv
      exact ⟨vector, (Option.some.inj hv).symm, hlen⟩
    · intro hcarried
      refine ⟨?_, hcarried.size (by rw [heq]; exact hencode)⟩
      obtain ⟨vector', heq', hlen⟩ := hcarried.vector hitems
      have hlength := congrArg List.length (JsValue.arr.inj heq')
      rw [List.length_map, List.length_map] at hlength
      omega
  · rw [heq] at hencode ⊢
    rw [comes_back_of_none hm hplain hfree hencode]
    constructor
    · rintro ⟨hempty, hlt⟩
      refine ⟨hfree, fun hv => ?_, fun hother => hsize hlt hother⟩
      rw [hempty] at hv
      cases hv
    · intro hcarried
      refine ⟨?_, hcarried.size (by rw [heq]; exact hencode)⟩
      cases hv : vectorOf (.obj members) with
      | none => rfl
      | some v =>
        obtain ⟨vector, rfl, -⟩ := hcarried.vector hv
        exact absurd hv (hnone vector)

/-! ### Two payloads -/

def asciiBytes (s : String) : Bytes := s.toList.map fun c => UInt8.ofNat c.toNat

/-- The floats of one and of zero. -/
def sampleView : DataView where
  setFloat32 n := if n = .ofNat 1 then [0, 0, 0x80, 0x3f] else [0, 0, 0, 0]
  getFloat32 bytes := .finite (.ofNat (if bytes = [0, 0, 0x80, 0x3f] then 1 else 0))
  length_setFloat32 n := by split <;> rfl

/-- A payload with something at its vector. -/
def searchFor (v : JsValue) : JsValue := .obj [("vector_search", .obj [("vector", v)])]

/-- Such a payload in MessagePack. -/
def searchBytes (v : Bytes) : Bytes := 0x81 :: 0xad :: (asciiBytes "vector_search" ++ 0x81 :: 0xa6 ::
  (asciiBytes "vector" ++ v))

/-- The marker of a vector of one number, in MessagePack. -/
def markerBytes : Bytes := 0x83 :: 0xb2 :: (asciiBytes MARKER_KEY ++ 0x00 :: 0xa5 :: (asciiBytes "dtype" ++
  0xa7 :: (asciiBytes "float32" ++ 0xa3 :: (asciiBytes "dim" ++ [0x01]))))

/-- A payload that is accepted with `null` for its vector is not read. -/
theorem null_vector_lost : (searchFor .null).Plain ∧ Exact sampleView (searchFor .null) ∧
    encodeBinaryVectorPayload (.only (searchFor .null) (searchBytes [0xc0])) sampleView (searchFor .null) =
      .ok (frameOf sampleView (searchBytes [0xc0]) []) ∧
    decodeBinaryVectorPayload (.only (searchFor .null) (searchBytes [0xc0])) sampleView
        (frameOf sampleView (searchBytes [0xc0]) []) =
      .error (newError "Tier-3 BinaryVector marker must be an object.") := by
  refine ⟨⟨⟨by decide, by decide⟩, ⟨⟨by decide, by decide⟩, trivial, trivial⟩, trivial⟩, ?_, ?_⟩
  · intro items n hitems
    cases hitems
  · decide

/-- A payload with a vector of one number. -/
theorem one_vector_carried :
    decodeBinaryVectorPayload (.only (searchFor (marker 0 1)) (searchBytes markerBytes)) sampleView
        (frameOf sampleView (searchBytes markerBytes) [[.ofNat 1]]) = .ok (searchFor (.arr [number 1])) ↔
      Carried (.only (searchFor (marker 0 1)) (searchBytes markerBytes)) (searchFor (.arr [number 1])) := by
  refine decode_encode_iff _ (MsgPack.lawful_only ?_ _) sampleView _ ?_ ?_ _ (by decide)
  · simp [searchFor, marker, number, MARKER_KEY, JsValue.ProtoFree, JsValue.ProtoFreeMembers]
  · refine ⟨⟨by decide, by decide⟩, ⟨⟨by decide, by decide⟩, ?_, trivial⟩, trivial⟩
    exact ⟨rfl, trivial⟩
  · intro items n hitems hn
    obtain rfl : [number 1] = items := JsValue.arr.inj (Option.some.inj hitems)
    obtain rfl : n = .ofNat 1 := by simpa [number] using hn
    decide

end NpsSdk.Core.BinaryVector
