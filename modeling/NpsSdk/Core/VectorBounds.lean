import NpsSdk.Core.BinaryVector

/-!
# Reads inside the buffer

`decodeBinaryVectorPayload` with its offset and its loops, where a read of a `DataView` beyond the buffer is an error
of its own.  No read is beyond the buffer, and the vectors are made of bytes that are there.
-/

namespace NpsSdk.Core.BinaryVector

open NpsSdk.Lib

/-- What is thrown: an error of this codec, one of the metadata decoder, or the `RangeError` of a view. -/
inductive Fault where
  | format (message : String)
  | metadata (message : String)
  | outOfBounds

def Fault.text : Fault → String
  | format message => message
  | metadata message => message
  | outOfBounds => "RangeError: Offset is outside the bounds of the DataView"

/-- The variables of the loop over the segments. -/
structure Segments where
  offset : ℕ
  vectors : List (List JsNum) := []

section

variable (msgpack : MsgPack) (view : DataView) (bytes : Bytes)

def readUint (k offset : ℕ) : Except Fault ℕ :=
  if offset + k ≤ bytes.length then .ok (getUint k offset bytes) else .error .outOfBounds

def readFloat32 (offset : ℕ) : Except Fault JsNum :=
  if offset + 4 ≤ bytes.length then .ok (view.getFloat32 ((bytes.drop offset).take 4)) else .error .outOfBounds

/-- The loop over the numbers of one vector. -/
def fill : ℕ → ℕ → List JsNum → Except Fault (List JsNum × ℕ)
  | 0, offset, vector => .ok (vector, offset)
  | dim + 1, offset, vector =>
    match readFloat32 view bytes offset with
    | .error fault => .error fault
    | .ok value => fill dim (offset + 4) (vector ++ [value])

/-- The loop over the segments; an error leaves the variables as they are. -/
def readSegments : ℕ → Segments → Except (Fault × Segments) Segments
  | 0, s => .ok s
  | count + 1, s =>
    if bytes.length - s.offset < 4 then
      .error (.format (newError "Tier-3 BinaryVector vector segment missing dimension."), s)
    else match readUint bytes 4 s.offset with
      | .error fault => .error (fault, s)
      | .ok dim =>
        let offset := s.offset + 4
        if bytes.length - offset < dim * 4 then
          .error (.format (newError "Tier-3 BinaryVector vector segment is truncated."), { s with offset })
        else match fill view bytes dim offset [] with
          | .error fault => .error (fault, { s with offset })
          | .ok (vector, offset) => readSegments count { offset, vectors := s.vectors ++ [vector] }

/-- The fixed part at the start of a payload: the number of vectors and the length of the metadata. -/
def readPrefix : Except Fault (ℕ × ℕ) := do
  if bytes.length < PREFIX_SIZE then
    .error (.format (newError ("Tier-3 BinaryVector payload too short: " ++ toString bytes.length ++ " bytes.")))
  else if bytes.take 4 ≠ MAGIC then .error (.format (newError "Tier-3 BinaryVector payload magic mismatch."))
  else if bytes.getD 4 0 ≠ VERSION then
    .error (.format (newError ("Unsupported Tier-3 BinaryVector version: " ++ toString (bytes.getD 4 0) ++ ".")))
  else
    let reserved ← if bytes.getD 5 0 ≠ 0 then .ok 1 else readUint bytes 4 12
    if reserved ≠ 0 then .error (.format (newError "Tier-3 BinaryVector reserved fields must be zero."))
    else
      let vectorCount ← readUint bytes 2 6
      let metadataLength ← readUint bytes 4 8
      if bytes.length - PREFIX_SIZE < metadataLength then
        .error (.format (newError "Tier-3 BinaryVector metadata length exceeds payload length."))
      else .ok (vectorCount, metadataLength)

/-- The decoder, with the variables as the loop over the segments has left them. -/
def decodeSteps : Except Fault JsValue × Segments :=
  match readPrefix bytes with
  | .error fault => (.error fault, { offset := PREFIX_SIZE })
  | .ok (vectorCount, metadataLength) =>
    let s : Segments := { offset := PREFIX_SIZE + metadataLength }
    match msgpack.decode ((bytes.drop PREFIX_SIZE).take metadataLength) with
    | .error message => (.error (.metadata message), s)
    | .ok (.obj metadata) =>
      match readSegments view bytes vectorCount s with
      | .error (fault, s) => (.error fault, s)
      | .ok s =>
        if s.offset ≠ bytes.length then
          (.error (.format (newError "Tier-3 BinaryVector payload has trailing bytes.")), s)
        else ((restoreVectorSearchVector metadata s.vectors).mapError .format, s)
    | .ok _ => (.error (.format (newError "Tier-3 BinaryVector metadata root must be a map.")), s)

/-- The bytes of the segments of some vectors. -/
def segmentBytes (vectors : List (List JsNum)) : ℕ := (vectors.map fun v => 4 + v.length * 4).sum

/-- The decoder is within its buffer. -/
structure InBounds : Prop where
  decodes : (decodeSteps msgpack view bytes).1.mapError Fault.text = decodeBinaryVectorPayload msgpack view bytes
  /-- Its errors are its own and those of the metadata decoder. -/
  reads : (decodeSteps msgpack view bytes).1 ≠ .error .outOfBounds
  metadata : ∀ message, (decodeSteps msgpack view bytes).1 = .error (.metadata message) →
    msgpack.decode ((bytes.drop PREFIX_SIZE).take (getUint 4 8 bytes)) = .error message
  /-- Every number that is read is made of bytes of its own. -/
  allocates : (decodeSteps msgpack view bytes).2.vectors ≠ [] →
    PREFIX_SIZE + segmentBytes (decodeSteps msgpack view bytes).2.vectors ≤ bytes.length
  covers : ∀ v, (decodeSteps msgpack view bytes).1 = .ok v →
    PREFIX_SIZE + getUint 4 8 bytes + segmentBytes (decodeSteps msgpack view bytes).2.vectors = bytes.length

end

/-! ### The loops -/

section

variable {msgpack : MsgPack} {view : DataView} {bytes : Bytes}

theorem fill_eq (dim offset : ℕ) (vector : List JsNum) (h : offset + dim * 4 ≤ bytes.length) :
    fill view bytes dim offset vector = .ok (vector ++ readFloats view dim (bytes.drop offset), offset + dim * 4) := by
  induction dim generalizing offset vector with
  | zero => simp [fill, readFloats]
  | succ dim ih =>
    have hread : readFloat32 view bytes offset = .ok (view.getFloat32 ((bytes.drop offset).take 4)) :=
      if_pos (by omega)
    have hoffset : offset + 4 + dim * 4 = offset + (dim + 1) * 4 := by omega
    rw [fill, hread]
    dsimp only
    rw [ih _ _ (by omega), readFloats, List.drop_drop, hoffset, List.append_assoc]
    rfl

theorem length_readFloats (dim : ℕ) (bytes : Bytes) : (readFloats view dim bytes).length = dim := by
  induction dim generalizing bytes with
  | zero => rfl
  | succ dim ih => rw [readFloats, List.length_cons, ih]

/-- What the loop makes of the segments from its offset on, and where it is when it ends. -/
structure Reads (view : DataView) (bytes : Bytes) (count : ℕ) (s s' : Segments) (fault : Option Fault) : Prop where
  result : match fault with
    | none => ∃ vectors, readVectors view count (bytes.drop s.offset) = .ok (vectors, bytes.drop s'.offset) ∧
        s'.vectors = s.vectors ++ vectors
    | some fault => ∃ message, fault = .format message ∧ readVectors view count (bytes.drop s.offset) = .error message
  inside : s'.offset ≤ bytes.length
  covered : s.offset + segmentBytes s'.vectors ≤ s'.offset + segmentBytes s.vectors
  whole : fault = none → s.offset + segmentBytes s'.vectors = s'.offset + segmentBytes s.vectors

theorem segmentBytes_concat (vectors : List (List JsNum)) (v : List JsNum) :
    segmentBytes (vectors ++ [v]) = segmentBytes vectors + (4 + v.length * 4) := by
  simp [segmentBytes]

/-- **The loop** reads inside the buffer, from any offset inside it. -/
theorem readSegments_reads (count : ℕ) (s : Segments) (hs : s.offset ≤ bytes.length) :
    (∃ s', readSegments view bytes count s = .ok s' ∧ Reads view bytes count s s' none) ∨
      ∃ fault s', readSegments view bytes count s = .error (fault, s') ∧ Reads view bytes count s s' (some fault) := by
  induction count generalizing s with
  | zero =>
    have hvectors : s.vectors = s.vectors ++ [] := (List.append_nil _).symm
    exact .inl ⟨s, rfl, ⟨[], rfl, hvectors⟩, hs, le_refl _, fun _ => rfl⟩
  | succ count ih =>
    have hlength : (bytes.drop s.offset).length = bytes.length - s.offset := List.length_drop
    rw [readSegments]
    by_cases hdim : bytes.length - s.offset < 4
    · rw [if_pos hdim]
      refine .inr ⟨_, _, rfl, ⟨_, rfl, ?_⟩, hs, le_refl _, fun h => by cases h⟩
      rw [readVectors, if_pos (by omega)]
    · have hread : readUint bytes 4 s.offset = .ok (getUint 4 s.offset bytes) := if_pos (by omega)
      have hget : getUint 4 0 (bytes.drop s.offset) = getUint 4 s.offset bytes := rfl
      have hdrop : (bytes.drop s.offset).drop 4 = bytes.drop (s.offset + 4) := List.drop_drop
      rw [if_neg hdim, hread]
      dsimp only
      generalize hn : getUint 4 s.offset bytes = dim
      have hrest : (bytes.drop (s.offset + 4)).length = bytes.length - (s.offset + 4) := List.length_drop
      by_cases hshort : bytes.length - (s.offset + 4) < dim * 4
      · rw [if_pos hshort]
        refine .inr ⟨_, _, rfl, ⟨_, rfl, ?_⟩, ?_, ?_, fun h => by cases h⟩
        · rw [readVectors, if_neg (by omega), hget, hn, hdrop, if_pos (by omega)]
        · show s.offset + 4 ≤ bytes.length
          omega
        · show s.offset + segmentBytes s.vectors ≤ s.offset + 4 + segmentBytes s.vectors
          omega
      · rw [if_neg hshort, fill_eq _ _ _ (by omega)]
        dsimp only
        have hcount := segmentBytes_concat s.vectors (readFloats view dim (bytes.drop (s.offset + 4)))
        rw [length_readFloats] at hcount
        rcases ih { offset := s.offset + 4 + dim * 4,
                    vectors := s.vectors ++ [readFloats view dim (bytes.drop (s.offset + 4))] } (by dsimp only; omega)
          with ⟨s', hok, h⟩ | ⟨fault, s', herror, h⟩
        · obtain ⟨⟨vectors, hvectors, happend⟩, hinside, hcovered, hwhole⟩ := h
          have hwhole := hwhole rfl
          dsimp only at hvectors happend hcovered hwhole
          refine .inl ⟨s', hok, ⟨readFloats view dim (bytes.drop (s.offset + 4)) :: vectors, ?_, ?_⟩, hinside, by omega,
            fun _ => by omega⟩
          · rw [readVectors, if_neg (by omega), hget, hn, hdrop, if_neg (by omega), List.drop_drop, hvectors]
          · rw [happend, List.append_assoc]
            rfl
        · obtain ⟨⟨message, hformat, hvectors⟩, hinside, hcovered, -⟩ := h
          dsimp only at hvectors hcovered
          refine .inr ⟨fault, s', herror, ⟨message, hformat, ?_⟩, hinside, by omega, fun h => by cases h⟩
          rw [readVectors, if_neg (by omega), hget, hn, hdrop, if_neg (by omega), List.drop_drop, hvectors]

/-! ### The whole payload -/

theorem readPrefix_cases : (∃ message, readPrefix bytes = .error (.format message) ∧
      decodeBinaryVectorPayload msgpack view bytes = .error message) ∨
    readPrefix bytes = .ok (getUint 2 6 bytes, getUint 4 8 bytes) ∧ PREFIX_SIZE + getUint 4 8 bytes ≤ bytes.length ∧
      decodeBinaryVectorPayload msgpack view bytes =
        decodeBody msgpack view ((bytes.drop PREFIX_SIZE).take (getUint 4 8 bytes)) (getUint 2 6 bytes)
          (bytes.drop (PREFIX_SIZE + getUint 4 8 bytes)) := by
  unfold readPrefix decodeBinaryVectorPayload
  by_cases hsize : bytes.length < PREFIX_SIZE
  · rw [if_pos hsize, if_pos hsize]
    exact .inl ⟨_, rfl, rfl⟩
  have hread : ∀ k offset, offset + k ≤ PREFIX_SIZE → readUint bytes k offset = .ok (getUint k offset bytes) :=
    fun k offset h => if_pos (by omega)
  rw [if_neg hsize, if_neg hsize, hread 4 12 (le_refl _), hread 2 6 (by decide), hread 4 8 (by decide)]
  by_cases hmagic : bytes.take 4 ≠ MAGIC
  · rw [if_pos hmagic, if_pos hmagic]
    exact .inl ⟨_, rfl, rfl⟩
  by_cases hversion : bytes.getD 4 0 ≠ VERSION
  · rw [if_neg hmagic, if_neg hmagic, if_pos hversion, if_pos hversion]
    exact .inl ⟨_, rfl, rfl⟩
  rw [if_neg hmagic, if_neg hmagic, if_neg hversion, if_neg hversion]
  by_cases hreserved : bytes.getD 5 0 ≠ 0 ∨ getUint 4 12 bytes ≠ 0
  · rw [if_pos hreserved]
    refine .inl ⟨_, ?_, rfl⟩
    by_cases hflags : bytes.getD 5 0 ≠ 0
    · rw [if_pos hflags]
      rfl
    · rw [if_neg hflags]
      exact if_pos (hreserved.resolve_left hflags)
  · rw [if_neg hreserved]
    rw [not_or] at hreserved
    rw [if_neg hreserved.1]
    dsimp only [bind, Except.bind]
    rw [if_neg hreserved.2]
    by_cases hmetadata : bytes.length - PREFIX_SIZE < getUint 4 8 bytes
    · rw [if_pos hmetadata, if_pos hmetadata]
      exact .inl ⟨_, rfl, rfl⟩
    · rw [if_neg hmetadata, if_neg hmetadata]
      exact .inr ⟨rfl, by omega, rfl⟩

theorem inBounds_of_format {message : String} {s : Segments}
    (hsteps : decodeSteps msgpack view bytes = (.error (.format message), s))
    (hdecode : decodeBinaryVectorPayload msgpack view bytes = .error message)
    (hvectors : s.vectors ≠ [] → PREFIX_SIZE + segmentBytes s.vectors ≤ bytes.length) : InBounds msgpack view bytes := by
  constructor <;> rw [hsteps]
  · exact hdecode.symm
  · nofun
  · nofun
  · exact hvectors
  · nofun

end

/-- **Within the buffer**: whatever the bytes are, no read is beyond them, and a payload that is decoded is made of
all of them. -/
theorem decode_inBounds (msgpack : MsgPack) (view : DataView) (bytes : Bytes) : InBounds msgpack view bytes := by
  rcases @readPrefix_cases msgpack view bytes with ⟨message, hpre, hdecode⟩ | ⟨hpre, hlength, hdecode⟩
  · have hsteps : decodeSteps msgpack view bytes = (.error (.format message), { offset := PREFIX_SIZE }) := by
      rw [decodeSteps, hpre]
    exact inBounds_of_format hsteps hdecode fun h => absurd rfl h
  · generalize hs : ({ offset := PREFIX_SIZE + getUint 4 8 bytes } : Segments) = s
    have hempty : PREFIX_SIZE + getUint 4 8 bytes = s.offset ∧ s.vectors = [] := by
      rw [← hs]
      exact ⟨rfl, rfl⟩
    obtain ⟨hoffset, hvectors⟩ := hempty
    have hbytes : segmentBytes s.vectors = 0 := by rw [hvectors]; rfl
    have hdecodeSteps := decodeSteps.eq_def msgpack view bytes
    rw [hpre] at hdecodeSteps
    dsimp only at hdecodeSteps
    rw [hs] at hdecodeSteps
    rw [hoffset] at hlength hdecode
    rw [decodeBody] at hdecode
    cases hmetadata : msgpack.decode ((bytes.drop PREFIX_SIZE).take (getUint 4 8 bytes)) with
    | error message =>
      rw [hmetadata] at hdecode hdecodeSteps
      constructor <;> rw [hdecodeSteps]
      · exact hdecode.symm
      · simp
      · intro message' h
        cases h
        exact hmetadata
      · exact fun h => absurd hvectors h
      · nofun
    | ok value =>
      rw [hmetadata] at hdecode hdecodeSteps
      cases value with
      | obj metadata =>
        dsimp only at hdecode hdecodeSteps
        rcases @readSegments_reads view bytes (getUint 2 6 bytes) s hlength with
          ⟨s', hok, h⟩ | ⟨fault, s', herror, h⟩
        · obtain ⟨⟨vectors, hread, happend⟩, hinside, hcovered, hwhole⟩ := h
          have hwhole := hwhole rfl
          rw [hvectors, List.nil_append] at happend
          rw [hok] at hdecodeSteps
          rw [hread, ← happend] at hdecode
          dsimp only at hdecode hdecodeSteps
          by_cases htrailing : s'.offset = bytes.length
          · have hrest : bytes.drop s'.offset = [] := List.drop_eq_nil_of_le (by omega)
            rw [if_neg (not_not.2 htrailing)] at hdecodeSteps
            rw [if_neg (not_not.2 hrest)] at hdecode
            constructor <;> rw [hdecodeSteps]
            · rw [hdecode]
              cases restoreVectorSearchVector metadata s'.vectors <;> rfl
            · cases restoreVectorSearchVector metadata s'.vectors <;> nofun
            · intro message h
              cases hrestore : restoreVectorSearchVector metadata s'.vectors <;> rw [hrestore] at h <;> cases h
            · intro _
              dsimp only
              omega
            · intro v _
              dsimp only
              omega
          · have hrest : bytes.drop s'.offset ≠ [] := by
              rw [ne_eq, List.drop_eq_nil_iff]
              omega
            rw [if_pos htrailing] at hdecodeSteps
            rw [if_pos hrest] at hdecode
            exact inBounds_of_format hdecodeSteps hdecode fun _ => by omega
        · obtain ⟨⟨message, rfl, hread⟩, hinside, hcovered, -⟩ := h
          rw [herror] at hdecodeSteps
          rw [hread] at hdecode
          exact inBounds_of_format hdecodeSteps hdecode fun _ => by omega
      | _ => exact inBounds_of_format hdecodeSteps hdecode fun h => absurd hvectors h

end NpsSdk.Core.BinaryVector
