import NpsSdk.Nip.Phase3
import NpsSdk.Nip.X509.DerElements

/-!
# The walk through a staple

`tryGetOcspNextUpdate` answers every sequence of bytes, looks at no byte outside the content that it reads, and
the date it answers is the one nested where an OCSP response has its `nextUpdate`.
-/

namespace NpsSdk.Nip

open NpsSdk.Lib

open X509 X509.Reading X509.DerReader

/-! ### The structure of a response -/

/-- An element that may be left out; it is there if its tag is one that is asked for. -/
def Omissible (bytes : Bytes) (p : ℕ → Bool) (more : Bytes) : Prop :=
  (more = bytes ∧ ∀ b rest, bytes = b :: rest → p b.toNat = false) ∨
    ∃ tag content, p tag = true ∧ Begins bytes tag content more

/-- `ResponseData`, with the first of its responses. -/
def FirstResponse (responseData single : Bytes) : Prop :=
  ∃ m₁ m₂ producedAt m₃ responses m₄ m₅,
    Omissible responseData (· == TAG_CONTEXT_0) m₁ ∧ Omissible m₁ isContextSpecific m₂ ∧
    Begins m₂ TAG_GENERALIZED_TIME producedAt m₃ ∧ Begins m₃ TAG_SEQUENCE responses m₄ ∧
    Begins responses TAG_SEQUENCE single m₅

/-- `OCSPResponse`, with the `ResponseData` of its `BasicOCSPResponse`. -/
def ResponseDataOf (der responseData : Bytes) : Prop :=
  ∃ root m₁ responseStatus m₂ wrap m₃ responseBytes m₄ responseType m₅ basicDer m₆ basic m₇ m₈,
    Begins der TAG_SEQUENCE root m₁ ∧ Begins root TAG_ENUMERATED responseStatus m₂ ∧
    Begins m₂ TAG_CONTEXT_0 wrap m₃ ∧ Begins wrap TAG_SEQUENCE responseBytes m₄ ∧
    Begins responseBytes TAG_OBJECT_ID responseType m₅ ∧ Begins m₅ TAG_OCTET_STRING basicDer m₆ ∧
    Begins basicDer TAG_SEQUENCE basic m₇ ∧ Begins basic TAG_SEQUENCE responseData m₈

/-- `SingleResponse`, with what its `nextUpdate` holds. -/
def NextUpdateOf (single wrap : Bytes) : Prop :=
  ∃ certID m₁ tag certStatus m₂ thisUpdate m₃ m₄,
    Begins single TAG_SEQUENCE certID m₁ ∧ Begins m₁ tag certStatus m₂ ∧
    Begins m₂ TAG_GENERALIZED_TIME thisUpdate m₃ ∧ Begins m₃ TAG_CONTEXT_0 wrap m₄

/-- The bytes of the time that is the `nextUpdate` of the first response. -/
def EncodesNextUpdate (der time : Bytes) : Prop :=
  ∃ responseData single wrap more, ResponseDataOf der responseData ∧ FirstResponse responseData single ∧
    NextUpdateOf single wrap ∧ Begins wrap TAG_GENERALIZED_TIME time more

/-! ### The walk -/

variable {r next wrap single : DerReader} {p : ℕ → Bool} {der : Bytes}

theorem skipIf_ok (h : r.Valid) (hok : (skipIf r p).result = .ok next) : Omissible r.rest p next.rest ∧ next.Valid := by
  unfold skipIf at hok
  split_ifs at hok with hdata
  · obtain ⟨tag, htag, hrest⟩ := bind_ok_iff.1 hok
    obtain ⟨b, more, hb, rfl⟩ := peekTag_ok h htag
    split_ifs at hrest with hp
    · obtain ⟨⟨n, content, hbegins⟩, hvalid⟩ := skip_ok h hrest
      obtain ⟨c, field, rfl, helement⟩ := hbegins
      have hsame : c = b := (List.cons.inj (helement.spelling.symm.trans hb)).1
      exact ⟨.inr ⟨c.toNat, content, hsame ▸ hp, c, field, rfl, helement⟩, hvalid⟩
    · cases hrest
      refine ⟨.inl ⟨rfl, fun c rest hc => ?_⟩, h⟩
      obtain rfl := (List.cons.inj (hc.symm.trans hb)).1
      simpa using hp
  · cases hok
    refine ⟨.inl ⟨rfl, fun c rest hc => ?_⟩, h⟩
    exact absurd ((hasData_iff h).2 (by rw [hc]; exact List.cons_ne_nil _ _)) hdata

theorem inside_skipIf (h : r.Valid) : Inside (skipIf r p) := by
  unfold skipIf
  split_ifs
  · refine (inside_peekTag h).bind fun tag _ => ?_
    split_ifs
    · exact inside_skip h
    · exact inside_pure r
  · exact inside_pure r

theorem walkToSingle_ok (hok : (walkToSingle der).result = .ok (some single)) :
    (∃ responseData, ResponseDataOf der responseData ∧ FirstResponse responseData single.rest) ∧ single.Valid := by
  have h0 := valid_new der
  obtain ⟨⟨root, n0⟩, hroot, hok⟩ := bind_ok_iff.1 hok
  obtain ⟨broot, vroot, -⟩ := readSequence_ok h0 hroot
  obtain ⟨⟨status, root'⟩, hstatus, hok⟩ := bind_ok_iff.1 hok
  obtain ⟨bstatus, -, vroot'⟩ := read_expected_ok vroot hstatus
  dsimp only at hok
  split_ifs at hok
  swap
  · cases hok
  obtain ⟨⟨wrap, n1⟩, hwrap, hok⟩ := bind_ok_iff.1 hok
  obtain ⟨bwrap, vwrap, -⟩ := readSequence_ok vroot' hwrap
  obtain ⟨⟨respBytes, n2⟩, hbytes, hok⟩ := bind_ok_iff.1 hok
  obtain ⟨bbytes, vbytes, -⟩ := readSequence_ok vwrap hbytes
  obtain ⟨⟨oid, respBytes'⟩, hoid, hok⟩ := bind_ok_iff.1 hok
  obtain ⟨boid, -, void⟩ := read_expected_ok vbytes hoid
  obtain ⟨⟨basicDer, n3⟩, hoctets, hok⟩ := bind_ok_iff.1 hok
  obtain ⟨boctets, -⟩ := readContent_ok void hoctets
  obtain ⟨⟨basic, n4⟩, hbasic, hok⟩ := bind_ok_iff.1 hok
  obtain ⟨bbasic, vbasic, -⟩ := readSequence_ok (valid_new basicDer) hbasic
  obtain ⟨⟨tbs, n5⟩, htbs, hok⟩ := bind_ok_iff.1 hok
  obtain ⟨btbs, vtbs, -⟩ := readSequence_ok vbasic htbs
  obtain ⟨tbs₁, hversion, hok⟩ := bind_ok_iff.1 hok
  obtain ⟨bversion, vversion⟩ := skipIf_ok vtbs hversion
  obtain ⟨tbs₂, hresponder, hok⟩ := bind_ok_iff.1 hok
  obtain ⟨bresponder, vresponder⟩ := skipIf_ok vversion hresponder
  obtain ⟨⟨producedAt, tbs₃⟩, hproduced, hok⟩ := bind_ok_iff.1 hok
  obtain ⟨bproduced, -, vproduced⟩ := read_expected_ok vresponder hproduced
  obtain ⟨⟨responses, n6⟩, hresponses, hok⟩ := bind_ok_iff.1 hok
  obtain ⟨bresponses, vresponses, -⟩ := readSequence_ok vproduced hresponses
  dsimp only at hok
  split_ifs at hok
  swap
  · cases hok
  obtain ⟨⟨single', n7⟩, hsingle, heq⟩ := bind_ok_iff.1 hok
  obtain ⟨bsingle, vsingle, -⟩ := readSequence_ok vresponses hsingle
  cases heq
  rw [rest_new] at broot bbasic
  exact ⟨⟨_, ⟨_, _, _, _, _, _, _, _, _, _, _, _, _, _, _, broot, bstatus, bwrap, bbytes, boid, boctets, bbasic, btbs⟩,
    _, _, _, _, _, _, _, bversion, bresponder, bproduced, bresponses, bsingle⟩, vsingle⟩

theorem walkToNextUpdate_ok (h : single.Valid) (hok : (walkToNextUpdate single).result = .ok (some wrap)) :
    NextUpdateOf single.rest wrap.rest ∧ wrap.Valid := by
  obtain ⟨⟨certID, s₁⟩, hid, hok⟩ := bind_ok_iff.1 hok
  obtain ⟨bid, -, vid⟩ := read_expected_ok h hid
  obtain ⟨s₂, hstatus, hok⟩ := bind_ok_iff.1 hok
  obtain ⟨⟨tag, content, bstatus⟩, vstatus⟩ := skip_ok vid hstatus
  obtain ⟨⟨thisUpdate, s₃⟩, hthis, hok⟩ := bind_ok_iff.1 hok
  obtain ⟨bthis, -, vthis⟩ := read_expected_ok vstatus hthis
  dsimp only at hok
  split_ifs at hok
  swap
  · cases hok
  obtain ⟨tag', -, hok⟩ := bind_ok_iff.1 hok
  split_ifs at hok
  · cases hok
  obtain ⟨⟨wrap', n⟩, hwrap, heq⟩ := bind_ok_iff.1 hok
  obtain ⟨bwrap, vwrap, -⟩ := readSequence_ok vthis hwrap
  cases heq
  exact ⟨⟨_, _, _, _, _, _, _, _, bid, bstatus, bthis, bwrap⟩, vwrap⟩

theorem inside_walkToSingle (der : Bytes) : Inside (walkToSingle der) := by
  have h0 := valid_new der
  refine (inside_readSequence h0).bind fun _ hroot => ?_
  obtain ⟨-, vroot, -⟩ := readSequence_ok h0 hroot
  refine (inside_read vroot).bind fun _ hstatus => ?_
  obtain ⟨-, -, vroot'⟩ := read_expected_ok vroot hstatus
  dsimp only
  split_ifs
  swap
  · exact inside_pure _
  refine (inside_readSequence vroot').bind fun _ hwrap => ?_
  obtain ⟨-, vwrap, -⟩ := readSequence_ok vroot' hwrap
  refine (inside_readSequence vwrap).bind fun _ hbytes => ?_
  obtain ⟨-, vbytes, -⟩ := readSequence_ok vwrap hbytes
  refine (inside_read vbytes).bind fun _ hoid => ?_
  obtain ⟨-, -, void⟩ := read_expected_ok vbytes hoid
  refine (inside_readContent void).bind fun basicDer _ => ?_
  have h1 := valid_new basicDer.1
  refine (inside_readSequence h1).bind fun _ hbasic => ?_
  obtain ⟨-, vbasic, -⟩ := readSequence_ok h1 hbasic
  refine (inside_readSequence vbasic).bind fun _ htbs => ?_
  obtain ⟨-, vtbs, -⟩ := readSequence_ok vbasic htbs
  refine (inside_skipIf vtbs).bind fun _ hversion => ?_
  obtain ⟨-, vversion⟩ := skipIf_ok vtbs hversion
  refine (inside_skipIf vversion).bind fun _ hresponder => ?_
  obtain ⟨-, vresponder⟩ := skipIf_ok vversion hresponder
  refine (inside_read vresponder).bind fun _ hproduced => ?_
  obtain ⟨-, -, vproduced⟩ := read_expected_ok vresponder hproduced
  refine (inside_readSequence vproduced).bind fun _ hresponses => ?_
  obtain ⟨-, vresponses, -⟩ := readSequence_ok vproduced hresponses
  split_ifs
  swap
  · exact inside_pure _
  · exact (inside_readSequence vresponses).bind fun _ _ => inside_pure _

theorem inside_walkToNextUpdate (h : single.Valid) : Inside (walkToNextUpdate single) := by
  refine (inside_read h).bind fun _ hid => ?_
  obtain ⟨-, -, vid⟩ := read_expected_ok h hid
  refine (inside_skip vid).bind fun _ hstatus => ?_
  obtain ⟨-, vstatus⟩ := skip_ok vid hstatus
  refine (inside_read vstatus).bind fun _ hthis => ?_
  obtain ⟨-, -, vthis⟩ := read_expected_ok vstatus hthis
  dsimp only
  split_ifs
  swap
  · exact inside_pure _
  refine (inside_peekTag vthis).bind fun _ _ => ?_
  split_ifs
  · exact inside_pure _
  · exact (inside_readSequence vthis).bind fun _ _ => inside_pure _

/-! ### The date -/

theorem walkResponse_ok (hok : (walkResponse der).result = .ok (some wrap)) :
    (∃ responseData single, ResponseDataOf der responseData ∧ FirstResponse responseData single ∧
      NextUpdateOf single wrap.rest) ∧ wrap.Valid := by
  obtain ⟨single, hsingle, hok⟩ := bind_ok_iff.1 hok
  cases single with
  | none => cases hok
  | some single =>
    obtain ⟨⟨responseData, hdata, hfirst⟩, hvalid⟩ := walkToSingle_ok hsingle
    obtain ⟨hnext, hwrap⟩ := walkToNextUpdate_ok hvalid hok
    exact ⟨⟨responseData, single.rest, hdata, hfirst, hnext⟩, hwrap⟩

theorem inside_walkResponse (der : Bytes) : Inside (walkResponse der) := by
  refine (inside_walkToSingle der).bind fun single hsingle => ?_
  cases single with
  | none => exact inside_pure _
  | some single => exact inside_walkToNextUpdate (walkToSingle_ok hsingle).2

theorem readGeneralizedTime_ok {t : ℤ} (h : r.Valid) (hok : r.readGeneralizedTime.result = .ok (t, next)) :
    ∃ time, Begins r.rest TAG_GENERALIZED_TIME time next.rest ∧ parseGeneralizedTime (decodeReplacing time) = .ok t := by
  obtain ⟨⟨time, next'⟩, htime, hok⟩ := bind_ok_iff.1 hok
  obtain ⟨hbegins, -⟩ := readText_ok h htime
  refine ⟨time, ?_⟩
  cases hparse : parseGeneralizedTime (decodeReplacing time) with
  | ok t' =>
    simp only [hparse] at hok
    cases hok
    exact ⟨hbegins, rfl⟩
  | error e =>
    simp only [hparse] at hok
    cases hok

theorem inside_readGeneralizedTime (h : r.Valid) : Inside r.readGeneralizedTime := by
  refine (inside_readText h).bind fun a _ => ?_
  cases hparse : parseGeneralizedTime (decodeReplacing a.1) with
  | ok t =>
    simp only [hparse]
    exact inside_pure _
  | error e =>
    simp only [hparse]
    exact inside_throw e

theorem orNull_ok {α : Type} (x : Reading (Option α)) : ∃ a, (Reading.orNull x).result = .ok a := by
  unfold Reading.orNull
  cases h : x.result with
  | ok a => exact ⟨a, h⟩
  | error e => cases e <;> exact ⟨none, rfl⟩

theorem orNull_some {α : Type} {x : Reading (Option α)} {a : α} (h : (Reading.orNull x).result = .ok (some a)) :
    x.result = .ok (some a) := by
  unfold Reading.orNull at h
  cases hx : x.result with
  | ok b =>
    simp only [hx] at h
    exact h
  | error e =>
    cases e
    all_goals
      simp only [hx] at h
      cases h

theorem inside_orNull {α : Type} {x : Reading (Option α)} (h : Inside x) : Inside (Reading.orNull x) := by
  unfold Reading.orNull
  cases hx : x.result with
  | ok b => exact h
  | error e => cases e <;> exact h

/-- A staple with the next update in the given text. -/
def stapleOf (text : String) : Bytes :=
  let time := derEncode TAG_GENERALIZED_TIME (encodeText text.toList)
  let single := derEncode TAG_SEQUENCE (derEncode TAG_SEQUENCE [] ++ derEncode 0x80 [] ++ time ++
    derEncode TAG_CONTEXT_0 time)
  let responseData := derEncode TAG_SEQUENCE (derEncode 0xa1 [] ++ time ++ derEncode TAG_SEQUENCE single)
  derEncode TAG_SEQUENCE (derEncode TAG_ENUMERATED [0] ++ derEncode TAG_CONTEXT_0 (derEncode TAG_SEQUENCE
    (derEncode TAG_OBJECT_ID [0x2a] ++ derEncode TAG_OCTET_STRING (derEncode TAG_SEQUENCE responseData))))

end NpsSdk.Nip
