import NpsSdk.Nip.Ca.Calls

/-!
# Revocation under interleaving

Calls of the service in flight at the same time, taking turns at their awaited operations.  A call
that has not looked a NID up yet gives a guarantee (`Silent`): as long as its look-ups of the NID see
a revoked record, it never saves one.  Where all calls in flight give it when a revocation marks the
record, the NID stays revoked.
-/

namespace NpsSdk.Nip.Ca

open NpsSdk.Lib

abbrev CaPool := Pool CaCall CaState CaOp CaOp.Res CaError CaReply

abbrev CaTurn := Turn CaCall Ambient

def caTurn (ca : NipCaService) (sha256 : String → String) (w : CaPool) (e : CaTurn) : CaPool :=
  w.step (exec sha256) CaOp.awaited (CaCall.program ca) e

/-- The calls that work on a NID they are given: all but the issuance of sessions. -/
def CaCall.managing : CaCall → Bool
  | .issueSession .. => false
  | _ => true

/-- A call of `revoke(nid)` has resolved. -/
def resolved (w : CaPool) (nid : String) : Bool :=
  w.calls.any fun q =>
    match q with
    | (.revoke n _, .done (.ok _)) => n == nid
    | _ => false

/-! ### What the calls guarantee -/

def Spares (nid : String) : CaOp → Prop
  | .store (.save record) => record.nid ≠ nid
  | _ => True

/-- Looking the NID up answers a revoked record. -/
def SeesRevoked (nid : String) : (o : CaOp) → Except CaError o.Res → Prop
  | .store (.getByNid n), r =>
    n = nid → ∃ record : NipCertRecord, r = .ok (some record) ∧ record.revokedAt.isSome = true
  | _, _ => True

/-- **The guarantee**: as long as the NID is seen revoked, no record of it is saved. -/
def Silent {α : Type} (nid : String) (p : CaAsync α) : Prop := p.Keeps (Spares nid) (SeesRevoked nid)

def CaOp.saves : CaOp → Bool
  | .store (.save _) => true
  | _ => false

/-- The call saves nothing. -/
def NeverSaves {α : Type} (p : CaAsync α) : Prop :=
  p.Keeps (fun o => o.saves = false) fun _ _ => True

/-- The operation has marked a record of the NID. -/
def Marks (nid : String) : (o : CaOp) → Except CaError o.Res → Prop
  | .store (.revoke n _ _), r => n = nid ∧ r = .ok true
  | _, _ => False

section

variable {ca : NipCaService} {nid : String} {α β : Type}

theorem Silent.bind {p : CaAsync α} {f : α → CaAsync β} (hp : Silent nid p)
    (hf : ∀ a, Silent nid (f a)) : Silent nid (p >>= f) := Async.Keeps.bind hp hf

theorem silent_done {r : Except CaError α} : Silent nid (.done r) := trivial

theorem silent_perform {o : CaOp} (h : Spares nid o) : Silent nid (Async.perform o) :=
  ⟨h, fun _ _ => trivial⟩

theorem NeverSaves.bind {p : CaAsync α} {f : α → CaAsync β} (hp : NeverSaves p)
    (hf : ∀ a, NeverSaves (f a)) : NeverSaves (p >>= f) := Async.Keeps.bind hp hf

theorem neverSaves_done {r : Except CaError α} : NeverSaves (.done r) := trivial

theorem neverSaves_perform {o : CaOp} (h : o.saves = false) : NeverSaves (Async.perform o) :=
  ⟨h, fun _ _ => trivial⟩

theorem NeverSaves.silent {p : CaAsync α} (h : NeverSaves p) : Silent nid p := by
  refine Async.Keeps.mono h (fun o ho => ?_) fun _ _ _ => trivial
  unfold Spares
  split
  · cases ho
  · trivial

theorem neverSaves_isoDate {d : ℤ} : NeverSaves (NipCaService.isoDate d) := by
  unfold NipCaService.isoDate
  cases isoRoundTrip d <;> exact neverSaves_done

theorem keeps_issue {P : CaOp → Prop} {Q : (o : CaOp) → Except CaError o.Res → Prop} {record : NipCertRecord}
    {level : Option String} {lineage : Option Json} (h : P (.store (.save record))) :
    (ca.issue record level lineage).Keeps P Q := by
  unfold NipCaService.issue
  rcases ca.issueFrame_cases record level lineage with ⟨e, he⟩ | ⟨frame, hf, -⟩
  · rw [he]
    exact trivial
  · rw [hf]
    exact ⟨h, fun r _ => by cases r <;> exact trivial⟩

theorem silent_issue {record : NipCertRecord} {level : Option String} {lineage : Option Json}
    (h : record.nid ≠ nid) : Silent nid (ca.issue record level lineage) := keeps_issue h

theorem silent_refuseExisting {n : String} {f : Unit → CaAsync α}
    (h : n ≠ nid → Silent nid (f ())) : Silent nid (NipCaService.refuseExisting n >>= f) := by
  refine ⟨trivial, fun r hr => ?_⟩
  match r with
  | .error e => exact trivial
  | .ok (some record) => exact trivial
  | .ok none =>
    refine h fun hn => ?_
    obtain ⟨record, hrec, -⟩ := hr hn
    cases hrec

variable {capabilities : List String}

theorem neverSaves_checkCapabilities : NeverSaves (ca.checkCapabilities capabilities) := by
  unfold NipCaService.checkCapabilities
  cases ca.opts.allowedCapabilities with
  | none => exact neverSaves_done
  | some allowed =>
    dsimp only
    split <;> exact neverSaves_done

theorem neverSaves_groupIdentifier {identifier : Option String} :
    NeverSaves (NipCaService.groupIdentifier identifier) := by
  unfold NipCaService.groupIdentifier
  cases truthy identifier with
  | none => exact NeverSaves.bind (neverSaves_perform rfl) fun _ => neverSaves_done
  | some id =>
    dsimp only
    split <;> exact neverSaves_done

variable {scopeJson : String}

theorem silent_register {entityType identifier pubKey : String}
    {metadataJson : Option String} : Silent nid
      (ca.register entityType identifier pubKey capabilities scopeJson metadataJson) := by
  unfold NipCaService.register
  refine silent_refuseExisting fun hne => ?_
  refine neverSaves_checkCapabilities.silent.bind fun _ => ?_
  refine Silent.bind (silent_perform trivial) fun now => ?_
  exact Silent.bind (silent_perform trivial) fun serial => silent_issue hne

theorem silent_registerX509 {entityType identifier pubKey : String}
    {chain : List String} {level : String} {metadataJson : Option String} :
    Silent nid (ca.registerX509 entityType identifier pubKey capabilities scopeJson chain level
      metadataJson) := by
  unfold NipCaService.registerX509
  split
  · exact silent_done
  refine silent_refuseExisting fun hne => ?_
  refine neverSaves_checkCapabilities.silent.bind fun _ => ?_
  refine Silent.bind (silent_perform trivial) fun now => ?_
  refine Silent.bind (silent_perform trivial) fun serial => ?_
  exact (silent_issue hne).bind fun _ => silent_done

theorem silent_registerGroup {identifier : Option String} {pubKey : String}
    {ownerUserId ownerKeyId metadataJson : Option String} :
    Silent nid (ca.registerGroup identifier pubKey capabilities scopeJson ownerUserId ownerKeyId
      metadataJson) := by
  unfold NipCaService.registerGroup
  refine neverSaves_groupIdentifier.silent.bind fun id => ?_
  refine silent_refuseExisting fun hne => ?_
  refine neverSaves_checkCapabilities.silent.bind fun _ => ?_
  refine Silent.bind (silent_perform trivial) fun now => ?_
  exact Silent.bind (silent_perform trivial) fun serial => silent_issue hne

theorem silent_renewable {n : String} {f : NipCertRecord → CaAsync α}
    (h : ∀ record, n ≠ nid → Silent nid (f record)) : Silent nid (NipCaService.renewable n >>= f) := by
  refine ⟨trivial, fun r hr => ?_⟩
  match r with
  | .error e => exact trivial
  | .ok none => exact trivial
  | .ok (some record) =>
    by_cases hlive : record.revokedAt.isSome = true
    · simp only [Async.bind, hlive, if_true, Async.throw_eq]
      exact trivial
    · have hne : n ≠ nid := by
        intro hn
        obtain ⟨record', hrec, hrev⟩ := hr hn
        cases hrec
        exact hlive hrev
      simp only [Async.bind, hlive, Bool.false_eq_true, if_false, Async.pure_eq]
      exact h record hne

theorem silent_renew {n : String} : Silent nid (ca.renew n) := by
  unfold NipCaService.renew
  refine silent_renewable fun record hne => ?_
  refine Silent.bind (silent_perform trivial) fun now => ?_
  dsimp only
  split
  · exact neverSaves_isoDate.silent.bind fun _ => silent_done
  · exact Silent.bind (silent_perform trivial) fun serial => silent_issue hne

theorem neverSaves_cascade {now : ℤ} {children : List NipCertRecord} :
    NeverSaves (NipCaService.cascade now children) := by
  induction children with
  | nil => exact neverSaves_done
  | cons child children ih =>
    unfold NipCaService.cascade
    split
    · exact ih
    · exact NeverSaves.bind (neverSaves_perform rfl) fun _ => ih

theorem neverSaves_revoke {n reason : String} : NeverSaves (ca.revoke n reason) := by
  unfold NipCaService.revoke
  refine NeverSaves.bind (neverSaves_perform rfl) fun found => ?_
  cases found with
  | none => exact neverSaves_done
  | some record =>
    refine NeverSaves.bind (neverSaves_perform rfl) fun now => ?_
    refine NeverSaves.bind (neverSaves_perform rfl) fun revoked => ?_
    split
    · exact neverSaves_done
    split
    · refine NeverSaves.bind (neverSaves_perform rfl) fun children => ?_
      exact neverSaves_cascade.bind fun _ => neverSaves_isoDate.bind fun _ => neverSaves_done
    · exact neverSaves_isoDate.bind fun _ => neverSaves_done

/-- **Each call gives the guarantee when it starts.** -/
theorem silent_program {c : CaCall} (h : c.managing = true) : Silent nid (c.program ca) := by
  cases c with
  | register => exact silent_register.bind fun _ => silent_done
  | registerX509 => exact silent_registerX509.bind fun _ => silent_done
  | registerGroup => exact silent_registerGroup.bind fun _ => silent_done
  | issueSession => cases h
  | renew => exact silent_renew.bind fun _ => silent_done
  | revoke => exact neverSaves_revoke.silent.bind fun _ => silent_done

/-- **A revocation has no result before it has marked a record.** -/
theorem passes_revoke {reason : String} : ((CaCall.revoke nid reason).program ca).Passes (Marks nid) := by
  intro found
  refine .inr ?_
  match found with
  | .error e => exact nofun
  | .ok none => exact nofun
  | .ok (some record) =>
    intro now
    refine .inr ?_
    match now with
    | .error e => exact nofun
    | .ok now =>
      intro revoked
      match revoked with
      | .ok true => exact .inl ⟨rfl, rfl⟩
      | .ok false => exact .inr nofun
      | .error e => exact .inr nofun

end

/-! ### Turns -/

/-- The NID is revoked, and all calls in flight guarantee to leave it so. -/
def Sealed (nid : String) (w : CaPool) : Prop :=
  w.state.certs.CurrentRevoked nid ∧ ∀ q ∈ w.calls, Silent nid q.2

/-- What the turn of a revocation needs when it marks a record of its NID: all calls in flight give the
guarantee, that is, none of them has already looked the NID up and can still save a record of it. -/
def MarksAlone (sha256 : String → String) (w : CaPool) : CaTurn → Prop
  | .start _ => True
  | .resume i amb => ∀ nid reason p, w.calls[i]? = some (.revoke nid reason, p) →
      (∃ reason' t, CaOp.store (.revoke nid reason' t) ∈
        p.turnOps (exec sha256) CaOp.awaited amb w.state) →
      (∃ r ∈ w.state.certs.records, r.nid = nid ∧ r.revokedAt = none) →
      ∀ q ∈ w.calls, Silent nid q.2

section

variable {ca : NipCaService} {sha256 : String → String} {nid : String} {w : CaPool} {e : CaTurn}
  {α : Type}

theorem Silent.op {o : CaOp} {k : Except CaError o.Res → CaAsync α} {s : CaState} {a : Ambient}
    (h : Silent nid (.op o k)) (hs : s.certs.CurrentRevoked nid) :
    Silent nid (k (exec sha256 a o s).1) ∧ (exec sha256 a o s).2.certs.CurrentRevoked nid := by
  obtain ⟨hspares, hk⟩ := h
  cases o with
  | tokens o => exact ⟨hk _ trivial, hs⟩
  | pending o => exact ⟨hk _ trivial, hs⟩
  | now => exact ⟨hk _ trivial, hs⟩
  | randomHex n => exact ⟨hk _ trivial, hs⟩
  | store o =>
    cases o with
    | save record =>
      refine ⟨hk _ trivial, ?_⟩
      simp only [exec, execStore]
      rcases s.certs.save_cases record with ⟨e, h⟩ | h
      · rwa [h]
      · rw [h]
        obtain ⟨r, hr, hrev⟩ := hs
        refine ⟨r, ?_, hrev⟩
        rw [InMemoryNipCaStore.getByNid_append, if_neg hspares]
        exact hr
    | getByNid n =>
      refine ⟨hk _ ?_, hs⟩
      rintro rfl
      obtain ⟨r, hr, hrev⟩ := hs
      exact ⟨r, congrArg Except.ok hr, hrev⟩
    | getBySerial serial => exact ⟨hk _ trivial, hs⟩
    | revoke n reason t => exact ⟨hk _ trivial, hs.revoke⟩
    | nextSerial | list | getRevoked => exact ⟨hk _ trivial, hs⟩
    | getByParentNid n => exact ⟨hk _ trivial, hs⟩

/-- **A sealed NID stays sealed**, whatever turn is taken. -/
theorem Sealed.step (h : Sealed nid w) (hstart : ∀ c, e = .start c → c.managing = true) :
    Sealed nid (caTurn ca sha256 w e) := by
  obtain ⟨hrev, hcalls⟩ := h
  cases e with
  | start c =>
    refine ⟨hrev, fun q hq => ?_⟩
    rcases List.mem_append.1 hq with hq | hq
    · exact hcalls q hq
    · rw [List.mem_singleton] at hq
      subst hq
      exact silent_program (hstart c rfl)
  | resume i amb =>
    unfold caTurn
    cases hi : w.calls[i]? with
    | none =>
      rw [Pool.step_resume_none hi]
      exact ⟨hrev, hcalls⟩
    | some q =>
      obtain ⟨c, p⟩ := q
      rw [Pool.step_resume hi]
      have hp : Silent nid p := hcalls _ (List.mem_of_getElem? hi)
      have hturn : Silent nid (p.advance (exec sha256) CaOp.awaited amb w.state).1 ∧
          (p.advance (exec sha256) CaOp.awaited amb w.state).2.certs.CurrentRevoked nid :=
        Async.advance_induction (M := fun p (s : CaState) => Silent nid p ∧ s.certs.CurrentRevoked nid)
          (C := fun _ => True) (fun o k s a _ hM => hM.1.op hM.2) (fun _ _ => trivial) ⟨hp, hrev⟩
      obtain ⟨hp', hrev'⟩ := hturn
      refine ⟨hrev', fun q hq => ?_⟩
      rcases List.mem_or_eq_of_mem_set hq with hq | rfl
      · exact hcalls q hq
      · exact hp'

/-- The turn of a call that has not marked the NID: it still has not, or the turn has marked it. -/
theorem passes_advance {p : CaAsync α} (amb : ℕ → Ambient) (s : CaState) (h : p.Passes (Marks nid)) :
    (p.advance (exec sha256) CaOp.awaited amb s).1.Passes (Marks nid) ∨
    ((∃ reason t, CaOp.store (.revoke nid reason t) ∈
        p.turnOps (exec sha256) CaOp.awaited amb s) ∧ (∃ r ∈ s.certs.records, r.nid = nid ∧ r.revokedAt = none) ∧
      (p.advance (exec sha256) CaOp.awaited amb s).2.certs.CurrentRevoked nid ∧
      (Silent nid p → Silent nid (p.advance (exec sha256) CaOp.awaited amb s).1)) := by
  induction p generalizing amb s with
  | done r => exact .inl h
  | op o k ih =>
    by_cases hw : o.awaited = true
    · simp only [Async.advance, Async.turnOps, hw, if_true]
      rcases h (exec sha256 (amb 0) o s).1 with hmark | hpass
      · cases o with
        | store o =>
          cases o with
          | revoke n reason t =>
            obtain ⟨rfl, hans⟩ := hmark
            have htrue : (s.certs.revoke n reason t).1 = true := by
              simpa [exec, execStore] using hans
            refine .inr ⟨⟨reason, t, List.mem_singleton_self _⟩, ?_,
              InMemoryNipCaStore.currentRevoked_of_revoke htrue, fun hp => hp.2 _ trivial⟩
            rcases s.certs.revoke_cases n reason t with ⟨pre, x, post, hs, hx, hlive, -, -⟩ | ⟨-, hf⟩
            · exact ⟨x, by simp [hs], hx, hlive⟩
            · rw [hf] at htrue
              cases htrue
          | _ => exact hmark.elim
        | _ => exact hmark.elim
      · exact .inl hpass
    · simp only [Async.advance, Async.turnOps, hw, Bool.false_eq_true, if_false]
      -- the operations that are not awaited leave the certificates as they are
      have hcerts : (exec sha256 (amb 0) o s).2.certs = s.certs := by
        cases o with
        | store o => exact absurd rfl hw
        | tokens o => exact absurd rfl hw
        | pending o => rfl
        | now => rfl
        | randomHex n => rfl
      have hmarks : ¬ Marks nid o (exec sha256 (amb 0) o s).1 := by
        cases o with
        | store o => exact absurd rfl hw
        | _ => exact id
      have hsilent : Silent nid (.op o k) → Silent nid (k (exec sha256 (amb 0) o s).1) := by
        intro hp
        cases o with
        | store o => exact absurd rfl hw
        | _ => exact hp.2 _ trivial
      have hpass := (h (exec sha256 (amb 0) o s).1).resolve_left hmarks
      rcases ih _ (fun n => amb (n + 1)) (exec sha256 (amb 0) o s).2 hpass with
        hpass' | ⟨⟨reason, t, hmem⟩, hold, hrev, hp⟩
      · exact .inl hpass'
      · rw [hcerts] at hold
        exact .inr ⟨⟨reason, t, List.mem_cons_of_mem _ hmem⟩, hold, hrev, fun h' => hp (hsilent h')⟩

/-- **The invariant**: a revocation in flight has not marked its NID, or the NID is sealed. -/
def RevocationsSeal (w : CaPool) : Prop :=
  ∀ nid reason p, (CaCall.revoke nid reason, p) ∈ w.calls → p.Passes (Marks nid) ∨ Sealed nid w

theorem RevocationsSeal.step (h : RevocationsSeal w)
    (hstart : ∀ c, e = .start c → c.managing = true) (hmarks : MarksAlone sha256 w e) :
    RevocationsSeal (caTurn ca sha256 w e) := by
  intro nid reason p hp
  have hkeep : ∀ p, (CaCall.revoke nid reason, p) ∈ w.calls →
      p.Passes (Marks nid) ∨ Sealed nid (caTurn ca sha256 w e) := by
    intro p hp
    rcases h nid reason p hp with hpass | hsealed
    · exact .inl hpass
    · exact .inr (hsealed.step hstart)
  cases e with
  | start c =>
    rcases List.mem_append.1 hp with hp | hp
    · exact hkeep p hp
    · rw [List.mem_singleton, Prod.mk.injEq] at hp
      obtain ⟨rfl, rfl⟩ := hp
      exact .inl passes_revoke
  | resume i amb =>
    unfold caTurn at hp hkeep ⊢
    cases hi : w.calls[i]? with
    | none =>
      rw [Pool.step_resume_none hi] at hp
      exact hkeep p hp
    | some q =>
      obtain ⟨c, p₀⟩ := q
      rw [Pool.step_resume hi] at hp
      rcases List.mem_or_eq_of_mem_set hp with hp | heq
      · exact hkeep p hp
      obtain ⟨rfl, rfl⟩ := Prod.mk.inj heq
      rcases hkeep p₀ (List.mem_of_getElem? hi) with hpass | hsealed
      · rcases passes_advance amb w.state hpass with hpass' | ⟨hmem, hold, hrev, hsilent⟩
        · exact .inl hpass'
        · have hall := hmarks nid reason p₀ hi hmem hold
          rw [Pool.step_resume hi]
          refine .inr ⟨hrev, fun q hq => ?_⟩
          rcases List.mem_or_eq_of_mem_set hq with hq | rfl
          · exact hall q hq
          · exact hsilent (hall _ (List.mem_of_getElem? hi))
      · exact .inr hsealed

end

/-- **Revocation is final**: in every interleaving in which each revocation marks its NID while no
other call that has looked it up can still save a record of it, a NID whose revocation has resolved
never verifies again. -/
theorem revocation_final (ca : NipCaService) (sha256 : String → String) (s : CaState)
    (es : List CaTurn) (hcalls : ∀ c, Turn.start c ∈ es → c.managing = true)
    (hmarks : Along (caTurn ca sha256) (MarksAlone sha256) ⟨s, []⟩ es) (nid : String)
    (h : resolved (run (caTurn ca sha256) ⟨s, []⟩ es) nid = true) (amb : ℕ → Ambient) :
    answersValid sha256 (run (caTurn ca sha256) ⟨s, []⟩ es).state nid amb = false := by
  have hinv : RevocationsSeal (run (caTurn ca sha256) ⟨s, []⟩ es) := by
    refine run_induction_along (P := fun w e => (∀ c, e = .start c → c.managing = true) ∧
      MarksAlone sha256 w e) (I := RevocationsSeal) (fun _ _ _ hp => nomatch hp)
      (fun w e hw he => hw.step he.1 he.2) ?_
    intro pre e post heq
    refine ⟨fun c hc => hcalls c ?_, hmarks pre e post heq⟩
    rw [heq, ← hc]
    exact List.mem_append_right _ List.mem_cons_self
  obtain ⟨⟨c, p⟩, hmem, hq⟩ := List.any_eq_true.1 h
  split at hq
  · rename_i n reason reply heq
    obtain ⟨rfl, rfl⟩ := Prod.mk.inj heq
    obtain rfl : n = nid := by simpa using hq
    rcases hinv n reason _ hmem with hpass | ⟨⟨r, hr, hrev⟩, -⟩
    · exact absurd rfl (hpass reply)
    · rw [Bool.eq_false_iff]
      intro hvalid
      obtain ⟨r', hr'⟩ := verified_of_answersValid hvalid
      obtain rfl : r = r' := Option.some.inj (hr.symm.trans hr'.current)
      rw [hr'.live] at hrev
      cases hrev
  · cases hq

/-! ### Revocations and a renewal -/

/-- Revocations save nothing, however their operations are performed. -/
theorem neverSaves_revocations {ca : NipCaService} {η : Type}
    {exec : η → (o : CaOp) → CaState → Except CaError o.Res × CaState} {s : CaState}
    {es : List (Turn CaCall η)} (h : ∀ c, Turn.start c ∈ es → ∃ nid reason, c = .revoke nid reason) :
    ∀ q ∈ (run (fun w e => Pool.step exec CaOp.awaited (CaCall.program ca) w e) ⟨s, []⟩ es).calls, NeverSaves q.2 := by
  refine run_induction_along (P := fun _ e => ∀ c, e = Turn.start c → ∃ nid reason, c = .revoke nid reason)
    (I := fun w : CaPool => ∀ q ∈ w.calls, NeverSaves q.2) (fun _ hq => nomatch hq) ?_ ?_
  · intro w e hw he q hq
    cases e with
    | start c =>
      rcases List.mem_append.1 hq with hq | hq
      · exact hw q hq
      · obtain ⟨nid, reason, rfl⟩ := he c rfl
        rw [List.mem_singleton] at hq
        subst hq
        exact neverSaves_revoke.bind fun _ => neverSaves_done
    | resume i amb =>
      cases hi : w.calls[i]? with
      | none =>
        rw [Pool.step_resume_none hi] at hq
        exact hw q hq
      | some q₀ =>
        obtain ⟨c, p⟩ := q₀
        rw [Pool.step_resume hi] at hq
        rcases List.mem_or_eq_of_mem_set hq with hq | rfl
        · exact hw q hq
        · exact Async.advance_induction (M := fun p _ => NeverSaves p) (C := fun _ => True)
            (fun o k s a _ hM => hM.2 _ trivial) (fun _ _ => trivial)
            (hw _ (List.mem_of_getElem? hi))
  · intro pre e post heq c hc
    refine h c ?_
    rw [heq, ← hc]
    simp

theorem marksAlone_of_revocations {ca : NipCaService} {sha256 : String → String} {s : CaState}
    {es : List CaTurn} (h : ∀ c, Turn.start c ∈ es → ∃ nid reason, c = .revoke nid reason) :
    Along (caTurn ca sha256) (MarksAlone sha256) ⟨s, []⟩ es := by
  intro pre e post heq
  have hall : ∀ q ∈ (run (caTurn ca sha256) ⟨s, []⟩ pre).calls, NeverSaves q.2 := by
    refine neverSaves_revocations fun c hc => h c ?_
    rw [heq]
    exact List.mem_append_left _ hc
  cases e with
  | start c => trivial
  | resume i amb => exact fun nid reason p _ _ _ q hq => (hall q hq).silent

def sampleOptions : ResolvedNipCaOptions := { caNid := "urn:nps:org:ca.example" }

/-- A service with the default options, whose `JSON.parse` is run on `"{}"` only. -/
def plainCa : NipCaService :=
  { opts := sampleOptions, parseJson := fun text => if text = "{}" then some (.obj []) else none,
    sign := fun _ => "signature" }

def sampleAgent : String := "urn:nps:agent:ca.example:a"

/-- The clock stands at `day`. -/
def onDay (day : ℤ) : ℕ → Ambient := fun _ => ⟨fun _ => day * 86400000, fun _ => ""⟩

/-- A store with an agent that was registered on day 0. -/
def sampleState : CaState :=
  { certs := {
      records := [
        { nid := sampleAgent, entityType := "agent", serial := "0x1", pubKey := "ed25519:a",
          capabilities := [], scopeJson := "{}", issuedBy := "urn:nps:org:ca.example", issuedAt := 0,
          expiresAt := 30 * 86400000 }],
      serialCounter := 1 } }

theorem sample_revocation_final : answersValid id (run (caTurn plainCa id) ⟨sampleState, []⟩
    [.start (.revoke sampleAgent "superseded"), .resume 0 (onDay 24), .resume 0 (onDay 24)]).state
      sampleAgent (onDay 25) = false :=
  revocation_final plainCa id sampleState _ (by simp [CaCall.managing])
    (marksAlone_of_revocations (by simp)) sampleAgent (by decide) (onDay 25)

/-- A renewal reads the agent's record before the revocation, and saves the new one after it. -/
def renewalAcrossRevocation : List CaTurn :=
  [.start (.register "agent" "a" "ed25519:a" [] "{}" none),
    .resume 0 (onDay 0), .resume 0 (onDay 0), .resume 0 (onDay 0),
    .start (.renew sampleAgent), .resume 1 (onDay 24), .resume 1 (onDay 24),
    .start (.revoke sampleAgent "key_compromise"), .resume 2 (onDay 24), .resume 2 (onDay 24),
    .resume 1 (onDay 24)]

/-- The revocation has resolved, and the agent verifies. -/
theorem renewal_undoes_revocation :
    let w := run (caTurn plainCa id) ⟨{}, []⟩ renewalAcrossRevocation
    (∀ c, Turn.start c ∈ renewalAcrossRevocation → c.managing = true) ∧
      resolved w sampleAgent = true ∧ answersValid id w.state sampleAgent (onDay 25) = true := by
  refine ⟨?_, by decide, by decide⟩
  intro c hc
  simp only [renewalAcrossRevocation, List.mem_cons, Turn.start.injEq, reduceCtorEq, false_or,
    List.not_mem_nil, or_false] at hc
  rcases hc with rfl | rfl | rfl <;> rfl

end NpsSdk.Nip.Ca
