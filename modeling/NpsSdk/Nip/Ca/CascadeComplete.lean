import NpsSdk.Nip.Ca.Cascade

/-!
# A resolved revocation leaves no live session

Sessions of a group are issued while the group is revoked, in any interleaving and with a store that may
fail.  Where a revocation reads the sessions of the group while no issuance that has found the group live is
in flight (`ReadsAlone`), the group is sealed from then on, and the cascade takes what is left.
-/

namespace NpsSdk.Nip.Ca

open NpsSdk.Lib

/-! ### What the calls save -/

/-- The operation saves a session of the group, if it saves anything. -/
def SavesFor (g : String) : CaOp → Prop
  | .store (.save r) => r.parentNid = some g ∧ r.nid ≠ g
  | _ => True

/-- Looking the NID up answers a revoked record, or fails. -/
def SeesGone (g : String) : (o : CaOp) → Except CaError o.Res → Prop
  | .store (.getByNid n), r => n = g → ∀ found, r = .ok found →
    ∃ record : NipCertRecord, found = some record ∧ record.revokedAt.isSome = true
  | _, _ => True

/-- The call saves sessions of the group only. -/
def OnlySessions {α : Type} (g : String) (p : CaAsync α) : Prop := p.Keeps (SavesFor g) fun _ _ => True

/-- As long as the group is seen revoked, the call saves nothing. -/
def KeepsOff {α : Type} (g : String) (p : CaAsync α) : Prop := p.Keeps (fun o => o.saves = false) (SeesGone g)

/-- The NID is one that `registerGroup` makes. -/
def GroupNid (ca : NipCaService) (g : String) : Prop :=
  ∃ name, g = ca.buildNid "agent" name ∧ startsWith name "group-" = true

def CaCall.onGroup (g : String) : CaCall → Bool
  | .issueSession groupNid .. => groupNid == g
  | .revoke nid _ => nid == g
  | _ => false

section

variable {ca : NipCaService} {sha256 : String → String} {g : String} {α β : Type} {p : CaAsync α}

theorem NeverSaves.onlySessions (h : NeverSaves p) : OnlySessions g p := by
  refine Async.Keeps.mono h (fun o ho => ?_) fun _ _ _ => trivial
  unfold SavesFor
  split
  · cases ho
  · trivial

theorem NeverSaves.keepsOff (h : NeverSaves p) : KeepsOff g p :=
  Async.Keeps.mono h (fun _ ho => ho) fun _ _ _ => trivial

theorem OnlySessions.bind {f : α → CaAsync β} (hp : OnlySessions g p) (hf : ∀ a, OnlySessions g (f a)) :
    OnlySessions g (p >>= f) := Async.Keeps.bind hp hf

theorem neverSaves_resolveGroup {n : String} : NeverSaves (NipCaService.resolveGroup n) := by
  unfold NipCaService.resolveGroup
  refine NeverSaves.bind (neverSaves_perform rfl) fun found => ?_
  cases found with
  | none => exact neverSaves_done
  | some group =>
    dsimp only
    split
    · exact neverSaves_done
    split
    · exact neverSaves_done
    refine NeverSaves.bind (neverSaves_perform rfl) fun now => ?_
    split
    · exact neverSaves_done
    · exact neverSaves_done

variable {capabilities : Option (List String)}

theorem neverSaves_sessionCapabilities {group : NipCertRecord} :
    NeverSaves (NipCaService.sessionCapabilities group capabilities) := by
  unfold NipCaService.sessionCapabilities
  cases capabilities with
  | none => exact neverSaves_done
  | some capabilities =>
    dsimp only
    split
    · exact neverSaves_done
    · exact neverSaves_done

theorem onlySessions_issue {record : NipCertRecord} {level : Option String} {lineage : Option Json}
    (hparent : record.parentNid = some g) (hnid : record.nid ≠ g) :
    OnlySessions g (ca.issue record level lineage) := keeps_issue (P := SavesFor g) ⟨hparent, hnid⟩

theorem sessionNid_ne (hg : GroupNid ca g) (rest : String) : ca.buildNid "agent" ("session-" ++ rest) ≠ g := by
  obtain ⟨name, rfl, hname⟩ := hg
  intro heq
  have hlist := congrArg String.toList heq
  simp only [NipCaService.buildNid, String.toList_append, List.append_cancel_left_eq] at hlist
  unfold startsWith at hname
  rw [← hlist] at hname
  revert hname
  simp

theorem onlySessions_issueSession (hg : GroupNid ca g) {sessionPubKey : String} {validityMs : Option ℤ}
    {purpose : Option String} {scopeJson metadataJson : Option String} :
    OnlySessions g (ca.issueSession g sessionPubKey validityMs purpose capabilities scopeJson
      metadataJson) := by
  unfold NipCaService.issueSession
  refine OnlySessions.bind neverSaves_resolveGroup.onlySessions fun group => ?_
  dsimp only
  have hvalidity : ∀ v, NeverSaves (ca.checkSessionValidity v) := by
    intro v
    unfold NipCaService.checkSessionValidity
    split
    · exact neverSaves_done
    · exact neverSaves_done
  refine OnlySessions.bind (hvalidity _).onlySessions fun _ => ?_
  refine OnlySessions.bind neverSaves_sessionCapabilities.onlySessions fun caps => ?_
  refine OnlySessions.bind (neverSaves_perform rfl).onlySessions fun unixTime => ?_
  refine OnlySessions.bind (neverSaves_perform rfl).onlySessions fun hex => ?_
  refine OnlySessions.bind (neverSaves_perform rfl).onlySessions fun now => ?_
  refine OnlySessions.bind (neverSaves_perform rfl).onlySessions fun serial => ?_
  refine onlySessions_issue rfl ?_
  dsimp only
  rw [String.append_assoc, String.append_assoc]
  exact sessionNid_ne hg _

theorem keepsOff_issueSession {sessionPubKey : String} {validityMs : Option ℤ} {purpose : Option String}
    {scopeJson metadataJson : Option String} {f : CaIdentFrame → CaAsync β} :
    KeepsOff g (ca.issueSession g sessionPubKey validityMs purpose capabilities scopeJson metadataJson >>=
      f) := by
  refine ⟨rfl, fun r hr => ?_⟩
  match r with
  | .error e => exact trivial
  | .ok none => exact trivial
  | .ok (some record) =>
    obtain ⟨record', hrecord, hrevoked⟩ := hr rfl (some record) rfl
    cases hrecord
    by_cases hrole : record.nidRole = some NID_ROLE_GROUP
    · simp only [Async.bind, hrole, ne_eq, not_true_eq_false, if_false, hrevoked, if_true, Async.throw_eq]
      exact trivial
    · simp only [Async.bind, hrole, ne_eq, not_false_eq_true, if_true, Async.throw_eq]
      exact trivial

theorem onlySessions_program (hg : GroupNid ca g) {c : CaCall} (hc : c.onGroup g = true) :
    OnlySessions g (c.program ca) := by
  cases c with
  | issueSession groupNid =>
    obtain rfl : groupNid = g := by simpa [CaCall.onGroup] using hc
    exact (onlySessions_issueSession hg).bind fun _ => trivial
  | revoke nid reason => exact (neverSaves_revoke.bind fun _ => neverSaves_done).onlySessions
  | _ => cases hc

theorem keepsOff_program {c : CaCall} (hc : c.onGroup g = true) : KeepsOff g (c.program ca) := by
  cases c with
  | issueSession groupNid =>
    obtain rfl : groupNid = g := by simpa [CaCall.onGroup] using hc
    exact keepsOff_issueSession
  | revoke nid reason => exact (neverSaves_revoke.bind fun _ => neverSaves_done).keepsOff
  | _ => cases hc

end

/-! ### What the store keeps -/

/-- The current record of the NID is a group's, and its sessions are not mixed up with other records. -/
structure GroupStore (g : String) (s : InMemoryNipCaStore) : Prop where
  group : ∃ r, s.getByNid g = some r ∧ r.nidRole = some NID_ROLE_GROUP
  noStranger : NoStranger g s.records

section

variable {ca : NipCaService} {sha256 : String → String} {g : String} {s : CaState} {o : CaOp}
  {a : Ambient × Bool} {p : CaAsync CaReply} {amb : ℕ → Ambient × Bool}

theorem GroupStore.revoke {store : InMemoryNipCaStore} {nid reason : String} {t : ℤ} (h : GroupStore g store) :
    GroupStore g (store.revoke nid reason t).2 where
  group := by
    obtain ⟨r, hr, hrole⟩ := h.group
    have hissued := InMemoryNipCaStore.getByNid_issued (n := g)
      (@InMemoryNipCaStore.issued_revoke store nid reason t)
    rw [hr] at hissued
    cases hr' : (store.revoke nid reason t).2.getByNid g with
    | none =>
      rw [hr'] at hissued
      cases hissued
    | some r' =>
      rw [hr', Option.map_some, Option.map_some, Option.some.injEq] at hissued
      exact ⟨r', rfl, (congrArg NipCertRecord.nidRole hissued).trans hrole⟩
  noStranger := noStranger_revoke h.noStranger

theorem GroupStore.op (h : GroupStore g s.certs) (ho : SavesFor g o) :
    GroupStore g (execFailing sha256 a o s).2.certs := by
  rcases execFailing_cases sha256 a o s with ⟨he, -⟩ | he
  · rwa [he]
  · rw [he]
    cases o with
    | store o =>
      cases o with
      | save r =>
        simp only [exec, execStore]
        rcases s.certs.save_cases r with ⟨e, hs⟩ | hs
        · rwa [hs]
        · rw [hs]
          obtain ⟨group, hgroup, hrole⟩ := h.group
          refine ⟨⟨group, ?_, hrole⟩, noStranger_snoc h.noStranger ho.1⟩
          rw [InMemoryNipCaStore.getByNid_append, if_neg ho.2]
          exact hgroup
      | revoke nid reason t => exact h.revoke
      | nextSerial => exact ⟨h.group, h.noStranger⟩
      | _ => exact h
    | _ => exact h

theorem currentRevoked_op (h : s.certs.CurrentRevoked g) (ho : SavesFor g o) :
    (execFailing sha256 a o s).2.certs.CurrentRevoked g := by
  rcases execFailing_cases sha256 a o s with ⟨he, -⟩ | he
  · rwa [he]
  · rw [he]
    cases o with
    | store o =>
      cases o with
      | save r =>
        simp only [exec, execStore]
        rcases s.certs.save_cases r with ⟨e, hs⟩ | hs
        · rwa [hs]
        · rw [hs]
          obtain ⟨group, hgroup, hrevoked⟩ := h
          refine ⟨group, ?_, hrevoked⟩
          rw [InMemoryNipCaStore.getByNid_append, if_neg ho.2]
          exact hgroup
      | revoke nid reason t => exact h.revoke
      | _ => exact h
    | _ => exact h

theorem liveChildren_op (ho : o.saves = false) (n : String) :
    liveChildren g n (execFailing sha256 a o s).2.certs.records ≤ liveChildren g n s.certs.records := by
  rcases execFailing_cases sha256 a o s with ⟨he, -⟩ | he
  · rw [he]
  · rw [he]
    cases o with
    | store o =>
      cases o with
      | save r => cases ho
      | revoke nid reason t => exact liveChildren_revoke_le
      | _ => exact le_rfl
    | _ => exact le_rfl

theorem seesGone_op (h : s.certs.CurrentRevoked g) : SeesGone g o (execFailing sha256 a o s).1 := by
  rcases execFailing_cases sha256 a o s with ⟨he, -⟩ | he
  · rw [he]
    unfold SeesGone
    split
    · intro _ found hfound
      cases hfound
    · trivial
  · rw [he]
    obtain ⟨r, hr, hrevoked⟩ := h
    cases o with
    | store o =>
      cases o with
      | getByNid n =>
        rintro rfl found hfound
        obtain rfl : s.certs.getByNid n = found := by
          simp only [exec, execStore] at hfound
          injection hfound
        exact ⟨r, hr, hrevoked⟩
      | _ => trivial
    | _ => trivial

theorem GroupStore.turn (h : GroupStore g s.certs) (hp : OnlySessions g p) :
    AfterTurn sha256 p amb s fun p' s' => OnlySessions g p' ∧ GroupStore g s'.certs ∧
      (s.certs.CurrentRevoked g → s'.certs.CurrentRevoked g) :=
  Async.advance_induction (M := fun p (s' : CaState) => OnlySessions g p ∧ GroupStore g s'.certs ∧
      (s.certs.CurrentRevoked g → s'.certs.CurrentRevoked g)) (C := fun _ => True)
    (fun _ _ _ _ _ hM => ⟨hM.1.2 _ trivial, hM.2.1.op hM.1.1, fun hr => currentRevoked_op (hM.2.2 hr) hM.1.1⟩)
    (fun _ _ => trivial) ⟨hp, h, id⟩

theorem KeepsOff.turn (h : KeepsOff g p) (hp : OnlySessions g p) (hs : s.certs.CurrentRevoked g) :
    AfterTurn sha256 p amb s fun p' s' => KeepsOff g p' ∧
      ∀ n, liveChildren g n s'.certs.records ≤ liveChildren g n s.certs.records := by
  have hturn := Async.advance_induction
    (M := fun p (s' : CaState) => (KeepsOff g p ∧ OnlySessions g p) ∧ s'.certs.CurrentRevoked g ∧
      ∀ n, liveChildren g n s'.certs.records ≤ liveChildren g n s.certs.records) (C := fun _ => True)
    (fun _ _ _ _ _ hM => ⟨⟨hM.1.1.2 _ (seesGone_op hM.2.1), hM.1.2.2 _ trivial⟩,
      currentRevoked_op hM.2.1 hM.1.2.1, fun n => (liveChildren_op hM.1.1.1 n).trans (hM.2.2 n)⟩)
    (fun o (_ : o ∈ p.turnOps (execFailing sha256) CaOp.awaited amb s) => trivial)
    ⟨⟨h, hp⟩, hs, fun _ => le_rfl⟩
  exact ⟨hturn.1.1, hturn.2.2⟩

end

/-! ### The pool -/

/-- The group is revoked, and no call in flight can save a session of it. -/
def GroupSealed (g : String) (w : CaPool) : Prop :=
  w.state.certs.CurrentRevoked g ∧ ∀ q ∈ w.calls, KeepsOff g q.2

def RevokeStage (g : String) (w : CaPool) (p : CaAsync CaReply) : Prop :=
  Fails p ∨ AsksGroup g p ∨ MarksGroup g p ∨ ReadsChildren g p ∧ w.state.certs.CurrentRevoked g ∨
    ∃ rest, Cascades rest p ∧ GroupSealed g w ∧
      ∀ n, liveChildren g n w.state.certs.records ≤ liveChildren g n rest

structure Cascading (g : String) (w : CaPool) : Prop where
  store : GroupStore g w.state.certs
  calls : ∀ q ∈ w.calls, OnlySessions g q.2
  revokes : ∀ q ∈ w.calls, ∀ reason, q.1 = .revoke g reason → RevokeStage g w q.2

/-- Calls on the group are started, and when a revocation reads its sessions, no call in flight that has
found the group live can still save one. -/
def ReadsAlone (sha256 : String → String) (g : String) (w : CaPool) : FailingTurn → Prop
  | .start c => c.onGroup g = true
  | .resume i amb => ∀ c p, w.calls[i]? = some (c, p) → (amb 0).2 = false →
      CaOp.store (.getByParentNid g) ∈ p.turnOps (execFailing sha256) CaOp.awaited amb w.state →
      ∀ q ∈ w.calls, KeepsOff g q.2

section

variable {ca : NipCaService} {sha256 : String → String} {g : String} {w : CaPool} {e : FailingTurn}
  {i : ℕ} {c : CaCall} {p : CaAsync CaReply} {amb : ℕ → Ambient × Bool}

def afterResume (sha256 : String → String) (w : CaPool) (i : ℕ) (c : CaCall) (p : CaAsync CaReply)
    (amb : ℕ → Ambient × Bool) : CaPool :=
  ⟨(p.advance (execFailing sha256) CaOp.awaited amb w.state).2,
    w.calls.set i (c, (p.advance (execFailing sha256) CaOp.awaited amb w.state).1)⟩

theorem GroupSealed.resume (h : GroupSealed g w) (hw : Cascading g w) (hi : w.calls[i]? = some (c, p)) :
    GroupSealed g (afterResume sha256 w i c p amb) ∧
      ∀ n, liveChildren g n (afterResume sha256 w i c p amb).state.certs.records ≤
        liveChildren g n w.state.certs.records := by
  obtain ⟨hrevoked, hkeeps⟩ := h
  have hmem : (c, p) ∈ w.calls := List.mem_of_getElem? hi
  have honly : OnlySessions g p := hw.calls _ hmem
  obtain ⟨-, -, hrevoked'⟩ := @GroupStore.turn sha256 g w.state p amb hw.store honly
  obtain ⟨hkeeps', hlive⟩ := @KeepsOff.turn sha256 g w.state p amb (hkeeps _ hmem) honly hrevoked
  refine ⟨⟨hrevoked' hrevoked, ?_⟩, hlive⟩
  intro q hq
  rcases List.mem_or_eq_of_mem_set hq with hq | rfl
  · exact hkeeps q hq
  · exact hkeeps'

theorem RevokeStage.resume {p' : CaAsync CaReply} (h : RevokeStage g w p') (hw : Cascading g w)
    (hi : w.calls[i]? = some (c, p)) : RevokeStage g (afterResume sha256 w i c p amb) p' := by
  rcases h with h | h | h | ⟨h, hrevoked⟩ | ⟨rest, h, hsealed, hlive⟩
  · exact .inl h
  · exact .inr (.inl h)
  · exact .inr (.inr (.inl h))
  · have honly : OnlySessions g p := hw.calls _ (List.mem_of_getElem? hi)
    obtain ⟨-, -, hrevoked'⟩ := @GroupStore.turn sha256 g w.state p amb hw.store honly
    exact .inr (.inr (.inr (.inl ⟨h, hrevoked' hrevoked⟩)))
  · obtain ⟨hsealed', hlive'⟩ := @GroupSealed.resume sha256 g w i c p amb hsealed hw hi
    exact .inr (.inr (.inr (.inr ⟨rest, h, hsealed', fun n => (hlive' n).trans (hlive n)⟩)))

theorem RevokeStage.turn (h : RevokeStage g w p) (hw : Cascading g w) (hi : w.calls[i]? = some (c, p))
    (halone : ReadsAlone sha256 g w (.resume i amb)) :
    RevokeStage g (afterResume sha256 w i c p amb) (p.advance (execFailing sha256) CaOp.awaited amb w.state).1 := by
  have honly : OnlySessions g p := hw.calls _ (List.mem_of_getElem? hi)
  rcases h with ⟨e, rfl⟩ | h | h | ⟨h, hrevoked⟩ | ⟨rest, h, hsealed, hlive⟩
  · exact .inl ⟨e, rfl⟩
  · obtain ⟨r, hr, hrole⟩ := hw.store.group
    rcases @AsksGroup.advance g sha256 amb w.state p h r hr hrole with h' | h'
    · exact .inl h'
    · exact .inr (.inr (.inl h'))
  · rcases @MarksGroup.advance g sha256 amb w.state p h with h' | ⟨h', hrevoked'⟩
    · exact .inl h'
    · exact .inr (.inr (.inr (.inl ⟨h', hrevoked'⟩)))
  · rcases @ReadsChildren.advance g sha256 amb w.state p h with h' | ⟨hfault, hmem, hsame, h'⟩
    · exact .inl h'
    · have hsealed : GroupSealed g w := ⟨hrevoked, halone c p hi hfault hmem⟩
      obtain ⟨hsealed', -⟩ := @GroupSealed.resume sha256 g w i c p amb hsealed hw hi
      refine .inr (.inr (.inr (.inr ⟨_, h', hsealed', ?_⟩)))
      intro n
      show liveChildren g n (p.advance (execFailing sha256) CaOp.awaited amb w.state).2.certs.records ≤ _
      rw [hsame, liveChildren_getByParentNid]
  · rcases @Cascades.advance g sha256 amb w.state p rest h hw.store.noStranger hlive with
      h' | ⟨rest', h', hlive'⟩
    · exact .inl h'
    · obtain ⟨hsealed', -⟩ := @GroupSealed.resume sha256 g w i c p amb hsealed hw hi
      exact .inr (.inr (.inr (.inr ⟨rest', h', hsealed', hlive'⟩)))

/-- **Each turn keeps it.** -/
theorem Cascading.step (h : Cascading g w) (hg : GroupNid ca g) (halone : ReadsAlone sha256 g w e) :
    Cascading g (failingTurn ca sha256 w e) := by
  cases e with
  | start c =>
    refine ⟨h.store, ?_, ?_⟩
    · intro q hq
      rcases List.mem_append.1 hq with hq | hq
      · exact h.calls q hq
      · rw [List.mem_singleton.1 hq]
        exact onlySessions_program hg halone
    · intro q hq reason hrevoke
      rcases List.mem_append.1 hq with hq | hq
      · rcases h.revokes q hq reason hrevoke with hs | hs | hs | hs | ⟨rest, hs, hsealed, hlive⟩
        · exact .inl hs
        · exact .inr (.inl hs)
        · exact .inr (.inr (.inl hs))
        · exact .inr (.inr (.inr (.inl hs)))
        · refine .inr (.inr (.inr (.inr ⟨rest, hs, ⟨hsealed.1, ?_⟩, hlive⟩)))
          intro q' hq'
          rcases List.mem_append.1 hq' with hq' | hq'
          · exact hsealed.2 q' hq'
          · rw [List.mem_singleton.1 hq']
            exact keepsOff_program halone
      · rw [List.mem_singleton.1 hq] at hrevoke ⊢
        obtain rfl : c = .revoke g reason := hrevoke
        exact .inr (.inl asksGroup_revoke)
  | resume i amb =>
    unfold failingTurn
    cases hi : w.calls[i]? with
    | none =>
      rw [Pool.step_resume_none hi]
      exact h
    | some q =>
      obtain ⟨c, p⟩ := q
      rw [Pool.step_resume hi]
      have hmem : (c, p) ∈ w.calls := List.mem_of_getElem? hi
      obtain ⟨honly', hstore', -⟩ := @GroupStore.turn sha256 g w.state p amb h.store (h.calls _ hmem)
      refine ⟨hstore', ?_, ?_⟩
      · intro q hq
        rcases List.mem_or_eq_of_mem_set hq with hq | rfl
        · exact h.calls q hq
        · exact honly'
      · intro q hq reason hrevoke
        rcases List.mem_or_eq_of_mem_set hq with hq | rfl
        · exact (h.revokes q hq reason hrevoke).resume h hi
        · exact (h.revokes _ hmem reason hrevoke).turn h hi halone

theorem Cascading.complete (h : Cascading g w) (hresolved : resolved w g = true) {r : NipCertRecord}
    (hr : r ∈ w.state.certs.records) (hparent : r.parentNid = some g) : r.revokedAt.isSome = true := by
  obtain ⟨⟨c, p⟩, hmem, hq⟩ := List.any_eq_true.1 hresolved
  split at hq
  · rename_i n reason reply heq
    obtain ⟨rfl, rfl⟩ := Prod.mk.inj heq
    obtain rfl : n = g := by simpa using hq
    rcases h.revokes _ hmem reason rfl with ⟨e, hs⟩ | ⟨k, hs, -⟩ | ⟨k, hs, -⟩ | ⟨⟨k, hs, -⟩, -⟩ |
      ⟨rest, hs, -, hlive⟩
    · cases hs
    · cases hs
    · cases hs
    · cases hs
    · refine revoked_of_liveChildren (fun m => ?_) hr hparent
      have hle := hlive m
      rw [hs.ended m] at hle
      omega
  · cases hq

end

/-- **A resolved revocation leaves no live session**: in every interleaving of issuances of sessions with
revocations of their group, over a store that may fail, in which the sessions are read alone, a revocation
that has resolved has every session of the group in the list of revoked certificates. -/
theorem cascade_complete (ca : NipCaService) (sha256 : String → String) (g : String) (s : CaState)
    (es : List FailingTurn) (hg : GroupNid ca g) (hs : GroupStore g s.certs)
    (halone : Along (failingTurn ca sha256) (ReadsAlone sha256 g) ⟨s, []⟩ es)
    (h : resolved (run (failingTurn ca sha256) ⟨s, []⟩ es) g = true) (r : NipCertRecord)
    (hr : r ∈ (run (failingTurn ca sha256) ⟨s, []⟩ es).state.certs.records) (hparent : r.parentNid = some g) :
    r ∈ (run (failingTurn ca sha256) ⟨s, []⟩ es).state.certs.getRevoked := by
  have hcascading : Cascading g (run (failingTurn ca sha256) ⟨s, []⟩ es) := by
    refine run_induction_along (I := Cascading g) ⟨hs, ?_, ?_⟩ (fun _ _ hw he => hw.step hg he) halone
    · intro q hq
      cases hq
    · intro q hq
      cases hq
  exact List.mem_filter.2 ⟨hr, hcascading.complete h hr hparent⟩

/-! ### A group with a session -/

theorem readsAlone_of_revocations {ca : NipCaService} {sha256 : String → String} {g : String} {s : CaState}
    {es : List FailingTurn} (h : ∀ c, Turn.start c ∈ es → ∃ reason, c = .revoke g reason) :
    Along (failingTurn ca sha256) (ReadsAlone sha256 g) ⟨s, []⟩ es := by
  intro pre e post heq
  have hall : ∀ q ∈ (run (failingTurn ca sha256) ⟨s, []⟩ pre).calls, NeverSaves q.2 := by
    refine neverSaves_revocations fun c hc => ?_
    obtain ⟨reason, hreason⟩ := h c (by rw [heq]; exact List.mem_append_left _ hc)
    exact ⟨g, reason, hreason⟩
  cases e with
  | start c =>
    obtain ⟨reason, rfl⟩ := h c (by rw [heq]; simp)
    exact beq_self_eq_true g
  | resume i amb => exact fun c p _ _ _ q hq => (hall q hq).keepsOff

def teamGroup : String := "urn:nps:agent:ca.example:group-team"

def teamRecord : NipCertRecord :=
  { nid := teamGroup, entityType := "agent", serial := "0x1", pubKey := "ed25519:g", capabilities := []
    scopeJson := "{}", issuedBy := "urn:nps:org:ca.example", issuedAt := 0, expiresAt := 100 * 86400000
    nidRole := some NID_ROLE_GROUP }

def teamSession : NipCertRecord :=
  { teamRecord with
    nid := "urn:nps:agent:ca.example:session-0-aa", serial := "0x2", nidRole := some NID_ROLE_SESSION
    parentNid := some teamGroup }

def onDayFailing (day : ℤ) (fails : Bool) : ℕ → Ambient × Bool := fun n => (onDay day n, fails)

/-- A first revocation meets a failure of the store, and a second one resolves. -/
def revokedAgain : List FailingTurn :=
  [.start (.revoke teamGroup "key_compromise"), .resume 0 (onDayFailing 1 true),
    .start (.revoke teamGroup "key_compromise"), .resume 1 (onDayFailing 1 false),
    .resume 1 (onDayFailing 1 false), .resume 1 (onDayFailing 1 false), .resume 1 (onDayFailing 1 false)]

theorem teamSession_revoked : teamSession.markRevoked "parent_revoked" 86400000 ∈
    (run (failingTurn plainCa id) ⟨{ certs := ⟨[teamRecord, teamSession], 2⟩ }, []⟩
      revokedAgain).state.certs.getRevoked := by
  refine cascade_complete plainCa id teamGroup _ revokedAgain ⟨"group-team", by decide, by decide⟩
    ⟨⟨teamRecord, by decide, rfl⟩, ?_⟩ (readsAlone_of_revocations ?_) (by decide) _
    (by decide) rfl
  · refine List.pairwise_cons.2 ⟨?_, List.pairwise_singleton _ _⟩
    intro x _ hlive
    exact absurd hlive (by decide)
  · intro c hc
    simp only [revokedAgain, List.mem_cons, Turn.start.injEq, reduceCtorEq, false_or, List.not_mem_nil,
      or_false] at hc
    rcases hc with rfl | rfl
    · exact ⟨_, rfl⟩
    · exact ⟨_, rfl⟩

/-- An issuance finds the group live, and saves its session after the revocation has read the sessions. -/
def issuedAcrossRevocation : List FailingTurn :=
  [.start (.issueSession teamGroup "ed25519:s" none none none none none), .resume 0 (onDayFailing 1 false),
    .resume 0 (onDayFailing 1 false), .start (.revoke teamGroup "key_compromise"),
    .resume 1 (onDayFailing 1 false), .resume 1 (onDayFailing 1 false), .resume 1 (onDayFailing 1 false),
    .resume 0 (onDayFailing 1 false)]

/-- The revocation has resolved and the issuance has settled, and a session of the group is live. -/
theorem session_escapes_cascade :
    let w := run (failingTurn plainCa id) ⟨{ certs := ⟨[teamRecord], 1⟩ }, []⟩ issuedAcrossRevocation
    resolved w teamGroup = true ∧ (w.calls.all fun q => match q.2 with | .done _ => true | _ => false) = true ∧
      ∃ r ∈ w.state.certs.records, r.parentNid = some teamGroup ∧ r ∉ w.state.certs.getRevoked := by
  refine ⟨by decide, by decide, ?_⟩
  have hlive : ((run (failingTurn plainCa id) ⟨{ certs := ⟨[teamRecord], 1⟩ }, []⟩
      issuedAcrossRevocation).state.certs.records.any fun r =>
        r.parentNid == some teamGroup && r.revokedAt.isNone) = true := by decide
  obtain ⟨r, hr, hboth⟩ := List.any_eq_true.1 hlive
  simp only [Bool.and_eq_true, beq_iff_eq] at hboth
  refine ⟨r, hr, hboth.1, ?_⟩
  intro hrevoked
  have hsome := (List.mem_filter.1 hrevoked).2
  rw [Option.isNone_iff_eq_none.1 hboth.2] at hsome
  cases hsome

end NpsSdk.Nip.Ca
