import NpsSdk.Nip.Ca.Revocation

/-!
# The cascade of a group's revocation

A revocation of a group marks the group, reads its sessions once, and revokes them one after the other, each
in an operation of the store that may fail.  This file follows such a call through its stages, and says what
its operations do to the live sessions of the group.
-/

namespace NpsSdk.Nip.Ca

open NpsSdk.Lib

/-! ### The live sessions of a group -/

def liveChild (g : String) (r : NipCertRecord) : Bool := r.parentNid == some g && r.revokedAt.isNone

/-- How many live records with the parent `g` are of the NID. -/
def liveChildren (g nid : String) (records : List NipCertRecord) : ℕ :=
  records.countP fun r => r.nid == nid && liveChild g r

/-- After a live record with the parent `g`, each live record of its NID has this parent too. -/
def NoStranger (g : String) (records : List NipCertRecord) : Prop :=
  records.Pairwise fun r x => liveChild g r = true → x.nid = r.nid → x.revokedAt = none → x.parentNid = some g

section

variable {g nid n reason : String} {t : ℤ} {r x : NipCertRecord} {pre post records : List NipCertRecord}
  {s : InMemoryNipCaStore}

theorem liveChild_iff : liveChild g r = true ↔ r.parentNid = some g ∧ r.revokedAt = none := by
  simp [liveChild]

theorem liveChild_markRevoked : liveChild g (r.markRevoked reason t) = false := by
  simp [liveChild]

theorem noStranger_snoc (h : NoStranger g records) (hr : r.parentNid = some g) : NoStranger g (records ++ [r]) := by
  refine List.pairwise_append.2 ⟨h, List.pairwise_singleton _ _, ?_⟩
  intro x _ y hy _ _ _
  rw [List.mem_singleton.1 hy]
  exact hr

theorem noStranger_mark (h : NoStranger g (pre ++ x :: post)) :
    NoStranger g (pre ++ x.markRevoked reason t :: post) := by
  obtain ⟨hpre, htail, hacross⟩ := List.pairwise_append.1 h
  obtain ⟨-, hpost⟩ := List.pairwise_cons.1 htail
  refine List.pairwise_append.2 ⟨hpre, List.pairwise_cons.2 ⟨?_, hpost⟩, ?_⟩
  · intro y _ hlive
    rw [liveChild_markRevoked] at hlive
    cases hlive
  · intro y hy z hz
    rcases List.mem_cons.1 hz with rfl | hz
    · intro _ _ hlive
      cases hlive
    · exact hacross y hy z (List.mem_cons_of_mem _ hz)

theorem noStranger_revoke (h : NoStranger g s.records) : NoStranger g (s.revoke nid reason t).2.records := by
  rcases s.revoke_cases nid reason t with ⟨pre, x, post, hs, -, -, -, hrev⟩ | ⟨-, hrev⟩
  · rw [hrev]
    rw [hs] at h
    exact noStranger_mark h
  · rwa [hrev]

/-- **A revocation reaches a live session first**: it takes one of the NID's, if there is one, and adds none. -/
theorem liveChildren_revoke (h : NoStranger g s.records) :
    liveChildren g nid (s.revoke nid reason t).2.records ≤ liveChildren g nid s.records - 1 := by
  rcases s.revoke_cases nid reason t with ⟨pre, x, post, hs, hx, hlive, hlater, hrev⟩ | ⟨hdead, hrev⟩
  · rw [hrev, hs]
    rw [hs] at h
    by_cases hchild : x.parentNid = some g
    · have hcount : (x.nid == nid && liveChild g x) = true := by simp [hx, liveChild, hchild, hlive]
      simp only [liveChildren, List.countP_append, List.countP_cons, hcount, if_true]
      simp [liveChild_markRevoked]
    · -- the record that is marked is none of the group's, so the group has no live one of the NID
      obtain ⟨-, -, hacross⟩ := List.pairwise_append.1 h
      have hzero : liveChildren g nid (pre ++ x.markRevoked reason t :: post) = 0 := by
        rw [liveChildren, List.countP_eq_zero]
        intro y hy hcount
        simp only [Bool.and_eq_true, beq_iff_eq] at hcount
        obtain ⟨hnid, hylive⟩ := hcount
        rcases List.mem_append.1 hy with hy | hy
        · exact hchild (hacross y hy x List.mem_cons_self hylive (hx.trans hnid.symm) hlive)
        · rcases List.mem_cons.1 hy with rfl | hy
          · rw [liveChild_markRevoked] at hylive
            cases hylive
          · have hrevoked := hlater y hy hnid
            rw [(liveChild_iff.1 hylive).2] at hrevoked
            cases hrevoked
      rw [hzero]
      omega
  · rw [hrev]
    have hzero : liveChildren g nid s.records = 0 := by
      rw [liveChildren, List.countP_eq_zero]
      intro y hy hcount
      simp only [Bool.and_eq_true, beq_iff_eq] at hcount
      have hrevoked := hdead y hy hcount.1
      rw [(liveChild_iff.1 hcount.2).2] at hrevoked
      cases hrevoked
    show liveChildren g nid s.records ≤ _
    omega

theorem liveChildren_revoke_le : liveChildren g n (s.revoke nid reason t).2.records ≤ liveChildren g n s.records := by
  rcases s.revoke_cases nid reason t with ⟨pre, x, post, hs, -, -, -, hrev⟩ | ⟨-, hrev⟩
  · rw [hrev, hs]
    simp only [liveChildren, List.countP_append, List.countP_cons]
    simp [liveChild_markRevoked]
  · rw [hrev]

theorem liveChildren_getByParentNid : liveChildren g n (s.getByParentNid g) = liveChildren g n s.records := by
  rw [liveChildren, liveChildren, InMemoryNipCaStore.getByParentNid, List.countP_filter]
  refine List.countP_congr fun r _ => ?_
  simp only [liveChild, Bool.and_eq_true, beq_iff_eq]
  tauto

theorem revoked_of_liveChildren (h : ∀ n, liveChildren g n records = 0) (hr : r ∈ records)
    (hparent : r.parentNid = some g) : r.revokedAt.isSome = true := by
  have hnot := List.countP_eq_zero.1 (h r.nid) r hr
  simpa [liveChild, hparent, Option.isSome_iff_ne_none] using hnot

end

/-! ### A store that may fail -/

def CaOp.usesStore : CaOp → Bool
  | .store _ => true
  | _ => false

/-- Performs an operation; an operation of the certificate store may fail, and does nothing then. -/
def execFailing (sha256 : String → String) (a : Ambient × Bool) (o : CaOp) (s : CaState) :
    Except CaError o.Res × CaState :=
  if a.2 && o.usesStore then (.error (.error "store failure"), s) else exec sha256 a.1 o s

abbrev FailingTurn := Turn CaCall (Ambient × Bool)

def failingTurn (ca : NipCaService) (sha256 : String → String) (w : CaPool) (e : FailingTurn) : CaPool :=
  w.step (execFailing sha256) CaOp.awaited (CaCall.program ca) e

theorem execFailing_cases (sha256 : String → String) (a : Ambient × Bool) (o : CaOp) (s : CaState) :
    execFailing sha256 a o s = (.error (.error "store failure"), s) ∧ o.usesStore = true ∨
      execFailing sha256 a o s = exec sha256 a.1 o s := by
  unfold execFailing
  split
  · rename_i h
    exact .inl ⟨rfl, (Bool.and_eq_true_iff.1 h).2⟩
  · exact .inr rfl

/-! ### The stages of a revocation -/

def Fails (p : CaAsync CaReply) : Prop := ∃ e, p = .done (.error e)

/-- About to revoke the live ones of these records, and to end after that. -/
def Cascades (rest : List NipCertRecord) (p : CaAsync CaReply) : Prop :=
  ∃ now f, p = (NipCaService.cascade now rest >>= f) ∧ ∃ r, f () = .done r

def ReadsChildren (g : String) (p : CaAsync CaReply) : Prop :=
  ∃ k, p = .op (.store (.getByParentNid g)) k ∧ (∀ e, Fails (k (.error e))) ∧
    ∀ children, Cascades children (k (.ok children))

def MarksGroup (g : String) (p : CaAsync CaReply) : Prop :=
  ∃ k, p = .op .now k ∧ ∀ t, ∃ reason k', k (.ok t) = .op (.store (.revoke g reason t)) k' ∧
    (∀ e, Fails (k' (.error e))) ∧ Fails (k' (.ok false)) ∧ ReadsChildren g (k' (.ok true))

def AsksGroup (g : String) (p : CaAsync CaReply) : Prop :=
  ∃ k, p = .op (.store (.getByNid g)) k ∧ (∀ e, Fails (k (.error e))) ∧ Fails (k (.ok none)) ∧
    ∀ r : NipCertRecord, r.nidRole = some NID_ROLE_GROUP → MarksGroup g (k (.ok (some r)))

section

variable {ca : NipCaService} {g reason : String}

theorem cascades_of_read {t : ℤ} {children : List NipCertRecord} {frame : String → CaRevokeFrame} :
    Cascades children ((NipCaService.cascade t children >>= fun _ =>
      NipCaService.isoDate t >>= fun text => pure (frame text)) >>= fun frame => pure (.revoked frame)) := by
  refine ⟨t, _, Async.bind_bind _ _ _, ?_⟩
  unfold NipCaService.isoDate
  cases isoRoundTrip t with
  | none => exact ⟨_, rfl⟩
  | some text => exact ⟨_, rfl⟩

theorem asksGroup_revoke : AsksGroup g ((CaCall.revoke g reason).program ca) := by
  refine ⟨_, rfl, fun e => ⟨e, rfl⟩, ⟨_, rfl⟩, ?_⟩
  intro r hrole
  refine ⟨_, rfl, ?_⟩
  intro t
  refine ⟨reason, _, rfl, fun e => ⟨e, rfl⟩, ⟨_, rfl⟩, ?_⟩
  simp only [Async.bind, not_true_eq_false, if_false, hrole, if_true]
  exact ⟨_, rfl, fun e => ⟨e, rfl⟩, fun children => cascades_of_read⟩

/-! ### Turns of a revocation -/

variable {sha256 : String → String} {amb : ℕ → Ambient × Bool} {s : CaState} {p : CaAsync CaReply}
  {rest : List NipCertRecord}

def AfterTurn (sha256 : String → String) (p : CaAsync CaReply) (amb : ℕ → Ambient × Bool) (s : CaState)
    (Q : CaAsync CaReply → CaState → Prop) : Prop :=
  Q (p.advance (execFailing sha256) CaOp.awaited amb s).1 (p.advance (execFailing sha256) CaOp.awaited amb s).2

theorem AsksGroup.advance (h : AsksGroup g p) {r : NipCertRecord} (hr : s.certs.getByNid g = some r)
    (hrole : r.nidRole = some NID_ROLE_GROUP) : AfterTurn sha256 p amb s fun p' _ => Fails p' ∨ MarksGroup g p' := by
  obtain ⟨k, rfl, hfails, -, hmarks⟩ := h
  show Fails (k (execFailing sha256 (amb 0) (.store (.getByNid g)) s).1) ∨
    MarksGroup g (k (execFailing sha256 (amb 0) (.store (.getByNid g)) s).1)
  rcases execFailing_cases sha256 (amb 0) (.store (.getByNid g)) s with ⟨h, -⟩ | h
  · rw [h]
    exact .inl (hfails _)
  · rw [h]
    simp only [exec, execStore, hr]
    exact .inr (hmarks r hrole)

theorem MarksGroup.advance (h : MarksGroup g p) : AfterTurn sha256 p amb s fun p' s' =>
    Fails p' ∨ ReadsChildren g p' ∧ s'.certs.CurrentRevoked g := by
  obtain ⟨k, rfl, hk⟩ := h
  obtain ⟨reason, k', hk', hfails, hfalse, hreads⟩ := hk ((amb 0).1.time 0)
  have hclock : (Async.op CaOp.now k).advance (execFailing sha256) CaOp.awaited amb s =
      (k (.ok ((amb 0).1.time 0))).advance (execFailing sha256) CaOp.awaited (fun n => amb (n + 1)) s := by
    have hnow : execFailing sha256 (amb 0) .now s = (.ok ((amb 0).1.time 0), s) := by
      simp [execFailing, CaOp.usesStore, exec]
    show (k (execFailing sha256 (amb 0) .now s).1).advance _ _ _ (execFailing sha256 (amb 0) .now s).2 = _
    rw [hnow]
  unfold AfterTurn
  rw [hclock, hk']
  show Fails (k' (execFailing sha256 (amb 1) (.store (.revoke g reason _)) s).1) ∨
    ReadsChildren g (k' (execFailing sha256 (amb 1) (.store (.revoke g reason _)) s).1) ∧
      (execFailing sha256 (amb 1) (.store (.revoke g reason _)) s).2.certs.CurrentRevoked g
  rcases execFailing_cases sha256 (amb 1) (.store (.revoke g reason ((amb 0).1.time 0))) s with ⟨h, -⟩ | h
  · rw [h]
    exact .inl (hfails _)
  · rw [h]
    simp only [exec, execStore]
    cases hrevoke : (s.certs.revoke g reason ((amb 0).1.time 0)).1 with
    | false => exact .inl hfalse
    | true => exact .inr ⟨hreads, InMemoryNipCaStore.currentRevoked_of_revoke hrevoke⟩

theorem ReadsChildren.advance (h : ReadsChildren g p) : AfterTurn sha256 p amb s fun p' s' =>
    Fails p' ∨ (amb 0).2 = false ∧ CaOp.store (.getByParentNid g) ∈ p.turnOps (execFailing sha256) CaOp.awaited amb s ∧
      s' = s ∧ Cascades (s.certs.getByParentNid g) p' := by
  obtain ⟨k, rfl, hfails, hcascades⟩ := h
  show Fails (k (execFailing sha256 (amb 0) (.store (.getByParentNid g)) s).1) ∨ _ ∧ _ ∧
    (execFailing sha256 (amb 0) (.store (.getByParentNid g)) s).2 = s ∧
      Cascades _ (k (execFailing sha256 (amb 0) (.store (.getByParentNid g)) s).1)
  cases hfault : (amb 0).2 with
  | true =>
    have h : execFailing sha256 (amb 0) (.store (.getByParentNid g)) s =
        (.error (.error "store failure"), s) := by simp [execFailing, hfault, CaOp.usesStore]
    rw [h]
    exact .inl (hfails _)
  | false =>
    have h : execFailing sha256 (amb 0) (.store (.getByParentNid g)) s =
        (.ok (s.certs.getByParentNid g), s) := by simp [execFailing, hfault, exec, execStore]
    rw [h]
    exact .inr ⟨rfl, List.mem_singleton_self _, rfl, hcascades _⟩

/-- One turn of the cascade revokes the next live record of the list, if there is one. -/
theorem Cascades.advance (h : Cascades rest p) (hstranger : NoStranger g s.certs.records)
    (hle : ∀ n, liveChildren g n s.certs.records ≤ liveChildren g n rest) :
    AfterTurn sha256 p amb s fun p' s' => Fails p' ∨ ∃ rest', Cascades rest' p' ∧
      ∀ n, liveChildren g n s'.certs.records ≤ liveChildren g n rest' := by
  obtain ⟨now, f, rfl, r, hr⟩ := h
  induction rest with
  | nil =>
    have hend : (NipCaService.cascade now [] >>= f) = .done r := hr
    unfold AfterTurn
    rw [hend]
    exact .inr ⟨[], ⟨now, f, hend.symm, r, hr⟩, hle⟩
  | cons child rest ih =>
    by_cases hrevoked : child.revokedAt.isSome = true
    · -- a record that was revoked already is passed over
      have hskip : NipCaService.cascade now (child :: rest) = NipCaService.cascade now rest := by
        rw [NipCaService.cascade, if_pos hrevoked]
      rw [hskip]
      refine ih fun n => (hle n).trans ?_
      have hlive : liveChild g child = false := by
        rw [Bool.eq_false_iff]
        intro hlive
        rw [(liveChild_iff.1 hlive).2] at hrevoked
        cases hrevoked
      simp [liveChildren, hlive]
    · have hnext : (NipCaService.cascade now (child :: rest) >>= f) =
          .op (.store (.revoke child.nid "parent_revoked" now)) fun answered =>
            ((Async.done answered : CaAsync Bool) >>= fun _ => NipCaService.cascade now rest) >>= f := by
        rw [NipCaService.cascade, if_neg hrevoked]
        rfl
      rw [hnext]
      show Fails (((Async.done (execFailing sha256 (amb 0) (.store (.revoke child.nid "parent_revoked" now))
          s).1 : CaAsync Bool) >>= fun _ => NipCaService.cascade now rest) >>= f) ∨ ∃ rest', Cascades rest'
        (((Async.done (execFailing sha256 (amb 0) (.store (.revoke child.nid "parent_revoked" now)) s).1 :
          CaAsync Bool) >>= fun _ => NipCaService.cascade now rest) >>= f) ∧ ∀ n, liveChildren g n
          (execFailing sha256 (amb 0) (.store (.revoke child.nid "parent_revoked" now)) s).2.certs.records ≤ _
      rcases execFailing_cases sha256 (amb 0) (.store (.revoke child.nid "parent_revoked" now)) s with
        ⟨h, -⟩ | h
      · rw [h]
        exact .inl ⟨_, rfl⟩
      · rw [h]
        refine .inr ⟨rest, ⟨now, f, rfl, r, hr⟩, ?_⟩
        intro n
        show liveChildren g n (s.certs.revoke child.nid "parent_revoked" now).2.records ≤ liveChildren g n rest
        have hcount := hle n
        simp only [liveChildren, List.countP_cons] at hcount
        by_cases hn : n = child.nid
        · subst hn
          have hdrop := @liveChildren_revoke g child.nid "parent_revoked" now s.certs hstranger
          simp only [liveChildren] at hdrop ⊢
          split at hcount <;> omega
        · have hother : (child.nid == n && liveChild g child) = false := by simp [Ne.symm hn]
          simp only [hother, Bool.false_eq_true, if_false] at hcount
          have hdrop := @liveChildren_revoke_le g child.nid n "parent_revoked" now s.certs
          simp only [liveChildren] at hdrop ⊢
          omega

theorem Cascades.ended {answer : Except CaError CaReply} (h : Cascades rest (.done answer)) (n : String) :
    liveChildren g n rest = 0 := by
  obtain ⟨now, f, heq, -⟩ := h
  induction rest with
  | nil => rfl
  | cons child rest ih =>
    by_cases hrevoked : child.revokedAt.isSome = true
    · rw [NipCaService.cascade, if_pos hrevoked] at heq
      have hlive : liveChild g child = false := by
        rw [Bool.eq_false_iff]
        intro hlive
        rw [(liveChild_iff.1 hlive).2] at hrevoked
        cases hrevoked
      have := ih heq
      simpa [liveChildren, hlive] using this
    · rw [NipCaService.cascade, if_neg hrevoked] at heq
      cases heq

end

end NpsSdk.Nip.Ca
