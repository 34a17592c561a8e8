import NpsSdk.Core.AnchorCache
import NpsSdk.Lib.JsonReader

/-!
# What the schema cache promises

A schema that is announced is there for its time to live unless it is evicted, exactly if what it was announced over
lasts as long; and what is evicted was used no later than any other entry.
-/

namespace NpsSdk.Core.AnchorCache

open NpsSdk.Lib

variable {c c' : AnchorCache} {frame : AnchorFrame} {id key : String} {now later : ℚ} {call : Call}

/-! ### The entry that is evicted -/

/-- The loop of `evictLru` finds the first entry that was accessed before each one ahead of it, and no later than
each one after it. -/
theorem foldl_older (es : List (String × CacheEntry)) (oldest : Option String × JsDouble) :
    (es.foldl older oldest = oldest ∧ ∀ e ∈ es, ¬ (.fin e.2.lastAccessed : JsDouble) < oldest.2) ∨
      ∃ e ∈ es, es.foldl older oldest = (some e.1, .fin e.2.lastAccessed) ∧
        (.fin e.2.lastAccessed : JsDouble) < oldest.2 ∧ ∀ e' ∈ es, e.2.lastAccessed ≤ e'.2.lastAccessed := by
  induction es generalizing oldest with
  | nil => exact .inl ⟨rfl, nofun⟩
  | cons e es ih =>
    rw [List.foldl_cons]
    by_cases hlt : (.fin e.2.lastAccessed : JsDouble) < oldest.2
    · have hstep : older oldest e = (some e.1, .fin e.2.lastAccessed) := if_pos hlt
      rw [hstep]
      right
      rcases ih (some e.1, .fin e.2.lastAccessed) with ⟨heq, hleast⟩ | ⟨m, hm, heq, hbelow, hleast⟩
      · refine ⟨e, List.mem_cons_self, heq, hlt, ?_⟩
        rintro e' (_ | ⟨_, he'⟩)
        · exact le_refl _
        · have hnot := hleast e' he'
          exact not_lt.1 fun h => hnot (decide_eq_true h)
      · have hm' : m.2.lastAccessed < e.2.lastAccessed := of_decide_eq_true hbelow
        refine ⟨m, List.mem_cons_of_mem e hm, heq, JsDouble.lt_trans hbelow hlt, ?_⟩
        rintro e' (_ | ⟨_, he'⟩)
        · exact hm'.le
        · exact hleast e' he'
    · have hstep : older oldest e = oldest := if_neg hlt
      rw [hstep]
      rcases ih oldest with ⟨heq, hleast⟩ | ⟨m, hm, heq, hbelow, hleast⟩
      · refine .inl ⟨heq, ?_⟩
        rintro e' (_ | ⟨_, he'⟩)
        · exact hlt
        · exact hleast e' he'
      · refine .inr ⟨m, List.mem_cons_of_mem e hm, heq, hbelow, ?_⟩
        rintro e' (_ | ⟨_, he'⟩)
        · have hle : ¬ e.2.lastAccessed < m.2.lastAccessed := fun h =>
            hlt (JsDouble.lt_trans (a := .fin e.2.lastAccessed) (decide_eq_true h) hbelow)
          exact not_lt.1 hle
        · exact hleast e' he'

theorem lruKey_spec {cache : JsMap String CacheEntry} (h : lruKey cache = some key) :
    ∃ e, cache.get key = some e ∧ ∀ other e', cache.get other = some e' → e.lastAccessed ≤ e'.lastAccessed := by
  have hfirst : (cache.entries.foldl older (none, .posInf)).1 = some key := by
    unfold lruKey at h
    cases hkey : (cache.entries.foldl older (none, .posInf)).1 with
    | none =>
      rw [hkey] at h
      cases h
    | some k =>
      rw [hkey, truthy] at h
      split at h
      · cases h
      · exact h
  rcases foldl_older cache.entries (none, .posInf) with ⟨heq, -⟩ | ⟨e, he, heq, -, hleast⟩
  · rw [heq] at hfirst
    cases hfirst
  · rw [heq] at hfirst
    obtain rfl : e.1 = key := Option.some.inj hfirst
    refine ⟨e.2, (JsMap.mem_entries_iff _ _ _).1 he, fun other e' hother => ?_⟩
    exact hleast (other, e') ((JsMap.mem_entries_iff _ _ _).2 hother)

/-! ### What a call does -/

/-- The cache once there is room for another entry. -/
def makeRoom (c : AnchorCache) : AnchorCache := if c.atCapacity then c.evictLru else c

theorem get_evictLru (h : lruKey c.cache ≠ some id) : c.evictLru.cache.get id = c.cache.get id := by
  unfold evictLru
  split
  · rename_i oldestKey hkey
    have hne : id ≠ oldestKey := fun heq => h (heq ▸ hkey)
    rw [JsMap.get_delete, if_neg hne]
  · rfl

theorem get_makeRoom (h : c.atCapacity = true → lruKey c.cache ≠ some id) :
    c.makeRoom.cache.get id = c.cache.get id := by
  unfold makeRoom
  split
  · rename_i hfull
    exact get_evictLru (h hfull)
  · rfl

/-- What a call of `set` does that caches something. -/
theorem set_ok (hok : c.set frame now later = .ok c') (httl : frame.ttl ≠ some 0) :
    (∃ existing, c.cache.get frame.anchor_id = some existing ∧ existing.frame.schema = frame.schema ∧
      c' = { c with cache := c.cache.set frame.anchor_id { existing with lastAccessed := later } }) ∨
    (c.cache.get frame.anchor_id = none ∧
      c' = { c.makeRoom with cache := c.makeRoom.cache.set frame.anchor_id ⟨frame, now + frame.ttlMs, later⟩ }) := by
  unfold set at hok
  rw [if_neg httl] at hok
  cases hget : c.cache.get frame.anchor_id with
  | some existing =>
    rw [hget] at hok
    dsimp only at hok
    split at hok
    · cases hok
    · rename_i hsame
      cases hok
      exact .inl ⟨existing, rfl, Json.text_injective (not_not.1 hsame), rfl⟩
  | none =>
    rw [hget] at hok
    cases hok
    exact .inr ⟨rfl, rfl⟩

/-- **What a call does** to the entry of a key. -/
inductive Effect (c : AnchorCache) (call : Call) (id : String) : Prop
  | gone (now : (step c call).cache.get id = none)
      (why : c.cache.get id = none ∨ c.evicted call = some id ∨
        ∃ e, c.cache.get id = some e ∧ e.expiresAt ≤ call.now)
  | kept (e : CacheEntry) (before : c.cache.get id = some e) (unused : c.used call ≠ some id)
      (now : (step c call).cache.get id = some e)
  | used (e : CacheEntry) (before : c.cache.get id = some e) (used : c.used call = some id)
      (now : (step c call).cache.get id = some { e with lastAccessed := call.later })
  | announced (frame : AnchorFrame) (before : c.cache.get id = none) (used : c.used call = some id)
      (now : (step c call).cache.get id = some ⟨frame, call.now + frame.ttlMs, call.later⟩)

theorem effect_same (hstep : step c call = c) (hunused : c.used call = none) (id : String) : Effect c call id := by
  cases hget : c.cache.get id with
  | none => exact .gone (by rw [hstep, hget]) (.inl hget)
  | some e => exact .kept e hget (by rw [hunused]; nofun) (by rw [hstep, hget])

theorem effect_get (c : AnchorCache) (anchorId : String) (now later : ℚ) (id : String) :
    Effect c (.get anchorId now later) id := by
  cases hget : c.cache.get anchorId with
  | none =>
    have heq : c.get anchorId now later = (none, c) := by
      unfold get
      rw [hget]
    exact effect_same (by rw [step, heq]) (by rw [AnchorCache.used, heq]; rfl) id
  | some entry =>
    by_cases hexpired : entry.expiresAt ≤ now
    · have heq : c.get anchorId now later = (none, { c with cache := c.cache.delete anchorId }) := by
        unfold get
        rw [hget]
        exact if_pos hexpired
      have hstep : step c (.get anchorId now later) = { c with cache := c.cache.delete anchorId } := by rw [step, heq]
      by_cases hid : id = anchorId
      · subst hid
        exact .gone (by rw [hstep, JsMap.get_delete_self]) (.inr (.inr ⟨entry, hget, hexpired⟩))
      · have hsame : (step c (.get anchorId now later)).cache.get id = c.cache.get id := by
          rw [hstep, JsMap.get_delete, if_neg hid]
        cases hother : c.cache.get id with
        | none => exact .gone (hsame.trans hother) (.inl hother)
        | some e => exact .kept e hother (by rw [AnchorCache.used, heq]; nofun) (hsame.trans hother)
    · have heq : c.get anchorId now later =
          (some entry.frame, { c with cache := c.cache.set anchorId { entry with lastAccessed := later } }) := by
        unfold get
        rw [hget]
        exact if_neg hexpired
      have hused : c.used (.get anchorId now later) = some anchorId := by
        rw [AnchorCache.used, heq]
        rfl
      by_cases hid : id = anchorId
      · subst hid
        exact .used entry hget hused (by rw [step, heq, JsMap.get_set_self]; rfl)
      · have hsame : (step c (.get anchorId now later)).cache.get id = c.cache.get id := by
          rw [step, heq, JsMap.get_set_ne _ _ hid]
        cases hother : c.cache.get id with
        | none => exact .gone (hsame.trans hother) (.inl hother)
        | some e =>
          exact .kept e hother (by rw [hused]; exact fun h => hid (Option.some.inj h).symm) (hsame.trans hother)

theorem effect_set (c : AnchorCache) (frame : AnchorFrame) (now later : ℚ) (id : String) :
    Effect c (.set frame now later) id := by
  cases hset : c.set frame now later with
  | error e => exact effect_same (by rw [step, hset]) (by rw [AnchorCache.used, hset]) id
  | ok c' =>
    have hstep : step c (.set frame now later) = c' := by rw [step, hset]
    by_cases httl : frame.ttl = some 0
    · have hsame : c' = c := by
        unfold set at hset
        rw [if_pos httl] at hset
        exact (Except.ok.inj hset).symm
      exact effect_same (hstep.trans hsame) (by rw [AnchorCache.used, hset]; exact if_pos httl) id
    have hused : c.used (.set frame now later) = some frame.anchor_id := by
      rw [AnchorCache.used, hset]
      exact if_neg httl
    have hunused : id ≠ frame.anchor_id → c.used (.set frame now later) ≠ some id := by
      rw [hused]
      exact fun hid h => hid (Option.some.inj h).symm
    rcases set_ok hset httl with ⟨existing, hget, -, hc'⟩ | ⟨hnone, hc'⟩
    · by_cases hid : id = frame.anchor_id
      · subst hid
        exact .used existing hget hused (by rw [hstep, hc', JsMap.get_set_self]; rfl)
      · have hsame : (step c (.set frame now later)).cache.get id = c.cache.get id := by
          rw [hstep, hc', JsMap.get_set_ne _ _ hid]
        cases hother : c.cache.get id with
        | none => exact .gone (hsame.trans hother) (.inl hother)
        | some e => exact .kept e hother (hunused hid) (hsame.trans hother)
    · by_cases hid : id = frame.anchor_id
      · subst hid
        exact .announced frame hnone hused (by rw [hstep, hc', JsMap.get_set_self]; rfl)
      · have hroom : (step c (.set frame now later)).cache.get id = c.makeRoom.cache.get id := by
          rw [hstep, hc', JsMap.get_set_ne _ _ hid]
        by_cases hevicted : c.atCapacity = true ∧ lruKey c.cache = some id
        · have hgone : c.makeRoom.cache.get id = none := by
            rw [makeRoom, if_pos hevicted.1, evictLru, hevicted.2, JsMap.get_delete_self]
          refine .gone (hroom.trans hgone) (.inr (.inl ?_))
          rw [evicted, if_pos ⟨httl, hnone, hevicted.1⟩, hevicted.2]
        · have hkept : c.makeRoom.cache.get id = c.cache.get id :=
            get_makeRoom fun hfull hlru => hevicted ⟨hfull, hlru⟩
          cases hother : c.cache.get id with
          | none => exact .gone (hroom.trans (hkept.trans hother)) (.inl hother)
          | some e => exact .kept e hother (hunused hid) (hroom.trans (hkept.trans hother))

theorem effect (c : AnchorCache) : ∀ call id, Effect c call id
  | .set frame now later, id => effect_set c frame now later id
  | .get anchorId now later, id => effect_get c anchorId now later id

/-! ### When entries were used -/

/-- The times that are noted are those of the entries. -/
def Timed (c : AnchorCache) (uses : String → Option ℚ) : Prop :=
  ∀ key e, c.cache.get key = some e → uses key = some e.lastAccessed

theorem Timed.step {uses : String → Option ℚ} (hinv : Timed c uses) (call : Call) :
    Timed (AnchorCache.step c call) (noteUse uses c call) := by
  intro key e hget
  unfold noteUse
  cases effect c call key with
  | gone now why =>
    rw [now] at hget
    cases hget
  | kept e' before unused now =>
    rw [if_neg unused]
    rw [now] at hget
    cases hget
    exact hinv key e before
  | used e' before used now =>
    rw [if_pos used]
    rw [now] at hget
    cases hget
    rfl
  | announced frame before used now =>
    rw [if_pos used]
    rw [now] at hget
    cases hget
    rfl

theorem lastUse_eq (maxSize : JsDouble) (calls : List Call) {e : CacheEntry}
    (h : (after maxSize calls).cache.get key = some e) : lastUse maxSize calls key = some e.lastAccessed := by
  have htimed : Timed (after maxSize calls) (lastUse maxSize calls) :=
    noted_induction nofun fun _ _ call hinv => hinv.step call
  exact htimed key e h

/-! ### Entries that last -/

/-- A schema is cached under a key, and lasts until some time. -/
structure Holds (id : String) (schema : Json) (deadline : ℚ) (c : AnchorCache) : Prop where
  entry : ∃ e, c.cache.get id = some e ∧ e.frame.schema = schema ∧ deadline ≤ e.expiresAt

variable {schema : Json} {deadline : ℚ}

theorem Holds.step (h : Holds id schema deadline c) (hnow : call.now < deadline) (hkept : c.evicted call ≠ some id) :
    Holds id schema deadline (step c call) := by
  obtain ⟨e, hget, hschema, hlasts⟩ := h.entry
  cases effect c call id with
  | gone now why =>
    rcases why with hnone | hevicted | ⟨e', hget', hexpired⟩
    · rw [hget] at hnone
      cases hnone
    · exact absurd hevicted hkept
    · rw [hget] at hget'
      cases hget'
      exact absurd (hlasts.trans hexpired) (not_le.2 hnow)
  | kept e' before unused now =>
    rw [hget] at before
    cases before
    exact ⟨e, now, hschema, hlasts⟩
  | used e' before used now =>
    rw [hget] at before
    cases before
    exact ⟨_, now, hschema, hlasts⟩
  | announced frame before used now =>
    rw [hget] at before
    cases before

theorem Holds.run {calls : List Call} (h : Holds id schema deadline c) (hnow : ∀ call ∈ calls, call.now < deadline)
    (hkept : Along AnchorCache.step (fun c call => c.evicted call ≠ some id) c calls) :
    Holds id schema deadline (Lib.run AnchorCache.step c calls) := by
  refine run_induction_along (P := fun c call => call.now < deadline ∧ c.evicted call ≠ some id) h
    (fun c call hc hcall => hc.step hcall.1 hcall.2) fun pre call post heq => ⟨hnow call (by simp [heq]), ?_⟩
  exact hkept pre call post heq

theorem Holds.get (h : Holds id schema deadline c) (hnow : now < deadline) :
    ∃ frame, (c.get id now later).1 = some frame ∧ frame.schema = schema := by
  obtain ⟨e, hget, hschema, hlasts⟩ := h.entry
  have hlive : ¬ e.expiresAt ≤ now := not_le.2 (hnow.trans_le hlasts)
  refine ⟨e.frame, ?_, hschema⟩
  unfold AnchorCache.get
  rw [hget]
  dsimp only
  rw [if_neg hlive]

/-! ### Announcements that last -/

/-- A call announces no schema for longer than its entry lasts: an id that is cached is announced again only for a
time that its entry covers, and where an entry is made the clock stands still for the call. -/
def Lasting (c : AnchorCache) : Call → Prop
  | .set frame now later => 0 < frame.ttlMs →
    match c.cache.get frame.anchor_id with
    | some existing => existing.frame.schema = frame.schema → later + frame.ttlMs ≤ existing.expiresAt
    | none => later ≤ now
  | .get .. => True

theorem ttl_ne_zero (hpos : 0 < frame.ttlMs) : frame.ttl ≠ some 0 := by
  intro hzero
  unfold AnchorFrame.ttlMs at hpos
  rw [hzero] at hpos
  simp at hpos

theorem entry_of_set (hpos : 0 < frame.ttlMs) (hok : c.set frame now later = .ok c') :
    ∃ e, c'.cache.get frame.anchor_id = some e ∧ e.frame.schema = frame.schema ∧
      (c.Lasting (.set frame now later) ↔ later + frame.ttlMs ≤ e.expiresAt) := by
  rcases set_ok hok (ttl_ne_zero hpos) with ⟨existing, hget, hschema, hc'⟩ | ⟨hnone, hc'⟩
  · refine ⟨{ existing with lastAccessed := later }, by rw [hc', JsMap.get_set_self], hschema, ?_⟩
    dsimp only [Lasting]
    rw [hget]
    exact ⟨fun h => h hpos hschema, fun h _ _ => h⟩
  · refine ⟨⟨frame, now + frame.ttlMs, later⟩, by rw [hc', JsMap.get_set_self], rfl, ?_⟩
    dsimp only [Lasting]
    rw [hnone]
    exact ⟨fun h => by linarith [h hpos], fun h _ => by linarith⟩

theorem lasting_of_error {err : NcpError} (herr : c.set frame now later = .error err) :
    c.Lasting (.set frame now later) := by
  intro _
  unfold set at herr
  split at herr
  · cases herr
  · cases hget : c.cache.get frame.anchor_id with
    | none =>
      rw [hget] at herr
      cases herr
    | some existing =>
      rw [hget] at herr
      dsimp only at herr ⊢
      split at herr
      · rename_i hdiffers
        intro hsame
        rw [hsame] at hdiffers
        exact absurd rfl hdiffers
      · cases herr

/-! ### The law of the cache -/

theorem after_append (maxSize : JsDouble) (pre post : List Call) :
    after maxSize (pre ++ post) = run step (after maxSize pre) post := run_append

theorem Clocked.upTo {pre post : List Call} (h : Clocked (pre ++ call :: post)) {n : ℚ} (hn : call.later ≤ n)
    (id : String) : Clocked (pre ++ call :: ([] ++ [.get id n n])) := by
  obtain ⟨hpre, hrest, hcross⟩ := List.pairwise_append.1 h.between
  refine ⟨fun d hd => ?_, List.pairwise_append.2 ⟨hpre, ?_, fun a ha b hb => ?_⟩⟩
  · simp only [List.nil_append, List.mem_append, List.mem_cons, List.not_mem_nil, or_false] at hd
    rcases hd with hd | rfl | rfl
    · exact h.within d (List.mem_append_left _ hd)
    · exact h.within d (by simp)
    · exact le_refl n
  · simp only [List.nil_append, List.pairwise_cons, List.mem_singleton, forall_eq, List.not_mem_nil, false_implies,
      implies_true, List.Pairwise.nil, and_true]
    exact hn
  · have hbefore := hcross a ha call List.mem_cons_self
    have hwithin := h.within call (by simp)
    simp only [List.nil_append, List.mem_cons, List.not_mem_nil, or_false] at hb
    rcases hb with rfl | rfl
    · exact hbefore
    · exact hbefore.trans (hwithin.trans hn)

theorem Clocked.now_le {pre mid : List Call} {last : Call} (h : Clocked (pre ++ call :: (mid ++ [last])))
    {d : Call} (hd : d ∈ mid) : d.now ≤ last.now := by
  have hwithin := h.within d (by simp [hd])
  obtain ⟨-, hrest, -⟩ := List.pairwise_append.1 h.between
  have hmid := (List.pairwise_append.1 (List.pairwise_cons.1 hrest).2).2.2
  exact hwithin.trans (hmid d hd last List.mem_cons_self)

/-- **The law of the cache**, over some calls: however they go on, a schema that was announced is read until its time
to live is over, unless its entry is evicted; and an entry that is evicted was used no later than any other one. -/
structure Lawful (maxSize : JsDouble) (calls : List Call) : Prop where
  fresh (pre post : List Call) {frame : AnchorFrame} {now later : ℚ}
    (heq : calls = pre ++ .set frame now later :: post) (hpos : 0 < frame.ttlMs) {c' : AnchorCache}
    (hok : (after maxSize pre).set frame now later = .ok c') (mid : List Call) (n l : ℚ)
    (hclock : Clocked (pre ++ .set frame now later :: (mid ++ [.get frame.anchor_id n l])))
    (hkept : Along step (fun c call => c.evicted call ≠ some frame.anchor_id) c' mid)
    (hn : n < later + frame.ttlMs) :
    ∃ read, ((after maxSize (pre ++ .set frame now later :: mid)).get frame.anchor_id n l).1 = some read ∧
      read.schema = frame.schema
  lru (pre post : List Call) {call : Call} {key : String} (heq : calls = pre ++ call :: post)
    (hevicted : (after maxSize pre).evicted call = some key) :
    ∃ t, lastUse maxSize pre key = some t ∧ ∀ other, (after maxSize pre).cache.has other = true →
      ∃ t', lastUse maxSize pre other = some t' ∧ t ≤ t'

theorem lastUse_of_evicted {maxSize : JsDouble} {pre : List Call} (h : (after maxSize pre).evicted call = some key) :
    ∃ t, lastUse maxSize pre key = some t ∧ ∀ other, (after maxSize pre).cache.has other = true →
      ∃ t', lastUse maxSize pre other = some t' ∧ t ≤ t' := by
  have hkey : lruKey (after maxSize pre).cache = some key := by
    cases call with
    | set frame now later =>
      simp only [evicted] at h
      split_ifs at h
      exact h
    | get => cases h
  obtain ⟨e, hget, hleast⟩ := lruKey_spec hkey
  refine ⟨e.lastAccessed, lastUse_eq maxSize pre hget, fun other hother => ?_⟩
  obtain ⟨e', hget'⟩ := JsMap.get_of_mem_keys ((JsMap.get_isSome_iff _ _).1 hother)
  exact ⟨e'.lastAccessed, lastUse_eq maxSize pre hget', hleast other e' hget'⟩

/-- **The cache keeps its law** exactly if no schema is announced for longer than its entry lasts. -/
theorem lawful_iff (maxSize : JsDouble) (calls : List Call) (hclock : Clocked calls) :
    Lawful maxSize calls ↔ Along step Lasting { maxSize } calls := by
  constructor
  · rintro h pre call post rfl
    cases call with
    | get => trivial
    | set frame now later =>
      cases hset : (after maxSize pre).set frame now later with
      | error err => exact lasting_of_error hset
      | ok c' =>
        intro hpos
        obtain ⟨e, hget, -, hlasting⟩ := entry_of_set hpos hset
        refine hlasting.2 ?_ hpos
        by_contra hshort
        -- the entry has expired by then, and its time is not over
        have hn : max later e.expiresAt < later + frame.ttlMs := max_lt (by linarith) (not_le.1 hshort)
        obtain ⟨read, hread, -⟩ := h.fresh pre post rfl hpos hset [] (max later e.expiresAt) (max later e.expiresAt)
          (hclock.upTo (le_max_left _ _) _) along_nil hn
        have hafter : after maxSize (pre ++ [.set frame now later]) = c' := by
          rw [after_append, run_cons, run_nil, step, hset]
        rw [hafter, AnchorCache.get, hget] at hread
        dsimp only at hread
        rw [if_pos (le_max_right _ _)] at hread
        cases hread
  · intro h
    refine ⟨?_, fun _ _ _ _ _ hevicted => lastUse_of_evicted hevicted⟩
    rintro pre post frame now later rfl hpos c' hok mid n l hclock' hkept hn
    obtain ⟨e, hget, hschema, hlasting⟩ := entry_of_set hpos hok
    have hholds : Holds frame.anchor_id frame.schema (later + frame.ttlMs) c' :=
      ⟨e, hget, hschema, hlasting.1 (h pre _ post rfl)⟩
    have hafter : after maxSize (pre ++ .set frame now later :: mid) = run step c' mid := by
      rw [after_append, run_cons, step, hok]
    rw [hafter]
    exact (hholds.run (fun d hd => (hclock'.now_le hd).trans_lt hn) hkept).get hn

/-- A frame, with a time to live of some seconds. -/
def announced (ttl : ℚ) : AnchorFrame := ⟨"sha256:1", .obj [("fields", .arr [])], some ttl⟩

/-- Announced for ten seconds, and again five seconds later, a schema is there for ten seconds in all. -/
theorem reannounced_not_lawful :
    Clocked [.set (announced 10) 0 0, .set (announced 10) 5000 5000] ∧
      ¬ Lawful (.fin 1000) [.set (announced 10) 0 0, .set (announced 10) 5000 5000] := by
  refine ⟨⟨by decide, by decide⟩, fun h => ?_⟩
  obtain ⟨read, hread, -⟩ := h.fresh [.set (announced 10) 0 0] [] rfl (by decide +kernel) rfl [] 12000 12000
    ⟨by decide, by decide⟩ along_nil (by decide +kernel)
  have hsome := congrArg Option.isSome hread
  rw [Option.isSome_some] at hsome
  revert hsome
  decide +kernel

/-- A schema that is announced anew for no longer than it lasts. -/
theorem short_lawful : Lawful (.fin 1000) [.set (announced 10) 0 0, .set (announced 5) 2000 2000] := by
  refine (lawful_iff (.fin 1000) _ ⟨by decide, by decide⟩).2 ?_
  refine along_cons.2 ⟨fun _ => le_refl _, along_cons.2 ⟨fun _ _ => ?_, along_nil⟩⟩
  decide +kernel

end NpsSdk.Core.AnchorCache
