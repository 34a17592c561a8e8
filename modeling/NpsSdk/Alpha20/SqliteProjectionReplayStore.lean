import NpsSdk.Lib.JsDouble
import NpsSdk.Lib.JsMap
import NpsSdk.Lib.JsString
import NpsSdk.Lib.Runs

/-!
# The durable replay store

`SqliteProjectionReplayStore`: any number of replicas on one database.  A claim is one immediate
transaction, which reads the clock under the write lock; a row is dropped only once the clock has
passed its retention, and by then the projection it stands for is no longer accepted.
-/

namespace NpsSdk.Alpha20

open NpsSdk.Lib

/-- The tables: the row of `nps_context_replay_meta`, and for each issuer and projection the
`retain_until` of its row in `nps_context_replays`. -/
structure ReplayDatabase where
  schema_version : ℕ := 1
  audience : String
  capacity : ℕ
  last_now : ℤ := 0
  replays : JsMap (String × String) ℤ := .empty

structure SqliteProjectionReplayOptions where
  audience : String
  capacity : JsDouble := 65536

/-- A replica: what it keeps beside its connection. -/
structure SqliteProjectionReplayStore where
  audience : String
  capacity : ℕ

/-- What can throw in a transaction beside the checks. -/
inductive Statement
  | openFile | pragma | begin | create | insertMeta | selectMeta | clock | update | delete | existing
  | count | insert | commit

/-- A transaction works on the tables and leaves them as they were if it throws. -/
abbrev Transaction := StateT ReplayDatabase Option

variable (fails : Statement → Bool)

/-- A statement that may throw. -/
def exec (s : Statement) : Transaction Unit := if fails s then failure else pure ()

/-- A check that throws. -/
def require (p : Prop) [Decidable p] : Transaction Unit := if p then pure () else failure

/-! ### Opening -/

/-- The capacity of a store that is opened, or nothing where the options are refused. -/
def openOptions (location : String) (options : SqliteProjectionReplayOptions) : Option ℕ := do
  guard (startsWith location "/")
  guard (options.audience ≠ "" ∧ options.audience.utf8ByteSize ≤ 512)
  let capacity ← options.capacity.safeInteger
  guard (1 ≤ capacity ∧ capacity ≤ 1000000)
  some capacity.toNat

/-- The transaction that opens a store; it makes the tables where there are none. -/
def openTransaction (db : Option ReplayDatabase) (audience : String) (capacity : ℕ) :
    Option (SqliteProjectionReplayStore × ReplayDatabase) := do
  guard (¬ (fails .openFile || fails .pragma || fails .begin || fails .create || fails .insertMeta ||
    fails .selectMeta))
  let row := db.getD { audience, capacity }
  guard (row.schema_version = 1 ∧ row.audience = audience ∧ row.capacity = capacity)
  guard (¬ fails .commit)
  some ({ audience, capacity }, row)

/-! ### Claiming -/

structure ClaimInput where
  audience : String
  issuer : String
  projectionId : String
  acceptBefore : JsDouble
  retainUntil : JsDouble

inductive ClaimAnswer
  | claimed | duplicate | expired
  deriving DecidableEq

def isHexLower (c : Char) : Bool := c.isDigit || ('a' ≤ c && c ≤ 'f')

/-- The two times of an input that is well formed for this store. -/
def checkInput (store : SqliteProjectionReplayStore) (input : ClaimInput) : Option (ℤ × ℤ) := do
  guard (input.audience = store.audience)
  guard (input.issuer ≠ "" ∧ input.issuer.utf8ByteSize ≤ 512)
  guard (input.projectionId.length = 32 ∧ input.projectionId.toList.all isHexLower)
  let acceptBefore ← input.acceptBefore.safeInteger
  let retainUntil ← input.retainUntil.safeInteger
  guard (0 ≤ acceptBefore ∧ acceptBefore ≤ retainUntil)
  some (acceptBefore, retainUntil)

/-- Inserts the row of a projection that is not there, unless it has ended by `now`. -/
def record (store : SqliteProjectionReplayStore) (key : String × String)
    (acceptBefore retainUntil now : ℤ) : Transaction ClaimAnswer :=
  if acceptBefore ≤ now then pure .expired
  else do
    exec fails .delete
    modify fun db => { db with replays := db.replays.filter fun _ retain => now < retain }
    exec fails .existing
    let db ← get
    if db.replays.has key then pure .duplicate
    else do
      exec fails .count
      require (db.replays.size < store.capacity)
      exec fails .insert
      modify fun db => { db with replays := db.replays.set key retainUntil }
      pure .claimed

/-- The transaction of a claim; `clock` is what the clock reads. -/
def claimTransaction (store : SqliteProjectionReplayStore) (key : String × String)
    (acceptBefore retainUntil : ℤ) (clock : JsDouble) : Transaction ClaimAnswer := do
  exec fails .begin
  exec fails .clock
  exec fails .selectMeta
  let db ← get
  let now ← StateT.lift clock.safeInteger
  require (0 ≤ now ∧ db.last_now ≤ now)
  exec fails .update
  modify fun db => { db with last_now := now }
  let result ← record fails store key acceptBefore retainUntil now
  exec fails .commit
  pure result

/-- A call of `claim`: its input, the clock it reads and what throws in it. -/
structure ClaimCall where
  input : ClaimInput
  clock : JsDouble
  fails : Statement → Bool

/-- `claim`: the answer, nothing where it throws, and the database after it. -/
def claim (store : SqliteProjectionReplayStore) (db : ReplayDatabase) (call : ClaimCall) :
    Option ClaimAnswer × ReplayDatabase :=
  match checkInput store call.input with
  | none => (none, db)
  | some (acceptBefore, retainUntil) =>
    match claimTransaction call.fails store (call.input.issuer, call.input.projectionId) acceptBefore
        retainUntil call.clock db with
    | none => (none, db)
    | some (answer, db') => (some answer, db')

/-! ### What a claim does -/

section Transactions

variable {α β : Type} {x : Transaction α} {f : α → Transaction β} {db : ReplayDatabase}
  {r : β × ReplayDatabase} {fails : Statement → Bool} {st : Statement}

theorem bind_some : (x >>= f) db = some r ↔ ∃ a db', x db = some (a, db') ∧ f a db' = some r := by
  show (x db).bind (fun p => f p.1 p.2) = some r ↔ _
  rw [Option.bind_eq_some_iff]
  exact ⟨fun ⟨⟨a, db'⟩, h⟩ => ⟨a, db', h⟩, fun ⟨a, db', h⟩ => ⟨(a, db'), h⟩⟩

theorem exec_bind {f : Unit → Transaction β} (h : (exec fails st >>= f) db = some r) : f () db = some r := by
  obtain ⟨u, db', hexec, h⟩ := bind_some.1 h
  unfold exec at hexec
  split at hexec
  · cases hexec
  · cases hexec
    exact h

theorem require_bind {p : Prop} [Decidable p] {f : Unit → Transaction β}
    (h : (require p >>= f) db = some r) : p ∧ f () db = some r := by
  obtain ⟨u, db', hp, h⟩ := bind_some.1 h
  unfold require at hp
  split at hp
  · cases hp
    exact ⟨‹p›, h⟩
  · cases hp

theorem get_bind {f : ReplayDatabase → Transaction β} (h : (get >>= f) db = some r) :
    f db db = some r := h

theorem modify_bind {g : ReplayDatabase → ReplayDatabase} {f : PUnit → Transaction β}
    (h : (modify g >>= f) db = some r) : f ⟨⟩ (g db) = some r := h

theorem lift_bind {o : Option α} {f : α → Transaction β} (h : (StateT.lift o >>= f) db = some r) :
    ∃ a, o = some a ∧ f a db = some r := by
  obtain ⟨a, db', ha, h⟩ := bind_some.1 h
  cases o with
  | none => cases ha
  | some b =>
    cases ha
    exact ⟨a, rfl, h⟩

end Transactions

/-- **What a claim does** that answers: it moves the clock of the database on, and before the
projection's end drops the rows whose retention is over and adds its own if there is none. -/
inductive ClaimEffect (store : SqliteProjectionReplayStore) (db : ReplayDatabase) (key : String × String)
    (acceptBefore retainUntil now : ℤ) : ClaimAnswer → ReplayDatabase → Prop
  | expired (late : acceptBefore ≤ now) :
      ClaimEffect store db key acceptBefore retainUntil now .expired { db with last_now := now }
  | duplicate (early : now < acceptBefore)
      (present : (db.replays.filter fun _ retain => now < retain).has key = true) :
      ClaimEffect store db key acceptBefore retainUntil now .duplicate
        { db with last_now := now, replays := db.replays.filter fun _ retain => now < retain }
  | claimed (early : now < acceptBefore)
      (absent : (db.replays.filter fun _ retain => now < retain).has key = false)
      (room : (db.replays.filter fun _ retain => now < retain).size < store.capacity) :
      ClaimEffect store db key acceptBefore retainUntil now .claimed
        { db with
          last_now := now
          replays := (db.replays.filter fun _ retain => now < retain).set key retainUntil }

variable {store : SqliteProjectionReplayStore} {db db' : ReplayDatabase} {key : String × String}
  {acceptBefore retainUntil : ℤ} {clock : JsDouble} {fails : Statement → Bool} {answer : ClaimAnswer}

theorem effect_of_record {now : ℤ}
    (h : record fails store key acceptBefore retainUntil now { db with last_now := now } =
      some (answer, db')) :
    ClaimEffect store db key acceptBefore retainUntil now answer db' := by
  unfold record at h
  split at h
  · cases h
    exact .expired ‹_›
  · have h := exec_bind h
    have h := modify_bind h
    have h := exec_bind h
    have h := get_bind h
    split at h
    · cases h
      exact .duplicate (by omega) ‹_›
    · have h := exec_bind h
      obtain ⟨hroom, h⟩ := require_bind h
      have h := exec_bind h
      have h := modify_bind h
      cases h
      exact .claimed (by omega) (Bool.not_eq_true _ ▸ ‹_›) hroom

theorem effect_of_transaction
    (h : claimTransaction fails store key acceptBefore retainUntil clock db = some (answer, db')) :
    ∃ now, clock.safeInteger = some now ∧ db.last_now ≤ now ∧
      ClaimEffect store db key acceptBefore retainUntil now answer db' := by
  unfold claimTransaction at h
  have h := exec_bind h
  have h := exec_bind h
  have h := exec_bind h
  have h := get_bind h
  obtain ⟨now, hclock, h⟩ := lift_bind h
  obtain ⟨hnow, h⟩ := require_bind h
  have h := exec_bind h
  have h := modify_bind h
  obtain ⟨result, db₁, hrecord, h⟩ := bind_some.1 h
  have h := exec_bind h
  cases h
  exact ⟨now, hclock, hnow.2, effect_of_record hrecord⟩

theorem checkInput_le {input : ClaimInput} (h : checkInput store input = some (acceptBefore, retainUntil)) :
    input.acceptBefore.safeInteger = some acceptBefore ∧
      input.retainUntil.safeInteger = some retainUntil ∧ acceptBefore ≤ retainUntil := by
  simp only [checkInput, Option.bind_eq_bind, Option.bind_eq_some_iff, Option.some.injEq, Prod.mk.injEq] at h
  obtain ⟨_, -, _, -, _, -, _, haccept, _, hretain, _, hle, rfl, rfl⟩ := h
  exact ⟨haccept, hretain, ((Option.guard_eq_some' _).1 hle).2⟩

theorem ClaimEffect.room {now : ℤ} (h : ClaimEffect store db key acceptBefore retainUntil now answer db')
    (hroom : db.replays.size ≤ db.capacity) (hcapacity : store.capacity = db.capacity) :
    db'.capacity = db.capacity ∧ db'.replays.size ≤ db.capacity := by
  have hfilter := db.replays.size_filter_le fun _ retain => now < retain
  cases h with
  | expired late => exact ⟨rfl, hroom⟩
  | duplicate early present => exact ⟨rfl, hfilter.trans hroom⟩
  | claimed early absent room =>
    refine ⟨rfl, (JsMap.size_set_le _ _ _).trans ?_⟩
    omega

theorem ClaimEffect.last_now {now : ℤ} (h : ClaimEffect store db key acceptBefore retainUntil now answer db') :
    db'.last_now = now := by
  cases h <;> rfl

theorem row_kept {now : ℤ} (hrow : db.replays.get key = some retainUntil) (h : now < retainUntil) :
    (db.replays.filter fun _ retain => now < retain).get key = some retainUntil := by
  rw [JsMap.get_filter, hrow, Option.filter_some_pos]
  exact decide_eq_true h

theorem ClaimEffect.row {key' : String × String} {accept' retain' now : ℤ}
    (h : ClaimEffect store db key' accept' retain' now answer db') (hle : acceptBefore ≤ retainUntil)
    (hrow : db.replays.get key = some retainUntil) : acceptBefore ≤ now ∨ db'.replays.get key = some retainUntil := by
  by_cases hover : retainUntil ≤ now
  · exact .inl (hle.trans hover)
  · right
    have hkept := row_kept hrow (not_le.1 hover)
    cases h with
    | expired late => exact hrow
    | duplicate early present => exact hkept
    | claimed early absent room =>
      have hne : key ≠ key' := by
        rintro rfl
        rw [JsMap.has, hkept] at absent
        cases absent
      exact (JsMap.get_set_ne _ _ hne).trans hkept

/-! ### Replicas -/

/-- The file, and the replicas that were opened on it. -/
structure ReplayWorld where
  db : Option ReplayDatabase := none
  replicas : List SqliteProjectionReplayStore := []

inductive ReplayEvent
  | opens (location : String) (options : SqliteProjectionReplayOptions) (fails : Statement → Bool)
  | claims (replica : ℕ) (call : ClaimCall)

namespace ReplayWorld

/-- What a claim by a replica gives: its answer, nothing where it throws, and the database. -/
def claimBy (w : ReplayWorld) (replica : ℕ) (call : ClaimCall) :
    Option (Option ClaimAnswer × ReplayDatabase) :=
  match w.replicas[replica]?, w.db with
  | some store, some db => some (claim store db call)
  | _, _ => none

def step (w : ReplayWorld) : ReplayEvent → ReplayWorld
  | .opens location options fails =>
    match (openOptions location options).bind (openTransaction fails w.db options.audience) with
    | none => w
    | some (store, db) => { db := some db, replicas := w.replicas ++ [store] }
  | .claims replica call =>
    match w.claimBy replica call with
    | none => w
    | some (_, db) => { w with db := some db }

def after (es : List ReplayEvent) : ReplayWorld := run step {} es

theorem after_append (es fs : List ReplayEvent) : after (es ++ fs) = run step (after es) fs := by
  simp [after, run, List.foldl_append]

theorem after_snoc (es : List ReplayEvent) (e : ReplayEvent) : after (es ++ [e]) = (after es).step e :=
  run_snoc

/-- The input of an event that is answered `claimed`. -/
def claimedInput (w : ReplayWorld) : ReplayEvent → Option ClaimInput
  | .opens _ _ _ => none
  | .claims replica call =>
    match w.claimBy replica call with
    | some (some .claimed, _) => some call.input
    | _ => none

/-- The number of rows whose retention is not over. -/
def liveRows (db : ReplayDatabase) : ℕ := (db.replays.entries.filter fun e => db.last_now < e.2).length

/-! ### What an event does -/

variable {w : ReplayWorld} {e : ReplayEvent} {db db' : ReplayDatabase}
  {store : SqliteProjectionReplayStore} {call : ClaimCall}

/-- What an event does to the file: nothing, or a transaction of it that went through. -/
inductive Effect (w : ReplayWorld) (e : ReplayEvent) : Prop
  | unchanged (same : w.step e = w) (unclaimed : w.claimedInput e = none)
  | opened (store : SqliteProjectionReplayStore) (db : ReplayDatabase)
      (found : w.db = some db ∨ w.db = none ∧ db.replays = .empty)
      (capacity : store.capacity = db.capacity)
      (next : w.step e = { db := some db, replicas := w.replicas ++ [store] })
      (unclaimed : w.claimedInput e = none)
  | claimed (store : SqliteProjectionReplayStore) (db db' : ReplayDatabase) (input : ClaimInput)
      (acceptBefore retainUntil now : ℤ) (answer : ClaimAnswer) (member : store ∈ w.replicas)
      (found : w.db = some db) (checked : checkInput store input = some (acceptBefore, retainUntil))
      (clock : db.last_now ≤ now)
      (effect : ClaimEffect store db (input.issuer, input.projectionId) acceptBefore retainUntil now
        answer db')
      (next : w.step e = { w with db := some db' })
      (input : w.claimedInput e = if answer = .claimed then some input else none)

theorem effect_opens {location : String} {options : SqliteProjectionReplayOptions}
    {fails : Statement → Bool} : Effect w (.opens location options fails) := by
  cases hopen : (openOptions location options).bind (openTransaction fails w.db options.audience) with
  | none => exact .unchanged (by simp only [step, hopen]) rfl
  | some p =>
    obtain ⟨store, db⟩ := p
    have hnext : w.step (.opens location options fails) =
        { db := some db, replicas := w.replicas ++ [store] } := by simp only [step, hopen]
    obtain ⟨capacity, -, hopen⟩ := Option.bind_eq_some_iff.1 hopen
    simp only [openTransaction, Option.bind_eq_bind, Option.bind_eq_some_iff, Option.some.injEq,
      Prod.mk.injEq] at hopen
    obtain ⟨_, -, _, hrow, _, -, rfl, rfl⟩ := hopen
    have hrow := ((Option.guard_eq_some' _).1 hrow).2.2
    refine .opened _ _ ?_ hrow.symm hnext rfl
    cases w.db with
    | none => exact .inr ⟨rfl, rfl⟩
    | some db => exact .inl rfl

theorem effect_claims {replica : ℕ} : Effect w (.claims replica call) := by
  cases hstore : w.replicas[replica]? with
  | none =>
    have hby : w.claimBy replica call = none := by simp only [claimBy, hstore]
    exact .unchanged (by simp only [step, hby]) (by simp only [claimedInput, hby])
  | some store =>
    cases hdb : w.db with
    | none =>
      have hby : w.claimBy replica call = none := by simp only [claimBy, hstore, hdb]
      exact .unchanged (by simp only [step, hby]) (by simp only [claimedInput, hby])
    | some db =>
      have hby : w.claimBy replica call = some (claim store db call) := by
        simp only [claimBy, hstore, hdb]
      -- a claim that throws rolls back, any other is a transaction
      have hthrown : claim store db call = (none, db) → Effect w (.claims replica call) := fun h => by
        refine .unchanged ?_ (by simp only [claimedInput, hby, h])
        simp only [step, hby, h, ← hdb]
      cases hcheck : checkInput store call.input with
      | none => exact hthrown (by simp only [claim, hcheck])
      | some times =>
        obtain ⟨acceptBefore, retainUntil⟩ := times
        cases htransaction : claimTransaction call.fails store (call.input.issuer, call.input.projectionId)
            acceptBefore retainUntil call.clock db with
        | none => exact hthrown (by simp only [claim, hcheck, htransaction])
        | some p =>
          obtain ⟨answer, db'⟩ := p
          have hclaim : claim store db call = (some answer, db') := by
            simp only [claim, hcheck, htransaction]
          obtain ⟨now, -, hnow, heffect⟩ := effect_of_transaction htransaction
          refine .claimed store db db' call.input acceptBefore retainUntil now answer
            (List.mem_of_getElem? hstore) hdb hcheck hnow heffect ?_ ?_
          · simp only [step, hby, hclaim]
          · cases answer <;> simp only [claimedInput, hby, hclaim, reduceCtorEq, if_false, if_true]

theorem effect (w : ReplayWorld) (e : ReplayEvent) : Effect w e :=
  match e with
  | .opens _ _ _ => effect_opens
  | .claims _ _ => effect_claims

/-! ### The table -/

/-- The table has room, and the replicas know how much. -/
structure Bounded (w : ReplayWorld) : Prop where
  shared : ∀ store ∈ w.replicas, ∀ db, w.db = some db → store.capacity = db.capacity
  room : ∀ db, w.db = some db → db.replays.size ≤ db.capacity
  opened : w.db = none → w.replicas = []

theorem bounded_step (h : Bounded w) : Bounded (w.step e) := by
  cases effect w e with
  | unchanged same => rwa [same]
  | opened store db found capacity next =>
    rw [next]
    refine ⟨fun store' hmem db' hdb => ?_, fun db' hdb => ?_, nofun⟩
    · obtain rfl := Option.some.inj hdb
      rcases List.mem_append.1 hmem with hmem | hmem
      · rcases found with found | ⟨found, -⟩
        · exact h.shared store' hmem db found
        · rw [h.opened found] at hmem
          cases hmem
      · rw [List.mem_singleton.1 hmem, capacity]
    · obtain rfl := Option.some.inj hdb
      rcases found with found | ⟨-, hempty⟩
      · exact h.room db found
      · rw [hempty]
        exact Nat.zero_le _
  | claimed store db db' input acceptBefore retainUntil now answer member found checked clock effect next =>
    rw [next]
    have hroom := effect.room (h.room db found) (h.shared store member db found)
    refine ⟨fun store' hmem db₁ hdb => ?_, fun db₁ hdb => ?_, nofun⟩
    · obtain rfl := Option.some.inj hdb
      rw [hroom.1]
      exact h.shared store' hmem db found
    · obtain rfl := Option.some.inj hdb
      rw [hroom.1]
      exact hroom.2

theorem bounded (es : List ReplayEvent) : Bounded (after es) :=
  run_induction ⟨nofun, nofun, fun _ => rfl⟩ fun _ _ => bounded_step

/-! ### The clock -/

/-- The clock of the file has reached `now`. -/
def Reached (now : ℤ) (w : ReplayWorld) : Prop := ∃ db, w.db = some db ∧ now ≤ db.last_now

theorem reached_step {now : ℤ} (h : Reached now w) : Reached now (w.step e) := by
  cases effect w e with
  | unchanged same => rwa [same]
  | opened store db found capacity next =>
    obtain ⟨db₁, hdb, hnow⟩ := h
    rw [next]
    rcases found with found | ⟨found, -⟩
    · rw [hdb, Option.some.injEq] at found
      exact ⟨db, rfl, found ▸ hnow⟩
    · rw [hdb] at found
      cases found
  | claimed store db db' input acceptBefore retainUntil now' answer member found checked clock effect next =>
    obtain ⟨db₁, hdb, hnow⟩ := h
    rw [hdb, Option.some.injEq] at found
    subst found
    rw [next]
    exact ⟨db', rfl, effect.last_now ▸ hnow.trans clock⟩

theorem reached_run {now : ℤ} (h : Reached now w) (es : List ReplayEvent) : Reached now (run step w es) :=
  run_induction h fun _ _ => reached_step

/-! ### The row of a projection -/

/-- A projection that was claimed has its row, unless the clock has passed its end. -/
def Held (key : String × String) (acceptBefore retainUntil : ℤ) (w : ReplayWorld) : Prop :=
  ∃ db, w.db = some db ∧ (acceptBefore ≤ db.last_now ∨ db.replays.get key = some retainUntil)

variable {key : String × String} {acceptBefore retainUntil : ℤ}

theorem held_step (hle : acceptBefore ≤ retainUntil) (h : Held key acceptBefore retainUntil w) :
    Held key acceptBefore retainUntil (w.step e) := by
  obtain ⟨db, hdb, hheld⟩ := h
  cases effect w e with
  | unchanged same => exact ⟨db, by rw [same, hdb], hheld⟩
  | opened store db₁ found capacity next =>
    rw [next]
    rcases found with found | ⟨found, -⟩
    · rw [hdb, Option.some.injEq] at found
      exact ⟨db₁, rfl, found ▸ hheld⟩
    · rw [hdb] at found
      cases found
  | claimed store db₁ db' input accept' retain' now answer member found checked clock effect next =>
    rw [hdb, Option.some.injEq] at found
    subst found
    rw [next]
    refine ⟨db', rfl, ?_⟩
    rw [effect.last_now]
    rcases hheld with hpast | hrow
    · exact .inl (hpast.trans clock)
    · exact effect.row hle hrow

theorem held_of_claimed {x : ClaimInput} (h : w.claimedInput e = some x) :
    ∃ acceptBefore retainUntil, x.acceptBefore.safeInteger = some acceptBefore ∧
      x.retainUntil.safeInteger = some retainUntil ∧ acceptBefore ≤ retainUntil ∧
      Held (x.issuer, x.projectionId) acceptBefore retainUntil (w.step e) := by
  cases effect w e with
  | unchanged same unclaimed =>
    rw [unclaimed] at h
    cases h
  | opened store db found capacity next unclaimed =>
    rw [unclaimed] at h
    cases h
  | claimed store db db' input accept' retain' now answer member found checked clock effect next hinput =>
    rw [hinput] at h
    split at h
    · rename_i hanswer
      obtain rfl := Option.some.inj h
      obtain ⟨haccept, hretain, hle⟩ := checkInput_le checked
      refine ⟨accept', retain', haccept, hretain, hle, db', by rw [next], .inr ?_⟩
      subst hanswer
      cases effect with
      | claimed early absent room => exact JsMap.get_set_self _ _ _
    · cases h

theorem not_claimed_of_held {x : ClaimInput} (hle : acceptBefore ≤ retainUntil)
    (h : Held (x.issuer, x.projectionId) acceptBefore retainUntil w)
    (haccept : x.acceptBefore.safeInteger = some acceptBefore) : w.claimedInput e ≠ some x := by
  intro hx
  obtain ⟨db, hdb, hheld⟩ := h
  cases effect w e with
  | unchanged same unclaimed =>
    rw [unclaimed] at hx
    cases hx
  | opened store db₁ found capacity next unclaimed =>
    rw [unclaimed] at hx
    cases hx
  | claimed store db₁ db' input accept' retain' now answer member found checked clock effect next hinput =>
    rw [hinput] at hx
    split at hx
    · rename_i hanswer
      obtain rfl := Option.some.inj hx
      subst hanswer
      rw [hdb, Option.some.injEq] at found
      subst found
      obtain rfl : accept' = acceptBefore :=
        Option.some.inj ((checkInput_le checked).1.symm.trans haccept)
      cases effect with
      | claimed early absent room =>
        rcases hheld with hpast | hrow
        · omega
        · have hkept := row_kept hrow (early.trans_le hle)
          rw [JsMap.has, hkept] at absent
          cases absent
    · cases hx

/-! ### Replay protection -/

/-- **Replay protection**: over every sequence of openings and claims by replicas of one file, under any
clocks and whatever throws, no projection is claimed twice with the same times, the rows whose
retention is not over fit the capacity every replica was opened with, the clock of the file never goes
back, and a claim that throws changes nothing. -/
theorem replay_protection :
    (∀ es a mid b x y, (after es).claimedInput a = some x →
      (after (es ++ a :: mid)).claimedInput b = some y →
      ¬ (x.issuer = y.issuer ∧ x.projectionId = y.projectionId ∧ x.acceptBefore = y.acceptBefore ∧
        x.retainUntil = y.retainUntil)) ∧
    (∀ es db, (after es).db = some db → liveRows db ≤ db.capacity ∧
      ∀ store ∈ (after es).replicas, store.capacity = db.capacity) ∧
    (∀ es mid db, (after es).db = some db →
      ∃ db', (after (es ++ mid)).db = some db' ∧ db.last_now ≤ db'.last_now) ∧
    ∀ es replica call db, (after es).claimBy replica call = some (none, db) →
      (after es).db = some db ∧ after (es ++ [.claims replica call]) = after es := by
  refine ⟨?_, ?_, ?_, ?_⟩
  · intro es a mid b x y hx hy ⟨hissuer, hid, haccept, hretain⟩
    obtain ⟨acceptBefore, retainUntil, ha, -, hle, hheld⟩ := held_of_claimed hx
    have hlater : Held (x.issuer, x.projectionId) acceptBefore retainUntil (after (es ++ a :: mid)) := by
      rw [after_append, run_cons]
      exact run_induction hheld fun _ _ => held_step hle
    rw [hissuer, hid] at hlater
    exact not_claimed_of_held hle hlater (haccept ▸ ha) hy
  · intro es db hdb
    have hbounded := bounded es
    exact ⟨(List.length_filter_le _ _).trans (hbounded.room db hdb), fun store hmem => hbounded.shared store hmem db hdb⟩
  · intro es mid db hdb
    rw [after_append]
    exact reached_run ⟨db, hdb, le_refl _⟩ mid
  · intro es replica call db hclaim
    have hunchanged : (after es).db = some db := by
      unfold claimBy at hclaim
      split at hclaim
      · rename_i store db₁ hstore hdb
        rw [hdb]
        unfold claim at hclaim
        split at hclaim
        · cases hclaim
          rfl
        · split at hclaim <;> cases hclaim
          rfl
      · cases hclaim
    refine ⟨hunchanged, ?_⟩
    rw [after_snoc]
    simp only [step, hclaim, ← hunchanged]

end ReplayWorld

end NpsSdk.Alpha20
