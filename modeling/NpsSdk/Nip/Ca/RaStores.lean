import NpsSdk.Lib.JsMap
import NpsSdk.Lib.JsString

/-!
# The stores of the registration authority

The in-memory stores of bootstrap tokens and of pending registrations, and the glob patterns of the
allowlist.
-/

namespace NpsSdk.Nip.Ca

open NpsSdk.Lib

/-- Context passed to an enrollment policy check. -/
structure EnrollmentContext where
  entityType : String
  identifier : String
  pubKey : String
  capabilities : List String
  scopeJson : String
  metadataJson : Option String := none
  enrollmentToken : Option String := none

/-! ### Glob patterns -/

/-- The line terminators, which `.` does not match. -/
def isLineTerminator (u : ℕ) : Bool := u == 10 || u == 13 || u == 0x2028 || u == 0x2029

/-- What may be left of a text after `.*`. -/
def dotStar : List ℕ → List (List ℕ)
  | [] => [[]]
  | u :: us => (u :: us) :: if isLineTerminator u then [] else dotStar us

/-- The match of the regular expression `globToRegex` builds, on code units: `*` stands for `.*` and
`?` for `.`, and all else for itself. -/
def globMatches : List ℕ → List ℕ → Bool
  | [], us => us.isEmpty
  | p :: ps, us =>
    if p = '*'.toNat then (dotStar us).any (globMatches ps)
    else match us with
      | [] => false
      | u :: us =>
        (if p = '?'.toNat then !isLineTerminator u else p == u) && globMatches ps us

/-- `globToRegex(pattern).test(identifier)`. -/
def globTest (pattern identifier : String) : Bool :=
  pattern == "*" || globMatches (utf16 pattern) (utf16 identifier)

example : globTest "edge-*" "edge-7" = true := by decide

/-! ### Bootstrap tokens -/

structure TokenEntry where
  id : String
  hash : String
  label : Option String
  createdAt : ℤ
  expiresAt : ℤ
  consumed : Bool := false
  revoked : Bool := false

/-- Public metadata for a bootstrap token, without its value. -/
structure BootstrapTokenInfo where
  id : String
  label : Option String
  createdAt : ℤ
  expiresAt : ℤ
  consumed : Bool
  revoked : Bool

structure InMemoryBootstrapTokenStore where
  tokens : List TokenEntry := []

namespace InMemoryBootstrapTokenStore

/-- Creates a token with the random texts `raw` and `id`. -/
def create (sha256 : String → String) (raw id : String) (now : ℤ)
    (s : InMemoryBootstrapTokenStore) (label : Option String) (expiresAt : ℤ) :
    String × InMemoryBootstrapTokenStore :=
  let token := "nps-bootstrap-" ++ raw
  (token, { tokens := s.tokens ++ [{ id, hash := sha256 token, label, createdAt := now, expiresAt }] })

/-- Consumes the first live entry with this hash; `clock i` is read for the `i`-th entry. -/
def consume (hash : String) : (ℕ → ℤ) → List TokenEntry → Option (List TokenEntry)
  | _, [] => none
  | clock, e :: es =>
    if e.consumed || e.revoked || decide (e.expiresAt < clock 0) || hash != e.hash then
      (consume hash (fun n => clock (n + 1)) es).map (e :: ·)
    else some ({ e with consumed := true } :: es)

def validateAndConsume (sha256 : String → String) (clock : ℕ → ℤ)
    (s : InMemoryBootstrapTokenStore) (token : String) : Bool × InMemoryBootstrapTokenStore :=
  match consume (sha256 token) clock s.tokens with
  | some tokens => (true, { tokens })
  | none => (false, s)

def list (s : InMemoryBootstrapTokenStore) : List BootstrapTokenInfo :=
  s.tokens.map fun e =>
    { id := e.id, label := e.label, createdAt := e.createdAt, expiresAt := e.expiresAt,
      consumed := e.consumed, revoked := e.revoked }

/-- Revokes the entry with this id, unless it is consumed or revoked. -/
def revoke (s : InMemoryBootstrapTokenStore) (tokenId : String) :
    Bool × InMemoryBootstrapTokenStore :=
  match s.tokens.findIdx? fun e => e.id == tokenId with
  | none => (false, s)
  | some i =>
    match s.tokens[i]? with
    | none => (false, s)
    | some e =>
      if e.consumed || e.revoked then (false, s)
      else (true, { tokens := s.tokens.set i { e with revoked := true } })

end InMemoryBootstrapTokenStore

/-! ### Pending registrations -/

inductive PendingStatus where
  | pending
  | approved
  | rejected
deriving DecidableEq

/-- A registration request waiting for operator approval. -/
structure PendingRegistration where
  id : String
  entityType : String
  identifier : String
  pubKey : String
  capabilities : List String
  scopeJson : String
  metadataJson : Option String
  requestedAt : ℤ
  status : PendingStatus
  rejectReason : Option String := none

structure InMemoryPendingStore where
  records : JsMap String PendingRegistration := .empty
  maxAgeMs : ℤ := 7 * 86400000

namespace InMemoryPendingStore

/-- Deletes the decided records that are older than the age limit. -/
def sweep (s : InMemoryPendingStore) (now : ℤ) : InMemoryPendingStore :=
  { s with records := s.records.filterKeys fun id =>
      match s.records.get id with
      | none => true
      | some r => !(r.status != .pending && decide (r.requestedAt < now - s.maxAgeMs)) }

/-- The number of undecided records, after a sweep. -/
def pendingCount (s : InMemoryPendingStore) (now : ℤ) : ℕ × InMemoryPendingStore :=
  (((s.sweep now).records.values.filter fun r => r.status == .pending).length, s.sweep now)

def enqueue (s : InMemoryPendingStore) (request : PendingRegistration) :
    String × InMemoryPendingStore :=
  (request.id, { s with records := s.records.set request.id request })

def list (s : InMemoryPendingStore) (now : ℤ) : List PendingRegistration × InMemoryPendingStore :=
  ((s.sweep now).records.values, s.sweep now)

def get (s : InMemoryPendingStore) (id : String) : Option PendingRegistration := s.records.get id

/-- Decides an undecided record; any other is left as it is. -/
def decideWith (s : InMemoryPendingStore) (id : String)
    (decision : PendingRegistration → PendingRegistration) : Bool × InMemoryPendingStore :=
  match s.records.get id with
  | none => (false, s)
  | some r =>
    if r.status != .pending then (false, s)
    else (true, { s with records := s.records.set id (decision r) })

def approve (s : InMemoryPendingStore) (id : String) : Bool × InMemoryPendingStore :=
  s.decideWith id fun r => { r with status := .approved }

def reject (s : InMemoryPendingStore) (id reason : String) : Bool × InMemoryPendingStore :=
  s.decideWith id fun r => { r with status := .rejected, rejectReason := some reason }

end InMemoryPendingStore

end NpsSdk.Nip.Ca
