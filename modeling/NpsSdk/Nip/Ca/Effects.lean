import NpsSdk.Lib.Async
import NpsSdk.Nip.Ca.RaStores
import NpsSdk.Nip.Ca.Store

/-!
# What the CA's calls do to what they share

The calls of the CA share a certificate store, a token store and a pending store, and read the clock
and random texts.  Each operation on a store is awaited; reading the clock, random texts or the
number of pending records is not.
-/

namespace NpsSdk.Nip.Ca

open NpsSdk.Lib

inductive StoreOp where
  | save (record : NipCertRecord)
  | getByNid (nid : String)
  | getBySerial (serial : String)
  | revoke (nid reason : String) (revokedAt : ℤ)
  | nextSerial
  | list
  | getRevoked
  | getByParentNid (parentNid : String)

@[reducible] def StoreOp.Res : StoreOp → Type
  | .save _ => Unit
  | .getByNid _ => Option NipCertRecord
  | .getBySerial _ => Option NipCertRecord
  | .revoke .. => Bool
  | .nextSerial => String
  | .list => List NipCertRecord
  | .getRevoked => List NipCertRecord
  | .getByParentNid _ => List NipCertRecord

inductive TokenOp where
  | create (label : Option String) (expiresAt : ℤ)
  | validateAndConsume (token : String)
  | list
  | revoke (tokenId : String)

@[reducible] def TokenOp.Res : TokenOp → Type
  | .create .. => String
  | .validateAndConsume _ => Bool
  | .list => List BootstrapTokenInfo
  | .revoke _ => Bool

inductive PendingOp where
  | enqueue (request : PendingRegistration)
  | list
  | get (id : String)
  | approve (id : String)
  | reject (id reason : String)
  | pendingCount

@[reducible] def PendingOp.Res : PendingOp → Type
  | .enqueue _ => String
  | .list => List PendingRegistration
  | .get _ => Option PendingRegistration
  | .approve _ => Bool
  | .reject .. => Bool
  | .pendingCount => ℕ

/-- What a call of the CA asks of its surroundings. -/
inductive CaOp where
  | store (o : StoreOp)
  | tokens (o : TokenOp)
  | pending (o : PendingOp)
  | now
  | randomHex (byteLength : ℕ)

@[reducible] def CaOp.Res : CaOp → Type
  | .store o => o.Res
  | .tokens o => o.Res
  | .pending o => o.Res
  | .now => ℤ
  | .randomHex _ => String

/-- The operations a call awaits. -/
def CaOp.awaited : CaOp → Bool
  | .store _ => true
  | .tokens _ => true
  | .pending .pendingCount => false
  | .pending _ => true
  | .now => false
  | .randomHex _ => false

inductive CaError where
  /-- `NipCaException`. -/
  | nipCa (message errorCode : String)
  /-- `NipRaPendingException`. -/
  | raPending (pendingId : String)
  /-- Any other exception. -/
  | error (message : String)
deriving DecidableEq

/-- A call of the CA. -/
abbrev CaAsync := Async CaOp CaOp.Res CaError

/-- What the calls share. -/
structure CaState where
  certs : InMemoryNipCaStore := {}
  tokens : InMemoryBootstrapTokenStore := {}
  pending : InMemoryPendingStore := {}

/-- The clock readings and random texts an operation finds. -/
structure Ambient where
  time : ℕ → ℤ
  random : ℕ → String

def execStore (o : StoreOp) (s : InMemoryNipCaStore) : Except CaError o.Res × InMemoryNipCaStore :=
  match o with
  | .save record => ((s.save record).1.mapError CaError.error, (s.save record).2)
  | .getByNid nid => (.ok (s.getByNid nid), s)
  | .getBySerial serial => (.ok (s.getBySerial serial), s)
  | .revoke nid reason revokedAt =>
    (.ok (s.revoke nid reason revokedAt).1, (s.revoke nid reason revokedAt).2)
  | .nextSerial => (.ok s.nextSerial.1, s.nextSerial.2)
  | .list => (.ok s.list, s)
  | .getRevoked => (.ok s.getRevoked, s)
  | .getByParentNid parentNid => (.ok (s.getByParentNid parentNid), s)

def execTokens (sha256 : String → String) (a : Ambient) (o : TokenOp)
    (s : InMemoryBootstrapTokenStore) : o.Res × InMemoryBootstrapTokenStore :=
  match o with
  | .create label expiresAt => s.create sha256 (a.random 0) (a.random 1) (a.time 0) label expiresAt
  | .validateAndConsume token => s.validateAndConsume sha256 a.time token
  | .list => (s.list, s)
  | .revoke tokenId => s.revoke tokenId

def execPending (a : Ambient) (o : PendingOp) (s : InMemoryPendingStore) :
    o.Res × InMemoryPendingStore :=
  match o with
  | .enqueue request => s.enqueue request
  | .list => s.list (a.time 0)
  | .get id => (s.get id, s)
  | .approve id => s.approve id
  | .reject id reason => s.reject id reason
  | .pendingCount => s.pendingCount (a.time 0)

/-- Performs an operation; `sha256` is the digest under which tokens are kept. -/
def exec (sha256 : String → String) (a : Ambient) (o : CaOp) (s : CaState) :
    Except CaError o.Res × CaState :=
  match o with
  | .store o => ((execStore o s.certs).1, { s with certs := (execStore o s.certs).2 })
  | .tokens o =>
    (.ok (execTokens sha256 a o s.tokens).1, { s with tokens := (execTokens sha256 a o s.tokens).2 })
  | .pending o =>
    (.ok (execPending a o s.pending).1, { s with pending := (execPending a o s.pending).2 })
  | .now => (.ok (a.time 0), s)
  | .randomHex _ => (.ok (a.random 0), s)

/-! ### The operations as calls -/

def saveCert (record : NipCertRecord) : CaAsync Unit := Async.perform (CaOp.store (.save record))

def getByNid (nid : String) : CaAsync (Option NipCertRecord) := Async.perform (CaOp.store (.getByNid nid))

def revokeCert (nid reason : String) (revokedAt : ℤ) : CaAsync Bool :=
  Async.perform (CaOp.store (.revoke nid reason revokedAt))

def nextSerial : CaAsync String := Async.perform (CaOp.store .nextSerial)

def getByParentNid (parentNid : String) : CaAsync (List NipCertRecord) :=
  Async.perform (CaOp.store (.getByParentNid parentNid))

/-- `new Date()`. -/
def readClock : CaAsync ℤ := Async.perform CaOp.now

def randomHex (byteLength : ℕ) : CaAsync String := Async.perform (CaOp.randomHex byteLength)

end NpsSdk.Nip.Ca
