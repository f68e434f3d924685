import OxidHome.Storage.Usage
import OxidHome.History.Payload

/-!
# The KV store

`KvStore` of `state/kv.rs` over the tables and triggers of migration 14. `toVec` is the text that
`serde_json::to_vec` writes.
-/

namespace OxidHome.Storage
open Wit Library History

structure KvRow where
  installationUuid : String
  instanceId : String
  key : String
  value : List UInt8
  updatedMs : Int

namespace KvRow

def tuple (row : KvRow) : Tuple := (row.installationUuid, row.instanceId)

def primaryKey (row : KvRow) : String × String × String :=
  (row.installationUuid, row.instanceId, row.key)

/-- `length(CAST(key AS BLOB)) + length(value)` -/
def bytes (row : KvRow) : Nat := row.key.toUTF8.size + row.value.length

theorem primaryKey_tuple (a b : KvRow) (same : a.primaryKey = b.primaryKey) : a.tuple = b.tuple := by
  simp only [primaryKey, Prod.mk.injEq] at same
  exact Prod.ext same.1 same.2.1

end KvRow

inductive KvError where
  | unregisteredInstance (installationUuid instanceId : String)
  | quotaExceeded (installationUuid instanceId : String) (wouldUse allowed : Nat)
  | encode (key : String)

structure KvStore where
  kv : List KvRow
  usageTable : Usage

namespace KvStore

def new : KvStore := ⟨[], []⟩

def registerInstance (s : KvStore) (installationUuid instanceId : String) (quotaBytes : Nat) :
    KvStore :=
  { s with usageTable := s.usageTable.register installationUuid instanceId quotaBytes }

def row? (s : KvStore) (installationUuid instanceId key : String) : Option KvRow :=
  s.kv.find? (·.primaryKey = (installationUuid, instanceId, key))

/-- `INSERT … ON CONFLICT DO UPDATE SET value`: one of the two triggers fires. -/
def insertOrUpdate (s : KvStore) (row : KvRow) : KvStore where
  kv := upsert KvRow.primaryKey s.kv row
  usageTable := s.usageTable.charge row.tuple <|
    match s.row? row.installationUuid row.instanceId row.key with
    | none => row.key.toUTF8.size + row.value.length
    | some old => row.value.length - old.value.length

def set (toVec : Json → List UInt8) (s : KvStore) (installationUuid instanceId key : String)
    (value : Value) (now : Int) : Except KvError KvStore :=
  let payload := toVec (.ofValue value)
  let newEntryBytes : Int := key.utf8ByteSize + payload.length
  match s.usageTable.find (installationUuid, instanceId) with
  | none => .error (.unregisteredInstance installationUuid instanceId)
  | some u =>
    let oldSize := (s.row? installationUuid instanceId key).map KvRow.bytes
    let projected := u.bytesUsed - (oldSize.getD 0 : Nat) + newEntryBytes
    if projected > u.bytesQuota then
      .error (.quotaExceeded installationUuid instanceId projected.toNat u.bytesQuota.toNat)
    else .ok (s.insertOrUpdate ⟨installationUuid, instanceId, key, payload, now⟩)

/-- `fromSlice` is the tree of the text that `serde_json::from_slice` is given. -/
def get (fromSlice : List UInt8 → Option Json) (serde : SerdeJson) (s : KvStore)
    (installationUuid instanceId key : String) : Except KvError (Option Value) :=
  match s.row? installationUuid instanceId key with
  | none => .ok none
  | some row =>
    match (fromSlice row.value).bind (Json.toValue serde) with
    | none => .error (.encode key)
    | some value => .ok (some value)

def delete (s : KvStore) (installationUuid instanceId key : String) : KvStore :=
  let chosen (row : KvRow) : Bool := row.primaryKey = (installationUuid, instanceId, key)
  { kv := s.kv.filter (!chosen ·)
    usageTable := refund KvRow.tuple KvRow.bytes s.usageTable (s.kv.filter chosen) }

def usage (s : KvStore) (installationUuid instanceId : String) : Option (Nat × Nat) :=
  (s.usageTable.find (installationUuid, instanceId)).map fun u =>
    (u.bytesUsed.toNat, u.bytesQuota.toNat)

def purgeInstallation (s : KvStore) (installationUuid : String) : KvStore where
  kv := s.kv.filter fun row => row.tuple.1 ≠ installationUuid
  usageTable := refund KvRow.tuple KvRow.bytes (s.usageTable.purge installationUuid)
    (s.kv.filter fun row => row.tuple.1 = installationUuid)

end KvStore

inductive KvAction where
  | registerInstance (installationUuid instanceId : String) (quotaBytes : Nat)
  | set (installationUuid instanceId key : String) (value : Value) (now : Int)
  | delete (installationUuid instanceId key : String)
  | purgeInstallation (installationUuid : String)

/-- A call that fails leaves its transaction uncommitted. -/
def KvStore.apply (toVec : Json → List UInt8) (s : KvStore) : KvAction → KvStore
  | .registerInstance installationUuid instanceId quotaBytes =>
      s.registerInstance installationUuid instanceId quotaBytes
  | .set installationUuid instanceId key value now =>
      match s.set toVec installationUuid instanceId key value now with
      | .error _ => s
      | .ok t => t
  | .delete installationUuid instanceId key => s.delete installationUuid instanceId key
  | .purgeInstallation installationUuid => s.purgeInstallation installationUuid

def KvStore.run (toVec : Json → List UInt8) (acts : List KvAction) : KvStore :=
  acts.foldl (KvStore.apply toVec) .new

end OxidHome.Storage
