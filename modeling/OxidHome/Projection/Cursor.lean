import OxidHome.Projection.Mutations

/-!
# The resync cursor

`issue_cursor` and `verify_cursor`: `epoch.revision.device.mac` with a truncated HMAC-SHA256 under
the store's secret. The digest itself is a parameter.
-/

namespace OxidHome.Projection
open Wit Library Std

/-- `SHA-256`, of the `sha2` crate. -/
abbrev Sha256 := List UInt8 → Vector UInt8 32

def hmacSha256 (sha256 : Sha256) (key : Vector UInt8 32) (msg : List UInt8) : Vector UInt8 32 :=
  let kPadded := key.toList ++ List.replicate 32 0
  let ipad := kPadded.map (0x36 ^^^ ·)
  let opad := kPadded.map (0x5c ^^^ ·)
  sha256 (opad ++ (sha256 (ipad ++ msg)).toList)

def constantTimeEq (a b : List UInt8) : Bool :=
  if a.length ≠ b.length then false
  else (List.zipWith (· ^^^ ·) a b).foldl (· ||| ·) 0 = 0

inductive CursorError where
  | bad
  | epochChanged
deriving DecidableEq, Repr

namespace StoreInner

def cursorMac (sha256 : Sha256) (inner : StoreInner) (payload : String) : List UInt8 :=
  (hmacSha256 sha256 inner.cursorSecret payload.toUTF8.data.toList).toList.take 16

def issueCursor (sha256 : Sha256) (inner : StoreInner) (pinnedRevision : Nat)
    (afterDeviceId : DeviceId) : String :=
  let payload := inner.epoch ++ "." ++ toString pinnedRevision ++ "." ++ afterDeviceId
  payload ++ "." ++ String.ofList (hexEncode (inner.cursorMac sha256 payload))

/-- The epoch comes before the MAC, so that a cursor from before a restart is told apart. -/
def verifyCursor (sha256 : Sha256) (inner : StoreInner) (raw : String) :
    Except CursorError (String × Nat × DeviceId) :=
  match rsplitOnce '.' raw.toList with
  | none => .error .bad
  | some (payload, macHex) =>
    match splitOnce '.' payload with
    | none => .error .bad
    | some (epoch, rest) =>
      match splitOnce '.' rest with
      | none => .error .bad
      | some (rev, device) =>
        if epoch = [] ∨ device = [] ∨ (macHex.map Char.utf8Size).sum ≠ 32 then .error .bad
        else match parseUnsigned (2 ^ 64) rev with
        | none => .error .bad
        | some pinnedRevision =>
          if String.ofList epoch ≠ inner.epoch then .error .epochChanged
          else match hexDecode macHex with
          | none => .error .bad
          | some supplied =>
            if constantTimeEq (inner.cursorMac sha256 (String.ofList payload)) supplied then
              .ok (String.ofList epoch, pinnedRevision, String.ofList device)
            else .error .bad

theorem constantTimeEq_self (a : List UInt8) : constantTimeEq a a = true := by
  have zeros : ∀ n, (List.replicate n (0 : UInt8)).foldl (· ||| ·) 0 = 0 := by
    intro n
    induction n with
    | zero => rfl
    | succ n ih => simpa [List.replicate_succ] using ih
  simp [constantTimeEq, zeros]

theorem length_cursorMac (sha256 : Sha256) (inner : StoreInner) (payload : String) :
    (inner.cursorMac sha256 payload).length = 16 := by
  simp [cursorMac]

theorem mintEpoch_dotless (nonce : Vector UInt8 16) :
    '.' ∉ (mintEpoch nonce).toList ∧ (mintEpoch nonce).toList ≠ [] := by
  have chars : (mintEpoch nonce).toList = "epoch-".toList ++ hexEncode nonce.toList := by
    unfold mintEpoch
    exact String.toList_ofList
  have dotless : '.' ∉ hexEncode nonce.toList := fun mem =>
    absurd (mem_hexEncode mem).1 (by decide)
  rw [chars]
  simp [dotless]

theorem verifyCursor_issueCursor (sha256 : Sha256) {inner : StoreInner}
    (minted : ∃ nonce, inner.epoch = mintEpoch nonce) (rev : Nat) (device : DeviceId) :
    inner.verifyCursor sha256 (inner.issueCursor sha256 rev device) =
      if device ≠ "" ∧ rev < 2 ^ 64 then .ok (inner.epoch, rev, device) else .error .bad := by
  obtain ⟨nonce, minted⟩ := minted
  have dotless : '.' ∉ inner.epoch.toList ∧ inner.epoch.toList ≠ [] :=
    minted ▸ mintEpoch_dotless nonce
  have digits : '.' ∉ Nat.toDigits 10 rev := fun mem =>
    absurd (Nat.isDigit_of_mem_toDigits (by decide) (by decide) mem) (by decide)
  have payload : (inner.epoch ++ "." ++ toString rev ++ "." ++ device).toList =
      inner.epoch.toList ++ '.' :: (Nat.toDigits 10 rev ++ '.' :: device.toList) := by simp
  generalize hp : inner.epoch ++ "." ++ toString rev ++ "." ++ device = p at payload
  have cursor : (inner.issueCursor sha256 rev device).toList =
      p.toList ++ '.' :: hexEncode (inner.cursorMac sha256 p) := by
    simp only [issueCursor, hp]
    simp
  have macDotless : '.' ∉ hexEncode (inner.cursorMac sha256 p) := fun mem =>
    absurd (mem_hexEncode mem).1 (by decide)
  have macSize : ((hexEncode (inner.cursorMac sha256 p)).map Char.utf8Size).sum = 32 := by
    rw [utf8Size_hexEncode, length_cursorMac]
  have accepted : constantTimeEq (inner.cursorMac sha256 (String.ofList p.toList))
      (inner.cursorMac sha256 p) = true := by
    rw [String.ofList_toList, constantTimeEq_self]
  rw [verifyCursor, cursor, rsplitOnce_append _ macDotless]
  simp only [payload, splitOnce_append dotless.1, splitOnce_append digits] at accepted ⊢
  by_cases noDevice : device = ""
  · simp [noDevice]
  · have nonempty : device.toList ≠ [] := fun h => noDevice (String.toList_eq_nil_iff.mp h)
    rw [if_neg (by simp [dotless.2, nonempty, macSize]), parseUnsigned_toDigits (by decide)]
    by_cases fits : rev < 2 ^ 64
    · rw [if_pos fits, if_pos ⟨noDevice, fits⟩]
      simp only [String.ofList_toList, ne_eq, not_true_eq_false, if_false, hexDecode_hexEncode,
        accepted, if_true]
    · rw [if_neg fits, if_neg fun h => fits h.2]

theorem foldl_evictOne_identity (victims : List (Nat × SlotKey)) (inner : StoreInner) :
    (victims.foldl evictOne inner).epoch = inner.epoch ∧
      (victims.foldl evictOne inner).cursorSecret = inner.cursorSecret := by
  induction victims generalizing inner with
  | nil => exact ⟨rfl, rfl⟩
  | cons victim victims ih => exact ih _

theorem foldl_staleOne_identity (receivedMs : Int) (keys : List SlotKey) (inner : StoreInner) :
    (keys.foldl (staleOne receivedMs) inner).epoch = inner.epoch ∧
      (keys.foldl (staleOne receivedMs) inner).cursorSecret = inner.cursorSecret := by
  induction keys generalizing inner with
  | nil => exact ⟨rfl, rfl⟩
  | cons key keys ih =>
      obtain ⟨epoch, secret⟩ := ih (staleOne receivedMs inner key)
      have kept : (staleOne receivedMs inner key).epoch = inner.epoch ∧
          (staleOne receivedMs inner key).cursorSecret = inner.cursorSecret := by
        unfold staleOne
        split <;> exact ⟨rfl, rfl⟩
      exact ⟨epoch.trans kept.1, secret.trans kept.2⟩

theorem staleWhereLocked_identity (inner : StoreInner) (receivedMs : Int)
    (predicate : SlotKey → DeviceState → Bool) :
    (inner.staleWhereLocked receivedMs predicate).epoch = inner.epoch ∧
      (inner.staleWhereLocked receivedMs predicate).cursorSecret = inner.cursorSecret := by
  have swept := foldl_staleOne_identity receivedMs (inner.keysToStale predicate) inner
  unfold staleWhereLocked enforceStaleCapLocked
  simp only
  split
  · exact swept
  · obtain ⟨epoch, secret⟩ := foldl_evictOne_identity _ _
    exact ⟨epoch.trans swept.1, secret.trans swept.2⟩

theorem foldl_seedOne_identity (d : DeviceId) (o : String) (g : Nat) (obs : UInt64) (recv : Int)
    (seeds : List (String × List KeyValue)) (inner : StoreInner) :
    (seeds.foldl (seedOne d o g obs recv) inner).epoch = inner.epoch ∧
      (seeds.foldl (seedOne d o g obs recv) inner).cursorSecret = inner.cursorSecret := by
  induction seeds generalizing inner with
  | nil => exact ⟨rfl, rfl⟩
  | cons seed seeds ih => exact ih _

theorem mutate_identity (inner : StoreInner) (m : Mutation) :
    (inner.mutate m).epoch = inner.epoch ∧ (inner.mutate m).cursorSecret = inner.cursorSecret := by
  cases m with
  | applyDelta | replaceSnapshot | bumpGeneration => exact ⟨rfl, rfl⟩
  | resetAndSeedDevice d o seeds obs recv =>
      have swept := staleWhereLocked_identity inner recv fun key entry =>
        key.1 = d ∧ entry.quality = .fresh
      obtain ⟨epoch, secret⟩ := foldl_seedOne_identity d o _ obs recv seeds _
      exact ⟨epoch.trans swept.1, secret.trans swept.2⟩
  | restartGeneration =>
      simp only [mutate, restartGeneration, bumpGeneration]
      exact staleWhereLocked_identity inner _ _
  | markInstanceStale | markDeviceStale | reconcileCapabilities =>
      exact staleWhereLocked_identity inner _ _

theorem issueCursor_congr (sha256 : Sha256) {inner next : StoreInner}
    (epoch : next.epoch = inner.epoch) (secret : next.cursorSecret = inner.cursorSecret)
    (rev : Nat) (device : DeviceId) :
    next.issueCursor sha256 rev device = inner.issueCursor sha256 rev device := by
  have mac : next.cursorMac sha256 = inner.cursorMac sha256 := by
    funext payload
    rw [cursorMac, cursorMac, secret]
  rw [issueCursor, issueCursor, mac, epoch]

end StoreInner
end OxidHome.Projection
