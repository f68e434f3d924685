import OxidHome.Api.UiTicket

/-!
# Signed texts decode to what was issued

`verify_cursor` and `verify` against what was issued: an issued text is accepted, an accepted one
decodes to the fields of an issued one as long as nobody forges a MAC, and neither verifier indexes
outside of its array.
-/

namespace OxidHome.Api
open Library Projection

theorem foldl_or_eq_zero {s : List UInt8} {acc : UInt8} :
    s.foldl (· ||| ·) acc = 0 ↔ acc = 0 ∧ ∀ b ∈ s, b = 0 := by
  induction s generalizing acc with
  | nil => simp
  | cons b s ih =>
      rw [List.foldl_cons, ih, UInt8.or_eq_zero_iff, and_assoc, List.forall_mem_cons]

theorem constantTimeEq_iff {a b : List UInt8} : constantTimeEq a b = true ↔ a = b := by
  constructor
  · intro equal
    unfold constantTimeEq at equal
    split at equal
    · cases equal
    · next length =>
        have zeros := (foldl_or_eq_zero.mp (of_decide_eq_true equal)).2
        apply List.ext_getElem (not_not.mp length)
        intro i ha hb
        have zero := zeros (a[i] ^^^ b[i])
          (List.mem_iff_getElem.mpr ⟨i, by simpa using ⟨ha, hb⟩, by simp⟩)
        exact UInt8.xor_eq_zero_iff.mp zero
  · rintro rfl
    exact StoreInner.constantTimeEq_self a

/-- Who presents a payload with its MAC has them from a payload that was signed. -/
def NotForged (sep : Char) (mac : String → List UInt8) (signed : List String) (raw : String) : Prop :=
  ∀ payload macHex, rsplitOnce sep raw.toList = some (payload, macHex) →
    hexDecode macHex = some (mac (String.ofList payload)) → String.ofList payload ∈ signed

theorem parts_inj {sep : Char} {a b c a' b' c' : List Char} (ha : sep ∉ a) (hb : sep ∉ b)
    (ha' : sep ∉ a') (hb' : sep ∉ b')
    (same : a ++ sep :: (b ++ sep :: c) = a' ++ sep :: (b' ++ sep :: c')) :
    a = a' ∧ b = b' ∧ c = c' := by
  have first := splitOnce_append ha (b ++ sep :: c)
  rw [same, splitOnce_append ha', Option.some.injEq, Prod.mk.injEq] at first
  obtain ⟨rfl, rest⟩ := first
  have second := splitOnce_append hb c
  rw [← rest, splitOnce_append hb', Option.some.injEq, Prod.mk.injEq] at second
  exact ⟨rfl, second.1.symm, second.2.symm⟩

def cursorPayload (inner : StoreInner) (c : Nat × Wit.DeviceId) : String :=
  inner.epoch ++ "." ++ toString c.1 ++ "." ++ c.2

/-- `verify_cursor` with the loop that fills its array. -/
def verifyCursorChecked (sha256 : Sha256) (inner : StoreInner) (raw : String) :
    Option (Except CursorError (String × Nat × Wit.DeviceId)) :=
  match rsplitOnce '.' raw.toList with
  | none => some (.error .bad)
  | some (payload, macHex) =>
    match splitOnce '.' payload with
    | none => some (.error .bad)
    | some (epoch, rest) =>
      match splitOnce '.' rest with
      | none => some (.error .bad)
      | some (rev, device) =>
        if epoch = [] ∨ device = [] ∨ (macHex.map Char.utf8Size).sum ≠ 32 then some (.error .bad)
        else match parseUnsigned (2 ^ 64) rev with
        | none => some (.error .bad)
        | some pinnedRevision =>
          if String.ofList epoch ≠ inner.epoch then some (.error .epochChanged)
          else match hexArray 16 (utf8 (String.ofList macHex)) with
          | none => none
          | some none => some (.error .bad)
          | some (some supplied) =>
            if constantTimeEq (inner.cursorMac sha256 (String.ofList payload)) supplied then
              some (.ok (String.ofList epoch, pinnedRevision, String.ofList device))
            else some (.error .bad)

theorem verifyCursorChecked_eq (sha256 : Sha256) (inner : StoreInner) (raw : String) :
    verifyCursorChecked sha256 inner raw = some (inner.verifyCursor sha256 raw) := by
  unfold verifyCursorChecked StoreInner.verifyCursor
  cases rsplitOnce '.' raw.toList with
  | none => rfl
  | some parts =>
    obtain ⟨payload, macHex⟩ := parts
    simp only
    cases splitOnce '.' payload with
    | none => rfl
    | some fields =>
      obtain ⟨epoch, rest⟩ := fields
      simp only
      cases splitOnce '.' rest with
      | none => rfl
      | some fields =>
        obtain ⟨rev, device⟩ := fields
        simp only
        split
        · rfl
        · next shaped =>
          cases parseUnsigned (2 ^ 64) rev with
          | none => rfl
          | some pinnedRevision =>
            simp only
            split
            · rfl
            · have size : (macHex.map Char.utf8Size).sum = 2 * 16 := by
                simp only [not_or, not_not] at shaped
                exact shaped.2.2
              rw [hexArray_utf8 size]
              cases hexDecode macHex with
              | none => rfl
              | some supplied =>
                simp only
                split <;> rfl

theorem of_verifyCursor {sha256 : Sha256} {inner : StoreInner} {raw : String}
    {fields : String × Nat × Wit.DeviceId} (accepted : inner.verifyCursor sha256 raw = .ok fields) :
    ∃ payload macHex rev, rsplitOnce '.' raw.toList = some (payload, macHex) ∧
      hexDecode macHex = some (inner.cursorMac sha256 (String.ofList payload)) ∧
      '.' ∉ fields.1.toList ∧ '.' ∉ rev ∧ parseUnsigned (2 ^ 64) rev = some fields.2.1 ∧
      payload = fields.1.toList ++ '.' :: (rev ++ '.' :: fields.2.2.toList) := by
  unfold StoreInner.verifyCursor at accepted
  cases split_ : rsplitOnce '.' raw.toList with
  | none => simp [split_] at accepted
  | some parts =>
    obtain ⟨payload, macHex⟩ := parts
    simp only [split_] at accepted
    cases first : splitOnce '.' payload with
    | none => simp [first] at accepted
    | some parts =>
      obtain ⟨epoch, rest⟩ := parts
      simp only [first] at accepted
      cases second : splitOnce '.' rest with
      | none => simp [second] at accepted
      | some parts =>
        obtain ⟨rev, device⟩ := parts
        simp only [second] at accepted
        split at accepted
        · cases accepted
        · cases number : parseUnsigned (2 ^ 64) rev with
          | none => simp only [number, reduceCtorEq] at accepted
          | some pinnedRevision =>
            simp only [number] at accepted
            split at accepted
            · cases accepted
            · cases decoded : hexDecode macHex with
              | none => simp [decoded] at accepted
              | some supplied =>
                simp only [decoded] at accepted
                split at accepted
                · next equal =>
                  cases accepted
                  obtain ⟨dotless, rfl⟩ := splitOnce_eq_some.mp first
                  obtain ⟨digits, rfl⟩ := splitOnce_eq_some.mp second
                  rw [constantTimeEq_iff] at equal
                  refine ⟨_, macHex, rev, rfl, decoded.trans (congrArg some equal.symm), ?_, digits,
                    number, ?_⟩
                  · simpa using dotless
                  · simp
                · cases accepted

theorem cursor_was_issued {sha256 : Sha256} {inner : StoreInner}
    (minted : ∃ nonce, inner.epoch = mintEpoch nonce) {issued : List (Nat × Wit.DeviceId)}
    {raw : String} (honest : NotForged '.' (inner.cursorMac sha256) (issued.map (cursorPayload inner)) raw)
    {fields : String × Nat × Wit.DeviceId} (accepted : inner.verifyCursor sha256 raw = .ok fields) :
    ∃ c ∈ issued, fields = (inner.epoch, c.1, c.2) := by
  obtain ⟨payload, macHex, rev, split_, decoded, dotless, digits, number, shape⟩ :=
    of_verifyCursor accepted
  obtain ⟨c, mem, signed⟩ := List.mem_map.mp (honest payload macHex split_ decoded)
  obtain ⟨nonce, minted⟩ := minted
  have epochDotless : '.' ∉ inner.epoch.toList := by
    rw [minted]
    exact (StoreInner.mintEpoch_dotless nonce).1
  have revDotless : '.' ∉ Nat.toDigits 10 c.1 := fun mem =>
    absurd (Nat.isDigit_of_mem_toDigits (by decide) (by decide) mem) (by decide)
  have text : payload = inner.epoch.toList ++ '.' :: (Nat.toDigits 10 c.1 ++ '.' :: c.2.toList) := by
    have := congrArg String.toList signed
    simpa [cursorPayload] using this.symm
  rw [text] at shape
  obtain ⟨epoch, revs, device⟩ := parts_inj epochDotless revDotless dotless digits shape
  rw [← revs, parseUnsigned_toDigits (by decide)] at number
  refine ⟨c, mem, Prod.ext ?_ (Prod.ext ?_ ?_)⟩
  · exact (String.toList_inj.mp epoch).symm
  · split at number
    · exact (Option.some.inj number).symm
    · cases number
  · exact (String.toList_inj.mp device).symm

theorem length_ticketMac (sha256 : Sha256) (secret : Vector UInt8 32) (payload : String) :
    (ticketMac sha256 secret payload).length = 16 := by
  simp [ticketMac]

theorem expiryMs_lt (now : SystemTime) : expiryMs now < 2 ^ 64 := by
  unfold expiryMs
  split
  · decide
  · split
    · assumption
    · decide

theorem toList_ticketPayload (pluginId installationUuid : String) (now : SystemTime) :
    (ticketPayload pluginId installationUuid now).toList =
      Nat.toDigits 10 (expiryMs now) ++
        '~' :: (pluginId.toList ++ '~' :: installationUuid.toList) := by
  simp [ticketPayload]

theorem separator_not_mem_toDigits (n : Nat) : '~' ∉ Nat.toDigits 10 n := fun mem =>
  absurd (Nat.isDigit_of_mem_toDigits (by decide) (by decide) mem) (by decide)

theorem verify_issue (sha256 : Sha256) (secret : Vector UInt8 32) {pluginId uuid : String}
    {now t : SystemTime} (plain : '~' ∉ pluginId.toList) (named : pluginId ≠ "") (owned : uuid ≠ "")
    (fits : (issue sha256 secret pluginId uuid now).utf8ByteSize ≤ MAX_TICKET_LEN) :
    verify sha256 secret (issue sha256 secret pluginId uuid now) t =
      some (if nowMs t < expiryMs now then .ok ⟨pluginId, uuid⟩ else .error .expired) := by
  have payload := toList_ticketPayload pluginId uuid now
  generalize hp : ticketPayload pluginId uuid now = p at payload
  have ticket : (issue sha256 secret pluginId uuid now).toList =
      p.toList ++ '~' :: hexEncode (ticketMac sha256 secret p) := by
    simp only [issue, hp]
    simp
  have macPlain : '~' ∉ hexEncode (ticketMac sha256 secret p) := fun mem =>
    absurd (mem_hexEncode mem).1 (by decide)
  have macSize : ((hexEncode (ticketMac sha256 secret p)).map Char.utf8Size).sum = 2 * 16 := by
    rw [utf8Size_hexEncode, length_ticketMac]
  have macBytes : (utf8 (String.ofList (hexEncode (ticketMac sha256 secret p)))).length = 32 := by
    rw [length_utf8_ofList, macSize]
  have nonempty (s : String) (h : s ≠ "") : s.toList ≠ [] := fun empty =>
    h (String.toList_eq_nil_iff.mp empty)
  have same : String.ofList p.toList = p := String.ofList_toList
  rw [verify, if_neg (not_lt.mpr fits), ticket, rsplitOnce_append _ macPlain]
  simp only
  rw [payload, splitOnce_append (separator_not_mem_toDigits _)]
  simp only
  rw [splitOnce_append plain]
  simp only
  rw [if_neg (by simp [Nat.toDigits_ne_nil, nonempty _ named, nonempty _ owned, macBytes]),
    parseUnsigned_toDigits (by decide), if_pos (expiryMs_lt now)]
  simp only [hexArray_utf8 macSize, hexDecode_hexEncode]
  rw [← payload, same, constantTimeEq_iff.mpr rfl]
  by_cases early : nowMs t < expiryMs now
  · simp [early, not_le.mpr early]
  · simp [early, not_lt.mp early]

theorem of_verify {sha256 : Sha256} {secret : Vector UInt8 32} {raw : String} {t : SystemTime}
    {decoded : DecodedTicket} (accepted : verify sha256 secret raw t = some (.ok decoded)) :
    ∃ payload macHex expiry, rsplitOnce '~' raw.toList = some (payload, macHex) ∧
      hexDecode macHex = some (ticketMac sha256 secret (String.ofList payload)) ∧
      '~' ∉ expiry ∧ '~' ∉ decoded.pluginId.toList ∧
      payload =
        expiry ++ '~' :: (decoded.pluginId.toList ++ '~' :: decoded.installationUuid.toList) := by
  unfold verify at accepted
  split at accepted
  · cases accepted
  · cases split_ : rsplitOnce '~' raw.toList with
    | none => simp [split_] at accepted
    | some parts =>
      obtain ⟨payload, macHex⟩ := parts
      simp only [split_] at accepted
      cases first : splitOnce '~' payload with
      | none => simp [first] at accepted
      | some parts =>
        obtain ⟨expiry, rest⟩ := parts
        simp only [first] at accepted
        cases second : splitOnce '~' rest with
        | none => simp [second] at accepted
        | some parts =>
          obtain ⟨pluginId, uuid⟩ := parts
          simp only [second] at accepted
          split at accepted
          · cases accepted
          · next shaped =>
            have size : (macHex.map Char.utf8Size).sum = 2 * 16 := by
              simp only [not_or, not_not, length_utf8_ofList] at shaped
              exact shaped.2.2.2
            cases number : parseUnsigned (2 ^ 64) expiry with
            | none => simp only [number, reduceCtorEq, Option.some.injEq] at accepted
            | some expiryMs =>
              simp only [number, hexArray_utf8 size] at accepted
              cases read : hexDecode macHex with
              | none => simp [read] at accepted
              | some supplied =>
                simp only [read] at accepted
                split at accepted
                · cases accepted
                · next equal =>
                  split at accepted
                  · cases accepted
                  · cases accepted
                    obtain ⟨expiryPlain, rfl⟩ := splitOnce_eq_some.mp first
                    obtain ⟨plain, rfl⟩ := splitOnce_eq_some.mp second
                    rw [Bool.not_eq_true', Bool.not_eq_false, constantTimeEq_iff] at equal
                    refine ⟨_, macHex, expiry, rfl, read.trans (congrArg some equal.symm),
                      expiryPlain, ?_, ?_⟩
                    · simpa using plain
                    · simp

theorem verify_ne_none (sha256 : Sha256) (secret : Vector UInt8 32) (raw : String)
    (t : SystemTime) : verify sha256 secret raw t ≠ none := by
  unfold verify
  split
  · exact Option.some_ne_none _
  · cases rsplitOnce '~' raw.toList with
    | none => exact Option.some_ne_none _
    | some parts =>
      simp only
      cases splitOnce '~' parts.1 with
      | none => exact Option.some_ne_none _
      | some fields =>
        simp only
        cases splitOnce '~' fields.2 with
        | none => exact Option.some_ne_none _
        | some ids =>
          simp only
          split
          · exact Option.some_ne_none _
          · next shaped =>
            have size : (parts.2.map Char.utf8Size).sum = 2 * 16 := by
              simp only [not_or, not_not, length_utf8_ofList] at shaped
              exact shaped.2.2.2
            rw [hexArray_utf8 size]
            cases parseUnsigned (2 ^ 64) fields.1 with
            | none => exact Option.some_ne_none _
            | some expiryMs =>
              simp only
              cases hexDecode parts.2 with
              | none => exact Option.some_ne_none _
              | some supplied =>
                simp only
                split_ifs
                all_goals exact Option.some_ne_none _

structure IssuedTicket where
  pluginId : String
  installationUuid : String
  now : SystemTime

def IssuedTicket.payload (ticket : IssuedTicket) : String :=
  ticketPayload ticket.pluginId ticket.installationUuid ticket.now

theorem ticket_was_issued {sha256 : Sha256} {secret : Vector UInt8 32}
    {issued : List IssuedTicket} (plain : ∀ c ∈ issued, '~' ∉ c.pluginId.toList) {raw : String}
    (honest : NotForged '~' (ticketMac sha256 secret) (issued.map IssuedTicket.payload) raw)
    {t : SystemTime} {decoded : DecodedTicket}
    (accepted : verify sha256 secret raw t = some (.ok decoded)) :
    ∃ c ∈ issued, decoded = ⟨c.pluginId, c.installationUuid⟩ := by
  obtain ⟨payload, macHex, expiry, split_, read, expiryPlain, idPlain, shape⟩ := of_verify accepted
  obtain ⟨c, mem, signed⟩ := List.mem_map.mp (honest payload macHex split_ read)
  have text : payload = Nat.toDigits 10 (expiryMs c.now) ++
      '~' :: (c.pluginId.toList ++ '~' :: c.installationUuid.toList) := by
    rw [← toList_ticketPayload, ← IssuedTicket.payload, signed, String.toList_ofList]
  rw [text] at shape
  obtain ⟨-, pluginId, uuid⟩ :=
    parts_inj (separator_not_mem_toDigits _) (plain c mem) expiryPlain idPlain shape
  refine ⟨c, mem, ?_⟩
  rw [String.toList_inj.mp pluginId, String.toList_inj.mp uuid]

end OxidHome.Api
