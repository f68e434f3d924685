import OxidHome.Api.SignedTexts

/-!
# Tickets through their URL

A ticket is read back from the wrapper's URL as it was issued, and opens its UI until the clock shows
its expiry. Where milliseconds no longer fit in a `u64`, the clock reads the epoch.
-/

namespace OxidHome.Api
open Library Projection

def Unreserved (s : List Char) : Prop :=
  ∀ c ∈ s, c.isAlphanum ∨ c = '-' ∨ c = '.' ∨ c = '_' ∨ c = '~'

theorem Unreserved.ascii {s : List Char} (h : Unreserved s) : Ascii s := by
  intro c mem
  rcases h c mem with alnum | rfl | rfl | rfl | rfl
  · exact ascii_of_isAlphanum alnum
  all_goals decide

theorem percentEncode_unreserved {s : String} (h : Unreserved s.toList) :
    percentEncodePathSegment s = s.toList := by
  have bytes : utf8 s = s.toList.map fun c => UInt8.ofNat c.toNat := by
    rw [← utf8_ascii h.ascii, String.ofList_toList]
  rw [percentEncodePathSegment, bytes, List.flatMap_map]
  have each : ∀ c ∈ s.toList,
      (if isUrlUnreserved (UInt8.ofNat c.toNat) then [Char.ofNat (UInt8.ofNat c.toNat).toNat]
        else '%' :: (hexByte (UInt8.ofNat c.toNat)).map Char.toUpper) = [c] := by
    intro c mem
    have ascii := h.ascii c mem
    have byte : (UInt8.ofNat c.toNat).toNat = c.toNat := by
      rw [UInt8.toNat_ofNat']
      omega
    have unreserved : isUrlUnreserved (UInt8.ofNat c.toNat) = true := by
      have := h c mem
      simp only [isUrlUnreserved, byte, Char.ofNat_toNat, ascii, decide_true, Bool.true_and,
        Bool.or_eq_true, decide_eq_true_eq]
      tauto
    rw [if_pos unreserved, byte, Char.ofNat_toNat]
  rw [List.flatMap_congr each, List.flatMap_singleton']

theorem utf8ByteSize_ascii {s : String} (h : Ascii s.toList) :
    s.utf8ByteSize = s.toList.length := by
  have bytes : (utf8 s).length = s.toList.length := by
    rw [← s.ofList_toList, utf8_ascii (by simpa using h)]
    simp
  rw [← bytes]
  simp [utf8]

theorem ticketQuery_uiSessionUrl (uri : UriQuery) {pluginId ticket : String}
    (hid : Unreserved pluginId.toList) (named : pluginId.utf8ByteSize ≤ 255)
    (ht : Unreserved ticket.toList) (fits : ticket.utf8ByteSize ≤ MAX_TICKET_LEN) :
    ticketQuery (uri.query (uiSessionUrl pluginId ticket)) = .ok (some ticket) := by
  have absent (c : Char) (h : ¬ (c.isAlphanum ∨ c = '-' ∨ c = '.' ∨ c = '_' ∨ c = '~'))
      {s : List Char} (plain : Unreserved s) : c ∉ s := fun mem => h (plain c mem)
  have query : uri.query (uiSessionUrl pluginId ticket) = some ("tk=".toList ++ ticket.toList) := by
    have mark : "/ui?tk=".toList = "/ui".toList ++ '?' :: "tk=".toList := by simp
    have root : "/api/v1/plugins/".toList = '/' :: "api/v1/plugins/".toList := by simp
    have url : uiSessionUrl pluginId ticket =
        '/' :: ("api/v1/plugins/".toList ++ pluginId.toList ++ "/ui".toList) ++
          '?' :: ("tk=".toList ++ ticket.toList) := by
      unfold uiSessionUrl percentEncodeQueryValue
      rw [percentEncode_unreserved hid]
      rw [percentEncode_unreserved ht]
      rw [mark, root]
      simp only [List.append_assoc, List.cons_append]
    have fixed : ∀ s ∈ ["api/v1/plugins/", "/ui", "tk="], ∀ c ∈ s.toList,
        c.isAlphanum ∨ c ∈ "/=-._~".toList := by simp
    have plain {s : List Char} (unreserved : Unreserved s) :
        ∀ c ∈ s, c.isAlphanum ∨ c ∈ "/=-._~".toList := by
      intro c mem
      rcases unreserved c mem with alnum | rfl | rfl | rfl | rfl
      · exact .inl alnum
      all_goals simp
    rw [url]
    apply uri.after
    · simp only [List.forall_mem_append]
      exact ⟨⟨⟨fixed _ (by simp), plain hid⟩, fixed _ (by simp)⟩, fixed _ (by simp), plain ht⟩
    · rw [utf8ByteSize_ascii hid.ascii] at named
      rw [utf8ByteSize_ascii ht.ascii, MAX_TICKET_LEN] at fits
      have lengths : "api/v1/plugins/".length = 15 ∧ "/ui".length = 3 ∧ "tk=".length = 3 := by decide
      simp only [List.length_append, String.length_toList, lengths] at named fits ⊢
      omega
  have key : "tk=".toList = ['t', 'k', '='] := by simp
  have ascii : Ascii ("tk=".toList ++ ticket.toList) := by
    intro c mem
    rcases List.mem_append.mp mem with mem | mem
    · rw [key] at mem
      simp only [List.mem_cons, List.not_mem_nil, or_false] at mem
      rcases mem with rfl | rfl | rfl
      all_goals decide
    · exact ht.ascii c mem
  have short : (utf8 (String.ofList ("tk=".toList ++ ticket.toList))).length ≤ MAX_UI_QUERY_LEN := by
    rw [utf8ByteSize_ascii ht.ascii] at fits
    rw [utf8_ascii ascii, List.length_map, List.length_append]
    simp only [MAX_UI_QUERY_LEN]
    rw [key, List.length_cons, List.length_cons, List.length_singleton]
    omega
  have single : ("tk=".toList ++ ticket.toList).splitOn '&' = ["tk=".toList ++ ticket.toList] := by
    rw [List.splitOn]
    apply List.splitOnP_eq_singleton
    intro c mem
    rw [beq_eq_false_iff_ne]
    rintro rfl
    rcases List.mem_append.mp mem with mem | mem
    · simp at mem
    · exact absent '&' (by decide) ht mem
  rw [query, ticketQuery]
  simp only [Option.getD_some, if_neg (not_lt.mpr short), single, List.foldl_cons, List.foldl_nil]
  simp

theorem unreserved_of_isValidLabel {label : List Char} (valid : isValidLabel label = true) :
    label ≠ [] ∧ ∀ c ∈ label, c.isAlphanum ∨ c = '-' := by
  cases label with
  | nil => cases valid
  | cons first chars =>
      simp only [isValidLabel, Bool.and_eq_true, Bool.or_eq_true, List.all_eq_true,
        decide_eq_true_eq] at valid
      refine ⟨List.cons_ne_nil _ _, fun c mem => ?_⟩
      have alnum : c.isLower ∨ c.isDigit ∨ c = '-' := by
        rcases List.mem_cons.mp mem with rfl | mem
        · rcases valid.1 with h | h
          · exact .inl h
          · exact .inr (.inl h)
        · have := valid.2 c mem
          tauto
      simp only [Char.isAlphanum, Char.isAlpha, Bool.or_eq_true]
      tauto

theorem mem_splitOn (sep : Char) {c : Char} {s : List Char} (mem : c ∈ s) :
    c = sep ∨ ∃ part ∈ s.splitOn sep, c ∈ part := by
  induction s with
  | nil => cases mem
  | cons d s ih =>
      obtain ⟨first, parts, split_⟩ := List.exists_cons_of_ne_nil (List.splitOn_ne_nil sep s)
      rw [List.splitOn_cons_eq_if_modifyHead]
      rw [split_] at ih ⊢
      by_cases here : d = sep
      · rw [if_pos (by simpa using here)]
        rcases List.mem_cons.mp mem with rfl | mem
        · exact .inl here
        · rcases ih mem with same | ⟨part, known, mem⟩
          · exact .inl same
          · exact .inr ⟨part, List.mem_cons_of_mem _ known, mem⟩
      · rw [if_neg (by simpa using here), List.modifyHead_cons]
        rcases List.mem_cons.mp mem with rfl | mem
        · exact .inr ⟨c :: first, List.mem_cons_self, List.mem_cons_self⟩
        · rcases ih mem with same | ⟨part, known, mem⟩
          · exact .inl same
          · rcases List.mem_cons.mp known with rfl | known
            · exact .inr ⟨d :: part, List.mem_cons_self, List.mem_cons_of_mem _ mem⟩
            · exact .inr ⟨part, List.mem_cons_of_mem _ known, mem⟩

theorem unreserved_of_isReverseDns {s : String} (valid : isReverseDns s = true) :
    Unreserved s.toList ∧ '~' ∉ s.toList ∧ s ≠ "" := by
  simp only [isReverseDns, Bool.and_eq_true, List.contains_iff_mem, List.all_eq_true] at valid
  have chars : ∀ c ∈ s.toList, c = '.' ∨ c.isAlphanum ∨ c = '-' := by
    intro c mem
    rcases mem_splitOn '.' mem with dot | ⟨part, here, mem⟩
    · exact .inl dot
    · exact .inr ((unreserved_of_isValidLabel (valid.2 part here)).2 c mem)
  refine ⟨fun c mem => ?_, fun mem => ?_, ?_⟩
  · have := chars c mem
    tauto
  · exact absurd (chars '~' mem) (by decide)
  · rintro rfl
    exact absurd valid.1 (by simp)

theorem SystemTime.sinceEpoch_of_nonneg {t : SystemTime} (h : 0 ≤ t.secs) :
    ∃ d, t.sinceEpoch = some d ∧ (d.asMillis : Int) = t.millis := by
  refine ⟨⟨t.secs.toNat, t.nanos, t.subsecond⟩, if_pos h, ?_⟩
  simp only [Duration.asMillis, SystemTime.millis, Nat.cast_add, Nat.cast_mul, Int.toNat_of_nonneg h]
  rfl

theorem SystemTime.millis_neg {t : SystemTime} (h : t.secs < 0) : t.millis < 0 := by
  have := t.subsecond
  simp only [SystemTime.millis]
  omega

theorem nowMs_eq (t : SystemTime) :
    (nowMs t : Int) = if 0 ≤ t.millis ∧ t.millis < 2 ^ 64 then t.millis else 0 := by
  by_cases h : 0 ≤ t.secs
  · obtain ⟨d, since, millis⟩ := SystemTime.sinceEpoch_of_nonneg h
    simp only [nowMs, since]
    split_ifs <;> omega
  · have negative := SystemTime.millis_neg (not_le.mp h)
    simp only [nowMs, SystemTime.sinceEpoch, if_neg h]
    rw [if_neg (by omega)]
    rfl

theorem saturated_eq {ms : Nat} {m : Int} (same : (ms : Int) = m) :
    ((if ms < 2 ^ 64 then ms else 2 ^ 64 - 1 : Nat) : Int) =
      if m < 2 ^ 64 then m else 2 ^ 64 - 1 := by
  split_ifs <;> omega

theorem expiryMs_eq {now : SystemTime} (h : 0 ≤ now.secs) :
    (expiryMs now : Int) =
      if 2 ^ 63 ≤ now.secs + 300 then 0
      else if now.millis + 300000 < 2 ^ 64 then now.millis + 300000 else 2 ^ 64 - 1 := by
  have carry : now.nanos / 10 ^ 9 = 0 := Nat.div_eq_of_lt now.subsecond
  have rest : now.nanos % 10 ^ 9 = now.nanos := Nat.mod_eq_of_lt now.subsecond
  have ttl : TICKET_TTL.secs = 300 ∧ TICKET_TTL.nanos = 0 := ⟨rfl, rfl⟩
  unfold expiryMs SystemTime.checkedAdd
  simp only [ttl.1, ttl.2, add_zero, carry, rest, Nat.cast_zero]
  have three : ((300 : Nat) : Int) = 300 := rfl
  by_cases far : 2 ^ 63 ≤ now.secs + 300
  · rw [dif_neg (by omega), if_pos far]
    rfl
  · rw [dif_pos (by omega), if_neg far, Option.bind_some, SystemTime.sinceEpoch]
    simp only [Duration.asMillis]
    rw [if_pos (by omega)]
    simp only
    have total : (((now.secs + (300 : Nat)).toNat * 1000 + now.nanos / 10 ^ 6 : Nat) : Int) =
        now.millis + 300000 := by
      simp only [SystemTime.millis]
      omega
    exact saturated_eq total

/-- Both the expiry and the clock fit in a `u64` of milliseconds, or neither matters. -/
def Timely (now t : SystemTime) : Prop :=
  now.millis + 300000 < 2 ^ 64 ∧ t.millis < 2 ^ 64 ∨
    2 ^ 64 ≤ now.millis + 300000 ∧ now.secs + 300 < 2 ^ 63 ∧
      (t.millis < 2 ^ 64 - 1 ∨ 2 ^ 64 ≤ t.millis ∧ t.millis < now.millis + 300000)

theorem early_iff_timely {now t : SystemTime} (h : 0 ≤ now.secs) :
    (nowMs t < expiryMs now ↔ t.millis < now.millis + 300000) ↔ Timely now t := by
  have clock := nowMs_eq t
  have expiry := expiryMs_eq h
  have latest : 2 ^ 63 ≤ now.secs + 300 → 2 ^ 64 ≤ now.millis + 300000 ∧
      t.millis < now.millis + 300000 := by
    have := now.subsecond
    have := t.subsecond
    have := t.representable
    simp only [SystemTime.millis]
    omega
  have after : 0 ≤ now.millis := by
    simp only [SystemTime.millis]
    omega
  unfold Timely
  rw [← Int.ofNat_lt, clock, expiry]
  generalize now.millis = n at *
  generalize t.millis = m at *
  split_ifs <;> omega

theorem toList_issue (sha256 : Sha256) (secret : Vector UInt8 32) (pluginId uuid : String)
    (now : SystemTime) :
    (issue sha256 secret pluginId uuid now).toList =
      Nat.toDigits 10 (expiryMs now) ++ ('~' :: (pluginId.toList ++ ('~' :: (uuid.toList ++
        ('~' :: hexEncode (ticketMac sha256 secret (ticketPayload pluginId uuid now))))))) := by
  have payload := toList_ticketPayload pluginId uuid now
  simp only [issue, String.toList_append, String.toList_ofList, payload]
  simp

theorem toList_mintInstallationUuid (bytes : Vector UInt8 16) :
    (mintInstallationUuid bytes).toList = ['i', 'n', 's', 't', '-'] ++ hexEncode bytes.toList := by
  have inst : "inst-".toList = ['i', 'n', 's', 't', '-'] := by simp
  unfold mintInstallationUuid
  rw [String.toList_ofList]
  rw [inst]

theorem unreserved_hexEncode (bytes : List UInt8) : Unreserved (hexEncode bytes) :=
  fun _ mem => .inl (mem_hexEncode mem).1

theorem unreserved_uuid (bytes : Vector UInt8 16) :
    Unreserved (mintInstallationUuid bytes).toList := by
  rw [toList_mintInstallationUuid]
  intro c mem
  rcases List.mem_append.mp mem with mem | mem
  · simp only [List.mem_cons, List.not_mem_nil, or_false] at mem
    rcases mem with rfl | rfl | rfl | rfl | rfl
    all_goals decide
  · exact unreserved_hexEncode _ c mem

section
variable (sha256 : Sha256) (secret : Vector UInt8 32) {pluginId : String}
  (uuidBytes : Vector UInt8 16) (now : SystemTime)

theorem unreserved_issue (valid : isReverseDns pluginId = true) :
    Unreserved (issue sha256 secret pluginId (mintInstallationUuid uuidBytes) now).toList := by
  rw [toList_issue]
  intro c mem
  simp only [List.mem_append, List.mem_cons] at mem
  rcases mem with digit | rfl | id | rfl | uuid | rfl | mac
  · left
    have := Nat.isDigit_of_mem_toDigits (by decide) (by decide) digit
    simp [Char.isAlphanum, this]
  · simp
  · exact (unreserved_of_isReverseDns valid).1 c id
  · simp
  · exact unreserved_uuid uuidBytes c uuid
  · simp
  · exact unreserved_hexEncode _ c mac

theorem issue_fits (valid : isReverseDns pluginId = true) (short : pluginId.utf8ByteSize ≤ 255) :
    (issue sha256 secret pluginId (mintInstallationUuid uuidBytes) now).utf8ByteSize ≤
      MAX_TICKET_LEN := by
  have digits : (Nat.toDigits 10 (expiryMs now)).length ≤ 20 := by
    rw [Nat.length_toDigits_le_iff (by decide) (by decide)]
    exact (expiryMs_lt now).trans (by decide)
  rw [utf8ByteSize_ascii (unreserved_of_isReverseDns valid).1.ascii] at short
  rw [utf8ByteSize_ascii (unreserved_issue sha256 secret uuidBytes now valid).ascii, toList_issue,
    toList_mintInstallationUuid]
  simp only [List.length_append, List.length_cons, length_hexEncode, length_ticketMac,
    List.length_nil, Vector.length_toList, MAX_TICKET_LEN]
  omega

theorem uuid_ne_empty : mintInstallationUuid uuidBytes ≠ "" := by
  intro empty
  have := congrArg String.toList empty
  rw [toList_mintInstallationUuid] at this
  cases this

theorem verify_minted (valid : isReverseDns pluginId = true)
    (short : pluginId.utf8ByteSize ≤ 255) (t : SystemTime) :
    verify sha256 secret (issue sha256 secret pluginId (mintInstallationUuid uuidBytes) now) t =
      some (if nowMs t < expiryMs now then .ok ⟨pluginId, mintInstallationUuid uuidBytes⟩
        else .error .expired) := by
  obtain ⟨-, plain, named⟩ := unreserved_of_isReverseDns valid
  exact verify_issue sha256 secret plain named (uuid_ne_empty uuidBytes)
    (issue_fits sha256 secret uuidBytes now valid short)

end

theorem served_was_issued {sha256 : Sha256} {secret : Vector UInt8 32}
    {issued : List IssuedTicket} (plain : ∀ c ∈ issued, '~' ∉ c.pluginId.toList) {raw : String}
    (honest : NotForged '~' (ticketMac sha256 secret) (issued.map IssuedTicket.payload) raw)
    {installed : String → Option String} {pluginId uuid : String} {t : SystemTime}
    (served : servedInstallation sha256 secret installed pluginId (some raw) t = some (.ok uuid)) :
    installed pluginId = some uuid ∧
      ∃ c ∈ issued, c.pluginId = pluginId ∧ c.installationUuid = uuid := by
  unfold servedInstallation at served
  split at served
  · cases served
  · next same =>
      cases same
      cases outcome : verify sha256 secret raw t with
      | none => simp [outcome] at served
      | some result =>
          cases result with
          | error e => cases e <;> simp [outcome] at served
          | ok decoded =>
              obtain ⟨c, mem, rfl⟩ := ticket_was_issued plain honest outcome
              simp only [outcome] at served
              split at served
              · cases served
              · next named =>
                  cases row : installed pluginId with
                  | none => simp [row] at served
                  | some live =>
                      simp only [row] at served
                      split at served
                      · cases served
                      · next owned =>
                          cases served
                          exact ⟨rfl, c, mem, not_not.mp named, not_not.mp owned⟩

theorem signed_texts_decode_to_issued (sha256 : Sha256) (uri : UriQuery) :
    (∀ inner : StoreInner, (∃ nonce, inner.epoch = mintEpoch nonce) →
      (∀ rev device, rev < 2 ^ 64 → device ≠ "" →
        verifyCursorChecked sha256 inner (inner.issueCursor sha256 rev device) =
          some (.ok (inner.epoch, rev, device))) ∧
      ∀ (issued : List (Nat × Wit.DeviceId)) raw,
        NotForged '.' (inner.cursorMac sha256) (issued.map (cursorPayload inner)) raw →
        ∀ fields, verifyCursorChecked sha256 inner raw = some (.ok fields) →
          ∃ c ∈ issued, fields = (inner.epoch, c.1, c.2)) ∧
    (∀ secret pluginId uuidBytes now, isReverseDns pluginId = true → pluginId.utf8ByteSize ≤ 255 →
      0 ≤ now.secs →
      let uuid := mintInstallationUuid uuidBytes
      let ticket := issue sha256 secret pluginId uuid now
      ticketQuery (uri.query (uiSessionUrl pluginId ticket)) = .ok (some ticket) ∧
        ∀ t, verify sha256 secret ticket t =
            some (if t.millis < now.millis + TICKET_TTL.asMillis then .ok ⟨pluginId, uuid⟩
              else .error .expired) ↔ Timely now t) ∧
    (∀ secret (issued : List IssuedTicket) raw, (∀ c ∈ issued, isReverseDns c.pluginId = true) →
      NotForged '~' (ticketMac sha256 secret) (issued.map IssuedTicket.payload) raw →
      (∀ t decoded, verify sha256 secret raw t = some (.ok decoded) →
        ∃ c ∈ issued, decoded = ⟨c.pluginId, c.installationUuid⟩) ∧
      ∀ installed pluginId uuid t,
        servedInstallation sha256 secret installed pluginId (some raw) t = some (.ok uuid) →
        installed pluginId = some uuid ∧
          ∃ c ∈ issued, c.pluginId = pluginId ∧ c.installationUuid = uuid) ∧
    ∀ inner secret raw t,
      verifyCursorChecked sha256 inner raw ≠ none ∧ verify sha256 secret raw t ≠ none := by
  refine ⟨fun inner minted => ⟨fun rev device fits named => ?_, fun issued raw honest fields => ?_⟩,
    fun secret pluginId uuidBytes now valid short after => ⟨?_, fun t => ?_⟩,
    fun secret issued raw valid honest => ?_, fun inner secret raw t => ⟨?_, ?_⟩⟩
  · rw [verifyCursorChecked_eq, StoreInner.verifyCursor_issueCursor sha256 minted,
      if_pos ⟨named, fits⟩]
  · rw [verifyCursorChecked_eq, Option.some.injEq]
    exact cursor_was_issued minted honest
  · exact ticketQuery_uiSessionUrl uri (unreserved_of_isReverseDns valid).1 short
      (unreserved_issue sha256 secret uuidBytes now valid)
      (issue_fits sha256 secret uuidBytes now valid short)
  · rw [verify_minted sha256 secret uuidBytes now valid short, ← early_iff_timely after]
    have ttl : ((TICKET_TTL.asMillis : Nat) : Int) = 300000 := rfl
    rw [ttl, Option.some.injEq]
    by_cases early : nowMs t < expiryMs now <;>
      by_cases true_ : t.millis < now.millis + 300000 <;> simp [early, true_]
  · have plain : ∀ c ∈ issued, '~' ∉ c.pluginId.toList := fun c mem =>
      (unreserved_of_isReverseDns (valid c mem)).2.1
    exact ⟨fun t decoded => ticket_was_issued plain honest,
      fun installed pluginId uuid t => served_was_issued plain honest⟩
  · rw [verifyCursorChecked_eq]
    exact Option.some_ne_none _
  · exact verify_ne_none sha256 secret raw t

def zeroSha : Sha256 := fun _ => Vector.replicate 32 0
def zeroSecret : Vector UInt8 32 := Vector.replicate 32 0
def zeroUuid : Vector UInt8 16 := Vector.replicate 16 0

theorem natCast_representable {secs : Nat} (h : (secs : Int) < 2 ^ 63) :
    -2 ^ 63 ≤ (secs : Int) ∧ (secs : Int) < 2 ^ 63 := ⟨by omega, h⟩

def splitUri : UriQuery where
  query url := (splitOnce '?' url).map Prod.snd
  after := by
    intro path rest plain _
    have unmarked : '?' ∉ '/' :: path := by
      rw [List.mem_cons, not_or]
      refine ⟨by decide, fun mem => ?_⟩
      exact absurd (plain '?' (List.mem_append_left rest mem)) (by decide)
    rw [splitOnce_append unmarked, Option.map_some]

def clockAt (secs : Nat) (h : (secs : Int) < 2 ^ 63) : SystemTime :=
  ⟨secs, 0, natCast_representable h, Nat.pow_pos (Nat.succ_pos 9)⟩

theorem sample_isReverseDns : isReverseDns "a.b" = true := by
  simp [isReverseDns, List.splitOn_cons_eq_if_modifyHead, isValidLabel, Char.isLower]

theorem signed_texts_decode_to_issued_fresh :
    verify zeroSha zeroSecret
        (issue zeroSha zeroSecret "a.b" (mintInstallationUuid zeroUuid) (clockAt 7 (by decide)))
        (clockAt 8 (by decide)) =
      some (.ok ⟨"a.b", mintInstallationUuid zeroUuid⟩) := by
  have fresh := ((signed_texts_decode_to_issued zeroSha splitUri).2.1 zeroSecret "a.b" zeroUuid
    (clockAt 7 (by decide)) sample_isReverseDns (by decide) (by decide)).2 (clockAt 8 (by decide))
  rw [fresh.mpr (.inl (by decide)), if_pos (by decide)]

theorem expired_ticket_is_accepted :
    (clockAt 7 (by decide)).millis + TICKET_TTL.asMillis ≤ (clockAt (2 ^ 55) (by decide)).millis ∧
    verify zeroSha zeroSecret
        (issue zeroSha zeroSecret "a.b" (mintInstallationUuid zeroUuid) (clockAt 7 (by decide)))
        (clockAt (2 ^ 55) (by decide)) =
      some (.ok ⟨"a.b", mintInstallationUuid zeroUuid⟩) := by
  refine ⟨by decide, ?_⟩
  rw [verify_minted zeroSha zeroSecret zeroUuid _ sample_isReverseDns (by decide), if_pos (by decide)]

end OxidHome.Api
