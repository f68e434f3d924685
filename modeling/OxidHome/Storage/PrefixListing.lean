import OxidHome.Storage.KvQuota
import OxidHome.Storage.BlobAtomicity
import OxidHome.Storage.BlobTraffic
import OxidHome.History.EventLog

/-!
# Prefix listings

`list_keys`, `list_blobs` and the topic filter of `EventLog::query` ask SQLite for
`substr(text, 1, length(prefix)) = prefix`. `length` stops at the first NUL, so this is `starts_with`
for the prefixes that have none, and matches nothing for the others.
-/

namespace OxidHome.Storage
open Wit Library History

/-- `substr(text, 1, length(prefix)) = prefix` -/
def substrMatches (text p : String) : Bool := topicMatches text (p, .startsWith)

def KvStore.listKeys (s : KvStore) (installationUuid instanceId p : String) : List String :=
  let selected := s.kv.filter fun row =>
    row.tuple = (installationUuid, instanceId) && substrMatches row.key p
  (selected.mergeSort fun a b => a.key ≤ b.key).map KvRow.key

def BlobStore.listBlobs (s : BlobStore) (installationUuid instanceId p : String) :
    Except BlobError (List BlobInfo) :=
  match checkSegments installationUuid instanceId with
  | some err => .error err
  | none =>
    let selected := s.index.blob.filter fun row =>
      row.tuple = (installationUuid, instanceId) && substrMatches row.name p
    .ok ((selected.mergeSort fun a b => a.name ≤ b.name).map BlobRow.info)

def Plain (p : String) : Prop := '\x00' ∉ p.toList

theorem isPrefix_takeWhile {α : Type} (keep : α → Bool) {p text : List α}
    (all : ∀ c ∈ p, keep c = true) : p <+: text.takeWhile keep ↔ p <+: text := by
  induction text generalizing p with
  | nil => rfl
  | cons c text ih =>
      cases p with
      | nil => simp
      | cons d p =>
          rw [List.takeWhile_cons, List.cons_prefix_cons]
          by_cases same : d = c
          · subst same
            have first := all d List.mem_cons_self
            have rest := ih fun e mem => all e (List.mem_cons_of_mem d mem)
            rw [if_pos first, List.cons_prefix_cons, rest]
          · split <;> simp [same]

theorem sqlText_of_plain {p : String} (plain : Plain p) : sqlText p = p.toList := by
  unfold sqlText
  rw [List.takeWhile_eq_self_iff]
  intro c mem
  have : c ≠ '\x00' := fun nul => plain (nul ▸ mem)
  simpa using this

theorem length_sqlText_lt {p : String} (nul : ¬ Plain p) : (sqlText p).length < p.toList.length := by
  have within := (List.takeWhile_prefix (l := p.toList) fun c => decide (c ≠ '\x00'))
  refine Nat.lt_of_le_of_ne within.length_le fun same => nul ?_
  intro mem
  have whole : sqlText p = p.toList := within.eq_of_length same
  rw [← whole] at mem
  have := List.mem_takeWhile_imp mem
  simp at this

theorem substrMatches_iff (text p : String) :
    substrMatches text p = true ↔ Plain p ∧ p.toList <+: text.toList := by
  show decide ((sqlText text).take (sqlText p).length = p.toList) = true ↔ _
  rw [decide_eq_true_eq]
  by_cases plain : Plain p
  · have visible : ∀ c ∈ p.toList, decide (c ≠ '\x00') = true := by
      intro c mem
      have : c ≠ '\x00' := fun nul => plain (nul ▸ mem)
      simpa using this
    rw [sqlText_of_plain plain, ← isPrefix_takeWhile _ visible, List.prefix_iff_eq_take]
    exact ⟨fun same => ⟨plain, same.symm⟩, fun h => h.2.symm⟩
  · refine iff_of_false (fun same => ?_) fun h => plain h.1
    have short := length_sqlText_lt plain
    have kept := List.length_take_le (sqlText p).length (sqlText text)
    rw [same] at kept
    exact absurd short (Nat.not_lt.mpr kept)

/-- What a listing is to return: the stored texts that start with `p`, in order and once each. -/
structure ListsPrefix (stored : String → Prop) (p : String) (listed : List String) : Prop where
  ascending : listed.Pairwise (· < ·)
  mem : ∀ k, k ∈ listed ↔ stored k ∧ p.toList <+: k.toList

section
variable {ρ : Type} {text : ρ → String} {rows : List ρ}

theorem ascending_listing (distinct : (rows.map text).Nodup) :
    ((rows.mergeSort fun a b => decide (text a ≤ text b)).map text).Pairwise (· < ·) := by
  have sorted : (rows.mergeSort fun a b => decide (text a ≤ text b)).Pairwise
      fun a b => decide (text a ≤ text b) = true := by
    apply List.pairwise_mergeSort
    · intro a b c ab bc
      rw [decide_eq_true_eq] at ab bc ⊢
      exact le_trans ab bc
    · intro a b
      rw [Bool.or_eq_true, decide_eq_true_eq, decide_eq_true_eq]
      exact le_total (text a) (text b)
  have apart : ((rows.mergeSort fun a b => decide (text a ≤ text b)).map text).Nodup :=
    ((List.mergeSort_perm _ _).map text).nodup_iff.mpr distinct
  rw [List.Nodup, List.pairwise_map] at apart
  rw [List.pairwise_map]
  refine (sorted.and apart).imp fun {a b} both => ?_
  exact lt_of_le_of_ne (of_decide_eq_true both.1) both.2

theorem listsPrefix_iff {mine : ρ → Prop} [DecidablePred mine]
    (distinct : ((rows.filter fun r => mine r).map text).Nodup) (p : String) :
    ListsPrefix (fun k => ∃ r ∈ rows, mine r ∧ text r = k) p
        (((rows.filter fun r => mine r && substrMatches (text r) p).mergeSort
          fun a b => text a ≤ text b).map text) ↔
      Plain p ∨ ∀ r ∈ rows, mine r → ¬ p.toList <+: (text r).toList := by
  have listed (k : String) :
      k ∈ ((rows.filter fun r => mine r && substrMatches (text r) p).mergeSort
          fun a b => text a ≤ text b).map text ↔
        ∃ r ∈ rows, mine r ∧ (Plain p ∧ p.toList <+: (text r).toList) ∧ text r = k := by
    simp only [List.mem_map, List.mem_mergeSort, List.mem_filter, Bool.and_eq_true,
      decide_eq_true_eq, substrMatches_iff, and_assoc]
  constructor
  · intro lists
    by_contra neither
    push Not at neither
    obtain ⟨nul, r, mem, here, starts⟩ := neither
    obtain ⟨r', _, _, ⟨plain, _⟩, _⟩ :=
      (listed (text r)).mp ((lists.mem (text r)).mpr ⟨⟨r, mem, here, rfl⟩, starts⟩)
    exact nul plain
  · intro condition
    constructor
    · apply ascending_listing
      have fewer : (rows.filter fun r => mine r && substrMatches (text r) p).Sublist
          (rows.filter fun r => mine r) := by
        apply List.monotone_filter_right
        intro r selected
        exact (Bool.and_eq_true _ _ ▸ selected).1
      exact distinct.sublist (fewer.map text)
    · intro k
      rw [listed]
      constructor
      · rintro ⟨r, mem, here, ⟨_, starts⟩, rfl⟩
        exact ⟨⟨r, mem, here, rfl⟩, starts⟩
      · rintro ⟨⟨r, mem, here, rfl⟩, starts⟩
        have plain := condition.resolve_right fun none => none r mem here starts
        exact ⟨r, mem, here, ⟨plain, starts⟩, rfl⟩

theorem distinct_texts (text : ρ → String) {key : ρ → String × String × String}
    (distinct : (rows.map key).Nodup) (mine : ρ → Prop) [DecidablePred mine]
    (determined : ∀ a b, mine a → mine b → text a = text b → key a = key b) :
    ((rows.filter fun r => mine r).map text).Nodup := by
  have keys : ((rows.filter fun r => mine r).map key).Nodup :=
    distinct.sublist (List.filter_sublist.map key)
  rw [List.Nodup, List.pairwise_map] at keys ⊢
  refine keys.imp_of_mem fun {a b} memA memB apart same => apart ?_
  simp only [List.mem_filter, decide_eq_true_eq] at memA memB
  exact determined a b memA.2 memB.2 same

end

def KvStore.Stores (s : KvStore) (uuid inst key : String) : Prop :=
  ∃ row ∈ s.kv, row.tuple = (uuid, inst) ∧ row.key = key

def BlobStore.Stores (s : BlobStore) (uuid inst name : String) : Prop :=
  ∃ row ∈ s.index.blob, row.tuple = (uuid, inst) ∧ row.name = name

theorem listKeys_iff {s : KvStore} (inv : s.KvInv) (uuid inst p : String) :
    ListsPrefix (s.Stores uuid inst) p (s.listKeys uuid inst p) ↔
      Plain p ∨ ∀ key, s.Stores uuid inst key → ¬ p.toList <+: key.toList := by
  have distinct := distinct_texts KvRow.key inv.keys (fun row => row.tuple = (uuid, inst))
    fun a b hereA hereB same => by
      show (a.tuple.1, a.tuple.2, a.key) = (b.tuple.1, b.tuple.2, b.key)
      rw [hereA, hereB, same]
  rw [show (∀ key, s.Stores uuid inst key → ¬ p.toList <+: key.toList) ↔
      ∀ row ∈ s.kv, row.tuple = (uuid, inst) → ¬ p.toList <+: row.key.toList from
    ⟨fun none row mem here => none row.key ⟨row, mem, here, rfl⟩,
      fun none key ⟨row, mem, here, same⟩ => same ▸ none row mem here⟩]
  exact listsPrefix_iff distinct p

theorem listBlobs_iff {s : BlobStore} (keys : (s.index.blob.map BlobRow.primaryKey).Nodup)
    (uuid inst p : String) :
    (∃ infos, s.listBlobs uuid inst p = .ok infos ∧
        ListsPrefix (s.Stores uuid inst) p (infos.map BlobInfo.name)) ↔
      BlobStore.checkSegments uuid inst = none ∧
        (Plain p ∨ ∀ name, s.Stores uuid inst name → ¬ p.toList <+: name.toList) := by
  have distinct := distinct_texts BlobRow.name keys (fun row => row.tuple = (uuid, inst))
    fun a b hereA hereB same => by
      show (a.tuple.1, a.tuple.2, a.name) = (b.tuple.1, b.tuple.2, b.name)
      rw [hereA, hereB, same]
  rw [show (∀ name, s.Stores uuid inst name → ¬ p.toList <+: name.toList) ↔
      ∀ row ∈ s.index.blob, row.tuple = (uuid, inst) → ¬ p.toList <+: row.name.toList from
    ⟨fun none row mem here => none row.name ⟨row, mem, here, rfl⟩,
      fun none name ⟨row, mem, here, same⟩ => same ▸ none row mem here⟩]
  rw [← listsPrefix_iff distinct p]
  cases check : BlobStore.checkSegments uuid inst with
  | some err => simp [BlobStore.listBlobs, check]
  | none =>
      simp only [BlobStore.listBlobs, check, Except.ok.injEq, exists_eq_left', List.map_map,
        true_and]
      rfl

def rowsStartingWith (log : EventLog) (filter : EventQuery) (p : String) : List EventRow :=
  (log.rows.filter fun row =>
    { filter with topic := none }.selects row && p.toList.isPrefixOf row.topic.toList).mergeSort
      newestFirst

theorem selects_startsWith (filter : EventQuery) (p : String) (row : EventRow) :
    { filter with topic := some (p, .startsWith) }.selects row =
      ({ filter with topic := none }.selects row && substrMatches row.topic p) := by
  simp only [EventQuery.selects, Option.all_some, Option.all_none, Bool.and_true, substrMatches]
  ac_rfl

theorem query_iff (serde : SerdeJson) (log : EventLog) (filter : EventQuery) (limit : Nat)
    (p : String) :
    log.query serde { filter with topic := some (p, .startsWith) } limit =
        ((rowsStartingWith log filter p).take (pageSize limit)).mapM (decodeRow serde) ↔
      Plain p ∨ limit = 0 ∨ rowsStartingWith log filter p = [] := by
  unfold EventLog.query selected
  rw [funext (selects_startsWith filter p)]
  by_cases plain : Plain p
  · have same : (fun row : EventRow => { filter with topic := none }.selects row &&
        substrMatches row.topic p) = fun row => { filter with topic := none }.selects row &&
          p.toList.isPrefixOf row.topic.toList := by
      funext row
      congr 1
      rw [Bool.eq_iff_iff, substrMatches_iff, List.isPrefixOf_iff_prefix]
      exact and_iff_right plain
    rw [same]
    exact iff_of_true rfl (.inl plain)
  · have none : (log.rows.filter fun row => { filter with topic := none }.selects row &&
        substrMatches row.topic p) = [] := by
      rw [List.filter_eq_nil_iff]
      intro row _ both
      have := (substrMatches_iff row.topic p).mp (Bool.and_eq_true _ _ ▸ both).2
      exact plain this.1
    rw [none, List.mergeSort_nil, List.take_nil, List.mapM_nil, or_iff_right plain]
    have bound : pageSize limit = 0 ↔ limit = 0 := by
      unfold pageSize I64_MAX
      omega
    rw [← bound]
    cases taken : (rowsStartingWith log filter p).take (pageSize limit) with
    | nil =>
        rw [List.take_eq_nil_iff] at taken
        exact iff_of_true rfl taken
    | cons row rest =>
        have some_ : ¬ (pageSize limit = 0 ∨ rowsStartingWith log filter p = []) := by
          rw [← List.take_eq_nil_iff, taken]
          exact List.cons_ne_nil row rest
        refine iff_of_false (fun answered => ?_) some_
        have page := (mapM_decodeRow.mp answered.symm).2
        exact List.cons_ne_nil _ _ page.symm

theorem prefix_listing_exact_iff (toVec : Json → List UInt8) (acts : List KvAction)
    (blobsRoot : Bool) (idCounterSeed : Nat) (ops : List BlobOp) (serde : SerdeJson)
    (log : EventLog) (filter : EventQuery) (limit : Nat) (uuid inst p : String) :
    let kv := KvStore.run toVec acts
    let blobs := (BlobRun.run blobsRoot idCounterSeed ops).store
    (ListsPrefix (kv.Stores uuid inst) p (kv.listKeys uuid inst p) ↔
        Plain p ∨ ∀ key, kv.Stores uuid inst key → ¬ p.toList <+: key.toList) ∧
      ((∃ infos, blobs.listBlobs uuid inst p = .ok infos ∧
          ListsPrefix (blobs.Stores uuid inst) p (infos.map BlobInfo.name)) ↔
        BlobStore.checkSegments uuid inst = none ∧
          (Plain p ∨ ∀ name, blobs.Stores uuid inst name → ¬ p.toList <+: name.toList)) ∧
      (log.query serde { filter with topic := some (p, .startsWith) } limit =
          ((rowsStartingWith log filter p).take (pageSize limit)).mapM (decodeRow serde) ↔
        Plain p ∨ limit = 0 ∨ rowsStartingWith log filter p = []) :=
  ⟨listKeys_iff (.run toVec acts) uuid inst p,
    listBlobs_iff (BlobRun.Inv.run blobsRoot idCounterSeed ops).keys uuid inst p,
    query_iff serde log filter limit p⟩

theorem nul_prefix_lists_nothing :
    ¬ ∀ (toVec : Json → List UInt8) (acts : List KvAction) (uuid inst p : String),
      ListsPrefix ((KvStore.run toVec acts).Stores uuid inst) p
        ((KvStore.run toVec acts).listKeys uuid inst p) := by
  intro claim
  let acts : List KvAction :=
    [.registerInstance "hue" "lamp" 100, .set "hue" "lamp" "a\x00b" (.boolVal true) 0]
  have lists := claim (fun _ => [1]) acts "hue" "lamp" "a\x00"
  rcases (listKeys_iff (.run _ acts) _ _ _).mp lists with plain | none
  · revert plain
    unfold Plain
    decide
  · refine none "a\x00b" ⟨⟨"hue", "lamp", "a\x00b", [1], 0⟩, ?_, rfl, rfl⟩ (by decide)
    exact List.mem_singleton.mpr rfl

end OxidHome.Storage
