import OxidHome.Installed.Registry

/-!
# What a scan records

For each plugin id, by the directories that declare it. A directory that declares an id claims it.
-/

namespace OxidHome.Installed
open Manifest Library

namespace ScanView
variable (view : ScanView)

def reaches (child : String × Node) : Bool :=
  !view.fileTypeError child.1 && !isStaging child.1 &&
    match child.2 with
    | .dir _ => true
    | .other => false

def sighting? (child : String × Node) : Option Sighting :=
  match child.2 with
  | .other => none
  | .dir pkg =>
    if view.reaches child then
      ((view.readManifest child.1 pkg).filter fun manifest => isSafePluginId manifest.id).map
        fun manifest => ⟨child.1, pkg, manifest⟩
    else none

def defers (child : String × Node) : Bool :=
  view.fileTypeError child.1 || (view.reaches child && (view.sighting? child).isNone)

def claims (done : List (String × Node)) (id : String) : List Sighting :=
  (done.filterMap view.sighting?).filter (·.id = id)

variable {view}

theorem claims_concat (done : List (String × Node)) (child : String × Node) (id : String) :
    view.claims (done ++ [child]) id =
      view.claims done id ++ (view.sighting? child).toList.filter (·.id = id) := by
  rw [claims, List.filterMap_append, List.filter_append, claims]
  congr 1

theorem sighting?_eq_some {child : String × Node} {s : Sighting} :
    view.sighting? child = some s ↔ view.reaches child = true ∧ child = (s.path, .dir s.package) ∧
      view.readManifest s.path s.package = some s.manifest ∧ isSafePluginId s.id = true := by
  obtain ⟨name, node⟩ := child
  cases node with
  | other => simp [sighting?]
  | dir pkg =>
      simp only [sighting?, Option.ite_none_right_eq_some, Option.map_eq_some_iff,
        Option.filter_eq_some_iff]
      constructor
      · rintro ⟨reached, manifest, ⟨read, safe⟩, rfl⟩
        exact ⟨reached, rfl, read, safe⟩
      · rintro ⟨reached, same, read, safe⟩
        cases same
        exact ⟨reached, s.manifest, ⟨read, safe⟩, rfl⟩

theorem mem_claims {done : List (String × Node)} {id : String} {s : Sighting} :
    s ∈ view.claims done id ↔ s.id = id ∧ ∃ child ∈ done, view.sighting? child = some s := by
  rw [claims, List.mem_filter, List.mem_filterMap, decide_eq_true_iff, and_comm]

end ScanView

/-! ## The part of the scan state about one id -/

section
variable (load : LiveInstallationLoad) (view : ScanView) (mint : String → MintedUuid)

def admission (s : Sighting) : Option InstalledPlugin :=
  if view.uiValid s = false ∨ (load.quarantinedUuids s.id).isSome = true then none
  else match load.live s.id with
    | some live =>
      if view.digest s = some live.contentDigest then
        some (s.plugin live.installationUuid live.grantedCapabilities live.contentDigest)
      else none
    | none => (view.digest s).map (s.plugin (mint s.path) s.manifest.capabilities)

def Shut (id : String) (claims : List Sighting) : Prop :=
  (load.quarantinedUuids id).isSome = true ∨
    ∃ first rest, claims = first :: rest ∧ (admission load view mint first = none ∨ rest ≠ [])

def rowUuid (id : String) : Option MintedUuid :=
  ((load.live id).map (·.installationUuid)) <|> load.quarantinedUuids id

def backfill (id : String) (claims : List Sighting) : Option InstalledPlugin :=
  if (rowUuid load id).isSome then none else claims.head?.bind (admission load view mint)

def shutUuid (id : String) (claims : List Sighting) : QuarantineUuid :=
  (((rowUuid load id) <|> ((backfill load view mint id claims).map (·.installationUuid))).map
    QuarantineUuid.minted).getD .noSqlRow

def entryOf : List Sighting → Option InstalledPlugin
  | [only] => admission load view mint only
  | _ => none

/-- `attached`: the directory that is named like the id is among its paths. -/
structure Slot (st : ScanState) (id : String) (claims : List Sighting) (attached : Prop) :
    Prop where
  observed : st.observedManifestIds id = claims.head?.map (·.path)
  duplicate : st.duplicateManifestIds id = decide (2 ≤ claims.length)
  entry : st.entries id = entryOf load view mint claims
  backfills : st.backfills.filter (·.pluginId = id) = (backfill load view mint id claims).toList
  shut : (st.quarantined id).isSome = true ↔ Shut load view mint id claims
  uuid : ∀ q, st.quarantined id = some q → q.installationUuid = shutUuid load view mint id claims
  paths : ∀ q, st.quarantined id = some q → ∀ path, path ∈ q.paths ↔
    path ∈ claims.map (·.path) ∨ (path = id ∧ attached)
  reached : attached → Shut load view mint id claims

end

@[simp] theorem QuarantineEntry.push_uuid (entry : QuarantineEntry) (path : String) :
    (entry.push path).installationUuid = entry.installationUuid := by
  unfold push
  split <;> rfl

theorem QuarantineEntry.mem_push {entry : QuarantineEntry} {path other : String} :
    other ∈ (entry.push path).paths ↔ other ∈ entry.paths ∨ other = path := by
  unfold push
  split
  · rename_i already
    constructor
    · exact Or.inl
    · rintro (here | rfl)
      · exact here
      · exact already
  · simp

variable {load : LiveInstallationLoad} {view : ScanView} {mint : String → MintedUuid}
  {st : ScanState} {id : String} {claims : List Sighting} {attached : Prop}

theorem admission_eq_some {s : Sighting} {entry : InstalledPlugin}
    (admitted : admission load view mint s = some entry) :
    view.uiValid s = true ∧ load.quarantinedUuids s.id = none ∧
      ((∃ live, load.live s.id = some live ∧ view.digest s = some live.contentDigest ∧
        entry = s.plugin live.installationUuid live.grantedCapabilities live.contentDigest) ∨
      (load.live s.id = none ∧ ∃ digest, view.digest s = some digest ∧
        entry = s.plugin (mint s.path) s.manifest.capabilities digest)) := by
  unfold admission at admitted
  split at admitted
  · cases admitted
  · rename_i good
    simp only [not_or, Bool.not_eq_false, Bool.not_eq_true, Option.isSome_eq_false_iff,
      Option.isNone_iff_eq_none] at good
    refine ⟨good.1, good.2, ?_⟩
    cases found : load.live s.id with
    | some live =>
        simp only [found, Option.ite_none_right_eq_some, Option.some.injEq] at admitted
        exact Or.inl ⟨live, rfl, admitted.1, admitted.2.symm⟩
    | none =>
        simp only [found, Option.map_eq_some_iff] at admitted
        obtain ⟨digest, here, rfl⟩ := admitted
        exact Or.inr ⟨rfl, digest, here, rfl⟩

theorem admission_pluginId {s : Sighting} {entry : InstalledPlugin}
    (admitted : admission load view mint s = some entry) : entry.pluginId = s.id := by
  obtain ⟨-, -, ⟨_, -, -, rfl⟩ | ⟨-, _, -, rfl⟩⟩ := admission_eq_some admitted <;> rfl

theorem entryOf_eq_some {entry : InstalledPlugin}
    (indexed : entryOf load view mint claims = some entry) :
    ∃ only, claims = [only] ∧ admission load view mint only = some entry := by
  match claims with
  | [] => cases indexed
  | [only] => exact ⟨only, rfl, indexed⟩
  | _ :: _ :: _ => cases indexed

theorem shut_nil : Shut load view mint id [] ↔ (load.quarantinedUuids id).isSome = true := by
  simp [Shut]

theorem backfill_concat (first s : Sighting) (rest : List Sighting) :
    backfill load view mint id (first :: rest ++ [s]) =
      backfill load view mint id (first :: rest) := rfl

namespace Slot

theorem start (deferred : Bool) :
    Slot load view mint (.start load deferred) id [] False where
  observed := rfl
  duplicate := rfl
  entry := rfl
  backfills := by simp [ScanState.start, backfill]
  shut := by simp [ScanState.start, shut_nil]
  uuid := by
    intro q found
    obtain ⟨uuid, here, rfl⟩ := Option.map_eq_some_iff.mp found
    have free : load.live id = none := by
      by_contra other
      obtain ⟨live, found⟩ := Option.ne_none_iff_exists'.mp other
      simp [load.disjoint id live found] at here
    simp [shutUuid, rowUuid, here, free]
  paths := by
    intro q found path
    obtain ⟨uuid, here, rfl⟩ := Option.map_eq_some_iff.mp found
    simp
  reached := False.elim

theorem congr {st' : ScanState} (slot : Slot load view mint st id claims attached)
    (observed : st'.observedManifestIds id = st.observedManifestIds id)
    (duplicate : st'.duplicateManifestIds id = st.duplicateManifestIds id)
    (entry : st'.entries id = st.entries id)
    (backfills : st'.backfills.filter (·.pluginId = id) = st.backfills.filter (·.pluginId = id))
    (quarantined : st'.quarantined id = st.quarantined id) :
    Slot load view mint st' id claims attached where
  observed := observed.trans slot.observed
  duplicate := duplicate.trans slot.duplicate
  entry := entry.trans slot.entry
  backfills := backfills.trans slot.backfills
  shut := by rw [quarantined]; exact slot.shut
  uuid := by rw [quarantined]; exact slot.uuid
  paths := by rw [quarantined]; exact slot.paths
  reached := slot.reached

theorem note (slot : Slot load view mint st id claims attached) (name : String) :
    Slot load view mint (st.noteDirName name) id claims
      (attached ∨ (name = id ∧ Shut load view mint id claims)) := by
  by_cases named : name = id
  · subst named
    cases found : st.quarantined name with
    | none =>
        have open_ : ¬ Shut load view mint name claims := by
          rw [← slot.shut, found]
          simp
        have same : st.noteDirName name = st := by simp [ScanState.noteDirName, found]
        rw [same]
        exact { slot with
          paths := fun q here => by rw [found] at here; cases here
          reached := by rintro (a | b); exacts [slot.reached a, b.2] }
    | some entry =>
        have shut : Shut load view mint name claims := by
          rw [← slot.shut, found]
          rfl
        have same : st.noteDirName name = st.quarantine name (entry.push name) := by
          simp [ScanState.noteDirName, found]
        rw [same]
        exact {
          observed := slot.observed, duplicate := slot.duplicate, entry := slot.entry
          backfills := slot.backfills
          shut := by simpa [ScanState.quarantine] using shut
          uuid := by
            intro q here
            simp only [ScanState.quarantine, Function.update_self, Option.some.injEq] at here
            subst here
            rw [QuarantineEntry.push_uuid]
            exact slot.uuid entry found
          paths := by
            intro q here path
            simp only [ScanState.quarantine, Function.update_self, Option.some.injEq] at here
            subst here
            rw [QuarantineEntry.mem_push, slot.paths entry found]
            simp only [shut, and_true]
            tauto
          reached := fun _ => shut }
  · have other : (attached ∨ (name = id ∧ Shut load view mint id claims)) = attached := by
      simp [named]
    rw [other]
    cases found : st.quarantined name with
    | none => simpa [ScanState.noteDirName, found] using slot
    | some entry =>
        apply slot.congr <;> simp [ScanState.noteDirName, found, ScanState.quarantine, Ne.symm named]

theorem of_shut {q : QuarantineEntry}
    (observed : st.observedManifestIds id = claims.head?.map (·.path))
    (duplicate : st.duplicateManifestIds id = decide (2 ≤ claims.length))
    (entry : st.entries id = entryOf load view mint claims)
    (backfills : st.backfills.filter (·.pluginId = id) =
      (backfill load view mint id claims).toList)
    (found : st.quarantined id = some q) (shut : Shut load view mint id claims)
    (uuid : q.installationUuid = shutUuid load view mint id claims)
    (paths : ∀ path, path ∈ q.paths ↔ path ∈ claims.map (·.path) ∨ (path = id ∧ attached)) :
    Slot load view mint st id claims attached where
  observed := observed
  duplicate := duplicate
  entry := entry
  backfills := backfills
  shut := by rw [found]; exact iff_of_true rfl shut
  uuid := by rw [found]; rintro _ ⟨⟩; exact uuid
  paths := by rw [found]; rintro _ ⟨⟩; exact paths
  reached := fun _ => shut

theorem unquarantined (slot : Slot load view mint st id claims attached)
    (opened : ¬ Shut load view mint id claims) : st.quarantined id = none := by
  rw [← Option.not_isSome_iff_eq_none, slot.shut]
  exact opened

end Slot

@[simp] theorem ScanState.quarantine_same (entry : QuarantineEntry) :
    (st.quarantine id entry).quarantined id = some entry := Function.update_self ..

@[simp] theorem ScanState.quarantine_other {other : String} (different : id ≠ other)
    (entry : QuarantineEntry) :
    (st.quarantine other entry).quarantined id = st.quarantined id :=
  Function.update_of_ne different ..

theorem shutUuid_nil : shutUuid load view mint id [] =
    ((rowUuid load id).map QuarantineUuid.minted).getD .noSqlRow := by
  cases row : rowUuid load id <;> simp [shutUuid, backfill, row]

theorem shutUuid_refused {first : Sighting} {rest : List Sighting}
    (refused : admission load view mint first = none) :
    shutUuid load view mint id (first :: rest) = shutUuid load view mint id [] := by
  simp [shutUuid, backfill, refused]

theorem shutUuid_row {uuid : MintedUuid} (row : rowUuid load id = some uuid) :
    shutUuid load view mint id claims = .minted uuid := by
  simp [shutUuid, row]

theorem rowUuid_live {live : LiveInstallation} (found : load.live id = some live) :
    rowUuid load id = some live.installationUuid := by
  simp [rowUuid, found]

theorem rowUuid_malformed {uuid : MintedUuid} (found : load.quarantinedUuids id = some uuid) :
    rowUuid load id = some uuid := by
  cases live : load.live id with
  | none => simp [rowUuid, live, found]
  | some installation => simp [load.disjoint id installation live] at found

theorem backfill_refused {first : Sighting} {rest : List Sighting}
    (refused : admission load view mint first = none) :
    backfill load view mint id (first :: rest) = none := by
  simp [backfill, refused]

/-! ## Sightings -/

section
variable {s : Sighting} (slot : Slot load view mint st s.id [] attached)
include slot

theorem Slot.refuse {q : QuarantineEntry} (refused : admission load view mint s = none)
    (uuid : q.installationUuid = shutUuid load view mint s.id [])
    (paths : ∀ path, path ∈ q.paths ↔
      path = s.path ∨ (path = s.id ∧ attached ∧ view.uiValid s = false)) :
    Slot load view mint (ScanState.quarantine { st with
      observedManifestIds := Function.update st.observedManifestIds s.id (some s.path) } s.id q)
      s.id [s] (attached ∧ view.uiValid s = false) := by
  refine of_shut (Function.update_self ..) slot.duplicate ?entry ?backfills
    (ScanState.quarantine_same _) (Or.inr ⟨s, [], rfl, Or.inl refused⟩) ?uuid ?paths
  case entry =>
    rw [entryOf, refused]
    exact slot.entry
  case backfills =>
    rw [backfill_refused refused]
    exact slot.backfills.trans (by simp [backfill])
  case uuid => rw [uuid, shutUuid_refused refused]
  case paths => simpa using paths

theorem Slot.admitted {st' : ScanState} {entry : InstalledPlugin} {attached' : Prop}
    (admitted : admission load view mint s = some entry) (unattached : ¬ attached')
    (observed : st'.observedManifestIds =
      Function.update st.observedManifestIds s.id (some s.path))
    (duplicate : st'.duplicateManifestIds = st.duplicateManifestIds)
    (entries : st'.entries = Function.update st.entries s.id (some entry))
    (backfills : st'.backfills = if (rowUuid load s.id).isSome then st.backfills
      else st.backfills ++ [entry])
    (quarantined : st'.quarantined = st.quarantined) :
    Slot load view mint st' s.id [s] attached' := by
  have good := admission_eq_some admitted
  have opened : ¬ Shut load view mint s.id [] := by simp [shut_nil, good.2.1]
  have unquarantined := slot.unquarantined opened
  refine {
    observed := ?observed, duplicate := ?duplicate, entry := ?entry, backfills := ?backfills
    shut := ?shut, uuid := ?uuid, paths := ?paths, reached := fun a => absurd a unattached }
  case observed =>
    rw [observed, Function.update_self]
    rfl
  case duplicate =>
    rw [duplicate, slot.duplicate]
    rfl
  case entry =>
    rw [entries, Function.update_self, entryOf, admitted]
  case backfills =>
    have before := slot.backfills
    rw [backfills, backfill]
    cases row : rowUuid load s.id with
    | some uuid => simpa [backfill, row] using before
    | none => simpa [backfill, row, admitted, admission_pluginId admitted] using before
  case shut =>
    rw [quarantined, unquarantined]
    simp [Shut, good.2.1, admitted]
  case uuid =>
    rw [quarantined, unquarantined]
    simp
  case paths =>
    rw [quarantined, unquarantined]
    simp

theorem Slot.first :
    Slot load view mint (st.indexFirst load view mint s) s.id [s]
      (attached ∧ view.uiValid s = false) := by
  unfold ScanState.indexFirst
  dsimp only
  cases valid : view.uiValid s with
  | false =>
      have refused : admission load view mint s = none := by simp [admission, valid]
      have known : (((load.live s.id).map fun live => QuarantineUuid.minted live.installationUuid) <|>
          ((load.quarantinedUuids s.id).map QuarantineUuid.minted)).getD .noSqlRow =
          shutUuid load view mint s.id [] := by
        rw [shutUuid_nil, rowUuid]
        cases load.live s.id <;> rfl
      simp only [Bool.not_false, if_true, ScanState.handleInvalidUiDir, known]
      cases found : st.quarantined s.id with
      | none =>
          have empty : ¬ attached := fun a => by
            simpa [found] using slot.shut.mpr (slot.reached a)
          have := slot.refuse (q := ⟨shutUuid load view mint s.id [], [s.path]⟩) refused rfl
            (by simp [empty])
          simpa [valid] using this
      | some entry =>
          have uuid := slot.uuid entry found
          have same : (if entry.installationUuid = .noSqlRow then
              { entry with installationUuid := shutUuid load view mint s.id [] } else entry) =
              entry := by
            rw [← uuid, ite_self]
          have := slot.refuse (q := entry.push s.path) refused
            ((QuarantineEntry.push_uuid ..).trans uuid) (by
              intro path
              rw [QuarantineEntry.mem_push, slot.paths entry found]
              simp [valid, or_comm])
          simpa [valid, same] using this
  | true =>
      have alone : ∀ {q : QuarantineEntry}, admission load view mint s = none →
          q.installationUuid = shutUuid load view mint s.id [] → q.paths = [s.path] →
          Slot load view mint (ScanState.quarantine { st with
            observedManifestIds := Function.update st.observedManifestIds s.id (some s.path) } s.id q)
            s.id [s] (attached ∧ true = false) := by
        intro q refused uuid paths
        have := slot.refuse refused uuid (by simp [paths, valid])
        rwa [valid] at this
      simp only [Bool.not_true, Bool.false_eq_true, if_false]
      cases malformed : load.quarantinedUuids s.id with
      | some uuid =>
          apply alone (by simp [admission, malformed]) _ rfl
          exact (shutUuid_row (rowUuid_malformed malformed)).symm
      | none =>
          have opened : ¬ Shut load view mint s.id [] := by simp [shut_nil, malformed]
          have none_ : st.quarantined s.id = none := slot.unquarantined opened
          cases found : load.live s.id with
          | some live =>
              dsimp only
              split
              · rename_i same
                exact slot.admitted (by simp [admission, valid, malformed, found, same]) (by simp) rfl rfl
                  rfl (by simp [rowUuid_live found, ScanState.index]) rfl
              · rename_i other
                apply alone (by simp [admission, valid, malformed, found, other]) _ rfl
                exact (shutUuid_row (rowUuid_live found)).symm
          | none =>
              have row : rowUuid load s.id = none := by simp [rowUuid, found, malformed]
              cases read : view.digest s with
              | none =>
                  simp only [none_]
                  apply alone (by simp [admission, valid, malformed, found, read]) _ rfl
                  simp [shutUuid_nil, row]
              | some digest =>
                  exact slot.admitted (by simp [admission, valid, malformed, found, read]) (by simp) rfl rfl
                    rfl (by simp [row, ScanState.index]) rfl

end

section
variable {first : Sighting} {rest : List Sighting}

theorem Slot.priorUuid (slot : Slot load view mint st id [first] attached) (named : first.id = id) :
    st.priorUuid load id = shutUuid load view mint id [first] := by
  subst named
  have entry : st.entries first.id = admission load view mint first := slot.entry
  unfold ScanState.priorUuid
  rw [entry]
  cases admitted : admission load view mint first with
  | some e =>
      obtain ⟨-, malformed, ⟨live, found, -, rfl⟩ | ⟨free, digest, -, rfl⟩⟩ := admission_eq_some admitted
      · rw [shutUuid_row (rowUuid_live found)]
        rfl
      · have row : rowUuid load first.id = none := by simp [rowUuid, free, malformed]
        simp [shutUuid, row, backfill, admitted]
  | none =>
      cases found : load.live first.id with
      | some live =>
          rw [shutUuid_row (rowUuid_live found)]
          rfl
      | none =>
          cases malformed : load.quarantinedUuids first.id with
          | some uuid =>
              rw [shutUuid_row (rowUuid_malformed malformed)]
              rfl
          | none =>
              have shut := slot.shut.mpr (Or.inr ⟨first, [], rfl, Or.inl admitted⟩)
              obtain ⟨q, here⟩ := Option.isSome_iff_exists.mp shut
              rw [here, ← slot.uuid q here]
              rfl

structure Evicted (st' : ScanState) (st : ScanState) (id : String) : Prop where
  observed : st'.observedManifestIds = st.observedManifestIds
  duplicate : st'.duplicateManifestIds id = true
  entry : st'.entries id = none
  backfills : st'.backfills = st.backfills

theorem ScanState.evictFirst_evicted (id : String) : Evicted (st.evictFirst load id) st id := by
  unfold ScanState.evictFirst
  dsimp only
  split
  · exact ⟨rfl, Function.update_self .., Function.update_self .., rfl⟩
  · split <;> exact ⟨rfl, Function.update_self .., Function.update_self .., rfl⟩

theorem Slot.evicted (slot : Slot load view mint st id [first] attached) (named : first.id = id) :
    ∃ q, (st.evictFirst load id).quarantined id = some q ∧
      q.installationUuid = shutUuid load view mint id [first] ∧
      ∀ path, path ∈ q.paths ↔ path ∈ [first].map (·.path) ∨ (path = id ∧ attached) := by
  have seen : st.observedManifestIds id = some first.path := slot.observed
  unfold ScanState.evictFirst
  simp only [seen]
  cases found : st.quarantined id with
  | some entry =>
      refine ⟨_, ScanState.quarantine_same _, ?_, ?_⟩
      · rw [QuarantineEntry.push_uuid]
        exact slot.priorUuid named
      · intro path
        rw [QuarantineEntry.mem_push]
        dsimp only
        rw [slot.paths entry found]
        simp only [List.map_cons, List.map_nil, List.mem_singleton]
        tauto
  | none =>
      refine ⟨_, ScanState.quarantine_same _, slot.priorUuid named, ?_⟩
      have empty : ¬ attached := fun a => by
        simpa [found] using slot.shut.mpr (slot.reached a)
      simp [empty]

theorem Slot.again {s : Sighting} (slot : Slot load view mint st s.id (first :: rest) attached)
    (named : first.id = s.id) :
    Slot load view mint (st.quarantineDuplicate load s) s.id (first :: rest ++ [s]) attached := by
  unfold ScanState.quarantineDuplicate
  obtain ⟨st', same, evicted, q, found, uuid, paths⟩ : ∃ st',
      (if st.duplicateManifestIds s.id then st else st.evictFirst load s.id) = st' ∧
      Evicted st' st s.id ∧ ∃ q, st'.quarantined s.id = some q ∧
      q.installationUuid = shutUuid load view mint s.id (first :: rest) ∧
      ∀ path, path ∈ q.paths ↔
        path ∈ (first :: rest).map (·.path) ∨ (path = s.id ∧ attached) := by
    refine ⟨_, rfl, ?_⟩
    cases rest with
    | nil =>
        have once : st.duplicateManifestIds s.id = false := slot.duplicate
        rw [if_neg (by simp [once])]
        exact ⟨ScanState.evictFirst_evicted _, slot.evicted named⟩
    | cons second rest =>
        have twice : st.duplicateManifestIds s.id = true := by simp [slot.duplicate]
        rw [if_pos twice]
        have shut := slot.shut.mpr (Or.inr ⟨first, second :: rest, rfl, Or.inr (by simp)⟩)
        obtain ⟨q, found⟩ := Option.isSome_iff_exists.mp shut
        exact ⟨⟨rfl, twice, slot.entry, rfl⟩, q, found, slot.uuid q found, slot.paths q found⟩
  rw [same]
  simp only [found]
  refine of_shut ?observed ?duplicate ?entry ?backfills (ScanState.quarantine_same _)
    (Or.inr ⟨first, rest ++ [s], rfl, Or.inr (by simp)⟩) ?uuid ?paths
  case observed => exact (congrFun evicted.observed s.id).trans slot.observed
  case duplicate => exact evicted.duplicate.trans (by simp)
  case entry =>
    refine evicted.entry.trans ?_
    cases rest <;> rfl
  case backfills =>
    rw [backfill_concat, ← slot.backfills]
    exact congrArg _ evicted.backfills
  case uuid =>
    rw [QuarantineEntry.push_uuid, uuid, shutUuid, shutUuid, backfill_concat]
  case paths =>
    intro path
    rw [QuarantineEntry.mem_push, paths]
    simp only [List.map_append, List.mem_append, List.map_cons, List.map_nil, List.mem_singleton]
    tauto

end

/-! ## One directory -/

structure Untouched (st' st : ScanState) (id : String) : Prop where
  observed : st'.observedManifestIds id = st.observedManifestIds id
  duplicate : st'.duplicateManifestIds id = st.duplicateManifestIds id
  entry : st'.entries id = st.entries id
  backfills : st'.backfills.filter (·.pluginId = id) = st.backfills.filter (·.pluginId = id)
  quarantined : st'.quarantined id = st.quarantined id

theorem Slot.untouched {st' : ScanState} (slot : Slot load view mint st id claims attached)
    (same : Untouched st' st id) : Slot load view mint st' id claims attached :=
  slot.congr same.observed same.duplicate same.entry same.backfills same.quarantined

section
variable {s : Sighting} (other : s.id ≠ id)
include other

theorem Untouched.quarantine {st' : ScanState} (same : Untouched st' st id)
    (entry : QuarantineEntry) : Untouched (st'.quarantine s.id entry) st id :=
  { same with
    quarantined := (ScanState.quarantine_other (Ne.symm other) entry).trans same.quarantined }

theorem Untouched.evictFirst : Untouched (st.evictFirst load s.id) st id := by
  have base : Untouched { st with
      duplicateManifestIds := Function.update st.duplicateManifestIds s.id true
      entries := Function.update st.entries s.id none } st id :=
    ⟨rfl, Function.update_of_ne (Ne.symm other) .., Function.update_of_ne (Ne.symm other) .., rfl, rfl⟩
  unfold ScanState.evictFirst
  dsimp only
  split
  · exact base
  · split <;> exact base.quarantine other _

theorem Untouched.quarantineDuplicate : Untouched (st.quarantineDuplicate load s) st id := by
  have base : Untouched (if st.duplicateManifestIds s.id then st else st.evictFirst load s.id) st id := by
    split
    · exact ⟨rfl, rfl, rfl, rfl, rfl⟩
    · exact Untouched.evictFirst other
  unfold ScanState.quarantineDuplicate
  dsimp only
  split <;> exact base.quarantine other _

theorem Untouched.indexFirst : Untouched (st.indexFirst load view mint s) st id := by
  have base : Untouched { st with
      observedManifestIds := Function.update st.observedManifestIds s.id (some s.path) } st id :=
    ⟨Function.update_of_ne (Ne.symm other) .., rfl, rfl, rfl, rfl⟩
  have unindexed : ∀ entry : InstalledPlugin, entry.pluginId = s.id →
      Function.update st.entries entry.pluginId (some entry) id = st.entries id := by
    intro entry named
    rw [named]
    exact Function.update_of_ne (Ne.symm other) ..
  unfold ScanState.indexFirst ScanState.handleInvalidUiDir
  dsimp only
  split
  · split <;> exact base.quarantine other _
  · split
    · exact base.quarantine other _
    · split
      · split
        · exact { base with entry := unindexed _ rfl }
        · exact base.quarantine other _
      · split
        · split <;> exact base.quarantine other _
        · refine { base with entry := unindexed _ rfl, backfills := ?_ }
          have foreign : (s.plugin (mint s.path) s.manifest.capabilities ‹String›).pluginId ≠ id :=
            other
          simp [ScanState.index, foreign]

end

theorem scanChild_missed {child : String × Node} (missed : view.reaches child = false) :
    ScanState.scanChild load view mint st child =
      if view.fileTypeError child.1 then { st with deferOrphanSweep := true } else st := by
  unfold ScanState.scanChild
  dsimp only
  split
  · rfl
  · rename_i typed
    cases node : child.2 with
    | other => rfl
    | dir pkg =>
        have staged : isStaging child.1 = true := by
          simpa [ScanView.reaches, node, typed] using missed
        simp [staged]

theorem scanChild_reached {child : String × Node} (reached : view.reaches child = true) :
    ScanState.scanChild load view mint st child =
      match view.sighting? child with
      | none => { st.noteDirName child.1 with deferOrphanSweep := true }
      | some s =>
        if (st.noteDirName child.1).duplicateManifestIds s.id ||
            ((st.noteDirName child.1).observedManifestIds s.id).isSome then
          (st.noteDirName child.1).quarantineDuplicate load s
        else (st.noteDirName child.1).indexFirst load view mint s := by
  obtain ⟨name, node⟩ := child
  have parts := reached
  simp only [ScanView.reaches, Bool.and_eq_true, Bool.not_eq_true'] at parts
  obtain ⟨⟨typed, staged⟩, isDir⟩ := parts
  cases node with
  | other => simp at isDir
  | dir pkg =>
      simp only [ScanState.scanChild, typed, staged, ScanView.sighting?, reached, if_true,
        Bool.false_eq_true, if_false]
      cases read : view.readManifest name pkg with
      | none => rfl
      | some manifest => cases safe : isSafePluginId manifest.id <;> simp [Option.filter, safe]

theorem Slot.child {child : String × Node} (slot : Slot load view mint st id claims attached)
    (own : ∀ s ∈ claims, s.id = id) :
    Slot load view mint (ScanState.scanChild load view mint st child) id
      (claims ++ (view.sighting? child).toList.filter (·.id = id))
      ((attached ∨ (child.1 = id ∧ view.reaches child = true ∧ Shut load view mint id claims)) ∧
        ¬ (claims = [] ∧ ∃ s, view.sighting? child = some s ∧ s.id = id ∧ view.uiValid s = true)) := by
  cases reached : view.reaches child with
  | false =>
      have unseen : view.sighting? child = none := by
        rw [Option.eq_none_iff_forall_ne_some]
        intro s found
        simp [(ScanView.sighting?_eq_some.mp found).1] at reached
      rw [scanChild_missed reached, unseen]
      simp only [Option.toList_none, List.filter_nil, List.append_nil, Bool.false_eq_true,
        false_and, and_false, or_false, reduceCtorEq, exists_false, not_false_eq_true, and_true]
      split
      · exact slot.untouched ⟨rfl, rfl, rfl, rfl, rfl⟩
      · exact slot
  | true =>
      have noted := slot.note child.1
      rw [scanChild_reached reached]
      cases seen : view.sighting? child with
      | none =>
          simp only [Option.toList_none, List.filter_nil, List.append_nil, true_and,
            false_and, and_false, reduceCtorEq, exists_false, not_false_eq_true, and_true]
          exact noted.untouched ⟨rfl, rfl, rfl, rfl, rfl⟩
      | some s =>
          dsimp only
          by_cases named : s.id = id
          · subst named
            simp only [Option.toList_some, List.filter_cons, decide_true, if_true,
              List.filter_nil, true_and, Option.some.injEq, exists_eq_left']
            cases claims with
            | nil =>
                rw [if_neg (by simp [noted.duplicate, noted.observed])]
                simpa using noted.first
            | cons first rest =>
                rw [if_pos (by simp [noted.observed])]
                simpa using noted.again (own first (List.mem_cons_self ..))
          · have apart : (view.sighting? child).toList.filter (·.id = id) = [] := by
              simp [seen, named]
            rw [seen] at apart
            rw [apart, List.append_nil]
            have same : ((attached ∨ child.1 = id ∧ true = true ∧ Shut load view mint id claims) ∧
                ¬ (claims = [] ∧ ∃ t, some s = some t ∧ t.id = id ∧ view.uiValid t = true)) =
                (attached ∨ child.1 = id ∧ Shut load view mint id claims) := by
              simp [named]
            rw [same]
            split
            · exact noted.untouched (Untouched.quarantineDuplicate named)
            · exact noted.untouched (Untouched.indexFirst named)

/-! ## All directories -/

section
variable (load view mint)

def FirstValid (claims : List Sighting) : Prop :=
  ∃ first ∈ claims.head?, view.uiValid first = true

/-- The scan reaches the directory `id` while the id is quarantined, and does not start the id's
quarantine anew after it. -/
def Attached (done : List (String × Node)) (id : String) : Prop :=
  ∃ before node after, done = before ++ (id, node) :: after ∧ view.reaches (id, node) = true ∧
    Shut load view mint id (view.claims before id) ∧
    (view.claims before id = [] → ¬ FirstValid view (view.claims done id))

end

theorem attached_nil : ¬ Attached load view mint [] id := by
  rintro ⟨before, node, after, none_, -⟩
  simp at none_

theorem attached_concat (done : List (String × Node)) (child : String × Node) :
    Attached load view mint (done ++ [child]) id ↔
      (Attached load view mint done id ∨ (child.1 = id ∧ view.reaches child = true ∧
        Shut load view mint id (view.claims done id))) ∧
      ¬ (view.claims done id = [] ∧
        ∃ s, view.sighting? child = some s ∧ s.id = id ∧ view.uiValid s = true) := by
  have head : FirstValid view (view.claims (done ++ [child]) id) ↔
      FirstValid view (view.claims done id) ∨ (view.claims done id = [] ∧
        ∃ s, view.sighting? child = some s ∧ s.id = id ∧ view.uiValid s = true) := by
    rw [ScanView.claims_concat]
    cases view.claims done id with
    | cons first rest => simp [FirstValid]
    | nil =>
        cases view.sighting? child with
        | none => simp [FirstValid]
        | some s => by_cases named : s.id = id <;> simp [FirstValid, named]
  constructor
  · rintro ⟨before, node, after, split, reached, shut, kept⟩
    rcases List.eq_nil_or_concat after with rfl | ⟨after, last, rfl⟩
    · obtain ⟨rfl, same⟩ := List.append_inj' split rfl
      cases same
      refine ⟨Or.inr ⟨rfl, reached, shut⟩, ?_⟩
      rintro ⟨none_, valid⟩
      exact kept none_ (head.mpr (Or.inr ⟨none_, valid⟩))
    · rw [List.concat_eq_append, ← List.cons_append, ← List.append_assoc] at split
      obtain ⟨rfl, same⟩ := List.append_inj' split rfl
      have first : view.claims (before ++ (id, node) :: after) id = [] →
          view.claims before id = [] := by
        intro none_
        rw [ScanView.claims, List.filterMap_append, List.filter_append,
          List.append_eq_nil_iff] at none_
        exact none_.1
      refine ⟨Or.inl ⟨before, node, after, rfl, reached, shut, ?_⟩, ?_⟩
      · intro none_ valid
        exact kept none_ (head.mpr (Or.inl valid))
      · rintro ⟨none_, valid⟩
        exact kept (first none_) (head.mpr (Or.inr ⟨none_, valid⟩))
  · rintro ⟨⟨before, node, after, rfl, reached, shut, kept⟩ | ⟨rfl, reached, shut⟩, fresh⟩
    · refine ⟨before, node, after ++ [child], by simp, reached, shut, ?_⟩
      intro none_ valid
      rcases head.mp valid with valid | valid
      · exact kept none_ valid
      · exact fresh valid
    · refine ⟨done, child.2, [], rfl, reached, shut, ?_⟩
      intro none_ valid
      rcases head.mp valid with ⟨first, mem, -⟩ | valid
      · simp [none_] at mem
      · exact fresh valid

theorem slot_scan (deferred : Bool) (children : List (String × Node)) :
    Slot load view mint (children.foldl (ScanState.scanChild load view mint) (.start load deferred))
      id (view.claims children id) (Attached load view mint children id) := by
  induction children using List.reverseRecOn with
  | nil =>
      have none_ : Attached load view mint [] id = False := eq_false attached_nil
      rw [none_]
      exact Slot.start deferred
  | append_singleton done child ih =>
      rw [List.foldl_append, List.foldl_cons, List.foldl_nil, ScanView.claims_concat,
        propext (attached_concat done child)]
      exact ih.child fun s mem => (ScanView.mem_claims.mp mem).1

@[simp] theorem noteDirName_defer (name : String) :
    (st.noteDirName name).deferOrphanSweep = st.deferOrphanSweep := by
  unfold ScanState.noteDirName
  split <;> rfl

theorem quarantineDuplicate_defer (s : Sighting) :
    (st.quarantineDuplicate load s).deferOrphanSweep = st.deferOrphanSweep := by
  have first : (if st.duplicateManifestIds s.id then st
      else st.evictFirst load s.id).deferOrphanSweep = st.deferOrphanSweep := by
    split
    · rfl
    · unfold ScanState.evictFirst
      dsimp only
      split
      · rfl
      · split <;> rfl
  unfold ScanState.quarantineDuplicate
  dsimp only
  split <;> exact first

theorem indexFirst_defer (s : Sighting) :
    (st.indexFirst load view mint s).deferOrphanSweep = st.deferOrphanSweep := by
  unfold ScanState.indexFirst ScanState.handleInvalidUiDir
  dsimp only
  repeat' split
  all_goals rfl

theorem scan_defers (deferred : Bool) (children : List (String × Node)) :
    (children.foldl (ScanState.scanChild load view mint) (.start load deferred)).deferOrphanSweep =
      (deferred || children.any view.defers) := by
  induction children using List.reverseRecOn with
  | nil => simp [ScanState.start]
  | append_singleton done child ih =>
      rw [List.foldl_append, List.foldl_cons, List.foldl_nil, List.any_append, ← Bool.or_assoc, ← ih]
      cases reached : view.reaches child with
      | false =>
          rw [scanChild_missed reached]
          cases typed : view.fileTypeError child.1 <;> simp [ScanView.defers, reached, typed]
      | true =>
          have typed : view.fileTypeError child.1 = false := by
            simp only [ScanView.reaches, Bool.and_eq_true, Bool.not_eq_true'] at reached
            exact reached.1.1
          rw [scanChild_reached reached]
          cases seen : view.sighting? child with
          | none => simp [ScanView.defers, reached, seen]
          | some s =>
              dsimp only
              split
              · rw [quarantineDuplicate_defer]
                simp [ScanView.defers, typed, seen]
              · rw [indexFirst_defer]
                simp [ScanView.defers, typed, seen]

end OxidHome.Installed
