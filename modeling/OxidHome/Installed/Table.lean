import Mathlib

/-!
# The `plugin_installation` table

A row is live until it is tombstoned. The primary key and the partial unique index
`plugin_installation_live` are fields of the table.
-/

namespace OxidHome.Installed

/-- `inst-<32 hex>` -/
structure MintedUuid where
  hex : String
deriving DecidableEq

structure InstallationRow where
  installationUuid : MintedUuid
  pluginId : String
  version : String
  installedMs : Int
  uninstalledMs : Option Int
  grantedCapabilitiesJson : Option String
  contentDigest : Option String

namespace InstallationRow

def live (row : InstallationRow) : Bool := row.uninstalledMs.isNone

/-- `UPDATE … SET uninstalled_ms = ? WHERE … AND uninstalled_ms IS NULL` -/
def tombstone (now : Int) (chosen : InstallationRow → Bool) (row : InstallationRow) :
    InstallationRow :=
  if row.live && chosen row then { row with uninstalledMs := some now } else row

variable {now : Int} {chosen : InstallationRow → Bool} {row : InstallationRow}

theorem tombstone_uuid : (row.tombstone now chosen).installationUuid = row.installationUuid := by
  unfold tombstone
  split <;> rfl

theorem tombstone_live : (row.tombstone now chosen).live = (row.live && !chosen row) := by
  unfold tombstone
  split
  · rename_i both
    simp only [Bool.and_eq_true] at both
    simp [live, both.2]
  · rename_i either
    cases alive : row.live <;> simp_all

theorem tombstone_of_live (alive : (row.tombstone now chosen).live = true) :
    row.tombstone now chosen = row := by
  rw [tombstone_live] at alive
  unfold tombstone
  split
  · rename_i both
    simp_all
  · rfl

theorem filter_live_tombstone (now : Int) (chosen : InstallationRow → Bool)
    (rows : List InstallationRow) :
    (rows.map (tombstone now chosen)).filter live = (rows.filter live).filter (!chosen ·) := by
  induction rows with
  | nil => rfl
  | cons row rows ih =>
      rw [List.map_cons, List.filter_cons, tombstone_live, List.filter_cons, ih]
      cases alive : row.live with
      | false => simp
      | true =>
          cases hit : chosen row with
          | true => simp [hit]
          | false =>
              have still : (row.tombstone now chosen).live = true := by
                rw [tombstone_live, alive, hit]
                rfl
              simp [hit, tombstone_of_live still]

end InstallationRow

@[ext] structure PluginInstallation where
  rows : List InstallationRow
  uuids : (rows.map InstallationRow.installationUuid).Nodup
  liveIds : ((rows.filter InstallationRow.live).map InstallationRow.pluginId).Nodup

namespace PluginInstallation

def empty : PluginInstallation := ⟨[], .nil, .nil⟩

def live? (table : PluginInstallation) (id : String) : Option InstallationRow :=
  table.rows.find? fun row => row.live && row.pluginId = id

/-- `none` when a constraint is violated. -/
def insert (table : PluginInstallation) (row : InstallationRow) : Option PluginInstallation :=
  if free : row.installationUuid ∉ table.rows.map InstallationRow.installationUuid ∧
      (row.live = true → row.pluginId ∉
        (table.rows.filter InstallationRow.live).map InstallationRow.pluginId) then
    some {
      rows := table.rows ++ [row]
      uuids := by
        rw [List.map_append, List.nodup_append]
        refine ⟨table.uuids, List.nodup_singleton _, ?_⟩
        rintro uuid mem _ single rfl
        exact free.1 (List.mem_singleton.mp single ▸ mem)
      liveIds := by
        rw [List.filter_append, List.map_append, List.nodup_append]
        refine ⟨table.liveIds, ?_, ?_⟩
        · cases alive : row.live <;> simp [alive]
        · cases alive : row.live with
          | false => simp [alive]
          | true =>
              rintro id mem _ single rfl
              simp only [List.filter_cons, alive, if_true, List.filter_nil, List.map_cons,
                List.map_nil, List.mem_singleton] at single
              exact free.2 alive (single ▸ mem) }
  else none

def delete (table : PluginInstallation) (uuid : MintedUuid) : PluginInstallation where
  rows := table.rows.filter (·.installationUuid ≠ uuid)
  uuids := table.uuids.sublist (List.filter_sublist.map _)
  liveIds := table.liveIds.sublist ((List.filter_sublist.filter _).map _)

def tombstone (table : PluginInstallation) (now : Int) (chosen : InstallationRow → Bool) :
    PluginInstallation where
  rows := table.rows.map (InstallationRow.tombstone now chosen)
  uuids := by
    have same : InstallationRow.installationUuid ∘ InstallationRow.tombstone now chosen =
        InstallationRow.installationUuid := funext fun row => row.tombstone_uuid
    rw [List.map_map, same]
    exact table.uuids
  liveIds := by
    rw [InstallationRow.filter_live_tombstone]
    exact table.liveIds.sublist (List.filter_sublist.map _)

variable {table : PluginInstallation} {id : String}

theorem live?_eq_some {row : InstallationRow} :
    table.live? id = some row ↔ row ∈ table.rows ∧ row.live = true ∧ row.pluginId = id := by
  have find : table.live? id =
      (table.rows.filter InstallationRow.live).find? (·.pluginId = id) := by
    rw [live?, List.find?_filter]
    congr 1
    funext row
    cases row.live <;> simp
  constructor
  · intro found
    have chosen := List.find?_some found
    rw [Bool.and_eq_true, decide_eq_true_iff] at chosen
    exact ⟨List.mem_of_find?_eq_some found, chosen⟩
  · rintro ⟨mem, alive, rfl⟩
    have here : row ∈ table.rows.filter InstallationRow.live := List.mem_filter.mpr ⟨mem, alive⟩
    rw [find]
    cases found : (table.rows.filter InstallationRow.live).find? (·.pluginId = row.pluginId) with
    | none =>
        have := List.find?_eq_none.mp found row here
        simp at this
    | some other =>
        have same : other.pluginId = row.pluginId := by simpa using List.find?_some found
        rw [List.inj_on_of_nodup_map table.liveIds (List.mem_of_find?_eq_some found) here same]

theorem live?_eq_none :
    table.live? id = none ↔ ∀ row ∈ table.rows, row.live = true → row.pluginId ≠ id := by
  rw [Option.eq_none_iff_forall_ne_some]
  simp only [ne_eq, live?_eq_some]
  constructor
  · intro none row mem alive same
    exact none row ⟨mem, alive, same⟩
  · rintro none row ⟨mem, alive, same⟩
    exact none row mem alive same

theorem live?_tombstone (now : Int) (chosen : InstallationRow → Bool) :
    (table.tombstone now chosen).live? id = (table.live? id).filter (!chosen ·) := by
  apply Option.ext
  intro row
  rw [live?_eq_some, Option.filter_eq_some_iff, live?_eq_some]
  constructor
  · rintro ⟨mem, alive, named⟩
    obtain ⟨before, here, rfl⟩ := List.mem_map.mp mem
    have same := InstallationRow.tombstone_of_live alive
    rw [InstallationRow.tombstone_live, Bool.and_eq_true] at alive
    rw [same] at named ⊢
    exact ⟨⟨here, alive.1, named⟩, alive.2⟩
  · rintro ⟨⟨mem, alive, named⟩, kept⟩
    have still : (row.tombstone now chosen).live = true := by
      rw [InstallationRow.tombstone_live, alive, kept]
      rfl
    have same := InstallationRow.tombstone_of_live still
    exact ⟨List.mem_map.mpr ⟨row, mem, same⟩, alive, named⟩

theorem mem_tombstone {now : Int} {chosen : InstallationRow → Bool} {row : InstallationRow}
    (mem : row ∈ (table.tombstone now chosen).rows) :
    ∃ before ∈ table.rows, before.installationUuid = row.installationUuid ∧
      (row.live = true → before = row) := by
  obtain ⟨before, here, rfl⟩ := List.mem_map.mp mem
  exact ⟨before, here, InstallationRow.tombstone_uuid.symm, fun alive =>
    (InstallationRow.tombstone_of_live alive).symm⟩

theorem tombstone_dead {now : Int} {chosen : InstallationRow → Bool} {row : InstallationRow}
    (mem : row ∈ table.rows) (dead : row.live = false) :
    row ∈ (table.tombstone now chosen).rows := by
  refine List.mem_map.mpr ⟨row, mem, ?_⟩
  simp [InstallationRow.tombstone, dead]

section
variable {row : InstallationRow} {after : PluginInstallation}

theorem insert_some (done : table.insert row = some after) :
    after.rows = table.rows ++ [row] ∧
      row.installationUuid ∉ table.rows.map InstallationRow.installationUuid := by
  unfold insert at done
  split at done
  · rename_i free
    cases done
    exact ⟨rfl, free.1⟩
  · cases done

theorem insert_free (done : table.insert row = some after) (alive : row.live = true) :
    table.live? row.pluginId = none := by
  unfold insert at done
  split at done
  · rename_i free
    rw [live?_eq_none]
    intro other mem living same
    exact free.2 alive (List.mem_map.mpr ⟨other, List.mem_filter.mpr ⟨mem, living⟩, same⟩)
  · cases done

theorem live?_insert (done : table.insert row = some after) (alive : row.live = true) :
    after.live? id = if row.pluginId = id then some row else table.live? id := by
  have rows := (insert_some done).1
  have free := insert_free done alive
  split
  · rename_i named
    rw [live?_eq_some, rows]
    exact ⟨List.mem_append_right _ (List.mem_singleton_self _), alive, named⟩
  · rename_i other
    apply Option.ext
    intro found
    rw [live?_eq_some, live?_eq_some, rows, List.mem_append, List.mem_singleton]
    constructor
    · rintro ⟨mem | rfl, living, named⟩
      · exact ⟨mem, living, named⟩
      · exact absurd named other
    · rintro ⟨mem, rest⟩
      exact ⟨Or.inl mem, rest⟩

theorem insert_isSome (row : InstallationRow)
    (fresh : row.installationUuid ∉ table.rows.map InstallationRow.installationUuid)
    (free : table.live? row.pluginId = none) : (table.insert row).isSome := by
  unfold insert
  split
  · rfl
  · rename_i taken
    apply absurd ⟨fresh, ?_⟩ taken
    intro _ mem
    obtain ⟨other, here, named⟩ := List.mem_map.mp mem
    obtain ⟨mem, living⟩ := List.mem_filter.mp here
    exact live?_eq_none.mp free other mem living named

end

end PluginInstallation

end OxidHome.Installed
