import Mathlib
import OxidHome.Manifest.Capabilities
import OxidHome.Installed.Table

/-!
# The plugins root

The entries of `<state_dir>/plugins/` by name. A directory that a failed removal has left behind may
have lost its manifest, an asset or its wasm.
-/

namespace OxidHome.Installed
open Manifest

structure PluginManifest where
  id : String
  version : String
  capabilities : CapabilitiesSection
  ui : Bool
  singleton : Bool
  /-- A part of `validate`. -/
  withinLimits : checkCapabilityLimits capabilities = true

/-- What is gone after a removal that stopped midway. -/
structure Loss where
  manifest : Bool
  ui : Bool
  wasm : Bool

structure Package where
  /-- `none` when `manifest.toml` does not parse. -/
  manifest : Option PluginManifest
  manifestLost : Bool
  uiValid : Bool
  /-- `none` when the wasm cannot be read. -/
  contentDigest : Option String

namespace Package

def readManifest (pkg : Package) : Option PluginManifest :=
  if pkg.manifestLost then none else pkg.manifest

/-- The id that the package declares, also when its manifest is lost. -/
def owner (pkg : Package) : Option String := pkg.manifest.map PluginManifest.id

def tear (pkg : Package) (loss : Loss) : Package :=
  { pkg with
    manifestLost := pkg.manifestLost || loss.manifest
    uiValid := pkg.uiValid && !loss.ui
    contentDigest := if loss.wasm then none else pkg.contentDigest }

theorem owner_of_readManifest {pkg : Package} {manifest : PluginManifest}
    (read : pkg.readManifest = some manifest) : pkg.owner = some manifest.id := by
  unfold readManifest at read
  split at read
  · cases read
  · rw [owner, read, Option.map_some]

@[simp] theorem owner_tear (pkg : Package) (loss : Loss) : (pkg.tear loss).owner = pkg.owner := rfl

theorem contentDigest_tear {pkg : Package} {loss : Loss} {digest : String}
    (kept : (pkg.tear loss).contentDigest = some digest) : pkg.contentDigest = some digest := by
  simp only [tear, Option.ite_none_left_eq_some] at kept
  exact kept.2

end Package

inductive Node where
  | dir (pkg : Package)
  | other

def Node.tear (loss : Loss) : Node → Node
  | .dir pkg => .dir (pkg.tear loss)
  | .other => .other

structure PluginsRoot where
  nodes : List (String × Node)
  names : (nodes.map Prod.fst).Nodup

namespace PluginsRoot

def find? (root : PluginsRoot) (name : String) : Option Node :=
  (root.nodes.find? (·.1 = name)).map Prod.snd

/-- `Path::exists` -/
def occupied (root : PluginsRoot) (name : String) : Bool := (root.find? name).isSome

def remove (root : PluginsRoot) (name : String) : PluginsRoot where
  nodes := root.nodes.filter (·.1 ≠ name)
  names := root.names.sublist (List.filter_sublist.map _)

def place (root : PluginsRoot) (name : String) (node : Node) : PluginsRoot where
  nodes := (name, node) :: (root.remove name).nodes
  names := by
    rw [List.map_cons, List.nodup_cons]
    refine ⟨?_, (root.remove name).names⟩
    intro mem
    obtain ⟨other, here, same⟩ := List.mem_map.mp mem
    simpa [same] using (List.mem_filter.mp here).2

/-- A removal of `name` that fails. -/
def tear (root : PluginsRoot) (name : String) (loss : Loss) : PluginsRoot where
  nodes := root.nodes.map fun child =>
    (child.1, if child.1 = name then child.2.tear loss else child.2)
  names := by
    rw [List.map_map]
    exact root.names

def restrict (root : PluginsRoot) (kept : String × Node → Bool) : PluginsRoot where
  nodes := root.nodes.filter kept
  names := root.names.sublist (List.filter_sublist.map _)

variable {root : PluginsRoot} {name : String} {node : Node}

theorem find?_eq_some : root.find? name = some node ↔ (name, node) ∈ root.nodes := by
  constructor
  · intro found
    obtain ⟨child, here, rfl⟩ := Option.map_eq_some_iff.mp found
    have named : child.1 = name := by simpa using List.find?_some here
    rw [← named]
    exact List.mem_of_find?_eq_some here
  · intro mem
    unfold find?
    cases found : root.nodes.find? (·.1 = name) with
    | none =>
        have := List.find?_eq_none.mp found _ mem
        simp at this
    | some child =>
        have named : child.1 = name := by simpa using List.find?_some found
        rw [List.inj_on_of_nodup_map root.names (List.mem_of_find?_eq_some found) mem named]
        rfl

theorem find?_remove (other : String) :
    (root.remove name).find? other = if other = name then none else root.find? other := by
  apply Option.ext
  intro node
  rw [find?_eq_some, remove, List.mem_filter]
  split
  · rename_i same
    simp [same]
  · rename_i different
    simp [different, find?_eq_some]

theorem find?_place (other : String) :
    (root.place name node).find? other = if other = name then some node else root.find? other := by
  apply Option.ext
  intro node'
  rw [find?_eq_some, place, List.mem_cons, ← find?_eq_some, find?_remove]
  split
  · rename_i same
    simp [same, eq_comm]
  · rename_i different
    simp [different]

theorem find?_tear (loss : Loss) (other : String) :
    (root.tear name loss).find? other =
      if other = name then (root.find? other).map (Node.tear loss) else root.find? other := by
  apply Option.ext
  intro node
  rw [find?_eq_some, tear, List.mem_map]
  constructor
  · rintro ⟨child, mem, same⟩
    cases same
    have found := find?_eq_some.mpr mem
    split <;> simp [found]
  · intro found
    split at found
    · rename_i same
      obtain ⟨before, here, rfl⟩ := Option.map_eq_some_iff.mp found
      exact ⟨(other, before), find?_eq_some.mp here, by simp [same]⟩
    · rename_i different
      exact ⟨(other, node), find?_eq_some.mp found, by simp [different]⟩

theorem find?_restrict (kept : String × Node → Bool) :
    (root.restrict kept).find? name = (root.find? name).filter fun node => kept (name, node) := by
  apply Option.ext
  intro node
  rw [find?_eq_some, restrict, List.mem_filter, Option.filter_eq_some_iff, find?_eq_some]

end PluginsRoot

def isSafePluginId (id : String) : Bool :=
  let chars := id.toList
  !chars.isEmpty && !chars.contains '/' && !chars.contains '\\' &&
    !(chars.tails.any fun rest => "..".toList.isPrefixOf rest) && chars.head? != some '.'

def stagingPrefix : String := ".staging-"

def isStaging (dirName : String) : Bool := stagingPrefix.toList.isPrefixOf dirName.toList

def stagingName (uuid : MintedUuid) : String := stagingPrefix ++ "inst-" ++ uuid.hex

theorem isStaging_stagingName (uuid : MintedUuid) : isStaging (stagingName uuid) = true := by
  rw [isStaging, stagingName, List.isPrefixOf_iff_prefix, String.toList_append, String.toList_append,
    List.append_assoc]
  exact List.prefix_append _ _

theorem isStaging_of_safe {id : String} (safe : isSafePluginId id = true) :
    isStaging id = false := by
  have first : id.toList.head? ≠ some '.' := by
    simp only [isSafePluginId, Bool.and_eq_true, bne_iff_ne] at safe
    exact safe.2
  cases staged : isStaging id with
  | false => rfl
  | true =>
      obtain ⟨rest, same⟩ := List.isPrefixOf_iff_prefix.mp staged
      have start : stagingPrefix.toList = '.' :: "staging-".toList := by decide
      rw [start] at same
      rw [← same] at first
      exact absurd rfl first

end OxidHome.Installed
