import OxidHome.Library.Fallible
import OxidHome.Library.Framing

/-!
# The content digest

`content_digest` in `installed_plugins.rs` and its four callers over one package tree: install on
the staged copy, the boot scan, the loader and the schema endpoint. How `toml` and `validate` read a
manifest, how `jsonschema` compiles a schema and SHA-256 are parameters.
-/

namespace OxidHome.Installed
open Library

inductive TreeNode where
  | file (bytes : List UInt8)
  | other (fileType : String)

/-- A path of the package: whether its last component is a link, and where it leads. -/
structure PackageEntry where
  isLink : Bool
  target : Except String (TreeNode × List String)

structure PackageTree where
  dir : String
  canonicalDir : List String
  entry : String → PackageEntry

inductive IoError where
  | os (text : String)
  | notAFile (path fileType : String)
  | escapes (path : String) (canonicalPath canonicalRoot : List String)
  | exceedsCap (path : String) (max : Nat)

def displayPath (components : List String) : String :=
  "/" ++ "/".intercalate components

def IoError.display : IoError → String
  | .os text => text
  | .notAFile path fileType => s!"refusing to read non-file entry at {path} (type: {fileType})"
  | .escapes path canonicalPath canonicalRoot =>
      let inner := displayPath canonicalPath
      let root := displayPath canonicalRoot
      s!"refusing to read {path} (canonical path {inner} escapes plugin root {root})"
  | .exceedsCap path max =>
      s!"refusing to read {path}: file exceeds the per-file cap of {max} bytes"

namespace PackageTree

def join (tree : PackageTree) (rel : String) : String := tree.dir ++ "/" ++ rel

/-- `O_NOFOLLOW` refuses a link as the last component. -/
def readNoFollowWithinBounded (tree : PackageTree) (rel : String) (maxBytes : Option Nat) :
    Except IoError (List UInt8) :=
  let path := tree.join rel
  if (tree.entry rel).isLink then
    .error (.os "Too many levels of symbolic links (os error 40)")
  else
    match (tree.entry rel).target with
    | .error error => .error (.os error)
    | .ok (.other fileType, _) => .error (.notAFile path fileType)
    | .ok (.file bytes, canonical) =>
        if ¬ tree.canonicalDir <+: canonical then
          .error (.escapes path canonical tree.canonicalDir)
        else
          match maxBytes with
          | none => .ok bytes
          | some max => if bytes.length > max then .error (.exceedsCap path max) else .ok bytes

def readNoFollowWithin (tree : PackageTree) (rel : String) : Except IoError (List UInt8) :=
  tree.readNoFollowWithinBounded rel none

def read (tree : PackageTree) (rel : String) : Except IoError (List UInt8) :=
  match (tree.entry rel).target with
  | .error error => .error (.os error)
  | .ok (.other fileType, _) => .error (.notAFile (tree.join rel) fileType)
  | .ok (.file bytes, _) => .ok bytes

def canonicalize (tree : PackageTree) (rel : String) : Except IoError (List String) :=
  ((tree.entry rel).target.map Prod.snd).mapError .os

end PackageTree

structure UiSection where
  config : Option String
  deviceConfig : Option String
  commands : Option String
  widgets : List String
  configSchema : Option String
  commandsSchema : Option String

structure PackageManifest where
  pluginId : String
  runtimeWasm : String
  ui : Option UiSection

def MAX_UI_ASSET_BYTES : Nat := 1048576
def MAX_UI_SCHEMA_BYTES : Nat := 131072
def MAX_UI_TOTAL_BYTES : Nat := 4 * 1048576

structure ValidatedUiAssets where
  items : List (String × List UInt8)
  widgets : List (String × List UInt8)

def isSchemaField (fieldLabel : String) : Bool :=
  fieldLabel = "config-schema" || fieldLabel = "commands-schema"

def readUiAssetFile (tree : PackageTree) (fieldLabel rel : String) : Except String (List UInt8) :=
  let perFileCap := if isSchemaField fieldLabel then MAX_UI_SCHEMA_BYTES else MAX_UI_ASSET_BYTES
  (tree.readNoFollowWithinBounded rel (some perFileCap)).mapError fun err =>
    let reason := err.display
    s!"ui.{fieldLabel} `{rel}` is not a readable regular file in the plugin package: {reason}"

def addToTotal (fieldLabel rel : String) (total size : Nat) : Except String Nat :=
  let sum := total + size
  if sum ≥ 2 ^ 64 then
    .error s!"ui.{fieldLabel} `{rel}` overflowed the aggregate UI-asset byte counter"
  else if sum > MAX_UI_TOTAL_BYTES then
    .error (s!"ui.{fieldLabel} `{rel}` pushes the aggregate declared-UI-asset size over the cap " ++
      s!"({sum} > {MAX_UI_TOTAL_BYTES} bytes)")
  else .ok sum

/-- The loop over the declared entries, with the sum of the sizes before it and after it. -/
def readAssets (tree : PackageTree) :
    List (String × String) → Nat → Except String (List (String × List UInt8) × Nat)
  | [], total => .ok ([], total)
  | (fieldLabel, rel) :: rest, total => do
      let bytes ← readUiAssetFile tree fieldLabel rel
      let total ← addToTotal fieldLabel rel total bytes.length
      let (assets, total) ← readAssets tree rest total
      .ok ((fieldLabel, bytes) :: assets, total)

def scalarAssets (ui : UiSection) : List (String × String) :=
  [("config", ui.config), ("device-config", ui.deviceConfig), ("commands", ui.commands),
    ("config-schema", ui.configSchema), ("commands-schema", ui.commandsSchema)].filterMap
    fun (field, path) => path.map (field, ·)

def widgetAssets (ui : UiSection) : List (String × String) :=
  ui.widgets.zipIdx.map fun (rel, index) => (s!"widgets[{index}]", rel)

def readDeclaredUiAssetBytes (tree : PackageTree) (ui : UiSection) :
    Except String ValidatedUiAssets := do
  let (items, total) ← readAssets tree (scalarAssets ui) 0
  let (widgets, _) ← readAssets tree (widgetAssets ui) total
  .ok ⟨items, widgets⟩

def uiAssetDigestFrames (assets : ValidatedUiAssets) : List (String × List UInt8) :=
  assets.items ++ assets.widgets

inductive SchemaFault where
  | notJson (err : String)
  | notASchema (err : String)

section
variable (compileSchema : List UInt8 → Except SchemaFault Unit)

def metaValidateJsonSchema (fieldLabel rel : String) (bytes : List UInt8) : Except String Unit :=
  (compileSchema bytes).mapError fun
    | .notJson err => s!"ui.{fieldLabel} `{rel}` is not valid JSON: {err}"
    | .notASchema err =>
        s!"ui.{fieldLabel} `{rel}` is not a valid JSON Schema draft 2020-12 document: {err}"

def validateItem (ui : UiSection) : String × List UInt8 → Except String Unit
  | (field, bytes) =>
      if isSchemaField field then
        let pathHint := if field = "config-schema" then ui.configSchema else ui.commandsSchema
        metaValidateJsonSchema compileSchema field (pathHint.getD field) bytes
      else .ok ()

def validateUiPackage (tree : PackageTree) (ui : UiSection) : Except String ValidatedUiAssets := do
  let assets ← readDeclaredUiAssetBytes tree ui
  assets.items.forM (validateItem compileSchema ui)
  .ok assets

end

/-- The updates of the hasher, in their order. -/
def contentDigestInput (manifestBytes wasmBytes : List UInt8)
    (uiAssets : List (String × List UInt8)) : List UInt8 :=
  frame (utf8 "oxidhome:plugin-content:v3") ++ frame manifestBytes ++ frame wasmBytes ++
    be32 uiAssets.length ++
    uiAssets.flatMap fun (label, bytes) => frame (utf8 label) ++ frame bytes

section
variable {Digest : Type} (sha256 : List UInt8 → Digest)

def contentDigest (manifestBytes wasmBytes : List UInt8)
    (uiAssets : List (String × List UInt8)) : Digest :=
  sha256 (contentDigestInput manifestBytes wasmBytes uiAssets)

inductive ManifestFault where
  | notUtf8
  | notToml
  | invalid (errors : List String)

def ManifestFault.display (notUtf8 path : String) : ManifestFault → String
  | .notUtf8 => notUtf8
  | .notToml => s!"parsing {path}"
  | .invalid errors =>
      let lines := "\n  - ".intercalate errors
      s!"manifest {path} is invalid:\n  - {lines}"

inductive DigestError where
  | badManifest (path reason : String)
  | io (err : IoError)
  | reason (text : String)

variable (parse : List UInt8 → Except ManifestFault PackageManifest)
  (compileSchema : List UInt8 → Except SchemaFault Unit)

def readManifestSyncCapturingBytes (tree : PackageTree) :
    Except String (PackageManifest × List UInt8) := do
  let path := tree.join "manifest.toml"
  let bytes ← (tree.readNoFollowWithin "manifest.toml").mapError fun _ => s!"reading {path}"
  let manifest ← (parse bytes).mapError (ManifestFault.display s!"{path} is not valid UTF-8" path)
  .ok (manifest, bytes)

/-- `ui_assets.as_ref().map(ui_asset_digest_frames).unwrap_or_default()` -/
def digestFrames (uiAssets : Option ValidatedUiAssets) : List (String × List UInt8) :=
  (uiAssets.map uiAssetDigestFrames).getD []

def validatedUi (tree : PackageTree) :
    Option UiSection → Except String (Option ValidatedUiAssets)
  | none => .ok none
  | some ui => (validateUiPackage compileSchema tree ui).map some

def declaredUi (tree : PackageTree) : Option UiSection → Except String (Option ValidatedUiAssets)
  | none => .ok none
  | some ui => (readDeclaredUiAssetBytes tree ui).map some

/-- `install` over the staged copy of a package whose source declares `pluginId`. -/
def installDigest (pluginId : String) (staging : PackageTree) : Except DigestError Digest := do
  let path := staging.join "manifest.toml"
  let (manifest, manifestBytes) ←
    (readManifestSyncCapturingBytes parse staging).mapError (.badManifest path)
  if manifest.pluginId ≠ pluginId then
    .error (.badManifest path (s!"staged manifest plugin.id \"{manifest.pluginId}\" disagrees " ++
      s!"with source plugin.id \"{pluginId}\""))
  else
    let uiAssets ← (validatedUi compileSchema staging manifest.ui).mapError (.badManifest path)
    let wasmBytes ← (staging.readNoFollowWithin manifest.runtimeWasm).mapError .io
    .ok (contentDigest sha256 manifestBytes wasmBytes (digestFrames uiAssets))

def scanDigestWithValidatedUi (tree : PackageTree) (manifestBytes : List UInt8)
    (runtimeWasmRel : String) (uiAssets : Option ValidatedUiAssets) : Except IoError Digest := do
  let wasmBytes ← tree.readNoFollowWithin runtimeWasmRel
  .ok (contentDigest sha256 manifestBytes wasmBytes (digestFrames uiAssets))

def scanDigest (tree : PackageTree) : Except DigestError Digest := do
  let (manifest, manifestBytes) ←
    (readManifestSyncCapturingBytes parse tree).mapError .reason
  let uiAssets ← (validatedUi compileSchema tree manifest.ui).mapError .reason
  (scanDigestWithValidatedUi sha256 tree manifestBytes manifest.runtimeWasm uiAssets).mapError .io

def recomputeInstalledDigest (tree : PackageTree) (manifest : PackageManifest)
    (manifestBytes wasmBytes : List UInt8) : Except String Digest := do
  let uiAssets ← declaredUi tree manifest.ui
  .ok (contentDigest sha256 manifestBytes wasmBytes (digestFrames uiAssets))

/-- What the supervisor pins before the first load. -/
def readManifestWithBytes (tree : PackageTree) : Except String (List UInt8 × PackageManifest) := do
  let path := tree.join "manifest.toml"
  let bytes ← (tree.read "manifest.toml").mapError fun _ =>
    s!"reading manifest from {path} (does the plugin dir contain manifest.toml?)"
  let manifest ← (parse bytes).mapError (ManifestFault.display s!"manifest {path} is not UTF-8" path)
  .ok (bytes, manifest)

def resolveWasmPath (tree : PackageTree) (relWasm : String) : Except String (List String) := do
  let joined := tree.join relWasm
  let canonicalWasm ← (tree.canonicalize relWasm).mapError fun _ =>
    s!"canonicalizing wasm path {joined}"
  if ¬ tree.canonicalDir <+: canonicalWasm then
    let inner := displayPath canonicalWasm
    let root := displayPath tree.canonicalDir
    .error (s!"runtime.wasm resolves to {inner}, which is outside the plugin directory {root} " ++
      "(symlink? `..`-traversal that snuck past validation?)")
  else .ok canonicalWasm

/-- The loader, up to the comparison with the digest of the row. -/
def loaderDigest (tree : PackageTree) : Except DigestError Digest := do
  let (manifestBytes, manifest) ← (readManifestWithBytes parse tree).mapError .reason
  let wasmPath ← (resolveWasmPath tree manifest.runtimeWasm).mapError .reason
  let wasmBytes ← (tree.read manifest.runtimeWasm).mapError fun _ =>
    .reason ("reading wasm component from " ++ displayPath wasmPath)
  (recomputeInstalledDigest sha256 tree manifest manifestBytes wasmBytes).mapError fun reason =>
    .reason s!"failed to recompute content digest for plugin {manifest.pluginId}: {reason}"

def recomputeDigestAndManifest (tree : PackageTree) :
    Except DigestError (Digest × PackageManifest) := do
  let (manifest, manifestBytes) ←
    (readManifestSyncCapturingBytes parse tree).mapError .reason
  let wasmBytes ← (tree.readNoFollowWithin manifest.runtimeWasm).mapError fun _ =>
    .reason s!"reading wasm for {manifest.pluginId}"
  let uiAssets ← (declaredUi tree manifest.ui).mapError .reason
  .ok (contentDigest sha256 manifestBytes wasmBytes (digestFrames uiAssets), manifest)

end

end OxidHome.Installed
