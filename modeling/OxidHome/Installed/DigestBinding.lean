import OxidHome.Installed.ContentDigest

/-!
# What the content digest binds

Two packages with the same input of the hash are the same package, and all callers over one tree
hash one input.
-/

namespace OxidHome.Installed
open Library

structure PackageBytes where
  manifest : List UInt8
  wasm : List UInt8
  uiAssets : List (String × List UInt8)

namespace PackageBytes

def digestInput (p : PackageBytes) : List UInt8 :=
  contentDigestInput p.manifest p.wasm p.uiAssets

structure IsShort (p : PackageBytes) : Prop where
  manifest : Short p.manifest
  wasm : Short p.wasm
  labels : ∀ asset ∈ p.uiAssets, Short (utf8 asset.1)
  assets : ∀ asset ∈ p.uiAssets, Short asset.2

theorem digestInput_eq (p : PackageBytes) :
    p.digestInput = frame (utf8 "oxidhome:plugin-content:v3") ++ (frame p.manifest ++
      (frame p.wasm ++ (be32 p.uiAssets.length ++ (fields p.uiAssets).flatMap frame))) := by
  have entries : (fields p.uiAssets).flatMap frame =
      p.uiAssets.flatMap fun asset => frame (utf8 asset.1) ++ frame asset.2 := by
    rw [fields, List.flatMap_assoc]
    simp
  rw [entries, digestInput, contentDigestInput]
  simp only [List.append_assoc]

theorem IsShort.fields {p : PackageBytes} (short : p.IsShort) :
    ∀ field ∈ Library.fields p.uiAssets, Short field := by
  intro field mem
  obtain ⟨asset, declared, mem⟩ := List.mem_flatMap.mp mem
  rcases List.mem_pair.mp mem with same | same
  · exact same ▸ short.labels asset declared
  · exact same ▸ short.assets asset declared

theorem short_tag : Short (utf8 "oxidhome:plugin-content:v3") := by
  unfold Short
  decide

theorem digestInput_inj {p q : PackageBytes} (hp : p.IsShort) (hq : q.IsShort) :
    p.digestInput = q.digestInput ↔
      p.manifest = q.manifest ∧ p.wasm = q.wasm ∧ p.uiAssets = q.uiAssets := by
  constructor
  · intro same
    rw [digestInput_eq, digestInput_eq, frame_append_inj short_tag short_tag,
      frame_append_inj hp.manifest hq.manifest, frame_append_inj hp.wasm hq.wasm] at same
    obtain ⟨-, manifest, wasm, rest⟩ := same
    have entries := (List.append_inj rest rfl).2
    rw [flatMap_frame_inj hp.fields hq.fields] at entries
    exact ⟨manifest, wasm, fields_injective entries⟩
  · intro ⟨manifest, wasm, uiAssets⟩
    rw [digestInput, digestInput, manifest, wasm, uiAssets]

theorem swapped_ne {α : Type} {a b : String} {x y : α} {before mid after : List (String × α)}
    (different : x ≠ y) :
    before ++ (a, x) :: mid ++ (b, y) :: after ≠ before ++ (a, y) :: mid ++ (b, x) :: after := by
  intro same
  rw [List.append_assoc, List.append_assoc, List.append_cancel_left_eq] at same
  simp [different] at same

end PackageBytes

def Contents (parse : List UInt8 → Except ManifestFault PackageManifest) (tree : PackageTree)
    (p : PackageBytes) : Prop :=
  ∃ manifest uiAssets, tree.read "manifest.toml" = .ok p.manifest ∧
    parse p.manifest = .ok manifest ∧ tree.read manifest.runtimeWasm = .ok p.wasm ∧
    declaredUi tree manifest.ui = .ok uiAssets ∧ p.uiAssets = digestFrames uiAssets

inductive Caller where
  | install (pluginId : String)
  | scan
  | loader
  | schemaEndpoint

def Caller.digest {Digest : Type} (sha256 : List UInt8 → Digest)
    (parse : List UInt8 → Except ManifestFault PackageManifest)
    (compileSchema : List UInt8 → Except SchemaFault Unit) (tree : PackageTree) :
    Caller → Except DigestError Digest
  | .install pluginId => installDigest sha256 parse compileSchema pluginId tree
  | .scan => scanDigest sha256 parse compileSchema tree
  | .loader => loaderDigest sha256 parse tree
  | .schemaEndpoint => (recomputeDigestAndManifest sha256 parse tree).map Prod.fst

section
variable {parse : List UInt8 → Except ManifestFault PackageManifest}
  {compileSchema : List UInt8 → Except SchemaFault Unit} {tree : PackageTree}
  {Digest : Type} {sha256 : List UInt8 → Digest}

theorem Contents.unique {p q : PackageBytes} (hp : Contents parse tree p)
    (hq : Contents parse tree q) : p = q := by
  obtain ⟨m, assets, readM, parsed, readW, declared, frames⟩ := hp
  obtain ⟨m', assets', readM', parsed', readW', declared', frames'⟩ := hq
  have manifest : p.manifest = q.manifest := Except.ok.inj (readM.symm.trans readM')
  obtain rfl : m = m' := Except.ok.inj (parsed.symm.trans (manifest ▸ parsed'))
  have wasm : p.wasm = q.wasm := Except.ok.inj (readW.symm.trans readW')
  obtain rfl : assets = assets' := Except.ok.inj (declared.symm.trans declared')
  obtain ⟨_, _, _⟩ := p
  obtain ⟨_, _, _⟩ := q
  rw [PackageBytes.mk.injEq]
  exact ⟨manifest, wasm, frames.trans frames'.symm⟩

theorem readNoFollow_eq_ok {rel : String} {maxBytes : Option Nat} {bytes : List UInt8} :
    tree.readNoFollowWithinBounded rel maxBytes = .ok bytes ↔
      (tree.entry rel).isLink = false ∧
      (∃ canonical, (tree.entry rel).target = .ok (.file bytes, canonical) ∧
        tree.canonicalDir <+: canonical) ∧
      ∀ max ∈ maxBytes, bytes.length ≤ max := by
  unfold PackageTree.readNoFollowWithinBounded
  cases link : (tree.entry rel).isLink with
  | true => simp
  | false =>
      match target : (tree.entry rel).target with
      | .error _ => simp
      | .ok (.other _, _) => simp
      | .ok (.file found, canonical) =>
          by_cases inside : tree.canonicalDir <+: canonical
          · cases maxBytes with
            | none => simp [inside]
            | some max =>
                by_cases long : found.length > max
                · simp [inside, long]
                  rintro rfl
                  exact long
                · simp [inside, long]
                  rintro rfl
                  omega
          · simp [inside]

theorem read_of_noFollow {rel : String} {maxBytes : Option Nat} {bytes : List UInt8}
    (found : tree.readNoFollowWithinBounded rel maxBytes = .ok bytes) :
    tree.read rel = .ok bytes := by
  obtain ⟨-, ⟨canonical, target, -⟩, -⟩ := readNoFollow_eq_ok.mp found
  simp [PackageTree.read, target]

theorem resolveWasmPath_of_noFollow {rel : String} {bytes : List UInt8}
    (found : tree.readNoFollowWithin rel = .ok bytes) :
    ∃ canonical, resolveWasmPath tree rel = .ok canonical := by
  obtain ⟨-, ⟨canonical, target, inside⟩, -⟩ := readNoFollow_eq_ok.mp found
  exact ⟨canonical, by
    simp [resolveWasmPath, PackageTree.canonicalize, target, inside, Except.map, Except.mapError,
      bind, Except.bind]⟩

theorem readManifestSync_eq_ok {manifest : PackageManifest} {bytes : List UInt8} :
    readManifestSyncCapturingBytes parse tree = .ok (manifest, bytes) ↔
      tree.readNoFollowWithin "manifest.toml" = .ok bytes ∧ parse bytes = .ok manifest := by
  simp only [readManifestSyncCapturingBytes, bind_eq_ok, mapError_eq_ok, Except.ok.injEq,
    Prod.mk.injEq]
  constructor
  · rintro ⟨_, found, _, parsed, rfl, rfl⟩
    exact ⟨found, parsed⟩
  · rintro ⟨found, parsed⟩
    exact ⟨_, found, _, parsed, rfl, rfl⟩

theorem readManifestWithBytes_eq_ok {manifest : PackageManifest} {bytes : List UInt8} :
    readManifestWithBytes parse tree = .ok (bytes, manifest) ↔
      tree.read "manifest.toml" = .ok bytes ∧ parse bytes = .ok manifest := by
  simp only [readManifestWithBytes, bind_eq_ok, mapError_eq_ok, Except.ok.injEq, Prod.mk.injEq]
  constructor
  · rintro ⟨_, found, _, parsed, rfl, rfl⟩
    exact ⟨found, parsed⟩
  · rintro ⟨found, parsed⟩
    exact ⟨_, found, _, parsed, rfl, rfl⟩

theorem declaredUi_of_validated {ui : Option UiSection} {assets : Option ValidatedUiAssets}
    (valid : validatedUi compileSchema tree ui = .ok assets) : declaredUi tree ui = .ok assets := by
  cases ui with
  | none => exact valid
  | some ui =>
      simp only [validatedUi, validateUiPackage, map_eq_ok, bind_eq_ok, Except.ok.injEq] at valid
      obtain ⟨_, ⟨read, declared, _, _, rfl⟩, rfl⟩ := valid
      exact map_eq_ok.mpr ⟨read, declared, rfl⟩

theorem installDigest_eq_ok {pluginId : String} {d : Digest} :
    installDigest sha256 parse compileSchema pluginId tree = .ok d ↔
      ∃ manifest manifestBytes wasmBytes uiAssets,
        tree.readNoFollowWithin "manifest.toml" = .ok manifestBytes ∧
        parse manifestBytes = .ok manifest ∧ manifest.pluginId = pluginId ∧
        validatedUi compileSchema tree manifest.ui = .ok uiAssets ∧
        tree.readNoFollowWithin manifest.runtimeWasm = .ok wasmBytes ∧
        contentDigest sha256 manifestBytes wasmBytes (digestFrames uiAssets) = d := by
  simp only [installDigest, bind_eq_ok, mapError_eq_ok, Prod.exists, readManifestSync_eq_ok]
  constructor
  · rintro ⟨manifest, manifestBytes, ⟨found, parsed⟩, rest⟩
    split at rest
    · cases rest
    · rename_i same
      simp only [bind_eq_ok, mapError_eq_ok, Except.ok.injEq] at rest
      obtain ⟨uiAssets, valid, wasmBytes, wasm, fed⟩ := rest
      exact ⟨manifest, manifestBytes, wasmBytes, uiAssets, found, parsed, not_not.mp same, valid,
        wasm, fed⟩
  · rintro ⟨manifest, manifestBytes, wasmBytes, uiAssets, found, parsed, same, valid, wasm, fed⟩
    refine ⟨manifest, manifestBytes, ⟨found, parsed⟩, ?_⟩
    rw [if_neg (not_not.mpr same)]
    simp only [bind_eq_ok, mapError_eq_ok, Except.ok.injEq]
    exact ⟨uiAssets, valid, wasmBytes, wasm, fed⟩

theorem scanDigest_eq_ok {d : Digest} :
    scanDigest sha256 parse compileSchema tree = .ok d ↔
      ∃ manifest manifestBytes wasmBytes uiAssets,
        tree.readNoFollowWithin "manifest.toml" = .ok manifestBytes ∧
        parse manifestBytes = .ok manifest ∧
        validatedUi compileSchema tree manifest.ui = .ok uiAssets ∧
        tree.readNoFollowWithin manifest.runtimeWasm = .ok wasmBytes ∧
        contentDigest sha256 manifestBytes wasmBytes (digestFrames uiAssets) = d := by
  simp only [scanDigest, scanDigestWithValidatedUi, bind_eq_ok, mapError_eq_ok, Prod.exists,
    readManifestSync_eq_ok, Except.ok.injEq]
  constructor
  · rintro ⟨manifest, manifestBytes, ⟨found, parsed⟩, uiAssets, valid, wasmBytes, wasm, fed⟩
    exact ⟨manifest, manifestBytes, wasmBytes, uiAssets, found, parsed, valid, wasm, fed⟩
  · rintro ⟨manifest, manifestBytes, wasmBytes, uiAssets, found, parsed, valid, wasm, fed⟩
    exact ⟨manifest, manifestBytes, ⟨found, parsed⟩, uiAssets, valid, wasmBytes, wasm, fed⟩

theorem loaderDigest_eq_ok {d : Digest} :
    loaderDigest sha256 parse tree = .ok d ↔
      ∃ manifest manifestBytes wasmPath wasmBytes uiAssets,
        tree.read "manifest.toml" = .ok manifestBytes ∧ parse manifestBytes = .ok manifest ∧
        resolveWasmPath tree manifest.runtimeWasm = .ok wasmPath ∧
        tree.read manifest.runtimeWasm = .ok wasmBytes ∧
        declaredUi tree manifest.ui = .ok uiAssets ∧
        contentDigest sha256 manifestBytes wasmBytes (digestFrames uiAssets) = d := by
  simp only [loaderDigest, recomputeInstalledDigest, bind_eq_ok, mapError_eq_ok, Prod.exists,
    readManifestWithBytes_eq_ok, Except.ok.injEq]
  constructor
  · rintro ⟨manifestBytes, manifest, ⟨found, parsed⟩, wasmPath, resolved, wasmBytes, wasm,
      uiAssets, declared, fed⟩
    exact ⟨manifest, manifestBytes, wasmPath, wasmBytes, uiAssets, found, parsed, resolved, wasm,
      declared, fed⟩
  · rintro ⟨manifest, manifestBytes, wasmPath, wasmBytes, uiAssets, found, parsed, resolved, wasm,
      declared, fed⟩
    exact ⟨manifestBytes, manifest, ⟨found, parsed⟩, wasmPath, resolved, wasmBytes, wasm, uiAssets,
      declared, fed⟩

theorem schemaEndpoint_eq_ok {d : Digest} :
    (recomputeDigestAndManifest sha256 parse tree).map Prod.fst = .ok d ↔
      ∃ manifest manifestBytes wasmBytes uiAssets,
        tree.readNoFollowWithin "manifest.toml" = .ok manifestBytes ∧
        parse manifestBytes = .ok manifest ∧
        tree.readNoFollowWithin manifest.runtimeWasm = .ok wasmBytes ∧
        declaredUi tree manifest.ui = .ok uiAssets ∧
        contentDigest sha256 manifestBytes wasmBytes (digestFrames uiAssets) = d := by
  simp only [recomputeDigestAndManifest, map_eq_ok, bind_eq_ok, mapError_eq_ok, Prod.exists,
    readManifestSync_eq_ok, Except.ok.injEq, Prod.mk.injEq]
  constructor
  · rintro ⟨fed, _, ⟨manifest, manifestBytes, ⟨found, parsed⟩, wasmBytes, wasm, uiAssets, declared,
      rfl, rfl⟩, rfl⟩
    exact ⟨manifest, manifestBytes, wasmBytes, uiAssets, found, parsed, wasm, declared, rfl⟩
  · rintro ⟨manifest, manifestBytes, wasmBytes, uiAssets, found, parsed, wasm, declared, rfl⟩
    exact ⟨_, manifest, ⟨manifest, manifestBytes, ⟨found, parsed⟩, wasmBytes, wasm, uiAssets,
      declared, rfl, rfl⟩, rfl⟩

theorem Caller.contents {caller : Caller} {d : Digest}
    (done : caller.digest sha256 parse compileSchema tree = .ok d) :
    ∃ p, Contents parse tree p ∧ d = sha256 p.digestInput := by
  cases caller with
  | install pluginId =>
      obtain ⟨manifest, manifestBytes, wasmBytes, uiAssets, found, parsed, -, valid, wasm, rfl⟩ :=
        installDigest_eq_ok.mp done
      exact ⟨⟨manifestBytes, wasmBytes, digestFrames uiAssets⟩,
        ⟨manifest, uiAssets, read_of_noFollow found, parsed, read_of_noFollow wasm,
          declaredUi_of_validated valid, rfl⟩, rfl⟩
  | scan =>
      obtain ⟨manifest, manifestBytes, wasmBytes, uiAssets, found, parsed, valid, wasm, rfl⟩ :=
        scanDigest_eq_ok.mp done
      exact ⟨⟨manifestBytes, wasmBytes, digestFrames uiAssets⟩,
        ⟨manifest, uiAssets, read_of_noFollow found, parsed, read_of_noFollow wasm,
          declaredUi_of_validated valid, rfl⟩, rfl⟩
  | loader =>
      obtain ⟨manifest, manifestBytes, -, wasmBytes, uiAssets, found, parsed, -, wasm, declared,
        rfl⟩ := loaderDigest_eq_ok.mp done
      exact ⟨⟨manifestBytes, wasmBytes, digestFrames uiAssets⟩,
        ⟨manifest, uiAssets, found, parsed, wasm, declared, rfl⟩, rfl⟩
  | schemaEndpoint =>
      obtain ⟨manifest, manifestBytes, wasmBytes, uiAssets, found, parsed, wasm, declared, rfl⟩ :=
        schemaEndpoint_eq_ok.mp done
      exact ⟨⟨manifestBytes, wasmBytes, digestFrames uiAssets⟩,
        ⟨manifest, uiAssets, read_of_noFollow found, parsed, read_of_noFollow wasm, declared, rfl⟩,
        rfl⟩

theorem callers_of_install {pluginId : String} {d : Digest}
    (done : installDigest sha256 parse compileSchema pluginId tree = .ok d) :
    scanDigest sha256 parse compileSchema tree = .ok d ∧ loaderDigest sha256 parse tree = .ok d ∧
      (recomputeDigestAndManifest sha256 parse tree).map Prod.fst = .ok d := by
  obtain ⟨manifest, manifestBytes, wasmBytes, uiAssets, found, parsed, -, valid, wasm, fed⟩ :=
    installDigest_eq_ok.mp done
  have declared := declaredUi_of_validated valid
  obtain ⟨wasmPath, resolved⟩ := resolveWasmPath_of_noFollow wasm
  refine ⟨scanDigest_eq_ok.mpr ?_, loaderDigest_eq_ok.mpr ?_, schemaEndpoint_eq_ok.mpr ?_⟩
  · exact ⟨manifest, manifestBytes, wasmBytes, uiAssets, found, parsed, valid, wasm, fed⟩
  · exact ⟨manifest, manifestBytes, wasmPath, wasmBytes, uiAssets, read_of_noFollow found, parsed,
      resolved, read_of_noFollow wasm, declared, fed⟩
  · exact ⟨manifest, manifestBytes, wasmBytes, uiAssets, found, parsed, wasm, declared, fed⟩

end

theorem content_digest_binds_package
    (parse : List UInt8 → Except ManifestFault PackageManifest)
    (compileSchema : List UInt8 → Except SchemaFault Unit) :
    (∀ p q : PackageBytes, p.IsShort → q.IsShort →
      (p.digestInput = q.digestInput ↔
        p.manifest = q.manifest ∧ p.wasm = q.wasm ∧ p.uiAssets = q.uiAssets)) ∧
    (∀ (p q : PackageBytes) before mid after (a b : String) (x y : List UInt8),
      p.IsShort → q.IsShort → x ≠ y →
      p.uiAssets = before ++ (a, x) :: mid ++ (b, y) :: after →
      q.uiAssets = before ++ (a, y) :: mid ++ (b, x) :: after →
      p.digestInput ≠ q.digestInput) ∧
    (∀ tree, ∃ input, ∀ (Digest : Type) (sha256 : List UInt8 → Digest) (caller : Caller) d,
      caller.digest sha256 parse compileSchema tree = .ok d → d = sha256 input) ∧
    ∀ tree pluginId (Digest : Type) (sha256 : List UInt8 → Digest) d,
      installDigest sha256 parse compileSchema pluginId tree = .ok d →
      scanDigest sha256 parse compileSchema tree = .ok d ∧
        loaderDigest sha256 parse tree = .ok d ∧
        (recomputeDigestAndManifest sha256 parse tree).map Prod.fst = .ok d := by
  refine ⟨fun p q hp hq => PackageBytes.digestInput_inj hp hq, ?_, fun tree => ?_,
    fun tree pluginId Digest sha256 d done => callers_of_install done⟩
  · intro p q before mid after a b x y hp hq different first second same
    apply PackageBytes.swapped_ne different
    rw [← first, ← second]
    exact ((PackageBytes.digestInput_inj hp hq).mp same).2.2
  · by_cases held : ∃ p, Contents parse tree p
    · obtain ⟨p, contents⟩ := held
      refine ⟨p.digestInput, fun Digest sha256 caller d done => ?_⟩
      obtain ⟨q, contents', rfl⟩ := caller.contents done
      rw [contents.unique contents']
    · refine ⟨[], fun Digest sha256 caller d done => ?_⟩
      obtain ⟨q, contents, -⟩ := caller.contents done
      exact absurd ⟨q, contents⟩ held

def oneWidget : PackageManifest := ⟨"a.b", "w", some ⟨some "c", none, none, ["d"], none, none⟩⟩

def namedTree : PackageTree :=
  { dir := "/plugins/a.b"
    canonicalDir := ["plugins", "a.b"]
    entry := fun rel => ⟨false, .ok (.file (utf8 rel), ["plugins", "a.b", rel])⟩ }

def namedPackage (config widget : String) : PackageBytes :=
  ⟨utf8 "manifest.toml", utf8 "w", [("config", utf8 config), ("widgets[0]", utf8 widget)]⟩

theorem namedPackage_isShort {config widget : String} (c : Short (utf8 config))
    (w : Short (utf8 widget)) : (namedPackage config widget).IsShort where
  manifest := by
    show (utf8 "manifest.toml").length < 2 ^ 32
    decide
  wasm := by
    show (utf8 "w").length < 2 ^ 32
    decide
  labels asset mem := by
    rcases List.mem_pair.mp mem with rfl | rfl
    · show (utf8 "config").length < 2 ^ 32
      decide
    · show (utf8 "widgets[0]").length < 2 ^ 32
      decide
  assets asset mem := by
    rcases List.mem_pair.mp mem with rfl | rfl
    · exact c
    · exact w

theorem content_digest_binds_widget :
    (namedPackage "c" "d").digestInput ≠ (namedPackage "d" "c").digestInput ∧
      scanDigest id (fun _ => .ok oneWidget) (fun _ => .ok ()) namedTree =
        .ok (namedPackage "c" "d").digestInput := by
  have binds := content_digest_binds_package (fun _ => .ok oneWidget) (fun _ => .ok ())
  have short : ∀ s ∈ ["c", "d"], Short (utf8 s) := by
    unfold Short
    decide
  refine ⟨?_, ?_⟩
  · exact binds.2.1 (namedPackage "c" "d") (namedPackage "d" "c") [] [] [] "config" "widgets[0]"
      (utf8 "c") (utf8 "d") (namedPackage_isShort (short "c" (by simp)) (short "d" (by simp)))
      (namedPackage_isShort (short "d" (by simp)) (short "c" (by simp))) (by decide) rfl rfl
  · exact (binds.2.2.2 namedTree "a.b" (List UInt8) id _ rfl).1

end OxidHome.Installed
