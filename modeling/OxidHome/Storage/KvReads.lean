import OxidHome.Storage.KvQuota

/-!
# Values read back from the KV store

A stored payload survives every later call that does not touch its key, so what `get` returns for it
is decided by the encoding alone.
-/

namespace OxidHome.Storage
open Wit Library History

def KvAction.Touches (installationUuid instanceId key : String) : KvAction → Prop
  | .registerInstance .. => False
  | .set u i k _ _ => (u, i, k) = (installationUuid, instanceId, key)
  | .delete u i k => (u, i, k) = (installationUuid, instanceId, key)
  | .purgeInstallation u => u = installationUuid

namespace KvStore

variable {toVec : Json → List UInt8} {uuid inst key : String}

theorem value?_apply {s : KvStore} (law : KvLaw toVec s) {a : KvAction}
    (spared : ¬ a.Touches uuid inst key) :
    (s.apply toVec a).value? uuid inst key = s.value? uuid inst key := by
  cases a with
  | registerInstance u i quota => rfl
  | set u i k value now =>
      cases result : s.set toVec u i k value now with
      | error err => rw [law.set_failed u i k value now err result]
      | ok t =>
          obtain ⟨_, _, others, _⟩ := law.set_ok u i k value now t result
          have stored : s.apply toVec (.set u i k value now) = t := by
            simp only [KvStore.apply, result]
          rw [stored]
          exact others uuid inst key (Ne.symm spared)
  | delete u i k => exact (law.delete u i k).2.1 uuid inst key (Ne.symm spared)
  | purgeInstallation u => exact (law.purge_kept u uuid inst (Ne.symm spared)).2 key

theorem value?_run (acts later : List KvAction) (spared : ∀ a ∈ later, ¬ a.Touches uuid inst key) :
    (run toVec (acts ++ later)).value? uuid inst key = (run toVec acts).value? uuid inst key := by
  induction later using List.reverseRecOn with
  | nil => rw [List.append_nil]
  | append_singleton later a ih =>
      have before := ih fun b mem => spared b (List.mem_append_left _ mem)
      rw [← List.append_assoc, run, List.foldl_concat, ← before]
      exact value?_apply (kv_refines_quota_map toVec _) (spared a (by simp))

theorem get_of_value? {fromSlice : List UInt8 → Option Json} {serde : SerdeJson} {s : KvStore}
    {payload : List UInt8} (stored : s.value? uuid inst key = some payload) :
    s.get fromSlice serde uuid inst key =
      match (fromSlice payload).bind (Json.toValue serde) with
      | none => .error (.encode key)
      | some value => .ok (some value) := by
  obtain ⟨row, found, rfl⟩ := Option.map_eq_some_iff.mp stored
  cases read : (fromSlice row.value).bind (Json.toValue serde) with
  | none => simp [get, found, read]
  | some value => simp [get, found, read]

theorem rereadValue_finite {serde : SerdeJson} (exact_ : ∀ f, finite f → serde.reread f = some f)
    (value : Value) :
    rereadValue serde value = some value ↔ ∀ f ∈ valueFloats value, finite f := by
  rw [rereadValue_eq_self]
  apply forall₂_congr
  intro f _
  unfold rereadF64
  cases h : finite f with
  | false => simp
  | true => simp [exact_ f h]

end KvStore

open KvStore in
theorem kv_get_after_set (toVec : Json → List UInt8) (fromSlice : List UInt8 → Option Json)
    (serde : SerdeJson) (acts later : List KvAction) (uuid inst key : String) (value : Value)
    (now : Int) (t : KvStore)
    (reads : fromSlice (toVec (.ofValue value)) = some (.ofValue value))
    (exact_ : ∀ f, finite f → serde.reread f = some f)
    (stored : (run toVec acts).set toVec uuid inst key value now = .ok t)
    (spared : ∀ a ∈ later, ¬ a.Touches uuid inst key) :
    (later.foldl (KvStore.apply toVec) t).get fromSlice serde uuid inst key = .ok (some value) ↔
      ∀ f ∈ valueFloats value, finite f := by
  have after : run toVec (acts ++ [.set uuid inst key value now]) = t := by
    have done : (run toVec acts).apply toVec (.set uuid inst key value now) = t := by
      simp only [KvStore.apply, stored]
    rw [run, List.foldl_concat]
    exact done
  have last : later.foldl (KvStore.apply toVec) t =
      run toVec (acts ++ [.set uuid inst key value now] ++ later) := by
    rw [run, List.foldl_append, ← run, after]
  have payload : (later.foldl (KvStore.apply toVec) t).value? uuid inst key =
      some (toVec (.ofValue value)) := by
    rw [last, value?_run _ _ spared, after]
    exact ((kv_refines_quota_map toVec acts).set_ok uuid inst key value now t stored).2.1
  rw [get_of_value? payload, reads, Option.bind_some, toValue_ofValue, ← rereadValue_finite exact_]
  cases rereadValue serde value <;> simp

section
variable (text : String) (value : Value)

def writesText : Json → List UInt8 := fun _ => text.toList.map fun c => UInt8.ofNat c.toNat

def readsText : List UInt8 → Option Json := fun _ => some (.ofValue value)

end

theorem kv_get_after_set_bool :
    let toVec := writesText "\x7b\"t\":\"Bool\",\"v\":true\x7d"
    (([KvAction.delete "hue" "lamp" "off"].foldl (KvStore.apply toVec)
        ⟨[⟨"hue", "lamp", "on", toVec (.ofValue (.boolVal true)), 0⟩], [⟨"hue", "lamp", 23, 100⟩]⟩).get
      (readsText (.boolVal true)) ⟨some, fun _ => ⟨0⟩⟩ "hue" "lamp" "on" =
        .ok (some (.boolVal true))) ↔ ∀ f ∈ valueFloats (.boolVal true), finite f :=
  kv_get_after_set _ _ _ [.registerInstance "hue" "lamp" 100] _ "hue" "lamp" "on" (.boolVal true) 0 _
    rfl (fun _ _ => rfl) rfl (by simp [KvAction.Touches])

theorem stored_nan_is_not_read :
    ¬ ∀ (toVec : Json → List UInt8) (fromSlice : List UInt8 → Option Json) (serde : SerdeJson)
      (acts later : List KvAction) (uuid inst key : String) (value : Value) (now : Int) (t : KvStore),
      fromSlice (toVec (.ofValue value)) = some (.ofValue value) →
      (∀ f, finite f → serde.reread f = some f) →
      (KvStore.run toVec acts).set toVec uuid inst key value now = .ok t →
      (∀ a ∈ later, ¬ a.Touches uuid inst key) →
        (later.foldl (KvStore.apply toVec) t).get fromSlice serde uuid inst key =
          .ok (some value) := by
  intro claim
  let nan : Value := .floatVal ⟨0x7FF8000000000000⟩
  have read := claim (writesText "\x7b\"t\":\"Float\",\"v\":null\x7d") (readsText nan)
    ⟨some, fun _ => ⟨0⟩⟩ [.registerInstance "hue" "lamp" 100] [] "hue" "lamp" "level" nan 0 _
    rfl (fun _ _ => rfl) rfl (by simp)
  cases read

end OxidHome.Storage
