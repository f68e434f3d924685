import OxidHome.Storage.Kv
import OxidHome.Storage.BlobAtomicity

/-!
# Storage without an installation

What the stores keep under one installation uuid: nothing after a purge, and nothing as long as only
other installations write.
-/

namespace OxidHome.Uninstall
open Wit Library Storage History

structure KvClean (kv : KvStore) (uuid : String) : Prop where
  rows : ∀ row ∈ kv.kv, row.installationUuid ≠ uuid
  usage : ∀ u ∈ kv.usageTable, u.installationUuid ≠ uuid

structure IndexClean (index : BlobIndex) (uuid : String) : Prop where
  rows : ∀ row ∈ index.blob, row.installationUuid ≠ uuid
  usage : ∀ u ∈ index.usage, u.installationUuid ≠ uuid

section
variable {usage : Usage} {uuid owner : String}

theorem charge_clean (clean : ∀ u ∈ usage, u.installationUuid ≠ uuid) (t : Tuple) (delta : Int) :
    ∀ u ∈ usage.charge t delta, u.installationUuid ≠ uuid := by
  intro u mem
  obtain ⟨old, found, rfl⟩ := List.mem_map.mp mem
  split_ifs
  · exact clean old found
  · exact clean old found

theorem refund_clean {ρ : Type} {tuple : ρ → Tuple} {size : ρ → Nat} (deleted : List ρ)
    (clean : ∀ u ∈ usage, u.installationUuid ≠ uuid) :
    ∀ u ∈ refund tuple size usage deleted, u.installationUuid ≠ uuid := by
  unfold refund
  induction deleted generalizing usage with
  | nil => exact clean
  | cons row deleted ih => exact ih (charge_clean clean _ _)

theorem register_clean (clean : ∀ u ∈ usage, u.installationUuid ≠ uuid) (other : owner ≠ uuid)
    (instanceId : String) (quotaBytes : Nat) :
    ∀ u ∈ usage.register owner instanceId quotaBytes, u.installationUuid ≠ uuid := by
  intro u mem
  rcases mem_upsert mem with rfl | old
  · exact other
  · exact clean u old

theorem purge_clean (usage : Usage) (uuid : String) :
    ∀ u ∈ usage.purge uuid, u.installationUuid ≠ uuid := by
  intro u mem
  simpa using (List.mem_filter.mp mem).2

variable {kv : KvStore}

theorem KvClean.registered (clean : KvClean kv uuid) (other : owner ≠ uuid) (instanceId : String)
    (quotaBytes : Nat) : KvClean (kv.registerInstance owner instanceId quotaBytes) uuid :=
  ⟨clean.rows, register_clean clean.usage other instanceId quotaBytes⟩

theorem KvClean.set (clean : KvClean kv uuid) (other : owner ≠ uuid) (toVec : Json → List UInt8)
    (instanceId key : String) (value : Value) (now : Int) :
    KvClean (kv.apply toVec (.set owner instanceId key value now)) uuid := by
  dsimp only [KvStore.apply]
  cases written : kv.set toVec owner instanceId key value now with
  | error err => exact clean
  | ok after =>
      unfold KvStore.set at written
      dsimp only at written
      split at written
      · cases written
      · split_ifs at written
        cases written
        refine ⟨?_, charge_clean clean.usage _ _⟩
        intro row mem
        rcases mem_upsert mem with rfl | old
        · exact other
        · exact clean.rows row old

theorem KvClean.delete (clean : KvClean kv uuid) (toVec : Json → List UInt8)
    (instanceId key : String) : KvClean (kv.apply toVec (.delete owner instanceId key)) uuid := by
  refine ⟨?_, refund_clean _ clean.usage⟩
  intro row mem
  exact clean.rows row (List.mem_filter.mp mem).1

theorem kvClean_purged (kv : KvStore) (uuid : String) :
    KvClean (kv.purgeInstallation uuid) uuid := by
  refine ⟨?_, refund_clean _ (purge_clean _ _)⟩
  intro row mem
  exact of_decide_eq_true (List.mem_filter.mp mem).2

theorem KvClean.purged (clean : KvClean kv uuid) (other : String) :
    KvClean (kv.purgeInstallation other) uuid := by
  refine ⟨fun row mem => clean.rows row (List.mem_filter.mp mem).1, refund_clean _ ?_⟩
  exact fun u mem => clean.usage u (List.mem_filter.mp mem).1

variable {index : BlobIndex} {blobs : BlobStore}

theorem IndexClean.deleteRow (clean : IndexClean index uuid) (installationUuid instanceId name : String) :
    IndexClean (index.deleteRow installationUuid instanceId name) uuid := by
  refine ⟨?_, refund_clean _ clean.usage⟩
  exact fun row mem => clean.rows row (List.mem_filter.mp mem).1

theorem IndexClean.replaceRow (clean : IndexClean index uuid) {row : BlobRow}
    (other : row.installationUuid ≠ uuid) {after : BlobIndex} {old : Option BlobRow}
    (replaced : index.replaceRow row = .ok (after, old)) : IndexClean after uuid := by
  unfold BlobIndex.replaceRow at replaced
  split at replaced
  · cases replaced
  · dsimp only at replaced
    split_ifs at replaced
    cases replaced
    have deleted := clean.deleteRow row.installationUuid row.instanceId row.name
    refine ⟨?_, charge_clean deleted.usage _ _⟩
    intro row' mem
    rcases List.mem_append.mp mem with before | last
    · exact deleted.rows row' before
    · rw [List.mem_singleton.mp last]
      exact other

theorem indexClean_purged (index : BlobIndex) (uuid : String) :
    IndexClean (index.purge uuid) uuid := by
  refine ⟨?_, refund_clean _ (purge_clean _ _)⟩
  intro row mem
  exact of_decide_eq_true (List.mem_filter.mp mem).2

theorem IndexClean.purged (clean : IndexClean index uuid) (other : String) :
    IndexClean (index.purge other) uuid := by
  refine ⟨fun row mem => clean.rows row (List.mem_filter.mp mem).1, refund_clean _ ?_⟩
  exact fun u mem => clean.usage u (List.mem_filter.mp mem).1

theorem beginWrite_index (blobs : BlobStore) (call : WriteCall) :
    (blobs.beginWrite call).1.index = blobs.index := by
  unfold BlobStore.beginWrite
  split <;> rfl

theorem prepareDirs_index (blobs : BlobStore) (t : Tuple) (fault : Option WriteFault) :
    (blobs.prepareDirs t fault).1.index = blobs.index := by
  obtain ⟨after, dirs, done | failed⟩ := BlobStore.prepareDirs_cases blobs t fault
  · rw [done]
    exact dirs.index
  · rw [failed.1]
    exact dirs.index

theorem writeAndFsync_index (blobs : BlobStore) (path : BlobPath) (data : List UInt8)
    (fault : Option WriteFault) :
    (blobs.writeAndFsync path data fault).1.index = blobs.index := by
  rcases BlobStore.writeAndFsync_cases blobs path data fault with ⟨_, same⟩ | ⟨_, left, same⟩ |
    ⟨_, _, _, same⟩
  · rw [same]
  · rw [same]
  · rw [same]

theorem finalize_index (outcome : Except BlobError BlobStore.WriteOutcome) (id : String) (tmpPath : BlobPath) :
    (blobs.finalizeWriteOutcome outcome id tmpPath).1.index = blobs.index := by
  unfold BlobStore.finalizeWriteOutcome
  split <;> rfl

theorem IndexClean.writeTransaction (clean : IndexClean blobs.index uuid) {row : BlobRow}
    (other : row.installationUuid ≠ uuid) (tmpPath : BlobPath) (fault : Option WriteFault) :
    IndexClean (blobs.writeTransaction row tmpPath fault).1.index uuid := by
  unfold BlobStore.writeTransaction
  cases replaced : blobs.index.replaceRow row with
  | error err =>
      dsimp only
      split_ifs
      · exact clean
      · exact clean
  | ok result =>
      dsimp only
      split_ifs
      · exact clean
      · exact clean
      · exact clean
      · exact clean
      · exact clean.replaceRow other replaced

theorem IndexClean.write (clean : IndexClean blobs.index uuid) {call : WriteCall}
    (other : call.installationUuid ≠ uuid) : IndexClean (blobs.write call).1.index uuid := by
  unfold BlobStore.write
  have begun := beginWrite_index blobs call
  rcases started : blobs.beginWrite call with ⟨s, err | id⟩
  · rw [started] at begun
    dsimp only at begun ⊢
    rw [begun]
    exact clean
  · rw [started] at begun
    dsimp only at begun ⊢
    have made := prepareDirs_index s call.tuple call.fault
    rcases prepared : s.prepareDirs call.tuple call.fault with ⟨t, _ | err⟩
    · rw [prepared] at made
      dsimp only at made ⊢
      have synced := writeAndFsync_index t (call.tmpPath id) call.data call.fault
      rcases written : t.writeAndFsync (call.tmpPath id) call.data call.fault with ⟨u, _ | err⟩
      · rw [written] at synced
        dsimp only at synced ⊢
        rw [finalize_index]
        apply IndexClean.writeTransaction _ other
        rw [synced, made, begun]
        exact clean
      · rw [written] at synced
        dsimp only at synced ⊢
        rw [synced, made, begun]
        exact clean
    · rw [prepared] at made
      dsimp only at made ⊢
      rw [made, begun]
      exact clean

theorem IndexClean.delete (clean : IndexClean blobs.index uuid)
    (installationUuid instanceId name : String) (failed : Bool) :
    IndexClean (blobs.delete installationUuid instanceId name failed).1.index uuid := by
  unfold BlobStore.delete BlobStore.deleteTransaction
  split
  · exact clean
  · split_ifs
    · exact clean
    · cases blobs.index.row? installationUuid instanceId name with
      | none => exact clean
      | some row => exact clean.deleteRow _ _ _

theorem IndexClean.registered (clean : IndexClean blobs.index uuid) (other : owner ≠ uuid)
    (instanceId : String) (quotaBytes : Nat) :
    IndexClean (blobs.registerInstance owner instanceId quotaBytes).1.index uuid := by
  unfold BlobStore.registerInstance
  split
  · exact clean
  · exact ⟨clean.rows, register_clean clean.usage other instanceId quotaBytes⟩

theorem purgeInstallation_index (blobs : BlobStore) (owner : String) (fault : Option PurgeFault) :
    (blobs.purgeInstallation owner fault).1.index = blobs.index ∨
      (blobs.purgeInstallation owner fault).1.index = blobs.index.purge owner := by
  unfold BlobStore.purgeInstallation
  by_cases refused : !isSafeInstanceId owner
  · rw [if_pos refused]
    exact Or.inl rfl
  · rw [if_neg refused]
    cases fault with
    | none =>
        dsimp only
        split_ifs <;> exact Or.inr rfl
    | some fault =>
        cases fault with
        | sql => exact Or.inl rfl
        | removeDir left =>
            dsimp only
            split_ifs <;> exact Or.inr rfl
        | fsyncRoot =>
            dsimp only
            split_ifs <;> exact Or.inr rfl

theorem purgeInstallation_ok {fault : Option PurgeFault} {after : BlobStore}
    (done : blobs.purgeInstallation owner fault = (after, .ok ())) :
    IndexClean after.index owner := by
  have purged : after.index = blobs.index.purge owner := by
    unfold BlobStore.purgeInstallation at done
    by_cases refused : !isSafeInstanceId owner
    · rw [if_pos refused] at done
      cases done
    · rw [if_neg refused] at done
      cases fault with
      | none =>
          dsimp only at done
          split_ifs at done <;> cases done <;> rfl
      | some fault =>
          cases fault with
          | sql => cases done
          | removeDir left =>
              dsimp only at done
              split_ifs at done
              · cases done
                rfl
              · cases done
          | fsyncRoot =>
              dsimp only at done
              split_ifs at done <;> cases done <;> rfl
  rw [purged]
  exact indexClean_purged _ _

theorem IndexClean.purgeInstallation (clean : IndexClean blobs.index uuid) (other : String)
    (fault : Option PurgeFault) :
    IndexClean (blobs.purgeInstallation other fault).1.index uuid := by
  rcases purgeInstallation_index blobs other fault with same | purged
  · rw [same]
    exact clean
  · rw [purged]
    exact clean.purged other

end

end OxidHome.Uninstall
