import Mathlib.Data.Int.ConditionallyCompleteOrder
import Mathlib.Data.List.MinMax
import InferenceGateway.Cluster

namespace InferenceGateway
open Lib.Workqueue

theorem InferenceModel.namespacedName_eq {m : InferenceModel} {key : NamespacedName} :
    m.namespacedName = key ↔ m.name = key.name ∧ m.ns = key.ns := by
  simp only [InferenceModel.namespacedName, NamespacedName.ext_iff, and_comm]

namespace Datastore
variable {ds : Datastore}

def withModels (ds : Datastore) (models : Finmap (fun _ : String => InferenceModel)) : Datastore :=
  { ds with models := models }

@[simp] theorem withModels_models (models : Finmap (fun _ : String => InferenceModel)) :
    (ds.withModels models).models = models := rfl

@[simp] theorem withModels_pool (models : Finmap (fun _ : String => InferenceModel)) :
    (ds.withModels models).pool = ds.pool := rfl

/-- The entry of another object that is older than `m`: it keeps `m` out of the store. -/
def KeepsOut (ds : Datastore) (m : InferenceModel) : Prop :=
  ∃ existing, ds.models.lookup m.spec.modelName = some existing ∧
    existing.namespacedName ≠ m.namespacedName ∧ existing.creationTimestamp < m.creationTimestamp

theorem modelSetIfOlder_of_keepsOut {m : InferenceModel} (keepsOut : ds.KeepsOut m) :
    ds.modelSetIfOlder m = (false, ds) := by
  obtain ⟨existing, stored, other, older⟩ := keepsOut
  have different : m.name ≠ existing.name ∨ m.ns ≠ existing.ns := by
    rw [← not_and_or]
    exact fun same => other (InferenceModel.namespacedName_eq.mpr ⟨same.1.symm, same.2.symm⟩)
  unfold modelSetIfOlder
  simp only [stored]
  exact if_pos ⟨different, older⟩

theorem modelSetIfOlder_of_not_keepsOut {m : InferenceModel} (free : ¬ds.KeepsOut m) :
    ds.modelSetIfOlder m = (true, ds.withModels (ds.models.insert m.spec.modelName m)) := by
  unfold modelSetIfOlder
  cases stored : ds.models.lookup m.spec.modelName with
  | none => rfl
  | some existing =>
      apply if_neg
      rintro ⟨different, older⟩
      refine free ⟨existing, stored, fun same => ?_, older⟩
      have := InferenceModel.namespacedName_eq.mp same
      rcases different with name | ns
      · exact name this.1.symm
      · exact ns this.2.symm

theorem modelFound_iff {key : NamespacedName} {name : String} {m : InferenceModel} :
    ((ds.models.lookup name).filter fun m => m.name = key.name ∧ m.ns = key.ns) = some m ↔
      ds.models.lookup name = some m ∧ m.namespacedName = key := by
  rw [Option.filter_eq_some_iff, InferenceModel.namespacedName_eq]
  simp

theorem modelDelete_visits (ds : Datastore) (order : List String) (key : NamespacedName) :
    (ds.modelDelete order key = (none, ds) ∧
      ∀ name ∈ order, ∀ m, ds.models.lookup name = some m → m.namespacedName ≠ key) ∨
    ∃ name ∈ order, ∃ m, ds.models.lookup name = some m ∧ m.namespacedName = key ∧
      ds.modelDelete order key = (some m, ds.withModels (ds.models.erase m.spec.modelName)) := by
  unfold modelDelete
  cases search : order.findSome? fun name => (ds.models.lookup name).filter fun m =>
      m.name = key.name ∧ m.ns = key.ns with
  | none =>
      left
      refine ⟨rfl, fun name member m stored own => ?_⟩
      have skipped := List.findSome?_eq_none_iff.mp search name member
      rw [modelFound_iff.mpr ⟨stored, own⟩] at skipped
      cases skipped
  | some m =>
      right
      obtain ⟨name, member, found⟩ := List.exists_of_findSome?_eq_some search
      obtain ⟨stored, own⟩ := modelFound_iff.mp found
      exact ⟨name, member, m, stored, own, rfl⟩

theorem modelDelete_cases {order : List String} (ranges : RangesOver order ds.models)
    (key : NamespacedName) :
    (ds.modelDelete order key = (none, ds) ∧
      ∀ name m, ds.models.lookup name = some m → m.namespacedName ≠ key) ∨
    ∃ name m, ds.models.lookup name = some m ∧ m.namespacedName = key ∧
      ds.modelDelete order key = (some m, ds.withModels (ds.models.erase m.spec.modelName)) := by
  rcases ds.modelDelete_visits order key with ⟨kept, others⟩ | ⟨name, -, m, stored, own, deleted⟩
  · left
    refine ⟨kept, fun name m stored => ?_⟩
    exact others name ((ranges.visits name).mpr (Finmap.mem_of_lookup_eq_some stored)) m stored
  · exact .inr ⟨name, m, stored, own, deleted⟩

theorem modelDelete_of_entry (ds : Datastore) {order : List String} (ranges : RangesOver order ds.models)
    {name : String} {m : InferenceModel} (stored : ds.models.lookup name = some m) :
    ∃ index entry, ds.models.lookup index = some entry ∧ entry.namespacedName = m.namespacedName ∧
      ds.modelDelete order m.namespacedName =
        (some entry, ds.withModels (ds.models.erase entry.spec.modelName)) := by
  rcases modelDelete_cases ranges m.namespacedName with ⟨_, noEntry⟩ | found
  · exact absurd rfl (noEntry name m stored)
  · exact found

theorem modelDelete_of_no_entry (ds : Datastore) {order : List String} (ranges : RangesOver order ds.models)
    {key : NamespacedName} (noEntry : ∀ name m, ds.models.lookup name = some m → m.namespacedName ≠ key) :
    ds.modelDelete order key = (none, ds) := by
  rcases modelDelete_cases ranges key with ⟨deleted, _⟩ | ⟨name, m, stored, own, _⟩
  · exact deleted
  · exact absurd own (noEntry name m stored)

def candidate (pool : InferencePool) (modelName : String) (m : InferenceModel) : Bool :=
  m.spec.modelName = modelName ∧ m.spec.poolRef.name = pool.name ∧ m.deletionTimestamp = none

theorem oldest_eq_argmin (pool : InferencePool) (modelName : String) (items : List InferenceModel) :
    oldest pool modelName items =
      (items.filter (candidate pool modelName)).argmin InferenceModel.creationTimestamp := by
  unfold oldest List.argmin
  rw [List.foldl_filter]
  congr 1
  funext older m
  by_cases considered : candidate pool modelName m = true
  · rw [if_pos considered, if_neg (by
      simpa [candidate, ← Option.isNone_iff_eq_none] using considered)]
    cases older <;> rfl
  · rw [if_neg considered, if_pos (by
      simpa [candidate, ← Option.isNone_iff_eq_none, imp_iff_not_or] using considered)]

theorem modelResync_of_error (ds : Datastore) (client : Client) (modelName : String)
    {pool : InferencePool} {err : ApiError} (synced : ds.pool = some pool)
    (failed : client.listInferenceModels modelName pool.ns = .error err) :
    ∃ err, ds.modelResync client modelName = some (.error err, ds) := by
  simp only [modelResync, synced, Option.bind_eq_bind, Option.bind_some, failed]
  exact ⟨_, rfl⟩

theorem modelResync_of_ok (ds : Datastore) (client : Client) (modelName : String)
    {pool : InferencePool} {items : List InferenceModel} (synced : ds.pool = some pool)
    (listed : client.listInferenceModels modelName pool.ns = .ok items) :
    ∃ updated, ds.modelResync client modelName = some (.ok updated, ds.withModels
      (match oldest pool modelName items with
        | none => ds.models
        | some m => ds.models.insert modelName m)) := by
  simp only [modelResync, synced, Option.bind_eq_bind, Option.bind_some, listed]
  cases oldest pool modelName items with
  | none => exact ⟨false, rfl⟩
  | some m => exact ⟨true, by rw [withModels, synced]; rfl⟩

end Datastore

end InferenceGateway
