import InferenceGateway.Proof.Datastore.Models
import InferenceGateway.Proof.Datastore.RefreshLoops

/-!
Every entry of the datastore's maps is stored under its object's own name, in every state that the
operations lead to. `ModelDelete` and `PodResyncAll` delete by the names of the objects they find.
-/

namespace InferenceGateway.Datastore
open Lib.Workqueue

inductive StoreOp
  | poolSet (pool : InferencePool)
  | modelSetIfOlder (infModel : InferenceModel)
  | modelResync (client : Client) (modelName : String)
  | modelDelete (order : List String) (namespacedName : NamespacedName)
  | pods (op : PodOp)

def StoreOp.run : StoreOp → Datastore → Datastore
  | .poolSet pool, ds => ds.poolSet pool
  | .modelSetIfOlder infModel, ds => (ds.modelSetIfOlder infModel).2
  -- a panic on a nil pool comes before any change
  | .modelResync client modelName, ds => ((ds.modelResync client modelName).map Prod.snd).getD ds
  | .modelDelete order namespacedName, ds => (ds.modelDelete order namespacedName).2
  | .pods op, ds => op.run ds

def run (ops : List StoreOp) : Datastore := ops.foldl (fun ds op => op.run ds) {}

/-! ## Models -/

def NamedModels (models : Finmap (fun _ : String => InferenceModel)) : Prop :=
  ∀ name m, models.lookup name = some m → m.spec.modelName = name

section Models
variable {ds : Datastore}

theorem NamedModels.insert {models : Finmap (fun _ : String => InferenceModel)} (named : NamedModels models)
    (m : InferenceModel) : NamedModels (models.insert m.spec.modelName m) := by
  intro name stored found
  rw [lookup_insert_eq] at found
  split_ifs at found with same
  · cases found
    exact same.symm
  · exact named name stored found

theorem NamedModels.erase {models : Finmap (fun _ : String => InferenceModel)} (named : NamedModels models)
    (name : String) : NamedModels (models.erase name) := by
  intro other m found
  rw [lookup_erase_eq] at found
  split_ifs at found
  exact named other m found

/-- An operation on the models changes nothing else. -/
def RenewsModels (ds after : Datastore) : Prop := ∃ models, NamedModels models ∧ after = ds.withModels models

theorem renewsModels_modelSetIfOlder (named : NamedModels ds.models) (m : InferenceModel) :
    RenewsModels ds (ds.modelSetIfOlder m).2 := by
  by_cases keepsOut : ds.KeepsOut m
  · rw [modelSetIfOlder_of_keepsOut keepsOut]
    exact ⟨ds.models, named, rfl⟩
  · rw [modelSetIfOlder_of_not_keepsOut keepsOut]
    exact ⟨_, named.insert m, rfl⟩

theorem modelName_of_oldest {pool : InferencePool} {modelName : String} {items : List InferenceModel}
    {m : InferenceModel} (chosen : oldest pool modelName items = some m) : m.spec.modelName = modelName := by
  rw [oldest_eq_argmin] at chosen
  have considered := List.of_mem_filter (List.argmin_mem chosen)
  rw [candidate, decide_eq_true_eq] at considered
  exact considered.1

theorem renewsModels_modelResync (named : NamedModels ds.models) (client : Client) (modelName : String) :
    RenewsModels ds (((ds.modelResync client modelName).map Prod.snd).getD ds) := by
  cases synced : ds.pool with
  | none =>
      have panics : ds.modelResync client modelName = none := by simp [modelResync, synced]
      rw [panics]
      exact ⟨ds.models, named, rfl⟩
  | some pool =>
      cases listed : client.listInferenceModels modelName pool.ns with
      | error err =>
          obtain ⟨_, failed⟩ := modelResync_of_error ds client modelName synced listed
          rw [failed]
          exact ⟨ds.models, named, rfl⟩
      | ok items =>
          obtain ⟨_, resynced⟩ := modelResync_of_ok ds client modelName synced listed
          rw [resynced]
          refine ⟨_, ?_, rfl⟩
          cases chosen : oldest pool modelName items with
          | none => exact named
          | some m =>
              -- the list may hold anything, but the chosen object has the name
              have inserted := named.insert m
              rw [modelName_of_oldest chosen] at inserted
              exact inserted

theorem renewsModels_modelDelete (named : NamedModels ds.models) (order : List String) (key : NamespacedName) :
    RenewsModels ds (ds.modelDelete order key).2 := by
  rcases ds.modelDelete_visits order key with ⟨kept, -⟩ | ⟨name, -, m, -, -, deleted⟩
  · rw [kept]
    exact ⟨ds.models, named, rfl⟩
  · rw [deleted]
    exact ⟨_, named.erase m.spec.modelName, rfl⟩

theorem modelDelete_named (named : NamedModels ds.models) (order : List String) (key : NamespacedName) :
    ds.modelDelete order key = (none, ds) ∨
    ∃ name ∈ order, ∃ m, ds.models.lookup name = some m ∧ m.namespacedName = key ∧
      ds.modelDelete order key = (some m, ds.withModels (ds.models.erase name)) := by
  rcases ds.modelDelete_visits order key with ⟨kept, -⟩ | ⟨name, visited, m, stored, own, deleted⟩
  · exact .inl kept
  · rw [named name m stored] at deleted
    exact .inr ⟨name, visited, m, stored, own, deleted⟩

end Models

/-! ## Pods -/

/-- What `PodResyncAll` does at a key, after the keys it has visited. -/
theorem podResyncAll_visit {ds : Datastore} (keyed : ds.PodsKeyed) {client : Client} {pool : InferencePool}
    {items : List Pod} (listed : client.listPods pool.spec.selector pool.ns = .ok items)
    (visited : List NamespacedName) {key : NamespacedName} {pm : PodMetrics}
    (stored : (ds.podResyncAll client pool visited).pods.lookup key = some pm) :
    let before := ds.podResyncAll client pool visited
    ds.podResyncAll client pool (visited ++ [key]) =
      if pm.pod.namespacedName.name ∈ activePods items then before
      else { before with pods := before.pods.erase key, stopped := pm.ref :: before.stopped } := by
  intro before
  have own : pm.pod.namespacedName = key := by
    apply podStable_podsKeyed.podResyncAll client pool visited keyed key
    rw [podAt, stored, Option.map_some]
  have visit : ds.podResyncAll client pool (visited ++ [key]) = before.podDeleteInactive (activePods items) key := by
    simp only [before, podResyncAll, listed, List.foldl_append, List.foldl_cons, List.foldl_nil]
    rfl
  rw [visit, podDeleteInactive, stored]
  dsimp only
  rw [own, podDelete, stored]

/-! ## Runs -/

structure Keyed (ds : Datastore) : Prop where
  models : NamedModels ds.models
  pods : ds.PodsKeyed

theorem keyed_empty : Keyed {} := by
  constructor
  · intro name m found
    simp at found
  · intro key pod found
    simp [podAt] at found

theorem Keyed.renewsModels {ds after : Datastore} (keyed : ds.Keyed) (renews : RenewsModels ds after) :
    after.Keyed := by
  obtain ⟨models, named, rfl⟩ := renews
  exact ⟨named, keyed.pods⟩

theorem podStable_keyed : PodStable Keyed where
  podUpdate ds pod keyed := by
    refine ⟨?_, keyed.pods.podUpdate pod⟩
    rw [podBlind_models.podUpdate]
    exact keyed.models
  podDelete ds key keyed := by
    refine ⟨?_, keyed.pods.podDelete key⟩
    rw [podBlind_models.podDelete]
    exact keyed.models

theorem Keyed.op {ds : Datastore} (keyed : ds.Keyed) (op : StoreOp) : (op.run ds).Keyed := by
  cases op with
  | poolSet pool => exact ⟨keyed.models, keyed.pods⟩
  | modelSetIfOlder m => exact keyed.renewsModels (renewsModels_modelSetIfOlder keyed.models m)
  | modelResync client modelName => exact keyed.renewsModels (renewsModels_modelResync keyed.models client modelName)
  | modelDelete order key => exact keyed.renewsModels (renewsModels_modelDelete keyed.models order key)
  | pods op =>
      cases op with
      | podUpdateOrAddIfNotExist pod => exact podStable_keyed.podUpdate ds pod keyed
      | podDelete key => exact podStable_keyed.podDelete ds key keyed
      | podResyncAll client pool order => exact podStable_keyed.podResyncAll client pool order keyed
      | clear => exact ⟨keyed_empty.models, keyed_empty.pods⟩

theorem keyed_run (ops : List StoreOp) : (run ops).Keyed := by
  unfold run
  induction ops using List.reverseRecOn with
  | nil => exact keyed_empty
  | append_singleton ops op ih =>
      rw [List.foldl_append]
      exact ih.op op

theorem entries_stored_by_own_name (ops : List StoreOp) :
    (∀ name m, (run ops).models.lookup name = some m → m.spec.modelName = name) ∧
    (∀ key pm, (run ops).pods.lookup key = some pm → pm.pod.namespacedName = key) ∧
    (∀ order key, (run ops).modelDelete order key = (none, run ops) ∨
      ∃ name ∈ order, ∃ m, (run ops).models.lookup name = some m ∧ m.namespacedName = key ∧
        (run ops).modelDelete order key = (some m, (run ops).withModels ((run ops).models.erase name))) ∧
    ∀ (client : Client) (pool : InferencePool) (items : List Pod),
      client.listPods pool.spec.selector pool.ns = .ok items →
      ∀ (visited : List NamespacedName) (key : NamespacedName) (pm : PodMetrics),
        let before := (run ops).podResyncAll client pool visited
        before.pods.lookup key = some pm →
          (run ops).podResyncAll client pool (visited ++ [key]) =
            if pm.pod.namespacedName.name ∈ activePods items then before
            else { before with pods := before.pods.erase key, stopped := pm.ref :: before.stopped } := by
  have keyed := keyed_run ops
  refine ⟨keyed.models, fun key pm stored => ?_, modelDelete_named keyed.models, ?_⟩
  · apply keyed.pods key
    rw [podAt, stored, Option.map_some]
  · intro client pool items listed visited key pm before stored
    exact podResyncAll_visit keyed.pods listed visited stored

end InferenceGateway.Datastore
