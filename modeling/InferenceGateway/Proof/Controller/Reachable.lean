import InferenceGateway.Proof.Controller.Manager

/-!
The stores that reconciles lead to, whatever the API server answers and in whatever order the
reconciles run, as long as the InferenceModels pass the CRD's validation.
-/

namespace InferenceGateway
open Lib.Workqueue

structure Client.Admitted (client : Client) : Prop where
  get : ∀ key m, client.getInferenceModel key = .ok m → m.spec.Valid
  list : ∀ modelName ns items, client.listInferenceModels modelName ns = .ok items → ∀ m ∈ items, m.spec.Valid

inductive Reconcile : Datastore → Datastore → Prop
  | model {ds ds' : Datastore} (c : InferenceModelReconciler) {client : Client} (admitted : client.Admitted)
      {order : List String} (ranges : RangesOver order ds.models) (key : NamespacedName) {result : Except Err Unit}
      (done : c.reconcile client order key ds = some (result, ds')) : Reconcile ds ds'
  -- what ModelDelete removed before the panic stays removed
  | modelPanic {ds : Datastore} (c : InferenceModelReconciler) {client : Client} (admitted : client.Admitted)
      {order : List String} (ranges : RangesOver order ds.models) (key : NamespacedName)
      (panics : c.reconcile client order key ds = none) : Reconcile ds (ds.modelDelete order key).2
  | pod {ds ds' : Datastore} (client : Client) (key : NamespacedName) {result : Except Err Unit}
      (done : PodReconciler.reconcile client key ds = some (result, ds')) : Reconcile ds ds'
  | pool (ds : Datastore) (client : Client) (order : List NamespacedName) (key : NamespacedName) :
      Reconcile ds (InferencePoolReconciler.reconcile client order key ds).2

def Reachable (ds : Datastore) : Prop := Relation.ReflTransGen Reconcile {} ds

/-! ## Stored models are valid -/

def Datastore.ModelsValid (ds : Datastore) : Prop :=
  ∀ name m, ds.models.lookup name = some m → m.spec.Valid

section Valid
variable {ds ds' : Datastore}

theorem Datastore.ModelsValid.insert (valid : ds.ModelsValid) {m : InferenceModel} (new : m.spec.Valid)
    (name : String) : (ds.withModels (ds.models.insert name m)).ModelsValid := by
  intro name' m' found
  rw [withModels_models, lookup_insert_eq] at found
  split_ifs at found
  · cases found
    exact new
  · exact valid name' m' found

theorem Datastore.ModelsValid.modelDelete (valid : ds.ModelsValid) {order : List String}
    (ranges : RangesOver order ds.models) (key : NamespacedName) : (ds.modelDelete order key).2.ModelsValid := by
  rcases Datastore.modelDelete_cases ranges key with ⟨kept, _⟩ | ⟨_, entry, _, _, deleted⟩
  · rw [kept]
    exact valid
  · rw [deleted]
    intro name m found
    rw [withModels_models, lookup_erase_eq] at found
    split_ifs at found
    exact valid name m found

theorem Datastore.ModelsValid.modelSetIfOlder (valid : ds.ModelsValid) {m : InferenceModel} (new : m.spec.Valid) :
    (ds.modelSetIfOlder m).2.ModelsValid := by
  by_cases keepsOut : ds.KeepsOut m
  · rw [modelSetIfOlder_of_keepsOut keepsOut]
    exact valid
  · rw [modelSetIfOlder_of_not_keepsOut keepsOut]
    exact valid.insert new _

theorem Datastore.ModelsValid.modelResync (valid : ds.ModelsValid) {client : Client} (admitted : client.Admitted)
    {modelName : String} {result : Except Err Bool}
    (done : ds.modelResync client modelName = some (result, ds')) : ds'.ModelsValid := by
  cases synced : ds.pool with
  | none => simp [Datastore.modelResync, synced] at done
  | some pool =>
      cases listed : client.listInferenceModels modelName pool.ns with
      | error err =>
          obtain ⟨_, failed⟩ := modelResync_of_error ds client modelName synced listed
          rw [failed] at done
          cases done
          exact valid
      | ok items =>
          obtain ⟨updated, resynced⟩ := modelResync_of_ok ds client modelName synced listed
          rw [resynced] at done
          cases done
          cases chosen : oldest pool modelName items with
          | none => exact valid
          | some m =>
              rw [oldest_eq_argmin] at chosen
              have member := List.mem_of_mem_filter (List.argmin_mem chosen)
              exact valid.insert (admitted.list modelName pool.ns items listed m member) modelName

theorem Datastore.ModelsValid.handleModelDeleted (valid : ds.ModelsValid) {client : Client}
    (admitted : client.Admitted) {order : List String} (ranges : RangesOver order ds.models) {key : NamespacedName}
    {result : Except Err Unit}
    (done : InferenceModelReconciler.handleModelDeleted client order key ds = some (result, ds')) :
    ds'.ModelsValid := by
  have kept := valid.modelDelete ranges key
  unfold InferenceModelReconciler.handleModelDeleted at done
  cases deleted : ds.modelDelete order key with
  | mk existing after =>
      rw [deleted] at kept
      cases existing with
      | none =>
          simp only [deleted] at done
          cases done
          exact kept
      | some existing =>
          simp only [deleted, Option.bind_eq_bind, Option.bind_eq_some_iff] at done
          obtain ⟨⟨updated, resynced⟩, resync, done⟩ := done
          cases done
          exact kept.modelResync admitted resync

theorem Datastore.ModelsValid.reconcile (valid : ds.ModelsValid) (step : Reconcile ds ds') : ds'.ModelsValid := by
  cases step with
  | model c admitted ranges key done =>
      unfold InferenceModelReconciler.reconcile at done
      split at done
      · cases done
        exact valid
      · exact valid.handleModelDeleted admitted ranges done
      · rename_i infModel read
        split at done
        · exact valid.handleModelDeleted admitted ranges done
        · cases done
          exact valid.modelSetIfOlder (admitted.get key infModel read)
  | modelPanic c admitted ranges key => exact valid.modelDelete ranges key
  | pod client key done =>
      intro name m found
      rw [(podReconcile_keeps client done).2] at found
      exact valid name m found
  | pool client order key =>
      unfold InferencePoolReconciler.reconcile
      split
      · nofun
      · exact valid
      · split
        · nofun
        · intro name m found
          rw [(updateDatastore_keeps client order _).2] at found
          exact valid name m found

theorem Reachable.modelsValid (reachable : Reachable ds) : ds.ModelsValid := by
  induction reachable with
  | refl => nofun
  | tail _ step ih => exact ih.reconcile step

end Valid

/-! ## The runs of the manager -/

theorem admitted_client {first later : Cluster} (listing : Listing)
    (read : ∀ key m, first.models.lookup key = some m → m.spec.Valid)
    (lists : ∀ key m, later.models.lookup key = some m → m.spec.Valid) :
    (Cluster.client { models := first.models } { models := later.models } listing).Admitted where
  get key m found := by
    have got : InferenceGateway.get first.models key = .ok m := found
    apply read key
    cases stored : first.models.lookup key with
    | none =>
        simp only [InferenceGateway.get, stored] at got
        cases got
    | some m' =>
        simp only [InferenceGateway.get, stored] at got
        cases got
        rfl
  list modelName ns items found m member := by
    cases found
    obtain ⟨key, _, stored⟩ := List.mem_filterMap.mp (List.mem_of_mem_filter member)
    exact lists key m stored

theorem reachable_of_manager {pool : NamespacedName}
    {guard : ManagerRequest → State Cluster ManagerRequest Datastore → Prop}
    {s : State Cluster ManagerRequest Datastore}
    (run : Reaches (manager pool fun m => m.spec.Valid) guard ⟨{}, ∅, {}⟩ s) : Reachable s.store := by
  have kept := run.invariant
    (I := fun cluster _ ds => (∀ key m, cluster.models.lookup key = some m → m.spec.Valid) ∧ Reachable ds) ?_ ?_
    ⟨nofun, .refl⟩
  · exact kept.2
  · intro cluster requests cluster' pending ds change held
    refine ⟨?_, held.2⟩
    cases change with
    | model change admitted =>
        intro key m found
        cases admitted key m found with
        | inl before => exact held.1 key m before
        | inr admits => exact admits
    | pods change =>
        rw [change.models]
        exact held.1
    | requeue => exact held.1
  · intro request first later pending pending' ds ds' _ _ _ before after reconciled
    refine ⟨after.1, before.2.tail ?_⟩
    cases request with
    | model key =>
        obtain ⟨listing, order, _, ranges, rfl⟩ := reconciled
        have admitted := admitted_client listing before.1 after.1
        cases done : (InferenceModelReconciler.mk pool).reconcile
            (Cluster.client { models := first.models } { models := later.models } listing) order key ds with
        | none => exact .modelPanic _ admitted ranges key done
        | some result => exact .model _ admitted ranges key done
    | pods request =>
        cases request with
        | pod key =>
            obtain ⟨result, done⟩ := reconciled
            exact .pod _ key done
        | pool =>
            obtain ⟨listing, order, result, _, _, done⟩ := reconciled
            have moved := Reconcile.pool ds (first.client later listing) order pool
            rw [done] at moved
            exact moved

end InferenceGateway
