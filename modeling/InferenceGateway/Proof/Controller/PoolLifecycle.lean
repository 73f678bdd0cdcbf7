import InferenceGateway.Proof.Controller.Manager

/-!
The InferenceModels while the pool comes and goes. `Clear` empties the models with the pool, and
nothing but an event for an InferenceModel brings its entry back; an InferenceModel that is stored
while there is no pool cannot be removed without a panic.
-/

namespace InferenceGateway
open Lib.Workqueue InferenceModelReconciler

section Ready
variable {pool key : NamespacedName} {cluster : Cluster} {ds : Datastore}

theorem ready_iff : cluster.Ready pool key ds ↔
    (cluster.liveModels pool key = none → ds.pool = none →
      ∀ name ∈ ds.models.keys, ∀ m ∈ ds.models.lookup name, m.namespacedName ≠ key) := by
  constructor
  · intro ready gone noPool name _ m stored
    exact ready gone noPool name m stored
  · intro bounded gone noPool name m stored
    have member := Finmap.mem_keys.mpr (Finmap.mem_of_lookup_eq_some stored)
    exact bounded gone noPool name member m stored

instance (cluster : Cluster) (pool key : NamespacedName) (ds : Datastore) :
    Decidable (cluster.Ready pool key ds) :=
  decidable_of_iff _ ready_iff.symm

instance (cluster : Cluster) (pool : NamespacedName) : Decidable (cluster.PoolGone pool) :=
  inferInstanceAs (Decidable (∀ infPool ∈ cluster.pools.lookup pool, infPool.deletionTimestamp.isSome))

end Ready

/-! ## A pool that is deleted and created again -/

/-- A Reconcile of the pool that clears the datastore finds an event pending for every live
InferenceModel, and no Reconcile of an InferenceModel panics. -/
def Restorable (pool : NamespacedName) : ManagerRequest → State Cluster ManagerRequest Datastore → Prop
  | .model key, s => s.world.Ready pool key s.store
  | .pods (.pod _), _ => True
  | .pods .pool, s => s.world.PoolGone pool →
      ∀ key ∈ s.world.models.keys, (s.world.liveModels pool key).isSome → .model key ∈ s.pending

instance (pool : NamespacedName) (request : ManagerRequest) (s : State Cluster ManagerRequest Datastore) :
    Decidable (Restorable pool request s) :=
  match request with
  | .model key => inferInstanceAs (Decidable (s.world.Ready pool key s.store))
  | .pods (.pod _) => inferInstanceAs (Decidable True)
  | .pods .pool => inferInstanceAs (Decidable (s.world.PoolGone pool →
      ∀ key ∈ s.world.models.keys, (s.world.liveModels pool key).isSome → .model key ∈ s.pending))

structure Present (pool : NamespacedName) (cluster : Cluster) (pending : Finset ManagerRequest)
    (ds : Datastore) : Prop extends Consistent pool cluster pending ds where
  present : ∀ key m, cluster.liveModels pool key = some m → .model key ∉ pending →
    ∃ entry, ds.models.lookup m.spec.modelName = some entry

section Recreation
variable {pool : NamespacedName} {admits : InferenceModel → Prop} {cluster cluster' : Cluster}
  {pending pending' requests : Finset ManagerRequest} {ds ds' : Datastore} {request : ManagerRequest}

theorem Present.change (inv : Present pool cluster pending ds)
    (change : ManagerChange pool admits cluster requests cluster') :
    Present pool cluster' (pending ∪ requests) ds := by
  refine ⟨inv.toConsistent.change change, fun key m live settled => ?_⟩
  rw [Finset.mem_union, not_or] at settled
  have same : cluster'.liveModels pool key = cluster.liveModels pool key :=
    (managerView pool admits).event change settled.2
  exact inv.present key m (same.symm.trans live) settled.1

theorem Present.reconcile (inv : Present pool cluster pending ds) (enqueued : request ∈ pending)
    (guarded : Restorable pool request ⟨cluster, pending, ds⟩)
    (meanwhile : Changes (manager pool admits) cluster (pending.erase request) cluster' pending')
    (carried : Present pool cluster' (insert request pending') ds)
    (reconciled : (manager pool admits).reconcile request cluster cluster' ds ds') :
    Present pool cluster' pending' ds' := by
  refine ⟨inv.toConsistent.reconcile enqueued carried.toConsistent reconciled, fun key m live settled => ?_⟩
  have unchanged : cluster'.liveModels pool key = cluster.liveModels pool key :=
    (managerView pool admits).changes meanwhile settled
  cases request with
  | model reconciledKey =>
      obtain ⟨_, spec | ⟨unready, _⟩⟩ := manager_model_cases inv.stored (inv.watched reconciledKey enqueued)
        (inv.models reconciledKey) reconciled
      · apply spec.present live
        · intro same
          rw [← same, ← unchanged, live]
        · intro different
          exact carried.present key m live (by simp [different, settled])
      · exact absurd guarded unready
  | pods request =>
      have kept : ∃ entry, ds.models.lookup m.spec.modelName = some entry :=
        carried.present key m live (by simp [settled])
      rcases manager_pods_cases reconciled with ⟨_, same⟩ | ⟨rfl, gone, _, _⟩ | ⟨_, _, _, same⟩
      · rwa [same]
      · -- the event that was pending when the datastore was cleared is pending still
        have found := unchanged.symm.trans live
        have member : key ∈ cluster.models.keys :=
          Finmap.mem_keys.mpr (Finmap.mem_of_lookup_eq_some (liveAt_eq_some.mp found).1)
        have queued := guarded gone key member (by simp [found])
        exact absurd (meanwhile.subset (Finset.mem_erase.mpr ⟨by simp, queued⟩)) settled
      · rwa [same]

end Recreation

theorem models_restored_after_pool_recreation {pool : NamespacedName} {admits : InferenceModel → Prop}
    {s : State Cluster ManagerRequest Datastore}
    (run : Reaches (manager pool admits) (Restorable pool) ⟨{}, ∅, {}⟩ s) (quiet : s.pending = ∅)
    (key : NamespacedName) (m : InferenceModel) (live : s.world.liveModels pool key = some m) :
    ∃ entry, s.store.models.lookup m.spec.modelName = some entry := by
  have inv : Present pool s.world s.pending s.store := by
    apply run.invariant
    · intro w keys w' pending store change inv
      exact inv.change change
    · intro request w w' pending pending' store store' guarded enqueued meanwhile inv carried reconciled
      exact inv.reconcile enqueued guarded meanwhile carried reconciled
    · refine ⟨.start pool, ?_⟩
      intro key m live
      cases live
  exact inv.present key m live (by simp [quiet])

def testPoolKey : NamespacedName := ⟨"default", "pool"⟩

def recreationTrace (events : List ManagerAction) : List ManagerAction :=
  [.pods (.createPool testPool), .reconcilePool {} [], .model (.create (testModel "a" "llama" 1)),
    .reconcileModel (testKey "a") [testKey "a"] [], .deletePool] ++ events ++
    [.reconcilePool ⟨[testKey "a"], []⟩ [], .pods (.createPool testPool),
      .reconcilePool ⟨[testKey "a"], []⟩ []]

def restoredTrace : List ManagerAction :=
  recreationTrace [.requeue (.model (testKey "a"))] ++ [.reconcileModel (testKey "a") [testKey "a"] []]

theorem models_restored_with_pending_event :
    ∃ s, Reaches (manager testPoolKey fun _ => True) (Restorable testPoolKey) ⟨{}, ∅, {}⟩ s ∧
      s.pending = ∅ ∧ s.world.liveModels testPoolKey (testKey "a") = some (testModel "a" "llama" 1) ∧
      ∃ entry, s.store.models.lookup "llama" = some entry := by
  have run := reaches_performedManager testPoolKey (fun _ => True) (Restorable testPoolKey) ⟨{}, ∅, {}⟩
    restoredTrace (by decide +kernel)
  refine ⟨_, run, by decide +kernel, by decide +kernel, ?_⟩
  exact models_restored_after_pool_recreation run (by decide +kernel) (testKey "a") (testModel "a" "llama" 1)
    (by decide +kernel)

theorem pool_recreation_loses_models :
    ∃ s, Reaches (manager testPoolKey fun _ => True) Unguarded ⟨{}, ∅, {}⟩ s ∧ s.pending = ∅ ∧
      s.store.pool = some testPool ∧
      s.world.liveModels testPoolKey (testKey "a") = some (testModel "a" "llama" 1) ∧
      s.store.models.lookup "llama" = none :=
  ⟨_, reaches_performedManager testPoolKey (fun _ => True) Unguarded ⟨{}, ∅, {}⟩ (recreationTrace [])
    (by decide +kernel), by decide +kernel, by decide +kernel, by decide +kernel, by decide +kernel⟩

/-! ## Models that are stored before the pool -/

/-- The datastore in which `handleModelDeleted` calls `ModelResync`, if it does. -/
def modelResyncCall (order : List String) (req : NamespacedName) (ds : Datastore) : Option Datastore :=
  match ds.modelDelete order req with
  | (none, _) => none
  | (some _, rest) => some rest

theorem handleModelDeleted_eq_none {client : Client} {order : List String} {req : NamespacedName}
    {ds : Datastore} (panics : handleModelDeleted client order req ds = none) :
    ∃ rest, modelResyncCall order req ds = some rest ∧ rest.pool = none := by
  unfold handleModelDeleted at panics
  unfold modelResyncCall
  rcases deleted : ds.modelDelete order req with ⟨_ | existing, rest⟩
  · simp [deleted] at panics
  · refine ⟨rest, rfl, ?_⟩
    simp only [deleted, Option.bind_eq_bind, Option.bind_eq_none_iff] at panics
    by_contra pooled
    obtain ⟨infPool, pooled⟩ := Option.ne_none_iff_exists'.mp pooled
    cases listed : client.listInferenceModels existing.spec.modelName infPool.ns with
    | error err =>
        obtain ⟨err, failed⟩ := rest.modelResync_of_error client existing.spec.modelName pooled listed
        exact absurd (panics _ failed) (by simp)
    | ok items =>
        obtain ⟨updated, resynced⟩ := rest.modelResync_of_ok client existing.spec.modelName pooled listed
        exact absurd (panics _ resynced) (by simp)

theorem reconcile_eq_none {c : InferenceModelReconciler} {client : Client} {order : List String}
    {req : NamespacedName} {ds : Datastore} (panics : c.reconcile client order req ds = none) :
    ∃ rest, modelResyncCall order req ds = some rest ∧ rest.pool = none := by
  unfold InferenceModelReconciler.reconcile at panics
  cases read : client.getInferenceModel req with
  | error err =>
      cases err with
      | notFound msg =>
          simp only [read] at panics
          exact handleModelDeleted_eq_none panics
      | other msg => simp [read] at panics
  | ok infModel =>
      simp only [read] at panics
      split_ifs at panics
      exact handleModelDeleted_eq_none panics

/-- A Reconcile of a live InferenceModel finds the pool stored. -/
def PoolFirst (pool : NamespacedName) : ManagerRequest → State Cluster ManagerRequest Datastore → Prop
  | .model key, s => (s.world.liveModels pool key).isSome → s.store.pool.isSome
  | .pods _, _ => True

instance (pool : NamespacedName) (request : ManagerRequest) (s : State Cluster ManagerRequest Datastore) :
    Decidable (PoolFirst pool request s) :=
  match request with
  | .model key => inferInstanceAs (Decidable ((s.world.liveModels pool key).isSome → s.store.pool.isSome))
  | .pods _ => inferInstanceAs (Decidable True)

structure EmptyWithoutPool (pool : NamespacedName) (cluster : Cluster) (pending : Finset ManagerRequest)
    (ds : Datastore) : Prop extends Consistent pool cluster pending ds where
  empty : ds.pool = none → ds.models = ∅

section PoolFirst
variable {pool : NamespacedName} {admits : InferenceModel → Prop} {cluster cluster' : Cluster}
  {pending pending' : Finset ManagerRequest} {ds ds' : Datastore} {request : ManagerRequest}

theorem EmptyWithoutPool.reconcile (inv : EmptyWithoutPool pool cluster pending ds)
    (enqueued : request ∈ pending) (guarded : PoolFirst pool request ⟨cluster, pending, ds⟩)
    (carried : Consistent pool cluster' (insert request pending') ds)
    (reconciled : (manager pool admits).reconcile request cluster cluster' ds ds') :
    EmptyWithoutPool pool cluster' pending' ds' := by
  refine ⟨inv.toConsistent.reconcile enqueued carried reconciled, fun noPool => ?_⟩
  cases request with
  | model key =>
      obtain ⟨same, done⟩ := manager_model_cases inv.stored (inv.watched key enqueued) (inv.models key)
        reconciled
      rw [same] at noPool
      have empty := inv.empty noPool
      have gone : cluster.liveModels pool key = none := by
        cases live : cluster.liveModels pool key with
        | none => rfl
        | some m =>
            have pooled := guarded (by simp [live])
            simp [noPool] at pooled
      rcases done with spec | ⟨_, name, entry, stored, _⟩
      · -- only an InferenceModel that is live is stored, and there is no entry to remove
        rw [empty] at spec
        generalize ds'.models = models at spec ⊢
        cases spec with
        | keptOut _ _ found | set _ found => simp [gone] at found
        | absent => rfl
        | removed _ _ _ stored | replaced _ _ _ _ _ stored => cases stored
      · rw [empty] at stored
        cases stored
  | pods request =>
      rcases manager_pods_cases reconciled with ⟨same, models⟩ | ⟨_, _, _, models⟩ | ⟨_, _, pooled, _⟩
      · rw [models, inv.empty (same.symm.trans noPool)]
      · exact models
      · simp [noPool] at pooled

end PoolFirst

theorem modelResync_finds_pool {pool : NamespacedName} {admits : InferenceModel → Prop}
    {s : State Cluster ManagerRequest Datastore}
    (run : Reaches (manager pool admits) (PoolFirst pool) ⟨{}, ∅, {}⟩ s) (order : List String)
    (ranges : RangesOver order s.store.models) (key : NamespacedName) :
    (∀ rest, modelResyncCall order key s.store = some rest → rest.pool ≠ none) ∧
      ∀ client, (InferenceModelReconciler.mk pool).reconcile client order key s.store ≠ none := by
  have inv : EmptyWithoutPool pool s.world s.pending s.store := by
    apply run.invariant
    · intro w keys w' pending store change inv
      exact ⟨inv.toConsistent.change change, inv.empty⟩
    · intro request w w' pending pending' store store' guarded enqueued _ inv carried reconciled
      exact inv.reconcile enqueued guarded carried.toConsistent reconciled
    · exact ⟨.start pool, fun _ => rfl⟩
  have calls : ∀ rest, modelResyncCall order key s.store = some rest → rest.pool ≠ none := by
    intro rest call noPool
    unfold modelResyncCall at call
    rcases Datastore.modelDelete_cases ranges key with ⟨deleted, _⟩ | ⟨name, entry, stored, _, deleted⟩
    · simp [deleted] at call
    · rw [deleted] at call
      cases call
      rw [inv.empty noPool] at stored
      cases stored
  refine ⟨calls, fun client panics => ?_⟩
  obtain ⟨rest, call, noPool⟩ := reconcile_eq_none panics
  exact calls rest call noPool

def poolFirstTrace : List ManagerAction :=
  [.pods (.createPool testPool), .reconcilePool {} [], .model (.create (testModel "a" "llama" 1)),
    .reconcileModel (testKey "a") [testKey "a"] [], .model (.delete (testKey "a"))]

theorem modelResync_finds_pool_after_sync :
    ∃ s, Reaches (manager testPoolKey fun _ => True) (PoolFirst testPoolKey) ⟨{}, ∅, {}⟩ s ∧
      (modelResyncCall ["llama"] (testKey "a") s.store).isSome ∧
      (∀ rest, modelResyncCall ["llama"] (testKey "a") s.store = some rest → rest.pool ≠ none) ∧
      ∀ client, (InferenceModelReconciler.mk testPoolKey).reconcile client ["llama"] (testKey "a")
        s.store ≠ none := by
  have run := reaches_performedManager testPoolKey (fun _ => True) (PoolFirst testPoolKey) ⟨{}, ∅, {}⟩
    poolFirstTrace (by decide +kernel)
  exact ⟨_, run, by decide +kernel, modelResync_finds_pool run ["llama"] (by decide +kernel) (testKey "a")⟩

def modelFirstTrace : List ManagerAction :=
  [.model (.create (testModel "a" "llama" 1)), .reconcileModel (testKey "a") [testKey "a"] [],
    .model (.delete (testKey "a"))]

theorem model_deleted_before_pool_panics :
    ∃ s, Reaches (manager testPoolKey fun _ => True) Unguarded ⟨{}, ∅, {}⟩ s ∧
      .model (testKey "a") ∈ s.pending ∧ RangesOver ["llama"] s.store.models ∧
      (modelResyncCall ["llama"] (testKey "a") s.store).map Datastore.pool = some none ∧
      (InferenceModelReconciler.mk testPoolKey).reconcile (s.world.client s.world {}) ["llama"]
        (testKey "a") s.store = none := by
  have run := reaches_performedManager testPoolKey (fun _ => True) Unguarded ⟨{}, ∅, {}⟩ modelFirstTrace
    (by decide +kernel)
  refine ⟨_, run, by decide +kernel, by decide +kernel, by decide +kernel, ?_⟩
  rw [← Option.isNone_iff_eq_none]
  decide +kernel

end InferenceGateway
