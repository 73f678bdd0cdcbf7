import InferenceGateway.Proof.Controller.OldestWins
import InferenceGateway.Proof.Controller.PodConvergence

namespace InferenceGateway
open Lib.Workqueue InferenceModelReconciler

/-! ## What one reconcile does to the pool and the models -/

section Reconcilers
variable {pool : NamespacedName} {admits : InferenceModel → Prop} {first later : Cluster} {ds ds' : Datastore}

def Cluster.liveModels (cluster : Cluster) (pool : NamespacedName) : Live :=
  (InferenceModelReconciler.mk pool).liveAt { current := cluster.models }

/-- The pool's Reconcile would clear the datastore. -/
def Cluster.PoolGone (cluster : Cluster) (pool : NamespacedName) : Prop :=
  ∀ infPool ∈ cluster.pools.lookup pool, infPool.deletionTimestamp.isSome

def Cluster.Ready (cluster : Cluster) (pool key : NamespacedName) (ds : Datastore) : Prop :=
  (InferenceModelReconciler.mk pool).Ready { current := cluster.models } key ds

theorem podReconcile_keeps (client : Client) {key : NamespacedName} {result : Except Err Unit}
    (reconciled : PodReconciler.reconcile client key ds = some (result, ds')) :
    ds'.pool = ds.pool ∧ ds'.models = ds.models := by
  have deleted (key : NamespacedName) : (ds.podDelete key).pool = ds.pool ∧
      (ds.podDelete key).models = ds.models :=
    ⟨Datastore.podBlind_pool.podDelete ds key, Datastore.podBlind_models.podDelete ds key⟩
  unfold PodReconciler.reconcile at reconciled
  cases pooled : ds.poolGet with
  | error err =>
      rw [pooled] at reconciled
      cases reconciled
      exact ⟨rfl, rfl⟩
  | ok infPool =>
      simp only [pooled] at reconciled
      cases read : client.getPod key with
      | error err =>
          cases err with
          | notFound msg =>
              simp only [read] at reconciled
              cases reconciled
              exact deleted key
          | other msg =>
              simp only [read] at reconciled
              cases reconciled
              exact ⟨rfl, rfl⟩
      | ok pod =>
          simp only [read, Option.bind_eq_bind, Option.bind_eq_some_iff] at reconciled
          obtain ⟨updated, update, done⟩ := reconciled
          cases done
          unfold PodReconciler.updateDatastore at update
          split_ifs at update with marked
          · cases update
            exact deleted _
          · obtain ⟨labelsMatch, _, rest⟩ := Option.bind_eq_some_iff.mp update
            split_ifs at rest with dropped
            · cases rest
              exact deleted _
            · cases rest
              exact ⟨Datastore.podBlind_pool.podUpdate ds pod, Datastore.podBlind_models.podUpdate ds pod⟩

theorem updateDatastore_keeps (client : Client) (order : List NamespacedName) (infPool : InferencePool) :
    (InferencePoolReconciler.updateDatastore client order infPool ds).pool = some infPool ∧
      (InferencePoolReconciler.updateDatastore client order infPool ds).models = ds.models := by
  by_cases resyncs : ds.Resyncs infPool
  · rw [updateDatastore_of_resyncs client order resyncs]
    exact ⟨Datastore.podBlind_pool.podResyncAll .., Datastore.podBlind_models.podResyncAll ..⟩
  · simp only [Datastore.Resyncs, not_forall, not_not] at resyncs
    obtain ⟨old, pooled, same⟩ := resyncs
    rw [updateDatastore_of_same client order pooled same]
    exact ⟨rfl, rfl⟩

theorem manager_pods_cases {request : Request}
    (reconciled : (manager pool admits).reconcile (.pods request) first later ds ds') :
    (ds'.pool = ds.pool ∧ ds'.models = ds.models) ∨
    (request = .pool ∧ first.PoolGone pool ∧ ds'.pool = none ∧ ds'.models = ∅) ∨
    ∃ infPool, first.pools.lookup pool = some infPool ∧ ds'.pool = some infPool ∧ ds'.models = ds.models := by
  cases request with
  | pod key =>
      obtain ⟨result, done⟩ := reconciled
      exact .inl (podReconcile_keeps _ done)
  | pool =>
      obtain ⟨listing, order, result, _, _, done⟩ := reconciled
      cases found : first.pools.lookup pool with
      | none =>
          rw [poolReconcile_of_gone found] at done
          cases done
          exact .inr (.inl ⟨rfl, by simp [Cluster.PoolGone, found], rfl, rfl⟩)
      | some infPool =>
          by_cases marked : infPool.deletionTimestamp.isSome
          · rw [poolReconcile_of_marked found marked] at done
            cases done
            exact .inr (.inl ⟨rfl, by simp [Cluster.PoolGone, found, marked], rfl, rfl⟩)
          · rw [poolReconcile_of_unmarked found (by simpa using marked)] at done
            cases done
            exact .inr (.inr ⟨infPool, rfl, updateDatastore_keeps _ order infPool⟩)

theorem manager_model_cases {key : NamespacedName}
    (own : ∀ infPool, ds.pool = some infPool → infPool.namespacedName = pool)
    (inNamespace : key.ns = pool.ns) (kept : ∀ m, first.models.lookup key = some m → m.namespacedName = key)
    (reconciled : (manager pool admits).reconcile (.model key) first later ds ds') :
    ds'.pool = ds.pool ∧
      (Reconciled (first.liveModels pool) (later.liveModels pool) key ds.models ds'.models ∨
        ¬first.Ready pool key ds ∧ ∃ name entry, ds.models.lookup name = some entry ∧
          ds'.models = ds.models.erase entry.spec.modelName) := by
  obtain ⟨listing, order, lists, ranges, rfl⟩ := reconciled
  by_cases ready : first.Ready pool key ds
  · obtain ⟨models, refined, spec⟩ := reconcile_refines_of_ready { current := first.models }
      { current := later.models } own ready inNamespace kept lists ranges
    rw [refined]
    exact ⟨rfl, .inl spec⟩
  · -- ModelDelete finds an entry, and ModelResync dereferences the nil pool
    have unready := ready
    simp only [Cluster.Ready, InferenceModelReconciler.Ready, not_forall, not_not] at unready
    obtain ⟨gone, noPool, index, m, stored, own⟩ := unready
    subst own
    obtain ⟨name, entry, stored', _, deleted⟩ := Datastore.modelDelete_of_entry ds ranges stored
    have panics := reconcile_of_not_live { current := first.models } inNamespace kept gone
      { models := later.models } listing order ds
    simp only [handleModelDeleted, deleted, Datastore.modelResync, Datastore.withModels_pool, noPool,
      Option.bind_eq_bind, Option.bind_none] at panics
    rw [panics, deleted]
    exact ⟨rfl, .inr ⟨ready, name, entry, stored', rfl⟩⟩

end Reconcilers

/-! ## Runs -/

section Runs
variable {pool : NamespacedName} {admits : InferenceModel → Prop} {cluster cluster' : Cluster}
  {pending requests : Finset ManagerRequest} {ds : Datastore}

theorem PoolChange.models {requests : Finset Request} (change : PoolChange pool cluster requests cluster') :
    cluster'.models = cluster.models := by
  cases change <;> rfl

theorem PoolChange.ownPool {requests : Finset Request} (change : PoolChange pool cluster requests cluster')
    (own : ∀ infPool, cluster.pools.lookup pool = some infPool → infPool.namespacedName = pool)
    (infPool : InferencePool) (found : cluster'.pools.lookup pool = some infPool) :
    infPool.namespacedName = pool := by
  cases change with
  | createPod | updatePod | deletePod => exact own infPool found
  | createPool new absent new_own | updatePool old new present new_own =>
      rw [Finmap.lookup_insert, Option.some.injEq] at found
      exact found ▸ new_own
  | deletePool old present =>
      rw [Finmap.lookup_erase] at found
      cases found

def managerView (pool : NamespacedName) (admits : InferenceModel → Prop) :
    View (manager pool admits) (Option InferenceModel) where
  see
    | cluster, .model key => cluster.liveModels pool key
    | _, .pods _ => none
  event := by
    intro cluster requests cluster' request change settled
    cases request with
    | pods request => rfl
    | model key =>
        cases change with
        | model change admitted =>
            have silent := ((InferenceModelReconciler.mk pool).liveView fun _ _ => True).event change
              fun member => settled (Finset.mem_image_of_mem _ member)
            exact silent
        | pods change => simp only [Cluster.liveModels, change.models]
        | requeue => rfl

structure Consistent (pool : NamespacedName) (cluster : Cluster) (pending : Finset ManagerRequest)
    (ds : Datastore) : Prop where
  models : ∀ key m, cluster.models.lookup key = some m → m.namespacedName = key
  pools : ∀ infPool, cluster.pools.lookup pool = some infPool → infPool.namespacedName = pool
  stored : ∀ infPool, ds.pool = some infPool → infPool.namespacedName = pool
  watched : ∀ key, .model key ∈ pending → key.ns = pool.ns

theorem Consistent.start (pool : NamespacedName) : Consistent pool {} ∅ {} where
  models _ _ found := by cases found
  pools _ found := by cases found
  stored _ found := by cases found
  watched _ member := by cases member

theorem Consistent.change (consistent : Consistent pool cluster pending ds)
    (change : ManagerChange pool admits cluster requests cluster') :
    Consistent pool cluster' (pending ∪ requests) ds := by
  have before (key : NamespacedName) (member : ManagerRequest.model key ∈ pending) : key.ns = pool.ns :=
    consistent.watched key member
  cases change with
  | model change admitted =>
      have kept : ((InferenceModelReconciler.mk pool).watch fun _ _ => True).Kept
          ⟨cluster.models, cluster.models⟩ :=
        fun key m found => ⟨consistent.models key m found, found⟩
      refine ⟨fun key m found => (change.kept kept key m found).1, consistent.pools, consistent.stored, ?_⟩
      intro key member
      rcases Finset.mem_union.mp member with member | member
      · exact before key member
      · obtain ⟨key', queued, same⟩ := Finset.mem_image.mp member
        obtain rfl := ManagerRequest.model.inj same
        exact watched_of_change change kept queued
  | pods change =>
      refine ⟨?_, change.ownPool consistent.pools, consistent.stored, ?_⟩
      · rw [change.models]
        exact consistent.models
      · intro key member
        apply before
        simpa using member
  | requeue request watched =>
      refine ⟨consistent.models, consistent.pools, consistent.stored, ?_⟩
      intro key member
      rcases Finset.mem_union.mp member with member | member
      · exact before key member
      · exact watched key (Finset.mem_singleton.mp member).symm

theorem Consistent.reconcile {pending' : Finset ManagerRequest} {ds' : Datastore} {request : ManagerRequest}
    (consistent : Consistent pool cluster pending ds) (enqueued : request ∈ pending)
    (carried : Consistent pool cluster' (insert request pending') ds)
    (reconciled : (manager pool admits).reconcile request cluster cluster' ds ds') :
    Consistent pool cluster' pending' ds' := by
  refine ⟨carried.models, carried.pools, ?_, fun key member =>
    carried.watched key (Finset.mem_insert_of_mem member)⟩
  intro infPool found
  cases request with
  | model key =>
      obtain ⟨same, _⟩ := manager_model_cases consistent.stored (consistent.watched key enqueued)
        (consistent.models key) reconciled
      exact consistent.stored infPool (same.symm.trans found)
  | pods request =>
      rcases manager_pods_cases reconciled with ⟨same, _⟩ | ⟨_, _, cleared, _⟩ | ⟨read, present, stored, _⟩
      · exact consistent.stored infPool (same.symm.trans found)
      · rw [cleared] at found
        cases found
      · rw [stored, Option.some.injEq] at found
        exact found ▸ consistent.pools read present

end Runs

/-! ## Evaluating runs -/

section Evaluation
variable (pool : NamespacedName) (admits : InferenceModel → Prop) [DecidablePred admits]
  (guard : ManagerRequest → State Cluster ManagerRequest Datastore → Prop)
  [∀ request s, Decidable (guard request s)] (s : State Cluster ManagerRequest Datastore)

inductive ManagerAction
  | model (change : Action)
  | pods (change : PoolAction)
  | deletePool
  | requeue (request : ManagerRequest)
  | reconcileModel (key : NamespacedName) (listing : List NamespacedName) (order : List String)
  | reconcilePod (key : NamespacedName)
  | reconcilePool (listing : Listing) (order : List NamespacedName)

def performManager : ManagerAction → Option (State Cluster ManagerRequest Datastore)
  -- with an empty queue the evaluators of the single controllers perform changes only
  | .model change =>
    (perform ⟨pool⟩ (fun _ _ => True) Unguarded ⟨⟨s.world.models, s.world.models⟩, ∅, s.store⟩ change).bind
      fun changed =>
        if ∀ key ∈ changed.world.current.keys, ∀ m ∈ changed.world.current.lookup key, admits m then
          some ⟨{ s.world with models := changed.world.current },
            s.pending ∪ changed.pending.image .model, s.store⟩
        else none
  | .pods change =>
    (performPool pool Unguarded ⟨s.world, ∅, s.store⟩ change).map fun changed =>
      ⟨changed.world, s.pending ∪ changed.pending.image .pods, s.store⟩
  | .deletePool =>
    (s.world.pools.lookup pool).map fun _ =>
      ⟨{ s.world with pools := s.world.pools.erase pool }, s.pending ∪ {.pods .pool}, s.store⟩
  | .requeue (.model key) =>
    if key.ns = pool.ns then some ⟨s.world, s.pending ∪ {.model key}, s.store⟩ else none
  | .requeue (.pods request) => some ⟨s.world, s.pending ∪ {.pods request}, s.store⟩
  | .reconcileModel key listing order =>
    if .model key ∈ s.pending ∧ guard (.model key) s ∧ RangesOver listing s.world.models ∧
        RangesOver order s.store.models then
      some ⟨s.world, s.pending.erase (.model key),
        match (InferenceModelReconciler.mk pool).reconcile
            (Cluster.client { models := s.world.models } { models := s.world.models } ⟨listing, []⟩) order key
            s.store with
        | some (_, ds) => ds
        | none => (s.store.modelDelete order key).2⟩
    else none
  | .reconcilePod key =>
    if .pods (.pod key) ∈ s.pending ∧ guard (.pods (.pod key)) s then
      (PodReconciler.reconcile (s.world.client s.world {}) key s.store).map fun result =>
        ⟨s.world, s.pending.erase (.pods (.pod key)), result.2⟩
    else none
  | .reconcilePool listing order =>
    if .pods .pool ∈ s.pending ∧ guard (.pods .pool) s ∧ RangesOver listing.models s.world.models ∧
        RangesOver listing.pods s.world.pods ∧ ∀ infPool ∈ s.world.pools.lookup pool,
          RangesOver order ((s.store.poolSet infPool).podAddReady (s.world.listed listing infPool)).pods then
      some ⟨s.world, s.pending.erase (.pods .pool),
        (InferencePoolReconciler.reconcile (s.world.client s.world listing) order pool s.store).2⟩
    else none

variable {pool admits guard s}

theorem performManager_step {action : ManagerAction} {s' : State Cluster ManagerRequest Datastore}
    (performed : performManager pool admits guard s action = some s') :
    Step (manager pool admits) guard s s' := by
  cases action with
  | model change =>
      obtain ⟨changed, single, rest⟩ := Option.bind_eq_some_iff.mp performed
      obtain ⟨admitted, done⟩ := Option.ite_none_right_eq_some.mp rest
      cases done
      cases perform_step single with
      | change change =>
          rw [Finset.empty_union]
          refine .change (.model change fun key m found => .inr (admitted key ?_ m found))
          exact Finmap.mem_keys.mpr (Finmap.mem_of_lookup_eq_some found)
      | reconcile key enqueued => cases enqueued
  | pods change =>
      obtain ⟨changed, single, rfl⟩ := Option.map_eq_some_iff.mp performed
      cases performPool_step single with
      | change change =>
          rw [Finset.empty_union]
          exact .change (.pods change)
      | reconcile request enqueued => cases enqueued
  | deletePool =>
      obtain ⟨old, present, rfl⟩ := Option.map_eq_some_iff.mp performed
      exact .change (.pods (.deletePool old present))
  | requeue request =>
      cases request with
      | model key =>
          obtain ⟨inNamespace, done⟩ := Option.ite_none_right_eq_some.mp performed
          cases done
          refine .change (.requeue (.model key) ?_)
          rintro _ ⟨⟩
          exact inNamespace
      | pods request =>
          cases performed
          refine .change (.requeue (.pods request) ?_)
          rintro _ ⟨⟩
  | reconcileModel key listing order =>
      obtain ⟨⟨enqueued, guarded, lists, ranges⟩, done⟩ := Option.ite_none_right_eq_some.mp performed
      cases done
      exact .reconcile (ManagerRequest.model key) enqueued guarded .refl ⟨⟨listing, []⟩, order,
        ⟨lists, List.nodup_nil, fun _ => iff_of_false List.not_mem_nil Finmap.notMem_empty⟩, ranges, rfl⟩
  | reconcilePod key =>
      obtain ⟨⟨enqueued, guarded⟩, reconciled⟩ := Option.ite_none_right_eq_some.mp performed
      obtain ⟨⟨result, ds⟩, done, rfl⟩ := Option.map_eq_some_iff.mp reconciled
      exact .reconcile (ManagerRequest.pods (.pod key)) enqueued guarded .refl ⟨result, done⟩
  | reconcilePool listing order =>
      obtain ⟨⟨enqueued, guarded, models, pods, ranges⟩, done⟩ := Option.ite_none_right_eq_some.mp performed
      cases done
      exact .reconcile (ManagerRequest.pods .pool) enqueued guarded .refl
        ⟨listing, order, _, ⟨models, pods⟩, ranges, rfl⟩

variable (pool admits guard s)

theorem reaches_performedManager (actions : List ManagerAction)
    (returns : (actions.foldlM (performManager pool admits guard) s).isSome) :
    Reaches (manager pool admits) guard s
      ((actions.foldlM (performManager pool admits guard) s).get returns) :=
  reaches_of_foldlM (Step (manager pool admits) guard) (fun _ _ _ => performManager_step) (Option.some_get returns).symm

end Evaluation

end InferenceGateway
