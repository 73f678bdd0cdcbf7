import InferenceGateway.Proof.Controller.Pods

namespace InferenceGateway
open Lib.Workqueue

/-! ## Convergence -/

/-- When nothing is pending, the stored pods are the eligible ones, in every run in which each resync
finds an event pending for the terminating pods that it takes. -/
theorem pods_converge (pool : NamespacedName) (s : State Cluster Request Datastore)
    (run : Reaches (poolController pool)
      (fun request s => request = .pool → TerminatingPending pool s.world s.pending s.store) ⟨{}, ∅, {}⟩ s)
    (quiet : s.pending = ∅) (infPool : InferencePool) (found : s.world.pools.lookup pool = some infPool)
    (unmarked : infPool.deletionTimestamp = none) (key : NamespacedName) :
    s.store.podAt key = eligibleAt s.world infPool.spec.selector key := by
  have inv := Reaches.invariant (I := PodsInv pool) (fun change inv => inv.change change) ?_ run
    (PodsInv.start pool)
  · apply inv.current infPool ?_ key (by simp [quiet])
    rw [inv.synced (by simp [quiet]), found, Option.filter_some, unmarked]
    rfl
  · intro request cluster cluster' pending pending' ds ds' guarded enqueued meanwhile _ carried reconciled
    cases request with
    | pod key =>
        obtain ⟨rfl, result, done⟩ := reconciled
        exact carried.podReconcile done
    | pool =>
        obtain ⟨rfl, listing, order, result, lists, ranges, done⟩ := reconciled
        refine carried.poolReconcile lists ranges ?_ done
        intro infPool found unmarked resyncs key pod present taken marked
        have waiting := guarded rfl infPool found unmarked resyncs key pod present taken marked
        exact meanwhile.subset (Finset.mem_erase.mpr ⟨by simp, waiting⟩)

section Evaluation
variable (pool : NamespacedName) (guard : Request → State Cluster Request Datastore → Prop)
  [∀ request s, Decidable (guard request s)] (s : State Cluster Request Datastore)

inductive PoolAction
  | createPod (new : Pod)
  | updatePod (new : Pod)
  | createPool (new : InferencePool)
  | reconcilePod (key : NamespacedName)
  | reconcilePool (listing : Listing) (order : List NamespacedName)

def performPool : PoolAction → Option (State Cluster Request Datastore)
  | .createPod new =>
    if s.world.pods.lookup new.namespacedName = none ∧ new.ns = pool.ns ∧ new.deletionTimestamp = none then
      some ⟨{ s.world with pods := s.world.pods.insert new.namespacedName new },
        s.pending ∪ {.pod new.namespacedName}, s.store⟩
    else none
  | .updatePod new =>
    (s.world.pods.lookup new.namespacedName).bind fun old =>
      if old.deletionTimestamp.isSome → new.deletionTimestamp.isSome then
        some ⟨{ s.world with pods := s.world.pods.insert new.namespacedName new },
          s.pending ∪ {.pod new.namespacedName}, s.store⟩
      else none
  | .createPool new =>
    if s.world.pools.lookup pool = none ∧ new.namespacedName = pool ∧ new.deletionTimestamp = none then
      some ⟨{ s.world with pools := s.world.pools.insert pool new }, s.pending ∪ {.pool}, s.store⟩
    else none
  | .reconcilePod key =>
    if .pod key ∈ s.pending ∧ guard (.pod key) s then
      (PodReconciler.reconcile (s.world.client s.world {}) key s.store).map fun result =>
        ⟨s.world, s.pending.erase (.pod key), result.2⟩
    else none
  | .reconcilePool listing order =>
    if .pool ∈ s.pending ∧ guard .pool s ∧ RangesOver listing.models s.world.models ∧
        RangesOver listing.pods s.world.pods ∧ ∀ infPool ∈ s.world.pools.lookup pool,
          RangesOver order ((s.store.poolSet infPool).podAddReady (s.world.listed listing infPool)).pods then
      some ⟨s.world, s.pending.erase .pool,
        (InferencePoolReconciler.reconcile (s.world.client s.world listing) order pool s.store).2⟩
    else none

variable {pool guard s}

theorem performPool_step {action : PoolAction} {s' : State Cluster Request Datastore}
    (performed : performPool pool guard s action = some s') : Step (poolController pool) guard s s' := by
  cases action with
  | createPod new =>
      obtain ⟨⟨absent, inNamespace, unmarked⟩, created⟩ := Option.ite_none_right_eq_some.mp performed
      cases created
      exact .change (.createPod new absent inNamespace unmarked)
  | updatePod new =>
      obtain ⟨old, present, updated⟩ := Option.bind_eq_some_iff.mp performed
      obtain ⟨marks, updated⟩ := Option.ite_none_right_eq_some.mp updated
      cases updated
      exact .change (.updatePod old new present marks)
  | createPool new =>
      obtain ⟨⟨absent, own, unmarked⟩, created⟩ := Option.ite_none_right_eq_some.mp performed
      cases created
      exact .change (.createPool new absent own unmarked)
  | reconcilePod key =>
      obtain ⟨⟨enqueued, guarded⟩, reconciled⟩ := Option.ite_none_right_eq_some.mp performed
      obtain ⟨⟨result, ds⟩, done, rfl⟩ := Option.map_eq_some_iff.mp reconciled
      exact .reconcile (Request.pod key) enqueued guarded .refl ⟨rfl, result, done⟩
  | reconcilePool listing order =>
      obtain ⟨⟨enqueued, guarded, models, pods, ranges⟩, reconciled⟩ :=
        Option.ite_none_right_eq_some.mp performed
      cases reconciled
      exact .reconcile Request.pool enqueued guarded .refl ⟨rfl, listing, order, _, ⟨models, pods⟩, ranges, rfl⟩

variable (pool guard s)

theorem reaches_performedPool (actions : List PoolAction)
    (returns : (actions.foldlM (performPool pool guard) s).isSome) :
    Reaches (poolController pool) guard s ((actions.foldlM (performPool pool guard) s).get returns) :=
  reaches_of_foldlM (Step (poolController pool) guard) (fun _ _ _ => performPool_step) (Option.some_get returns).symm

end Evaluation

def vllmLabels : Labels := (∅ : Labels).insert "app" "vllm"

def vllmPool : InferencePool := { testPool with spec := ⟨vllmLabels, 8000⟩ }

def vllmPod (deletionTimestamp : Option Int) : Pod :=
  { testPod "default" "vllm-0" "10.0.0.1" with labels := vllmLabels, deletionTimestamp := deletionTimestamp }

theorem terminatingPending_iff {pool : NamespacedName} {cluster : Cluster} {pending : Finset Request}
    {ds : Datastore} :
    TerminatingPending pool cluster pending ds ↔
      ∀ infPool ∈ cluster.pools.lookup pool, infPool.deletionTimestamp = none →
        (∀ old ∈ ds.pool, infPool.spec.selector ≠ old.spec.selector) →
        ∀ key ∈ cluster.pods.keys, ∀ pod ∈ cluster.pods.lookup key,
          resyncable infPool.spec.selector pod = true → pod.deletionTimestamp.isSome → .pod key ∈ pending := by
  constructor
  · intro waiting infPool found unmarked resyncs key _ pod present taken marked
    exact waiting infPool found unmarked resyncs key pod present taken marked
  · intro bounded infPool found unmarked resyncs key pod present taken marked
    have member := Finmap.mem_keys.mpr (Finmap.mem_of_lookup_eq_some present)
    exact bounded infPool found unmarked resyncs key member pod present taken marked

instance (pool : NamespacedName) (cluster : Cluster) (pending : Finset Request) (ds : Datastore) :
    Decidable (TerminatingPending pool cluster pending ds) :=
  decidable_of_iff _ terminatingPending_iff.symm

def firstSyncTrace : List PoolAction :=
  [.createPod (vllmPod none), .reconcilePod ⟨"default", "vllm-0"⟩, .createPool vllmPool,
    .reconcilePool ⟨[], [⟨"default", "vllm-0"⟩]⟩ [⟨"default", "vllm-0"⟩]]

theorem pods_converge_on_first_sync :
    ∃ s, Reaches (poolController ⟨"default", "pool"⟩) (fun request s => request = .pool →
        TerminatingPending ⟨"default", "pool"⟩ s.world s.pending s.store) ⟨{}, ∅, {}⟩ s ∧ s.pending = ∅ ∧
      s.store.podAt ⟨"default", "vllm-0"⟩ = some ⟨⟨"default", "vllm-0"⟩, "10.0.0.1"⟩ ∧
      ∀ key, s.store.podAt key = eligibleAt s.world vllmLabels key := by
  have run := reaches_performedPool ⟨"default", "pool"⟩ (fun request s => request = .pool →
    TerminatingPending ⟨"default", "pool"⟩ s.world s.pending s.store) ⟨{}, ∅, {}⟩ firstSyncTrace
    (by decide +kernel)
  exact ⟨_, run, by decide +kernel, by decide +kernel,
    pods_converge _ _ run (by decide +kernel) vllmPool (by decide +kernel) rfl⟩

-- the event of the mark is dropped before the first sync
def terminatingTrace : List PoolAction :=
  [.createPod (vllmPod none), .updatePod (vllmPod (some 1)), .reconcilePod ⟨"default", "vllm-0"⟩,
    .createPool vllmPool, .reconcilePool ⟨[], [⟨"default", "vllm-0"⟩]⟩ [⟨"default", "vllm-0"⟩]]

theorem resync_takes_terminating_pod :
    ∃ s, Reaches (poolController ⟨"default", "pool"⟩) Unguarded ⟨{}, ∅, {}⟩ s ∧ s.pending = ∅ ∧
      s.world.pools.lookup ⟨"default", "pool"⟩ = some vllmPool ∧
      s.world.pods.lookup ⟨"default", "vllm-0"⟩ = some (vllmPod (some 1)) ∧
      s.store.podAt ⟨"default", "vllm-0"⟩ = some ⟨⟨"default", "vllm-0"⟩, "10.0.0.1"⟩ ∧
      eligibleAt s.world vllmLabels ⟨"default", "vllm-0"⟩ = none := by
  have run := reaches_performedPool ⟨"default", "pool"⟩ Unguarded ⟨{}, ∅, {}⟩ terminatingTrace
    (by decide +kernel)
  exact ⟨_, run, by decide +kernel, by decide +kernel, by decide +kernel, by decide +kernel, by decide +kernel⟩

/-! ## A failing List -/

def Client.failingPods (client : Client) (err : ApiError) : Client :=
  { client with listPods := fun _ _ => .error err }

/-- A Reconcile of the pool whose pod `List` fails returns an error, or the next Reconcile leaves
the pods that one with a working `List` would have left. -/
def ResyncRecovers (pool : NamespacedName) (cluster : Cluster) (infPool : InferencePool)
    (ds : Datastore) : Prop :=
  ∀ (listing : Listing) (err : ApiError) (order order' order'' : List NamespacedName)
    (result : Except Err Unit) (failed : Datastore), listing.Of cluster →
    RangesOver order' ((failed.poolSet infPool).podAddReady (cluster.listed listing infPool)).pods →
    RangesOver order'' ((ds.poolSet infPool).podAddReady (cluster.listed listing infPool)).pods →
    InferencePoolReconciler.reconcile ((cluster.client cluster listing).failingPods err) order pool ds =
      (result, failed) →
    (∃ e, result = .error e) ∨ ∀ key,
      (InferencePoolReconciler.reconcile (cluster.client cluster listing) order' pool failed).2.podAt key =
        (InferencePoolReconciler.reconcile (cluster.client cluster listing) order'' pool ds).2.podAt key

section Failing
variable {pool : NamespacedName} {cluster : Cluster} {infPool : InferencePool} {ds : Datastore}
  {listing : Listing} {order order' : List NamespacedName}

theorem poolReconcile_failing (found : cluster.pools.lookup pool = some infPool)
    (unmarked : infPool.deletionTimestamp = none) (resyncs : ds.Resyncs infPool) (err : ApiError) :
    InferencePoolReconciler.reconcile ((cluster.client cluster listing).failingPods err) order pool ds =
      (.ok (), ds.poolSet infPool) := by
  simp only [InferencePoolReconciler.reconcile, Client.failingPods, Cluster.client, get, found, unmarked,
    Option.isSome_none, Bool.false_eq_true, if_false]
  rw [updateDatastore_of_resyncs _ _ resyncs]
  rfl

theorem poolReconcile_retry (found : cluster.pools.lookup pool = some infPool)
    (unmarked : infPool.deletionTimestamp = none) :
    (InferencePoolReconciler.reconcile (cluster.client cluster listing) order pool
      (ds.poolSet infPool)).2 = ds.poolSet infPool := by
  rw [poolReconcile_of_unmarked found unmarked, updateDatastore_of_same _ _ rfl rfl]
  rfl

theorem mem_activePods (lists : listing.Of cluster) (name : String) :
    name ∈ Datastore.activePods (cluster.listed listing infPool) ↔
      ∃ at_ pod, cluster.pods.lookup at_ = some pod ∧ resyncable infPool.spec.selector pod = true ∧
        pod.ns = infPool.ns ∧ pod.name = name := by
  simp only [Datastore.activePods, List.mem_map, List.mem_filter, mem_listed lists, resyncable,
    Bool.and_eq_true]
  constructor
  · rintro ⟨pod, ⟨⟨⟨at_, found⟩, matched, ns⟩, ready⟩, named⟩
    exact ⟨at_, pod, found, ⟨ready, matched⟩, ns, named⟩
  · rintro ⟨at_, pod, found, ⟨ready, matched⟩, ns, named⟩
    exact ⟨pod, ⟨⟨⟨at_, found⟩, matched, ns⟩, ready⟩, named⟩

theorem resync_unchanged_iff (lists : listing.Of cluster)
    (own : ∀ at_ pod, cluster.pods.lookup at_ = some pod → pod.namespacedName = at_) :
    (∀ key, ds.podAt key =
      if key.name ∈ Datastore.activePods (cluster.listed listing infPool) then
        ((Datastore.lastReady (cluster.listed listing infPool) key).map toInternalPod).or (ds.podAt key)
      else none) ↔
    (∀ at_ pod, cluster.pods.lookup at_ = some pod → resyncable infPool.spec.selector pod = true →
      pod.ns = infPool.ns → ds.podAt at_ = some (toInternalPod pod)) ∧
    ∀ key backend, ds.podAt key = some backend →
      ∃ at_ pod, cluster.pods.lookup at_ = some pod ∧ resyncable infPool.spec.selector pod = true ∧
        pod.ns = infPool.ns ∧ pod.name = key.name := by
  constructor
  · intro unchanged
    constructor
    · intro at_ pod present taken ns
      have active := (mem_activePods lists at_.name).mpr
        ⟨at_, pod, present, taken, ns, congrArg NamespacedName.name (own at_ pod present)⟩
      rw [unchanged at_, if_pos active, (lastReady_listed lists own).mpr ⟨present, taken, ns⟩]
      rfl
    · intro key backend stored
      rw [unchanged key] at stored
      split_ifs at stored with active
      exact (mem_activePods lists key.name).mp active
  · rintro ⟨complete, nothingElse⟩ key
    split_ifs with active
    · cases last : Datastore.lastReady (cluster.listed listing infPool) key with
      | none => rfl
      | some pod =>
          obtain ⟨present, taken, ns⟩ := (lastReady_listed lists own).mp last
          exact complete key pod present taken ns
    · cases stored : ds.podAt key with
      | none => rfl
      | some backend =>
          exact absurd ((mem_activePods lists key.name).mpr (nothingElse key backend stored)) active

end Failing

/-- The resync is not lost exactly if it would have changed nothing: the store has every listed
ready pod with its address, and every stored pod has the name of one of them. -/
theorem resync_recovers_iff (pool : NamespacedName) (cluster : Cluster) (infPool : InferencePool)
    (ds : Datastore) (found : cluster.pools.lookup pool = some infPool)
    (unmarked : infPool.deletionTimestamp = none) (resyncs : ds.Resyncs infPool)
    (own : ∀ at_ pod, cluster.pods.lookup at_ = some pod → pod.namespacedName = at_)
    (keyed : ds.PodsKeyed) :
    ResyncRecovers pool cluster infPool ds ↔
      (∀ at_ pod, cluster.pods.lookup at_ = some pod → resyncable infPool.spec.selector pod = true →
        pod.ns = infPool.ns → ds.podAt at_ = some (toInternalPod pod)) ∧
      ∀ key backend, ds.podAt key = some backend →
        ∃ at_ pod, cluster.pods.lookup at_ = some pod ∧ resyncable infPool.spec.selector pod = true ∧
          pod.ns = infPool.ns ∧ pod.name = key.name := by
  have atOnce (listing : Listing) (order : List NamespacedName)
      (ranges : RangesOver order ((ds.poolSet infPool).podAddReady (cluster.listed listing infPool)).pods)
      (key : NamespacedName) :
      (InferencePoolReconciler.reconcile (cluster.client cluster listing) order pool ds).2.podAt key =
        if key.name ∈ Datastore.activePods (cluster.listed listing infPool) then
          ((Datastore.lastReady (cluster.listed listing infPool) key).map toInternalPod).or (ds.podAt key)
        else none := by
    rw [poolReconcile_of_unmarked found unmarked, updateDatastore_of_resyncs _ _ resyncs]
    have keyed : (ds.poolSet infPool).PodsKeyed := keyed
    exact Datastore.podResyncAll_podAt keyed rfl ranges key
  constructor
  · intro recovers
    obtain ⟨models, listsModels⟩ := exists_rangesOver cluster.models
    obtain ⟨pods, listsPods⟩ := exists_rangesOver cluster.pods
    have lists : Listing.Of ⟨models, pods⟩ cluster := ⟨listsModels, listsPods⟩
    obtain ⟨order, ranges⟩ := exists_rangesOver
      ((ds.poolSet infPool).podAddReady (cluster.listed ⟨models, pods⟩ infPool)).pods
    apply (resync_unchanged_iff lists own).mp
    intro key
    rcases recovers ⟨models, pods⟩ (.other "") order order order (.ok ()) (ds.poolSet infPool) lists
      ranges ranges (poolReconcile_failing found unmarked resyncs _) with ⟨e, impossible⟩ | same
    · cases impossible
    · rw [← atOnce _ order ranges, ← same, poolReconcile_retry found unmarked]
      rfl
  · intro unchanged listing err order order' order'' result failed lists _ ranges failure
    rw [poolReconcile_failing found unmarked resyncs] at failure
    cases failure
    right
    intro key
    rw [poolReconcile_retry found unmarked, atOnce _ order'' ranges]
    exact (resync_unchanged_iff lists own).mpr unchanged key

def vllmKey : NamespacedName := ⟨"default", "vllm-0"⟩

def vllmCluster : Cluster where
  pods := (∅ : Finmap (fun _ : NamespacedName => Pod)).insert vllmKey (vllmPod none)
  pools := (∅ : Finmap (fun _ : NamespacedName => InferencePool)).insert ⟨"default", "pool"⟩ vllmPool

theorem vllmCluster_pod {key : NamespacedName} {pod : Pod} (present : vllmCluster.pods.lookup key = some pod) :
    key = vllmKey ∧ pod = vllmPod none := by
  rw [vllmCluster, lookup_insert_eq] at present
  split_ifs at present with same
  · exact ⟨same, (Option.some.inj present).symm⟩
  · cases present

def vllmStore : Datastore where
  pool := some { vllmPool with spec := ⟨∅, 8000⟩ }
  pods := (∅ : Finmap (fun _ : NamespacedName => PodMetrics)).insert vllmKey ⟨0, ⟨vllmKey, "10.0.0.1"⟩⟩
  created := 1

theorem vllmStore_podAt {key : NamespacedName} {pod : BackendPod} (stored : vllmStore.podAt key = some pod) :
    key = vllmKey ∧ pod = ⟨vllmKey, "10.0.0.1"⟩ := by
  rw [Datastore.podAt, vllmStore, lookup_insert_eq] at stored
  split_ifs at stored with same
  · exact ⟨same, (Option.some.inj stored).symm⟩
  · cases stored

theorem resync_recovers_without_change :
    ResyncRecovers ⟨"default", "pool"⟩ vllmCluster vllmPool vllmStore := by
  refine (resync_recovers_iff ⟨"default", "pool"⟩ vllmCluster vllmPool vllmStore (by decide +kernel) rfl
    ?_ ?_ ?_).mpr ⟨?_, ?_⟩
  · rintro _ ⟨⟩
    decide +kernel
  · intro key pod present
    obtain ⟨rfl, rfl⟩ := vllmCluster_pod present
    rfl
  · intro key pod stored
    obtain ⟨rfl, rfl⟩ := vllmStore_podAt stored
    rfl
  · intro key pod present _ _
    obtain ⟨rfl, rfl⟩ := vllmCluster_pod present
    decide +kernel
  · intro key backend stored
    obtain ⟨rfl, rfl⟩ := vllmStore_podAt stored
    exact ⟨vllmKey, vllmPod none, by decide +kernel⟩

theorem failed_pod_list_loses_resync :
    InferencePoolReconciler.reconcile ((vllmCluster.client vllmCluster ⟨[], [vllmKey]⟩).failingPods
        (.other "timeout")) [] ⟨"default", "pool"⟩ {} = (.ok (), Datastore.poolSet vllmPool {}) ∧
      (InferencePoolReconciler.reconcile (vllmCluster.client vllmCluster ⟨[], [vllmKey]⟩) [vllmKey]
        ⟨"default", "pool"⟩ (Datastore.poolSet vllmPool {})).2.podAt vllmKey = none ∧
      (InferencePoolReconciler.reconcile (vllmCluster.client vllmCluster ⟨[], [vllmKey]⟩) [vllmKey]
        ⟨"default", "pool"⟩ {}).2.podAt vllmKey = some ⟨vllmKey, "10.0.0.1"⟩ :=
  ⟨rfl, by decide +kernel, by decide +kernel⟩

end InferenceGateway
