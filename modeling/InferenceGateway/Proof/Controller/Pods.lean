import InferenceGateway.Proof.Datastore.Pods

namespace InferenceGateway
open Lib.Workqueue

def eligible (selector : Labels) (pod : Pod) : Bool :=
  podIsReady pod && selectorFromInferencePoolSelector selector pod.labels && pod.deletionTimestamp.isNone

def eligibleAt (cluster : Cluster) (selector : Labels) (key : NamespacedName) : Option BackendPod :=
  ((cluster.pods.lookup key).filter (eligible selector)).map toInternalPod

section Changes
variable {pool : NamespacedName} {cluster cluster' : Cluster} {requests : Finset Request}

structure Cluster.Kept (cluster : Cluster) (pool : NamespacedName) : Prop where
  pods : ∀ key pod, cluster.pods.lookup key = some pod → pod.namespacedName = key ∧ pod.ns = pool.ns
  pool : ∀ infPool, cluster.pools.lookup pool = some infPool → infPool.ns = pool.ns

theorem Cluster.Kept.insertPod (kept : cluster.Kept pool) (new : Pod) (inNamespace : new.ns = pool.ns) :
    Cluster.Kept { cluster with pods := cluster.pods.insert new.namespacedName new } pool := by
  refine ⟨fun key pod found => ?_, kept.pool⟩
  rw [lookup_insert_eq] at found
  split_ifs at found with same
  · obtain rfl := Option.some.inj found
    exact ⟨same.symm, inNamespace⟩
  · exact kept.pods key pod found

theorem PoolChange.kept (change : PoolChange pool cluster requests cluster') (kept : cluster.Kept pool) :
    cluster'.Kept pool := by
  cases change with
  | createPod new absent inNamespace unmarked => exact kept.insertPod new inNamespace
  | updatePod old new present marks =>
      -- the new version has the name of the old one, so it stays in the namespace
      obtain ⟨own, inNamespace⟩ := kept.pods _ old present
      have same : new.ns = old.ns := congrArg NamespacedName.ns own.symm
      exact kept.insertPod new (same.trans inNamespace)
  | deletePod deleted old present =>
      refine ⟨fun key pod found => ?_, kept.pool⟩
      rw [lookup_erase_eq] at found
      split_ifs at found
      exact kept.pods key pod found
  | createPool new absent own unmarked | updatePool old new present own marks =>
      refine ⟨kept.pods, fun infPool found => ?_⟩
      rw [Finmap.lookup_insert] at found
      rw [← Option.some.inj found, ← own]
      rfl
  | deletePool old present =>
      refine ⟨kept.pods, fun infPool found => ?_⟩
      rw [Finmap.lookup_erase] at found
      cases found

theorem PoolChange.event (change : PoolChange pool cluster requests cluster') :
    (∀ key, .pod key ∉ requests → cluster'.pods.lookup key = cluster.pods.lookup key) ∧
      (.pool ∉ requests → cluster'.pools.lookup pool = cluster.pools.lookup pool) := by
  cases change with
  | createPod new | updatePod old new =>
      refine ⟨fun key other => Finmap.lookup_insert_of_ne _ ?_, fun _ => rfl⟩
      rintro rfl
      exact other (Finset.mem_singleton_self _)
  | deletePod deleted old =>
      refine ⟨fun key other => Finmap.lookup_erase_ne ?_, fun _ => rfl⟩
      rintro rfl
      exact other (Finset.mem_singleton_self _)
  | createPool | updatePool | deletePool =>
      exact ⟨fun _ _ => rfl, fun other => absurd (Finset.mem_singleton_self _) other⟩

end Changes

/-! ## The two reconcilers -/

section Reconcilers
variable {pool : NamespacedName} {cluster later : Cluster} {ds : Datastore} {infPool : InferencePool}
  {listing : Listing} {order : List NamespacedName} {key : NamespacedName}

theorem podReconcile_of_no_pool (client : Client) (noPool : ds.pool = none) :
    PodReconciler.reconcile client key ds = some (.ok (), ds) := by
  simp only [PodReconciler.reconcile, Datastore.poolGet, noPool]
  rfl

theorem podReconcile_of_pool (listing : Listing) (pooled : ds.pool = some infPool)
    (own : ∀ pod, cluster.pods.lookup key = some pod → pod.namespacedName = key) :
    ∃ ds', PodReconciler.reconcile (cluster.client cluster listing) key ds = some (.ok (), ds') ∧
      ds'.pool = some infPool ∧ (ds.PodsKeyed → ds'.PodsKeyed) ∧
      ∀ at_, ds'.podAt at_ =
        if at_ = key then eligibleAt cluster infPool.spec.selector key else ds.podAt at_ := by
  simp only [PodReconciler.reconcile, Datastore.poolGet, pooled, Cluster.client, get]
  cases found : cluster.pods.lookup key with
  | none =>
      refine ⟨ds.podDelete key, rfl, (Datastore.podBlind_pool.podDelete ds key).trans pooled,
        fun keyed => keyed.podDelete key, fun at_ => ?_⟩
      rw [Datastore.podDelete_podAt, eligibleAt, found]
      rfl
  | some pod =>
      have same := own pod found
      have kept : eligibleAt cluster infPool.spec.selector key =
          if eligible infPool.spec.selector pod then some (toInternalPod pod) else none := by
        rw [eligibleAt, found]
        by_cases h : eligible infPool.spec.selector pod = true <;> simp [Option.filter, h]
      simp only [PodReconciler.updateDatastore, Datastore.poolLabelsMatch, pooled, kept, same]
      by_cases taken : eligible infPool.spec.selector pod = true
      · have parts := taken
        simp only [eligible, Bool.and_eq_true, Option.isNone_iff_eq_none] at parts
        refine ⟨(ds.podUpdateOrAddIfNotExist pod).2, by simp [parts],
          (Datastore.podBlind_pool.podUpdate ds pod).trans pooled, fun keyed => keyed.podUpdate pod, fun at_ => ?_⟩
        rw [Datastore.podUpdate_podAt, same, if_pos taken]
      · refine ⟨ds.podDelete key, ?_, (Datastore.podBlind_pool.podDelete ds key).trans pooled,
          fun keyed => keyed.podDelete key, fun at_ => ?_⟩
        · simp only [eligible, Bool.and_eq_true, not_and_or, Bool.not_eq_true,
            Option.isNone_eq_false_iff] at taken
          by_cases marked : pod.deletionTimestamp.isSome
          · simp [marked]
          · rcases taken with (unready | unmatched) | marked'
            · simp [marked, unready]
            · simp [marked, unmatched]
            · exact absurd marked' marked
        · rw [Datastore.podDelete_podAt, if_neg taken]

theorem mem_listed (lists : listing.Of cluster) (pod : Pod) :
    pod ∈ cluster.listed listing infPool ↔ (∃ key, cluster.pods.lookup key = some pod) ∧
      selectorFromInferencePoolSelector infPool.spec.selector pod.labels = true ∧ pod.ns = infPool.ns := by
  unfold Cluster.listed
  rw [List.mem_filter, List.mem_filterMap, decide_eq_true_eq]
  constructor
  · rintro ⟨⟨key, _, found⟩, rest⟩
    exact ⟨⟨key, found⟩, rest⟩
  · rintro ⟨⟨key, found⟩, rest⟩
    exact ⟨⟨key, (lists.pods.visits key).mpr (Finmap.mem_of_lookup_eq_some found), found⟩, rest⟩

def resyncable (selector : Labels) (pod : Pod) : Bool :=
  podIsReady pod && selectorFromInferencePoolSelector selector pod.labels

theorem lastReady_listed (lists : listing.Of cluster)
    (own : ∀ at_ pod, cluster.pods.lookup at_ = some pod → pod.namespacedName = at_) {pod : Pod} :
    Datastore.lastReady (cluster.listed listing infPool) key = some pod ↔
      cluster.pods.lookup key = some pod ∧ resyncable infPool.spec.selector pod = true ∧
        pod.ns = infPool.ns := by
  constructor
  · intro last
    obtain ⟨listed, ready, named⟩ := Datastore.lastReady_eq_some last
    obtain ⟨⟨at_, found⟩, matched, ns⟩ := (mem_listed lists pod).mp listed
    obtain rfl : at_ = key := (own at_ pod found).symm.trans named
    exact ⟨found, by rw [resyncable, ready, matched]; rfl, ns⟩
  · rintro ⟨found, taken, ns⟩
    simp only [resyncable, Bool.and_eq_true] at taken
    have listed := (mem_listed lists pod).mpr ⟨⟨key, found⟩, taken.2, ns⟩
    cases last : Datastore.lastReady (cluster.listed listing infPool) key with
    | none => exact absurd (own key pod found) (Datastore.lastReady_eq_none.mp last pod listed taken.1)
    | some pod' =>
        obtain ⟨listed', _, named⟩ := Datastore.lastReady_eq_some last
        obtain ⟨⟨at_, found'⟩, _⟩ := (mem_listed lists pod').mp listed'
        obtain rfl : at_ = key := (own at_ pod' found').symm.trans named
        exact found'.symm.trans found

theorem resync_podAt (kept : cluster.Kept pool) (ns : infPool.ns = pool.ns) (lists : listing.Of cluster)
    (keyed : ds.PodsKeyed) (inNamespace : ∀ key pod, ds.podAt key = some pod → key.ns = pool.ns)
    (ranges : RangesOver order (ds.podAddReady (cluster.listed listing infPool)).pods) (key : NamespacedName) :
    (ds.podResyncAll (cluster.client cluster listing) infPool order).podAt key =
      ((cluster.pods.lookup key).filter (resyncable infPool.spec.selector)).map toInternalPod := by
  have taken : (cluster.pods.lookup key).filter (resyncable infPool.spec.selector) =
      Datastore.lastReady (cluster.listed listing infPool) key := by
    ext pod
    rw [lastReady_listed lists fun at_ pod found => (kept.pods at_ pod found).1,
      Option.filter_eq_some_iff]
    exact and_congr_right fun found => (and_iff_left ((kept.pods key pod found).2.trans ns.symm)).symm
  rw [Datastore.podResyncAll_podAt keyed rfl ranges, taken]
  cases last : Datastore.lastReady (cluster.listed listing infPool) key with
  | some pod =>
      obtain ⟨listed, ready, own⟩ := Datastore.lastReady_eq_some last
      have active : key.name ∈ Datastore.activePods (cluster.listed listing infPool) := by
        rw [← own]
        exact List.mem_map.mpr ⟨pod, List.mem_filter.mpr ⟨listed, ready⟩, rfl⟩
      rw [if_pos active]
      rfl
  | none =>
      split_ifs with active
      · -- a namesake in the pool's namespace would be listed, and the store has no others
        obtain ⟨pod, listed, named⟩ := List.mem_map.mp active
        rw [List.mem_filter] at listed
        have podNs := ((mem_listed lists pod).mp listed.1).2.2.trans ns
        cases stored : ds.podAt key with
        | none => rfl
        | some backend =>
            have own : pod.namespacedName = key :=
              NamespacedName.ext (podNs.trans (inNamespace key backend stored).symm) named
            exact absurd own (Datastore.lastReady_eq_none.mp last pod listed.1 listed.2)
      · rfl

def Datastore.Resyncs (ds : Datastore) (infPool : InferencePool) : Prop :=
  ∀ old, ds.pool = some old → infPool.spec.selector ≠ old.spec.selector

theorem updateDatastore_of_resyncs (client : Client) (order : List NamespacedName)
    (resyncs : ds.Resyncs infPool) :
    InferencePoolReconciler.updateDatastore client order infPool ds =
      (ds.poolSet infPool).podResyncAll client infPool order := by
  unfold InferencePoolReconciler.updateDatastore Datastore.poolGet
  cases pooled : ds.pool with
  | none => rfl
  | some old => exact if_pos (resyncs old pooled)

theorem updateDatastore_of_same (client : Client) (order : List NamespacedName) {old : InferencePool}
    (pooled : ds.pool = some old) (same : infPool.spec.selector = old.spec.selector) :
    InferencePoolReconciler.updateDatastore client order infPool ds = ds.poolSet infPool := by
  unfold InferencePoolReconciler.updateDatastore Datastore.poolGet
  simp only [pooled]
  exact if_neg (not_not.mpr same)

theorem poolReconcile_of_gone (found : cluster.pools.lookup pool = none) :
    InferencePoolReconciler.reconcile (cluster.client later listing) order pool ds = (.ok (), ds.clear) := by
  simp only [InferencePoolReconciler.reconcile, Cluster.client, get, found]

theorem poolReconcile_of_marked (found : cluster.pools.lookup pool = some infPool)
    (marked : infPool.deletionTimestamp.isSome) :
    InferencePoolReconciler.reconcile (cluster.client later listing) order pool ds = (.ok (), ds.clear) := by
  simp only [InferencePoolReconciler.reconcile, Cluster.client, get, found]
  exact if_pos marked

theorem poolReconcile_of_unmarked (found : cluster.pools.lookup pool = some infPool)
    (unmarked : infPool.deletionTimestamp = none) :
    InferencePoolReconciler.reconcile (cluster.client later listing) order pool ds =
      (.ok (), InferencePoolReconciler.updateDatastore (cluster.client later listing) order infPool ds) := by
  simp only [InferencePoolReconciler.reconcile, Cluster.client, get, found]
  exact if_neg (by simp [unmarked])

end Reconcilers

/-! ## Runs -/

section Runs
variable {pool : NamespacedName} {cluster cluster' : Cluster} {pending pending' requests : Finset Request}
  {ds ds' : Datastore}

structure PodsInv (pool : NamespacedName) (cluster : Cluster) (pending : Finset Request)
    (ds : Datastore) : Prop where
  kept : cluster.Kept pool
  keyed : ds.PodsKeyed
  inNamespace : ∀ key pod, ds.podAt key = some pod → key.ns = pool.ns
  cleared : ds.pool = none → ∀ key, ds.podAt key = none
  synced : .pool ∉ pending →
    ds.pool = (cluster.pools.lookup pool).filter fun infPool => infPool.deletionTimestamp.isNone
  current : ∀ infPool, ds.pool = some infPool → ∀ key, .pod key ∉ pending →
    ds.podAt key = eligibleAt cluster infPool.spec.selector key

theorem PodsInv.start (pool : NamespacedName) : PodsInv pool {} ∅ {} where
  kept := ⟨nofun, nofun⟩
  keyed := nofun
  inNamespace := nofun
  cleared _ _ := rfl
  synced _ := rfl
  current := nofun

theorem PodsInv.change (inv : PodsInv pool cluster pending ds)
    (change : PoolChange pool cluster requests cluster') :
    PodsInv pool cluster' (pending ∪ requests) ds := by
  obtain ⟨pods, pools⟩ := change.event
  refine ⟨change.kept inv.kept, inv.keyed, inv.inNamespace, inv.cleared, ?_, ?_⟩
  · intro settled
    rw [Finset.mem_union, not_or] at settled
    rw [pools settled.2]
    exact inv.synced settled.1
  · intro infPool pooled key settled
    rw [Finset.mem_union, not_or] at settled
    rw [eligibleAt, pods key settled.2]
    exact inv.current infPool pooled key settled.1

theorem PodsInv.podReconcile {key : NamespacedName} (inv : PodsInv pool cluster (insert (.pod key) pending) ds)
    {listing : Listing} {result : Except Err Unit}
    (reconciled : PodReconciler.reconcile (cluster.client cluster listing) key ds = some (result, ds')) :
    PodsInv pool cluster pending ds' := by
  have synced : .pool ∉ pending → ds.pool = _ := fun settled => inv.synced (by simp [settled])
  cases pooled : ds.pool with
  | none =>
      rw [podReconcile_of_no_pool _ pooled, Option.some.injEq, Prod.mk.injEq] at reconciled
      rw [← reconciled.2]
      exact ⟨inv.kept, inv.keyed, inv.inNamespace, inv.cleared, synced, by simp [pooled]⟩
  | some infPool =>
      have own (pod : Pod) (found : cluster.pods.lookup key = some pod) := inv.kept.pods key pod found
      obtain ⟨after, done, pooled', keyed, podAt⟩ := podReconcile_of_pool listing pooled
        (fun pod found => (own pod found).1)
      rw [done, Option.some.injEq, Prod.mk.injEq] at reconciled
      rw [← reconciled.2]
      refine ⟨inv.kept, keyed inv.keyed, ?_, by simp [pooled'], by rwa [pooled', ← pooled], ?_⟩
      · intro at_ backend stored
        rw [podAt] at stored
        split_ifs at stored with same
        · obtain ⟨pod, found, _⟩ := Option.map_eq_some_iff.mp stored
          obtain ⟨own, inNamespace⟩ := own pod (Option.filter_eq_some_iff.mp found).1
          rw [same, ← own]
          exact inNamespace
        · exact inv.inNamespace at_ backend stored
      · intro infPool' stored at_ settled
        obtain rfl := Option.some.inj (pooled'.symm.trans stored)
        rw [podAt]
        split_ifs with same
        · rw [same]
        · exact inv.current infPool pooled at_ (by simp [same, settled])

theorem PodsInv.clear (inv : PodsInv pool cluster (insert .pool pending) ds)
    (gone : (cluster.pools.lookup pool).filter (fun infPool => infPool.deletionTimestamp.isNone) = none) :
    PodsInv pool cluster pending ds.clear where
  kept := inv.kept
  keyed := nofun
  inNamespace := nofun
  cleared _ _ := rfl
  synced _ := gone.symm
  current := nofun

/-- A terminating pod that the resync would take has an event pending. -/
def TerminatingPending (pool : NamespacedName) (cluster : Cluster) (pending : Finset Request)
    (ds : Datastore) : Prop :=
  ∀ infPool, cluster.pools.lookup pool = some infPool → infPool.deletionTimestamp = none →
    ds.Resyncs infPool → ∀ key pod, cluster.pods.lookup key = some pod →
    resyncable infPool.spec.selector pod = true → pod.deletionTimestamp.isSome → .pod key ∈ pending

theorem PodsInv.updateDatastore (inv : PodsInv pool cluster (insert .pool pending) ds) {infPool : InferencePool}
    {listing : Listing} {order : List NamespacedName} (lists : listing.Of cluster)
    (found : cluster.pools.lookup pool = some infPool) (unmarked : infPool.deletionTimestamp = none)
    (ranges : RangesOver order ((ds.poolSet infPool).podAddReady (cluster.listed listing infPool)).pods)
    (terminating : TerminatingPending pool cluster pending ds) :
    PodsInv pool cluster pending
      (InferencePoolReconciler.updateDatastore (cluster.client cluster listing) order infPool ds) := by
  have live : some infPool = (cluster.pools.lookup pool).filter fun p => p.deletionTimestamp.isNone := by
    rw [found, Option.filter_some, unmarked]
    rfl
  by_cases resyncs : ds.Resyncs infPool
  · rw [updateDatastore_of_resyncs _ _ resyncs]
    have pooled : ((ds.poolSet infPool).podResyncAll (cluster.client cluster listing) infPool order).pool =
        some infPool := Datastore.podBlind_pool.podResyncAll ..
    have keyed : (ds.poolSet infPool).PodsKeyed := inv.keyed
    have podAt := resync_podAt inv.kept (inv.kept.pool infPool found) lists keyed inv.inNamespace ranges
    refine ⟨inv.kept, Datastore.podStable_podsKeyed.podResyncAll _ _ _ keyed, ?_, by simp [pooled],
      fun _ => pooled.trans live, ?_⟩
    · intro key backend stored
      rw [podAt] at stored
      obtain ⟨pod, taken, _⟩ := Option.map_eq_some_iff.mp stored
      obtain ⟨own, inNamespace⟩ := inv.kept.pods key pod (Option.filter_eq_some_iff.mp taken).1
      rw [← own]
      exact inNamespace
    · intro infPool' stored key settled
      obtain rfl := Option.some.inj (pooled.symm.trans stored)
      rw [podAt, eligibleAt]
      congr 1
      -- a terminating pod would have an event pending
      cases present : cluster.pods.lookup key with
      | none => rfl
      | some pod =>
          by_cases taken : resyncable infPool.spec.selector pod = true
          · have unmarked' : pod.deletionTimestamp.isNone = true := by
              rw [← Option.not_isSome]
              simpa using fun marked =>
                settled (terminating infPool found unmarked resyncs key pod present taken marked)
            have same : eligible infPool.spec.selector pod = resyncable infPool.spec.selector pod := by
              rw [eligible, unmarked', Bool.and_true, resyncable]
            simp only [Option.filter_some, same]
          · have never : eligible infPool.spec.selector pod = false := by
              rw [eligible, ← resyncable, Bool.not_eq_true _ |>.mp taken, Bool.false_and]
            rw [Option.filter_some, Option.filter_some, never, if_neg taken]
            rfl
  · unfold Datastore.Resyncs at resyncs
    push Not at resyncs
    obtain ⟨old, pooled, same⟩ := resyncs
    rw [updateDatastore_of_same _ _ pooled same]
    refine ⟨inv.kept, inv.keyed, inv.inNamespace, nofun, fun _ => live, ?_⟩
    rintro _ ⟨⟩ key settled
    rw [same]
    exact inv.current old pooled key (by simpa using settled)

theorem PodsInv.poolReconcile (inv : PodsInv pool cluster (insert .pool pending) ds) {listing : Listing}
    {order : List NamespacedName} {result : Except Err Unit} (lists : listing.Of cluster)
    (ranges : ∀ infPool, cluster.pools.lookup pool = some infPool →
      RangesOver order ((ds.poolSet infPool).podAddReady (cluster.listed listing infPool)).pods)
    (terminating : TerminatingPending pool cluster pending ds)
    (reconciled : InferencePoolReconciler.reconcile (cluster.client cluster listing) order pool ds =
      (result, ds')) : PodsInv pool cluster pending ds' := by
  cases found : cluster.pools.lookup pool with
  | none =>
      rw [poolReconcile_of_gone found, Prod.mk.injEq] at reconciled
      exact reconciled.2 ▸ inv.clear (by rw [found]; rfl)
  | some infPool =>
      cases marked : infPool.deletionTimestamp with
      | none =>
          rw [poolReconcile_of_unmarked found marked, Prod.mk.injEq] at reconciled
          exact reconciled.2 ▸ inv.updateDatastore lists found marked (ranges infPool found) terminating
      | some time =>
          rw [poolReconcile_of_marked found (by rw [marked]; rfl), Prod.mk.injEq] at reconciled
          exact reconciled.2 ▸ inv.clear (by rw [found, Option.filter_some, marked]; rfl)

end Runs

end InferenceGateway
