import InferenceGateway.Cluster

/-!
One `PodReconciler.Reconcile` and one `InferencePoolReconciler.Reconcile` that run concurrently, one
datastore call at a time, while the cluster does not change. Each reconcile is at the call that it
makes next; `PodResyncAll` is its calls of PodUpdateOrAddIfNotExist, the visits of its `Range`, and
its calls of PodDelete.
-/

namespace InferenceGateway

inductive PodCall
  | poolGet
  | poolLabelsMatch (pod : Pod)
  | podDelete (key : NamespacedName)
  | podUpdateOrAddIfNotExist (pod : Pod)
  | panicked
  | returned
deriving DecidableEq

def PodCall.next (cluster : Cluster) (req : NamespacedName) :
    PodCall → Datastore → Option (PodCall × Datastore)
  | .poolGet, ds =>
    match ds.poolGet with
    | .error _ => some (.returned, ds)
    | .ok _ =>
      match get cluster.pods req with
      | .error _ => some (.podDelete req, ds)
      | .ok pod =>
        if pod.deletionTimestamp.isSome then some (.podDelete pod.namespacedName, ds)
        else some (.poolLabelsMatch pod, ds)
  | .poolLabelsMatch pod, ds =>
    match ds.poolLabelsMatch pod.labels with
    | none => some (.panicked, ds)
    | some labelsMatch =>
      if !labelsMatch || !podIsReady pod then some (.podDelete pod.namespacedName, ds)
      else some (.podUpdateOrAddIfNotExist pod, ds)
  | .podDelete key, ds => some (.returned, ds.podDelete key)
  | .podUpdateOrAddIfNotExist pod, ds => some (.returned, (ds.podUpdateOrAddIfNotExist pod).2)
  | .panicked, _ | .returned, _ => none

inductive PoolCall
  | clear
  | poolGet (newPool : InferencePool)
  | poolSet (newPool : InferencePool) (resync : Bool)
  -- the names in `activePods`, and the ready pods of the list that are still to be added
  | podUpdateOrAddIfNotExist (activePods : List String) (items : List Pod)
  -- the keys that were stored when `Range` started, and those that it has visited
  | range (activePods : List String) (stored visited : Finset NamespacedName)
  | podDelete (activePods : List String) (stored visited : Finset NamespacedName) (key : NamespacedName)
  | returned
deriving DecidableEq

def PoolCall.first (cluster : Cluster) (pool : NamespacedName) : PoolCall :=
  match get cluster.pools pool with
  | .error _ => .clear
  | .ok infPool => if infPool.deletionTimestamp.isSome then .clear else .poolGet infPool

/-- `visit` is the key that `Range` comes to next, and `none` ends it. `Range` visits no key twice,
it comes to every key that is stored all the time, and it may or may not come to one that is added
meanwhile. -/
def PoolCall.next (cluster : Cluster) (listing : Listing) (visit : Option NamespacedName) :
    PoolCall → Datastore → Option (PoolCall × Datastore)
  | .clear, ds => some (.returned, ds.clear)
  | .poolGet newPool, ds =>
    match ds.poolGet with
    | .error _ => some (.poolSet newPool true, ds)
    | .ok oldPool => some (.poolSet newPool (newPool.spec.selector ≠ oldPool.spec.selector), ds)
  | .poolSet newPool resync, ds =>
    if resync then
      let ready := (cluster.listed listing newPool).filter podIsReady
      some (.podUpdateOrAddIfNotExist (ready.map Pod.name) ready, ds.poolSet newPool)
    else some (.returned, ds.poolSet newPool)
  | .podUpdateOrAddIfNotExist activePods (pod :: items), ds =>
    some (.podUpdateOrAddIfNotExist activePods items, (ds.podUpdateOrAddIfNotExist pod).2)
  | .podUpdateOrAddIfNotExist activePods [], ds => some (.range activePods ds.pods.keys ∅, ds)
  | .range activePods stored visited, ds =>
    match visit with
    | some key =>
      if key ∈ visited then none
      else (ds.pods.lookup key).map fun pm =>
        if pm.pod.namespacedName.name ∈ activePods then (.range activePods stored (insert key visited), ds)
        else (.podDelete activePods stored (insert key visited) pm.pod.namespacedName, ds)
    | none => if ∀ key ∈ stored, key ∈ visited ∨ key ∉ ds.pods then some (.returned, ds) else none
  | .podDelete activePods stored visited key, ds =>
    some (.range activePods stored visited, ds.podDelete key)
  | .returned, _ => none

structure Threads where
  pod : PodCall
  pool : PoolCall
  store : Datastore

inductive Turn
  | pod
  | pool (visit : Option NamespacedName)
deriving DecidableEq

def Threads.take (cluster : Cluster) (listing : Listing) (req : NamespacedName) (s : Threads) :
    Turn → Option Threads
  | .pod => (s.pod.next cluster req s.store).map fun (call, store) => ⟨call, s.pool, store⟩
  | .pool visit => (s.pool.next cluster listing visit s.store).map fun (call, store) => ⟨s.pod, call, store⟩

/-- `guard` is a condition on the state in which the InferencePool's reconcile makes a call. -/
inductive Interleaves (cluster : Cluster) (listing : Listing) (req : NamespacedName)
    (guard : Threads → Prop) (s s' : Threads) : Prop
  | pod (taken : s.take cluster listing req .pod = some s')
  | pool (visit : Option NamespacedName) (guarded : guard s)
      (taken : s.take cluster listing req (.pool visit) = some s')

end InferenceGateway
