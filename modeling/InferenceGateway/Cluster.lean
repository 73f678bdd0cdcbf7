import InferenceGateway.Controller
import InferenceGateway.Lib.Workqueue

/-!
The API server and the runs of the controllers. The manager's cache holds the InferenceModels and
the Pods of the pool's namespace and the one InferencePool that it is started for
(`DefaultManagerOptions`); only their events reach the controllers. The InferenceModels may change
during a reconcile; the pod and the pool controller share a datastore and their reconciles are
atomic.
-/

namespace InferenceGateway
open Lib.Workqueue

structure Cluster where
  models : Finmap (fun _ : NamespacedName => InferenceModel) := ∅
  pods : Finmap (fun _ : NamespacedName => Pod) := ∅
  pools : Finmap (fun _ : NamespacedName => InferencePool) := ∅

structure Listing where
  models : List NamespacedName := []
  pods : List NamespacedName := []

structure Listing.Of (listing : Listing) (cluster : Cluster) : Prop where
  models : RangesOver listing.models cluster.models
  pods : RangesOver listing.pods cluster.pods

def get {O : Type} (objects : Finmap (fun _ : NamespacedName => O)) (key : NamespacedName) :
    Except ApiError O :=
  match objects.lookup key with
  | none => .error (.notFound "not found")
  | some object => .ok object

/-- The client whose calls succeed: a `Get` reads `first`, the later `List` reads `later`. -/
def Cluster.client (first later : Cluster) (listing : Listing) : Client where
  getInferenceModel := get first.models
  listInferenceModels modelName ns := .ok <|
    (listing.models.filterMap later.models.lookup).filter fun m => m.spec.modelName = modelName ∧ m.ns = ns
  getInferencePool := get first.pools
  getPod := get first.pods
  listPods selector ns := .ok <|
    (listing.pods.filterMap later.pods.lookup).filter fun pod =>
      selectorFromInferencePoolSelector selector pod.labels ∧ pod.ns = ns

/-! ## InferenceModels -/

namespace InferenceModelReconciler

def cached (c : InferenceModelReconciler) (m : InferenceModel) : Bool :=
  m.ns = c.poolNamespacedName.ns

def live (c : InferenceModelReconciler) (m : InferenceModel) : Bool :=
  c.cached m && c.eventPredicate m && m.deletionTimestamp.isNone

/-- The changes of InferenceModels: a new object is not marked for deletion; an update keeps the
creation timestamp and the model name, and a mark is never taken back. `recreates` says which
objects may take the key of an object that was deleted before. -/
def watch (c : InferenceModelReconciler) (recreates : InferenceModel → InferenceModel → Prop) :
    Watch NamespacedName InferenceModel where
  key := InferenceModel.namespacedName
  creates new := new.deletionTimestamp = none
  recreates := recreates
  updates old new := new.creationTimestamp = old.creationTimestamp ∧
    new.spec.modelName = old.spec.modelName ∧
    (old.deletionTimestamp.isSome → new.deletionTimestamp.isSome)
  enqueues
    | none, none => false
    | none, some new => c.cached new && c.createFunc new
    | some old, some new => (c.cached old || c.cached new) && c.updateFunc old new
    | some old, none => c.cached old && c.deleteFunc old

def controller (c : InferenceModelReconciler) (recreates : InferenceModel → InferenceModel → Prop) :
    Controller (Objects NamespacedName InferenceModel) NamespacedName Datastore where
  change := (c.watch recreates).Change
  reconcile key first later ds ds' := ∃ listing order result,
    listing.Of { models := later.current } ∧ RangesOver order ds.models ∧
    c.reconcile (Cluster.client { models := first.current } { models := later.current } listing) order key ds =
      some (result, ds')

end InferenceModelReconciler

/-! ## Pods and the InferencePool -/

inductive Request
  | pool
  | pod (key : NamespacedName)
deriving DecidableEq

/-- The changes of the Pods of the pool's namespace and of the InferencePool `pool`; each is an
event for its object. Labels, readiness, addresses and the selector change freely, and marks for
deletion are never taken back. -/
inductive PoolChange (pool : NamespacedName) : Cluster → Finset Request → Cluster → Prop
  | createPod {cluster : Cluster} (new : Pod) (absent : cluster.pods.lookup new.namespacedName = none)
      (inNamespace : new.ns = pool.ns) (unmarked : new.deletionTimestamp = none) :
      PoolChange pool cluster {.pod new.namespacedName}
        { cluster with pods := cluster.pods.insert new.namespacedName new }
  | updatePod {cluster : Cluster} (old new : Pod)
      (present : cluster.pods.lookup new.namespacedName = some old)
      (marks : old.deletionTimestamp.isSome → new.deletionTimestamp.isSome) :
      PoolChange pool cluster {.pod new.namespacedName}
        { cluster with pods := cluster.pods.insert new.namespacedName new }
  | deletePod {cluster : Cluster} (key : NamespacedName) (old : Pod)
      (present : cluster.pods.lookup key = some old) :
      PoolChange pool cluster {.pod key} { cluster with pods := cluster.pods.erase key }
  | createPool {cluster : Cluster} (new : InferencePool) (absent : cluster.pools.lookup pool = none)
      (own : new.namespacedName = pool) (unmarked : new.deletionTimestamp = none) :
      PoolChange pool cluster {.pool} { cluster with pools := cluster.pools.insert pool new }
  | updatePool {cluster : Cluster} (old new : InferencePool) (present : cluster.pools.lookup pool = some old)
      (own : new.namespacedName = pool)
      (marks : old.deletionTimestamp.isSome → new.deletionTimestamp.isSome) :
      PoolChange pool cluster {.pool} { cluster with pools := cluster.pools.insert pool new }
  | deletePool {cluster : Cluster} (old : InferencePool) (present : cluster.pools.lookup pool = some old) :
      PoolChange pool cluster {.pool} { cluster with pools := cluster.pools.erase pool }

def Cluster.listed (cluster : Cluster) (listing : Listing) (pool : InferencePool) : List Pod :=
  (listing.pods.filterMap cluster.pods.lookup).filter fun pod =>
    selectorFromInferencePoolSelector pool.spec.selector pod.labels ∧ pod.ns = pool.ns

def poolController (pool : NamespacedName) : Controller Cluster Request Datastore where
  change := PoolChange pool
  reconcile
    | .pod key, cluster, later, ds, ds' => cluster = later ∧ ∃ result,
        PodReconciler.reconcile (cluster.client cluster {}) key ds = some (result, ds')
    | .pool, cluster, later, ds, ds' => cluster = later ∧ ∃ listing order result,
        listing.Of cluster ∧
        (∀ infPool, cluster.pools.lookup pool = some infPool →
          RangesOver order ((ds.poolSet infPool).podAddReady (cluster.listed listing infPool)).pods) ∧
        InferencePoolReconciler.reconcile (cluster.client cluster listing) order pool ds = (result, ds')

/-! ## The manager -/

inductive ManagerRequest
  | model (key : NamespacedName)
  | pods (request : Request)
deriving DecidableEq

/-- The changes of all objects of the cache. `admits` says which InferenceModels the API server
accepts. A request can also be queued again without a change: after an error or a panic, or when
the informer resyncs. -/
inductive ManagerChange (pool : NamespacedName) (admits : InferenceModel → Prop) :
    Cluster → Finset ManagerRequest → Cluster → Prop
  | model {cluster : Cluster} {keys : Finset NamespacedName} {objects : Objects NamespacedName InferenceModel}
      (change : ((InferenceModelReconciler.mk pool).watch fun _ _ => True).Change
        ⟨cluster.models, cluster.models⟩ keys objects)
      (admitted : ∀ key m, objects.current.lookup key = some m → cluster.models.lookup key = some m ∨ admits m) :
      ManagerChange pool admits cluster (keys.image .model) { cluster with models := objects.current }
  | pods {cluster cluster' : Cluster} {requests : Finset Request}
      (change : PoolChange pool cluster requests cluster') :
      ManagerChange pool admits cluster (requests.image .pods) cluster'
  | requeue {cluster : Cluster} (request : ManagerRequest)
      (watched : ∀ key, request = .model key → key.ns = pool.ns) :
      ManagerChange pool admits cluster {request} cluster

/-- The three controllers on one datastore. The objects may change between the `Get` of a reconcile
and its `List`. A panic is recovered: what ModelDelete removed before it stays removed. -/
def manager (pool : NamespacedName) (admits : InferenceModel → Prop) :
    Controller Cluster ManagerRequest Datastore where
  change := ManagerChange pool admits
  reconcile
    | .model key, first, later, ds, ds' => ∃ listing order,
        listing.Of { models := later.models } ∧ RangesOver order ds.models ∧
        ds' = match (InferenceModelReconciler.mk pool).reconcile
            (Cluster.client { models := first.models } { models := later.models } listing) order key ds with
          | some (_, ds') => ds'
          | none => (ds.modelDelete order key).2
    | .pods (.pod key), first, later, ds, ds' => ∃ result,
        PodReconciler.reconcile (first.client later {}) key ds = some (result, ds')
    | .pods .pool, first, later, ds, ds' => ∃ listing order result, listing.Of later ∧
        (∀ infPool, first.pools.lookup pool = some infPool →
          RangesOver order ((ds.poolSet infPool).podAddReady (later.listed listing infPool)).pods) ∧
        InferencePoolReconciler.reconcile (first.client later listing) order pool ds = (result, ds')

end InferenceGateway
