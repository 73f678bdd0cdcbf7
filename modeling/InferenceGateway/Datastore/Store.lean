import Mathlib.Data.Finmap
import InferenceGateway.Api

/-!
# The operations of `pkg/epp/datastore/datastore.go`

An operation that dereferences the pool returns `none` where the source panics on a nil pool. The
parameter `order` of an operation is the order in which its `range` visits the map.
-/

namespace InferenceGateway

structure BackendPod where
  namespacedName : NamespacedName
  address : String
deriving DecidableEq, Repr

def toInternalPod (pod : Pod) : BackendPod where
  namespacedName := pod.namespacedName
  address := pod.status.podIP

structure PodMetrics where
  ref : Nat  -- the objects are numbered as NewPodMetrics creates them
  pod : BackendPod
deriving DecidableEq, Repr

def PodMetrics.updatePod (pm : PodMetrics) (pod : Pod) : PodMetrics :=
  { pm with pod := toInternalPod pod }

/-- The `datastore` struct, with the number of `podMetrics` objects created so far and the objects
whose refresh loop was told to stop. -/
structure Datastore where
  pool : Option InferencePool := none
  models : Finmap (fun _ : String => InferenceModel) := ∅
  pods : Finmap (fun _ : NamespacedName => PodMetrics) := ∅
  created : Nat := 0
  stopped : List Nat := []

/-- A `range` over a Go map visits every key once, in an order of its own. -/
structure RangesOver {K V : Type} (order : List K) (map : Finmap (fun _ : K => V)) : Prop where
  nodup : order.Nodup
  visits : ∀ key, key ∈ order ↔ key ∈ map

theorem rangesOver_iff {K V : Type} [DecidableEq K] {order : List K} {map : Finmap (fun _ : K => V)} :
    RangesOver order map ↔ order.Nodup ∧ order.toFinset = map.keys := by
  constructor
  · rintro ⟨nodup, visits⟩
    refine ⟨nodup, ?_⟩
    ext key
    rw [List.mem_toFinset, visits, Finmap.mem_keys]
  · rintro ⟨nodup, same⟩
    refine ⟨nodup, fun key => ?_⟩
    rw [← List.mem_toFinset, same, Finmap.mem_keys]

theorem exists_rangesOver {K V : Type} [DecidableEq K] (map : Finmap (fun _ : K => V)) :
    ∃ order, RangesOver order map :=
  ⟨map.keys.toList, rangesOver_iff.mpr ⟨map.keys.nodup_toList, Finset.toList_toFinset _⟩⟩

instance {K V : Type} [DecidableEq K] (order : List K) (map : Finmap (fun _ : K => V)) :
    Decidable (RangesOver order map) := decidable_of_iff _ rangesOver_iff.symm

namespace Datastore

def clear (ds : Datastore) : Datastore :=
  { ds with pool := none, models := ∅, pods := ∅ }

/-! ## The pool -/

def errPoolNotSynced : Err := .new "InferencePool is not initialized in data store"

def poolSet (pool : InferencePool) (ds : Datastore) : Datastore :=
  { ds with pool := some pool }

def poolHasSynced (ds : Datastore) : Bool := ds.pool.isSome

def poolGet (ds : Datastore) : Except Err InferencePool :=
  match ds.pool with
  | none => .error errPoolNotSynced
  | some pool => .ok pool

def poolLabelsMatch (podLabels : Labels) (ds : Datastore) : Option Bool := do
  let pool ← ds.pool
  return selectorFromInferencePoolSelector pool.spec.selector podLabels

/-! ## Models -/

def modelSetIfOlder (infModel : InferenceModel) (ds : Datastore) : Bool × Datastore :=
  let set : Datastore := { ds with models := ds.models.insert infModel.spec.modelName infModel }
  match ds.models.lookup infModel.spec.modelName with
  | none => (true, set)
  | some existing =>
    let diffObj := infModel.name ≠ existing.name ∨ infModel.ns ≠ existing.ns
    if diffObj ∧ existing.creationTimestamp < infModel.creationTimestamp then (false, ds)
    else (true, set)

def oldest (pool : InferencePool) (modelName : String) (items : List InferenceModel) :
    Option InferenceModel :=
  items.foldl (fun oldest m =>
    if m.spec.modelName ≠ modelName ∨ m.spec.poolRef.name ≠ pool.name ∨ m.deletionTimestamp.isSome then
      oldest
    else
      match oldest with
      | none => some m
      | some older => if m.creationTimestamp < older.creationTimestamp then some m else some older)
    none

def modelResync (client : Client) (modelName : String) (ds : Datastore) :
    Option (Except Err Bool × Datastore) := do
  let pool ← ds.pool
  match client.listInferenceModels modelName pool.ns with
  | .error err =>
    return (.error (.wrap ("listing models that match the modelName " ++ modelName) (some err.err)), ds)
  | .ok items =>
    match oldest pool modelName items with
    -- also the early return on an empty list
    | none => return (.ok false, ds)
    | some m => return (.ok true, { ds with models := ds.models.insert modelName m })

def modelGet (modelName : String) (ds : Datastore) : Option InferenceModel :=
  ds.models.lookup modelName

def modelDelete (order : List String) (namespacedName : NamespacedName) (ds : Datastore) :
    Option InferenceModel × Datastore :=
  let found := order.findSome? fun key => (ds.models.lookup key).filter fun m =>
    m.name = namespacedName.name ∧ m.ns = namespacedName.ns
  match found with
  | none => (none, ds)
  | some m => (some m, { ds with models := ds.models.erase m.spec.modelName })

def modelGetAll (order : List String) (ds : Datastore) : List InferenceModel :=
  order.filterMap ds.models.lookup

def isCritical (model : InferenceModel) : Bool :=
  model.spec.criticality = some .critical

/-! ## Pods -/

def podList (order : List NamespacedName) (predicate : PodMetrics → Bool) (ds : Datastore) :
    List PodMetrics :=
  (order.filterMap ds.pods.lookup).filter predicate

def podGetAll (order : List NamespacedName) (ds : Datastore) : List PodMetrics :=
  ds.podList order fun _ => true

def podUpdateOrAddIfNotExist (pod : Pod) (ds : Datastore) : Bool × Datastore :=
  match ds.pods.lookup pod.namespacedName with
  | none =>
    let pm : PodMetrics := ⟨ds.created, toInternalPod pod⟩
    (false, { ds with
      pods := ds.pods.insert pod.namespacedName (pm.updatePod pod), created := ds.created + 1 })
  | some existing =>
    (true, { ds with pods := ds.pods.insert pod.namespacedName (existing.updatePod pod) })

def podDelete (namespacedName : NamespacedName) (ds : Datastore) : Datastore :=
  match ds.pods.lookup namespacedName with
  | none => ds
  | some pm => { ds with pods := ds.pods.erase namespacedName, stopped := pm.ref :: ds.stopped }

def podDeleteInactive (activePods : List String) (key : NamespacedName) (ds : Datastore) : Datastore :=
  match ds.pods.lookup key with
  | none => ds
  | some pm =>
    if pm.pod.namespacedName.name ∈ activePods then ds else ds.podDelete pm.pod.namespacedName

def podAddReady (items : List Pod) (ds : Datastore) : Datastore :=
  (items.filter podIsReady).foldl (fun ds pod => (ds.podUpdateOrAddIfNotExist pod).2) ds

def podResyncAll (client : Client) (pool : InferencePool) (order : List NamespacedName)
    (ds : Datastore) : Datastore :=
  match client.listPods pool.spec.selector pool.ns with
  -- the error is only logged
  | .error _ => ds
  | .ok items =>
    let activePods := (items.filter podIsReady).map Pod.name
    order.foldl (fun ds key => ds.podDeleteInactive activePods key) (ds.podAddReady items)

end Datastore

end InferenceGateway
