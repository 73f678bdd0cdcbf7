import InferenceGateway.Datastore.Store

/-!
The reconcilers of `pkg/epp/controller`. The client and the datastore are arguments; `none` is a
panic in the datastore, and `order` is the order in which the datastore visits a map.
-/

namespace InferenceGateway

/-! ## InferenceModels -/

structure InferenceModelReconciler where
  poolNamespacedName : NamespacedName

namespace InferenceModelReconciler

def handleModelDeleted (client : Client) (order : List String) (req : NamespacedName) (ds : Datastore) :
    Option (Except Err Unit × Datastore) :=
  match ds.modelDelete order req with
  | (none, ds) => return (.ok (), ds)
  | (some existing, ds) => do
    let (updated, ds) ← ds.modelResync client existing.spec.modelName
    return (updated.map fun _ => (), ds)

def reconcile (c : InferenceModelReconciler) (client : Client) (order : List String)
    (req : NamespacedName) (ds : Datastore) : Option (Except Err Unit × Datastore) :=
  match client.getInferenceModel req with
  | .error (.other msg) => return (.error (.new msg), ds)
  | .error (.notFound _) => handleModelDeleted client order req ds
  | .ok infModel =>
    if infModel.deletionTimestamp.isSome ∨ infModel.spec.poolRef.name ≠ c.poolNamespacedName.name then
      handleModelDeleted client order req ds
    else return (.ok (), (ds.modelSetIfOlder infModel).2)

def eventPredicate (c : InferenceModelReconciler) (infModel : InferenceModel) : Bool :=
  infModel.spec.poolRef.name = c.poolNamespacedName.name

def createFunc (c : InferenceModelReconciler) (object : InferenceModel) : Bool := c.eventPredicate object

def updateFunc (c : InferenceModelReconciler) (objectOld objectNew : InferenceModel) : Bool :=
  c.eventPredicate objectOld || c.eventPredicate objectNew

def deleteFunc (c : InferenceModelReconciler) (object : InferenceModel) : Bool := c.eventPredicate object

end InferenceModelReconciler

/-! ## Pods -/

namespace PodReconciler

def updateDatastore (pod : Pod) (ds : Datastore) : Option Datastore :=
  if pod.deletionTimestamp.isSome then return ds.podDelete pod.namespacedName
  else do
    let labelsMatch ← ds.poolLabelsMatch pod.labels
    if !labelsMatch || !podIsReady pod then return ds.podDelete pod.namespacedName
    else return (ds.podUpdateOrAddIfNotExist pod).2

def reconcile (client : Client) (req : NamespacedName) (ds : Datastore) :
    Option (Except Err Unit × Datastore) :=
  match ds.poolGet with
  | .error _ => return (.ok (), ds)
  | .ok _ =>
    match client.getPod req with
    | .error (.notFound _) => return (.ok (), ds.podDelete req)
    | .error (.other msg) => return (.error (.new msg), ds)
    | .ok pod => do
      let ds ← updateDatastore pod ds
      return (.ok (), ds)

end PodReconciler

/-! ## The InferencePool -/

namespace InferencePoolReconciler

def updateDatastore (client : Client) (order : List NamespacedName) (newPool : InferencePool)
    (ds : Datastore) : Datastore :=
  let oldPool := ds.poolGet
  -- stored before the pods are listed
  let ds := ds.poolSet newPool
  match oldPool with
  | .error _ => ds.podResyncAll client newPool order
  | .ok oldPool =>
    if newPool.spec.selector ≠ oldPool.spec.selector then ds.podResyncAll client newPool order else ds

def reconcile (client : Client) (order : List NamespacedName) (req : NamespacedName) (ds : Datastore) :
    Except Err Unit × Datastore :=
  match client.getInferencePool req with
  | .error (.notFound _) => (.ok (), ds.clear)
  | .error (.other msg) => (.error (.new msg), ds)
  | .ok infPool =>
    if infPool.deletionTimestamp.isSome then (.ok (), ds.clear)
    else (.ok (), updateDatastore client order infPool ds)

end InferencePoolReconciler

end InferenceGateway
