import InferenceGateway.Datastore.Locking
import InferenceGateway.Datastore.Store
import InferenceGateway.Lib.Locked

/-!
# Concurrent calls on the pool and the models

The calls of `pkg/epp/datastore/datastore.go` that take `poolAndModelsMu`, cut into their accesses to the
fields that it guards. A goroutine may lose the processor between two of them. The list of a ModelResync
is a parameter, as is the order in which a `range` visits the map that it finds; a nil pool that is
dereferenced is a panic, after which the deferred call still unlocks.
-/

namespace InferenceGateway.Datastore
open Lib Lib.Locked Lib.Locked.Prog

abbrev Models := Finmap fun _ : String => InferenceModel

structure Guarded where
  pool : Option InferencePool := none
  models : Models := ∅

structure RangeOrder where
  keys : Models → List String
  ranges : ∀ models, RangesOver (keys models) models

inductive LockedCall
  | clear
  | poolSet (pool : InferencePool)
  | poolGet
  | poolHasSynced
  | poolLabelsMatch (podLabels : Labels)
  | modelSetIfOlder (infModel : InferenceModel)
  | modelResync (client : Client) (modelName : String)
  | modelGet (modelName : String)
  | modelDelete (order : RangeOrder) (namespacedName : NamespacedName)
  | modelGetAll (order : RangeOrder)

def LockedCall.op : LockedCall → Op
  | .clear => .clear
  | .poolSet _ => .poolSet
  | .poolGet => .poolGet
  | .poolHasSynced => .poolHasSynced
  | .poolLabelsMatch _ => .poolLabelsMatch
  | .modelSetIfOlder _ => .modelSetIfOlder
  | .modelResync _ _ => .modelResync
  | .modelGet _ => .modelGet
  | .modelDelete _ _ => .modelDelete
  | .modelGetAll _ => .modelGetAll

def LockedCall.Result : LockedCall → Type
  | .clear | .poolSet _ => Unit
  -- the pointer that is returned may be nil
  | .poolGet => Except Err (Option InferencePool)
  | .poolHasSynced => Bool
  | .poolLabelsMatch _ => Option Bool
  | .modelSetIfOlder _ => Bool
  | .modelResync _ _ => Option (Except Err Bool)
  | .modelGet _ | .modelDelete _ _ => Option InferenceModel
  | .modelGetAll _ => List InferenceModel

/-! ## Access by access -/

namespace Guarded

def clear : Prog Guarded Unit := do
  write fun ds => { ds with pool := none }
  write fun ds => { ds with models := ∅ }
  -- the pods are in a sync.Map
  return ()

def poolSet (pool : InferencePool) : Prog Guarded Unit := write fun ds => { ds with pool := some pool }

def poolHasSynced : Prog Guarded Bool := read fun ds => ds.pool.isSome

def poolGet : Prog Guarded (Except Err (Option InferencePool)) := do
  if !(← poolHasSynced) then return .error errPoolNotSynced
  return .ok (← read fun ds => ds.pool)

def poolLabelsMatch (podLabels : Labels) : Prog Guarded (Option Bool) := do
  let pool ← read fun ds => ds.pool
  return pool.map fun pool => selectorFromInferencePoolSelector pool.spec.selector podLabels

def modelSetIfOlder (infModel : InferenceModel) : Prog Guarded Bool := do
  let existing ← read fun ds => ds.models.lookup infModel.spec.modelName
  if existing.any fun existing => (infModel.name ≠ existing.name ∨ infModel.ns ≠ existing.ns) ∧
      existing.creationTimestamp < infModel.creationTimestamp then
    return false
  write fun ds => { ds with models := ds.models.insert infModel.spec.modelName infModel }
  return true

/-- The loop of ModelResync, which dereferences the pool for every item that has the name; `none` is a
panic. -/
def oldest (modelName : String) : List InferenceModel → Option InferenceModel →
    Prog Guarded (Option (Option InferenceModel))
  | [], oldest => return some oldest
  | m :: items, older => do
    if m.spec.modelName ≠ modelName then oldest modelName items older
    else
      match ← read fun ds => ds.pool with
      | none => return none
      | some pool =>
        if m.spec.poolRef.name ≠ pool.name ∨ m.deletionTimestamp.isSome then oldest modelName items older
        else
          let older := match older with
            | none => m
            | some older => if m.creationTimestamp < older.creationTimestamp then m else older
          oldest modelName items (some older)

def modelResync (client : Client) (modelName : String) : Prog Guarded (Option (Except Err Bool)) := do
  match ← read fun ds => ds.pool with
  | none => return none
  | some pool =>
    match client.listInferenceModels modelName pool.ns with
    | .error err =>
      return some (.error (.wrap ("listing models that match the modelName " ++ modelName) (some err.err)))
    | .ok [] => return some (.ok false)
    | .ok items =>
      match ← oldest modelName items none with
      | none => return none
      | some none => return some (.ok false)
      | some (some oldest) =>
        write fun ds => { ds with models := ds.models.insert modelName oldest }
        return some (.ok true)

def modelGet (modelName : String) : Prog Guarded (Option InferenceModel) :=
  read fun ds => ds.models.lookup modelName

def deleteFirst (namespacedName : NamespacedName) : List String → Prog Guarded (Option InferenceModel)
  | [] => return none
  | key :: keys => do
    match ← read fun ds => ds.models.lookup key with
    | none => deleteFirst namespacedName keys
    | some m =>
      if m.name = namespacedName.name ∧ m.ns = namespacedName.ns then
        write fun ds => { ds with models := ds.models.erase m.spec.modelName }
        return some m
      else deleteFirst namespacedName keys

def modelDelete (order : RangeOrder) (namespacedName : NamespacedName) : Prog Guarded (Option InferenceModel) := do
  deleteFirst namespacedName (← read fun ds => order.keys ds.models)

def collect : List String → List InferenceModel → Prog Guarded (List InferenceModel)
  | [], res => return res
  | key :: keys, res => do
    match ← read fun ds => ds.models.lookup key with
    | none => collect keys res
    | some m => collect keys (res ++ [m])

def modelGetAll (order : RangeOrder) : Prog Guarded (List InferenceModel) := do
  collect (← read fun ds => order.keys ds.models) []

end Guarded

def LockedCall.program : (call : LockedCall) → Prog Guarded call.Result
  | .clear => Guarded.clear
  | .poolSet pool => Guarded.poolSet pool
  | .poolGet => Guarded.poolGet
  | .poolHasSynced => Guarded.poolHasSynced
  | .poolLabelsMatch podLabels => Guarded.poolLabelsMatch podLabels
  | .modelSetIfOlder infModel => Guarded.modelSetIfOlder infModel
  | .modelResync client modelName => Guarded.modelResync client modelName
  | .modelGet modelName => Guarded.modelGet modelName
  | .modelDelete order namespacedName => Guarded.modelDelete order namespacedName
  | .modelGetAll order => Guarded.modelGetAll order

/-! ## At once -/

/-- The same calls as operations of the store. After a panic the store is as the call found it. -/
def LockedCall.run : (call : LockedCall) → Datastore → call.Result × Datastore
  | .clear, ds => ((), ds.clear)
  | .poolSet pool, ds => ((), ds.poolSet pool)
  | .poolGet, ds => (ds.poolGet.map some, ds)
  | .poolHasSynced, ds => (ds.poolHasSynced, ds)
  | .poolLabelsMatch podLabels, ds => (ds.poolLabelsMatch podLabels, ds)
  | .modelSetIfOlder infModel, ds => ds.modelSetIfOlder infModel
  | .modelResync client modelName, ds =>
    let resynced := ds.modelResync client modelName
    (resynced.map Prod.fst, resynced.elim ds Prod.snd)
  | .modelGet modelName, ds => (ds.modelGet modelName, ds)
  | .modelDelete order namespacedName, ds => ds.modelDelete (order.keys ds.models) namespacedName
  | .modelGetAll order, ds => (ds.modelGetAll (order.keys ds.models), ds)

def guarded (ds : Datastore) : Guarded := ⟨ds.pool, ds.models⟩

/-- Goroutines that make these calls, one access at a time. -/
abbrev Callers (ι : Type) := Locked.State ι Guarded LockedCall.Result

def callers {ι : Type} (calls : ι → List LockedCall) (ds : Datastore) : Callers ι := Locked.start calls ds.guarded

abbrev CallersReach {ι : Type} [DecidableEq ι] : Callers ι → Callers ι → Prop :=
  Locked.Reaches LockedCall.program fun call => call.op.writes

end InferenceGateway.Datastore
