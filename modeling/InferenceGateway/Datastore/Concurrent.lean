import InferenceGateway.Datastore.Store
import InferenceGateway.Lib.Threads

/-!
# Concurrent calls on the pods map

The calls of `pkg/epp/datastore/datastore.go` that change the pods map, cut into the steps that are
atomic: one operation of the `sync.Map`, one access to the pod pointer of a `podMetrics`, one call of
`NewPodMetrics` or `StopRefreshLoop`. The map holds pointers, so an object is known by its number.
-/

namespace InferenceGateway.Datastore.Concurrent
open Lib

structure Heap where
  created : Nat := 0
  -- the pod pointer of each podMetrics
  pod : Nat → BackendPod := fun _ => ⟨⟨"", ""⟩, ""⟩
  pods : Finmap (fun _ : NamespacedName => Nat) := ∅
  -- the objects whose done channel is closed, the last one first
  stops : List Nat := []

inductive Call
  | podUpdateOrAddIfNotExist (pod : Pod)
  | podDelete (namespacedName : NamespacedName)
  | podResyncAll (client : Client) (pool : InferencePool)
  | clear
  -- the Range of a PodResyncAll, with the keys it has visited
  | range (activePods : List String) (visited : List NamespacedName)

inductive Pc
  | newPodMetrics (pod : Pod)
  | store (pod : Pod) (pm : Nat)
  | updatePod (pod : Pod) (pm : Nat)
  | stopRefreshLoop (pm : Nat)
  | deleteFn (activePods : List String) (pm : Nat)
  | deleteFnRemoves (pm : Nat)

structure Goroutine where
  pc : Option Pc := none
  todo : List Call

/-- One step of a goroutine. The key that a `Range` visits next is its own choice, as is when it
ends; closing a closed channel panics. -/
def Goroutine.step (visit : Option NamespacedName) : Goroutine → Heap → Option (Goroutine × Heap)
  | ⟨none, []⟩, heap => some (⟨none, []⟩, heap)
  | ⟨none, .podUpdateOrAddIfNotExist pod :: todo⟩, heap =>
    match heap.pods.lookup pod.namespacedName with
    | none => some (⟨some (.newPodMetrics pod), todo⟩, heap)
    | some existing => some (⟨some (.updatePod pod existing), todo⟩, heap)
  | ⟨none, .podDelete namespacedName :: todo⟩, heap =>
    match heap.pods.lookup namespacedName with
    | none => some (⟨none, todo⟩, heap)
    | some pmr =>
      some (⟨some (.stopRefreshLoop pmr), todo⟩, { heap with pods := heap.pods.erase namespacedName })
  | ⟨none, .podResyncAll client pool :: todo⟩, heap =>
    match client.listPods pool.spec.selector pool.ns with
    | .error _ => some (⟨none, todo⟩, heap)
    | .ok items =>
      let ready := items.filter podIsReady
      some (⟨none, ready.map .podUpdateOrAddIfNotExist ++ .range (ready.map Pod.name) [] :: todo⟩, heap)
  | ⟨none, .clear :: todo⟩, heap => some (⟨none, todo⟩, { heap with pods := ∅ })
  | ⟨none, .range activePods visited :: todo⟩, heap =>
    match visit.map fun key => (key, if key ∈ visited then none else heap.pods.lookup key) with
    | none => some (⟨none, todo⟩, heap)
    | some (_, none) => some (⟨none, .range activePods visited :: todo⟩, heap)
    | some (key, some pm) =>
      some (⟨some (.deleteFn activePods pm), .range activePods (key :: visited) :: todo⟩, heap)
  | ⟨some (.newPodMetrics pod), todo⟩, heap =>
    some (⟨some (.store pod heap.created), todo⟩,
      { heap with created := heap.created + 1, pod := Function.update heap.pod heap.created (toInternalPod pod) })
  | ⟨some (.store pod pm), todo⟩, heap =>
    some (⟨some (.updatePod pod pm), todo⟩, { heap with pods := heap.pods.insert pod.namespacedName pm })
  | ⟨some (.updatePod pod pm), todo⟩, heap =>
    some (⟨none, todo⟩, { heap with pod := Function.update heap.pod pm (toInternalPod pod) })
  | ⟨some (.stopRefreshLoop pm), todo⟩, heap =>
    if pm ∈ heap.stops then none else some (⟨none, todo⟩, { heap with stops := pm :: heap.stops })
  | ⟨some (.deleteFn activePods pm), todo⟩, heap =>
    if (heap.pod pm).namespacedName.name ∈ activePods then some (⟨none, todo⟩, heap)
    else some (⟨some (.deleteFnRemoves pm), todo⟩, heap)
  | ⟨some (.deleteFnRemoves pm), todo⟩, heap =>
    some (⟨none, .podDelete (heap.pod pm).namespacedName :: todo⟩, heap)

abbrev State (ι : Type) := Threads.State ι Goroutine Heap

def start {ι : Type} (program : ι → List Call) : State ι where
  threads := fun i => { todo := program i }
  shared := {}

/-- The goroutines run their calls on an empty map, in turns as scheduled; `none` if one panics. -/
def run {ι : Type} [DecidableEq ι] (program : ι → List Call) (schedule : List (ι × Option NamespacedName)) :
    Option (State ι) :=
  Threads.run Goroutine.step schedule (start program)

end InferenceGateway.Datastore.Concurrent
