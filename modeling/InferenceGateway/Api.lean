import Mathlib.Data.Finmap
import InferenceGateway.Basic

namespace InferenceGateway

@[ext]
structure NamespacedName where
  ns : String
  name : String
deriving DecidableEq, Repr

/-! ## Objects

`metav1.Time` is a number of seconds; a nil `DeletionTimestamp` is `none`. -/

inductive Criticality
  | critical
  | standard
  | sheddable
deriving DecidableEq, Repr

structure PoolObjectReference where
  name : String
deriving DecidableEq, Repr

structure TargetModel where
  name : String
  weight : Option Int32 := none
deriving DecidableEq, Repr

structure InferenceModelSpec where
  modelName : String
  criticality : Option Criticality := none
  targetModels : List TargetModel := []
  poolRef : PoolObjectReference
deriving DecidableEq, Repr

/-- What the CRD's validation admits. -/
structure InferenceModelSpec.Valid (spec : InferenceModelSpec) : Prop where
  modelName : spec.modelName.length ≤ 256
  few : spec.targetModels.length ≤ 10
  names : ∀ target ∈ spec.targetModels, target.name.length ≤ 253
  weights : ∀ target ∈ spec.targetModels, ∀ weight ∈ target.weight, 1 ≤ weight ∧ weight ≤ 1000000
  allOrNone : (∀ target ∈ spec.targetModels, target.weight.isSome) ∨
    ∀ target ∈ spec.targetModels, target.weight = none

structure InferenceModel where
  ns : String
  name : String
  creationTimestamp : Int
  deletionTimestamp : Option Int := none
  spec : InferenceModelSpec
deriving DecidableEq, Repr

def InferenceModel.namespacedName (m : InferenceModel) : NamespacedName := ⟨m.ns, m.name⟩

abbrev Labels := Finmap (fun _ : String => String)

structure InferencePoolSpec where
  selector : Labels
  targetPortNumber : Int32
deriving DecidableEq

structure InferencePool where
  ns : String
  name : String
  deletionTimestamp : Option Int := none
  spec : InferencePoolSpec
deriving DecidableEq

def InferencePool.namespacedName (pool : InferencePool) : NamespacedName := ⟨pool.ns, pool.name⟩

inductive PodConditionType
  | ready
  | other (name : String)
deriving DecidableEq, Repr

inductive ConditionStatus
  | true
  | false
  | unknown
deriving DecidableEq, Repr

structure PodCondition where
  type : PodConditionType
  status : ConditionStatus
deriving DecidableEq, Repr

structure PodStatus where
  conditions : List PodCondition
  podIP : String
deriving DecidableEq, Repr

structure Pod where
  ns : String
  name : String
  labels : Labels
  deletionTimestamp : Option Int := none
  status : PodStatus
deriving DecidableEq

def Pod.namespacedName (pod : Pod) : NamespacedName := ⟨pod.ns, pod.name⟩

def podIsReady (pod : Pod) : Bool :=
  go pod.status.conditions
where
  go : List PodCondition → Bool
    | [] => false
    | condition :: rest =>
      if condition.type = .ready then
        -- the loop stops at the first Ready condition
        if condition.status = .true then true else false
      else go rest

/-- `selectorFromInferencePoolSelector(selector).Matches`: every label of the selector is on the
pod with the same value, so the empty selector matches everything. -/
def selectorFromInferencePoolSelector (selector labels : Labels) : Bool :=
  decide (∀ key ∈ selector.keys, labels.lookup key = selector.lookup key)

/-! ## The client -/

inductive ApiError
  | notFound (msg : String)
  | other (msg : String)
deriving DecidableEq, Repr

def ApiError.err : ApiError → Err
  | .notFound msg | .other msg => .new msg

structure Client where
  getInferenceModel : NamespacedName → Except ApiError InferenceModel
  -- MatchingFields{ModelNameIndexKey: modelName}, InNamespace(ns)
  listInferenceModels : (modelName ns : String) → Except ApiError (List InferenceModel)
  getInferencePool : NamespacedName → Except ApiError InferencePool
  getPod : NamespacedName → Except ApiError Pod
  -- ListOptions{LabelSelector: selector, Namespace: ns}
  listPods : (selector : Labels) → (ns : String) → Except ApiError (List Pod)

/-! ## The objects of the examples -/

def testPool : InferencePool := { ns := "default", name := "pool", spec := ⟨∅, 8000⟩ }

def testModel (name modelName : String) (creationTimestamp : Int) : InferenceModel where
  ns := "default"
  name := name
  creationTimestamp := creationTimestamp
  spec := { modelName := modelName, poolRef := ⟨"pool"⟩ }

def testPod (ns name podIP : String) : Pod where
  ns := ns
  name := name
  labels := ∅
  status := ⟨[⟨.ready, .true⟩], podIP⟩

def listingClient (pods : List Pod) : Client where
  getInferenceModel _ := .error (.notFound "not found")
  listInferenceModels _ _ := .ok []
  getInferencePool _ := .ok testPool
  getPod _ := .error (.notFound "not found")
  listPods _ _ := .ok pods

end InferenceGateway
