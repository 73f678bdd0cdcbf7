import InferenceGateway.Controller.Concurrent
import InferenceGateway.Proof.Controller.Manager

/-!
What a call of a reconciler can do, once for each reconciler: where the reconcile goes on, what is left in
memory, and what has been read or found on the way. The results about runs go through these cases and not
through the code of the calls.
-/

namespace InferenceGateway
open Lib.Workqueue

variable {memory memory' : Memory} {client : Client}

/-! ## PodUpdateOrAddIfNotExist -/

inductive PodUpdate.Goes (pod : Pod) (memory : Memory) : PodUpdate → Option PodUpdate → Memory → Prop
  | created (absent : memory.ds.pods.lookup pod.namespacedName = none) :
      Goes pod memory .load (some (.store (memory.newPodMetrics pod).1)) (memory.newPodMetrics pod).2
  | loaded {existing : PodMetrics} (found : memory.ds.pods.lookup pod.namespacedName = some existing) :
      Goes pod memory .load (some (.updatePod existing.ref)) memory
  | stored {pm : PodMetrics} :
      Goes pod memory (.store pm) (some (.updatePod pm.ref))
        { memory with ds := { memory.ds with pods := memory.ds.pods.insert pod.namespacedName pm } }
  | updated {pm : PodMetrics} (found : memory.ds.pods.lookup pod.namespacedName = some pm) :
      Goes pod memory (.updatePod pm.ref) none
        { ds := { memory.ds with pods := memory.ds.pods.insert pod.namespacedName (pm.updatePod pod) }
          heap := Function.update memory.heap pm.ref (some (toInternalPod pod)) }
  -- the object has been replaced
  | replaced {ref : Nat} (other : ∀ pm, memory.ds.pods.lookup pod.namespacedName = some pm → pm.ref ≠ ref) :
      Goes pod memory (.updatePod ref) none
        { memory with heap := Function.update memory.heap ref (some (toInternalPod pod)) }

theorem PodUpdate.Goes.of_next {pod : Pod} {call : PodUpdate} {call' : Option PodUpdate}
    (taken : call.next pod memory = (call', memory')) : Goes pod memory call call' memory' := by
  cases call with
  | load =>
      cases found : memory.ds.pods.lookup pod.namespacedName with
      | none =>
          simp only [next, found] at taken
          cases taken
          exact .created found
      | some existing =>
          simp only [next, found] at taken
          cases taken
          exact .loaded found
  | store pm =>
      cases taken
      exact .stored
  | updatePod ref =>
      cases taken
      cases found : memory.ds.pods.lookup pod.namespacedName with
      | none =>
          simp only [Memory.updatePod, found]
          exact .replaced (by simp [found])
      | some pm =>
          by_cases same : pm.ref = ref
          · cases same
            simp only [Memory.updatePod, found, if_true]
            exact .updated found
          · simp only [Memory.updatePod, found, if_neg same]
            exact .replaced (by simpa [found] using same)

/-! ## InferenceModels -/

namespace InferenceModelReconciler

inductive Pc.Goes (c : InferenceModelReconciler) (client : Client) (memory : Memory) : Pc → Pc → Memory → Prop
  | readFailed {req : NamespacedName} {msg : String} (failed : client.getInferenceModel req = .error (.other msg)) :
      Goes c client memory (.get req) (.failed req) memory
  | notFound {req : NamespacedName} {msg : String} (absent : client.getInferenceModel req = .error (.notFound msg)) :
      Goes c client memory (.get req) (.modelDelete req) memory
  | refused {req : NamespacedName} {m : InferenceModel} (read : client.getInferenceModel req = .ok m)
      (dead : m.deletionTimestamp ≠ none ∨ m.spec.poolRef.name ≠ c.poolNamespacedName.name) :
      Goes c client memory (.get req) (.modelDelete req) memory
  | accepted {req : NamespacedName} {m : InferenceModel} (read : client.getInferenceModel req = .ok m)
      (unmarked : m.deletionTimestamp = none) (ours : m.spec.poolRef.name = c.poolNamespacedName.name) :
      Goes c client memory (.get req) (.modelSetIfOlder m) memory
  | keptOut {m : InferenceModel} (keepsOut : memory.ds.KeepsOut m) :
      Goes c client memory (.modelSetIfOlder m) .returned memory
  | set {m : InferenceModel} (free : ¬memory.ds.KeepsOut m) :
      Goes c client memory (.modelSetIfOlder m) .returned
        { memory with ds := memory.ds.withModels (memory.ds.models.insert m.spec.modelName m) }
  | notStored {req : NamespacedName}
      (noEntry : ∀ name m, memory.ds.models.lookup name = some m → m.namespacedName ≠ req) :
      Goes c client memory (.modelDelete req) .returned memory
  | deleted {req : NamespacedName} {name : String} {existing : InferenceModel}
      (stored : memory.ds.models.lookup name = some existing) (own : existing.namespacedName = req) :
      Goes c client memory (.modelDelete req) (.modelResync req existing.spec.modelName)
        { memory with ds := memory.ds.withModels (memory.ds.models.erase existing.spec.modelName) }
  | unsynced {req : NamespacedName} {modelName : String} (none : memory.ds.pool = none) :
      Goes c client memory (.modelResync req modelName) (.failed req) memory
  | listFailed {req : NamespacedName} {modelName : String} {infPool : InferencePool} {err : ApiError}
      (pooled : memory.ds.pool = some infPool) (failed : client.listInferenceModels modelName infPool.ns = .error err) :
      Goes c client memory (.modelResync req modelName) (.failed req) memory
  | noneLeft {req : NamespacedName} {modelName : String} {infPool : InferencePool} {items : List InferenceModel}
      (pooled : memory.ds.pool = some infPool) (listed : client.listInferenceModels modelName infPool.ns = .ok items)
      (none : Datastore.oldest infPool modelName items = none) :
      Goes c client memory (.modelResync req modelName) .returned memory
  | resynced {req : NamespacedName} {modelName : String} {infPool : InferencePool} {items : List InferenceModel}
      {m : InferenceModel} (pooled : memory.ds.pool = some infPool)
      (listed : client.listInferenceModels modelName infPool.ns = .ok items)
      (oldest : Datastore.oldest infPool modelName items = some m) :
      Goes c client memory (.modelResync req modelName) .returned
        { memory with ds := memory.ds.withModels (memory.ds.models.insert modelName m) }
  | returned : Goes c client memory .returned .returned memory
  | failed {req : NamespacedName} : Goes c client memory (.failed req) (.failed req) memory

theorem Pc.Goes.of_next {c : InferenceModelReconciler} {order : List String} {pc pc' : Pc}
    (ranges : RangesOver order memory.ds.models) (taken : pc.next c client order memory = (pc', memory')) :
    Goes c client memory pc pc' memory' := by
  cases pc with
  | get req =>
      simp only [next] at taken
      split at taken
      · cases taken
        exact .readFailed ‹_›
      · cases taken
        exact .notFound ‹_›
      · rename_i m read
        split at taken
        · rename_i dead
          cases taken
          exact .refused read (dead.imp_left Option.isSome_iff_ne_none.mp)
        · rename_i live
          cases taken
          simp only [not_or, Option.isSome_iff_ne_none, not_not] at live
          exact .accepted read live.1 live.2
  | modelSetIfOlder m =>
      cases taken
      by_cases keepsOut : memory.ds.KeepsOut m
      · rw [Datastore.modelSetIfOlder_of_keepsOut keepsOut]
        exact .keptOut keepsOut
      · rw [Datastore.modelSetIfOlder_of_not_keepsOut keepsOut]
        exact .set keepsOut
  | modelDelete req =>
      simp only [next] at taken
      rcases Datastore.modelDelete_cases ranges req with ⟨kept, noEntry⟩ | ⟨name, existing, stored, own, deleted⟩
      · rw [kept] at taken
        cases taken
        exact .notStored noEntry
      · rw [deleted] at taken
        cases taken
        exact .deleted stored own
  | modelResync req modelName =>
      simp only [next] at taken
      cases pooled : memory.ds.pool with
      | none =>
          simp only [Datastore.modelResync, pooled, Option.bind_eq_bind, Option.bind_none] at taken
          cases taken
          exact .unsynced pooled
      | some infPool =>
          cases listed : client.listInferenceModels modelName infPool.ns with
          | error err =>
              obtain ⟨_, failed⟩ := memory.ds.modelResync_of_error client modelName pooled listed
              rw [failed] at taken
              cases taken
              exact .listFailed pooled listed
          | ok items =>
              obtain ⟨_, updated⟩ := memory.ds.modelResync_of_ok client modelName pooled listed
              rw [updated] at taken
              cases oldest : Datastore.oldest infPool modelName items with
              | none =>
                  rw [oldest] at taken
                  cases taken
                  exact .noneLeft pooled listed oldest
              | some m =>
                  rw [oldest] at taken
                  cases taken
                  exact .resynced pooled listed oldest
  | returned =>
      cases taken
      exact .returned
  | failed req =>
      cases taken
      exact .failed

end InferenceModelReconciler

/-! ## Pods -/

namespace PodReconciler

inductive Pc.Goes (client : Client) (memory : Memory) : Pc → Pc → Memory → Prop
  | unsynced {req : NamespacedName} (none : memory.ds.pool = none) : Goes client memory (.poolGet req) .returned memory
  | synced {req : NamespacedName} {infPool : InferencePool} (pooled : memory.ds.pool = some infPool) :
      Goes client memory (.poolGet req) (.get req) memory
  | readFailed {req : NamespacedName} {msg : String} (failed : client.getPod req = .error (.other msg)) :
      Goes client memory (.get req) (.failed req) memory
  | notFound {req : NamespacedName} {msg : String} (absent : client.getPod req = .error (.notFound msg)) :
      Goes client memory (.get req) (.podDelete req) memory
  | marked {req : NamespacedName} {pod : Pod} (read : client.getPod req = .ok pod)
      (marked : pod.deletionTimestamp ≠ none) : Goes client memory (.get req) (.podDelete pod.namespacedName) memory
  | unmarked {req : NamespacedName} {pod : Pod} (read : client.getPod req = .ok pod)
      (unmarked : pod.deletionTimestamp = none) : Goes client memory (.get req) (.poolLabelsMatch req pod) memory
  -- the pool has been cleared since PoolGet
  | cleared {req : NamespacedName} {pod : Pod} (none : memory.ds.pool = none) :
      Goes client memory (.poolLabelsMatch req pod) (.failed req) memory
  | refused {req : NamespacedName} {pod : Pod} {infPool : InferencePool} (pooled : memory.ds.pool = some infPool)
      (unfit : resyncable infPool.spec.selector pod = false) :
      Goes client memory (.poolLabelsMatch req pod) (.podDelete pod.namespacedName) memory
  | accepted {req : NamespacedName} {pod : Pod} {infPool : InferencePool} (pooled : memory.ds.pool = some infPool)
      (fits : resyncable infPool.spec.selector pod = true) :
      Goes client memory (.poolLabelsMatch req pod) (.podUpdateOrAddIfNotExist pod .load) memory
  | deleted {key : NamespacedName} :
      Goes client memory (.podDelete key) .returned { memory with ds := memory.ds.podDelete key }
  | updates {pod : Pod} {call call' : PodUpdate} {memory' : Memory}
      (called : PodUpdate.Goes pod memory call (some call') memory') :
      Goes client memory (.podUpdateOrAddIfNotExist pod call) (.podUpdateOrAddIfNotExist pod call') memory'
  | updated {pod : Pod} {call : PodUpdate} {memory' : Memory} (called : PodUpdate.Goes pod memory call none memory') :
      Goes client memory (.podUpdateOrAddIfNotExist pod call) .returned memory'
  | returned : Goes client memory .returned .returned memory
  | failed {req : NamespacedName} : Goes client memory (.failed req) (.failed req) memory

theorem Pc.Goes.of_next {pc pc' : Pc} (taken : pc.next client memory = (pc', memory')) :
    Goes client memory pc pc' memory' := by
  cases pc with
  | poolGet req =>
      cases pooled : memory.ds.pool with
      | none =>
          simp only [next, Datastore.poolGet, pooled] at taken
          cases taken
          exact .unsynced pooled
      | some infPool =>
          simp only [next, Datastore.poolGet, pooled] at taken
          cases taken
          exact .synced pooled
  | get req =>
      simp only [next] at taken
      split at taken
      · cases taken
        exact .notFound ‹_›
      · cases taken
        exact .readFailed ‹_›
      · rename_i pod read
        split at taken
        · rename_i marked
          cases taken
          exact .marked read (Option.isSome_iff_ne_none.mp marked)
        · rename_i unmarked
          cases taken
          exact .unmarked read (Option.not_isSome_iff_eq_none.mp unmarked)
  | poolLabelsMatch req pod =>
      cases pooled : memory.ds.pool with
      | none =>
          simp only [next, Datastore.poolLabelsMatch, pooled, Option.bind_eq_bind, Option.bind_none] at taken
          cases taken
          exact .cleared pooled
      | some infPool =>
          simp only [next, Datastore.poolLabelsMatch, pooled, Option.bind_eq_bind, Option.bind_some,
            Option.pure_def, ← Bool.not_and, Bool.not_eq_true', Bool.and_comm _ (podIsReady pod)] at taken
          split at taken
          · rename_i unfit
            cases taken
            exact .refused pooled unfit
          · rename_i fits
            cases taken
            exact .accepted pooled (Bool.not_eq_false _ ▸ fits)
  | podDelete key =>
      cases taken
      exact .deleted
  | podUpdateOrAddIfNotExist pod call =>
      simp only [next] at taken
      split at taken
      · rename_i called
        cases taken
        exact .updates (.of_next called)
      · rename_i called
        cases taken
        exact .updated (.of_next called)
  | returned =>
      cases taken
      exact .returned
  | failed req =>
      cases taken
      exact .failed

end PodReconciler

/-! ## The InferencePool -/

namespace InferencePoolReconciler

inductive Pc.Goes (client : Client) (visit : Option NamespacedName) (memory : Memory) : Pc → Pc → Memory → Prop
  | readFailed {req : NamespacedName} {msg : String} (failed : client.getInferencePool req = .error (.other msg)) :
      Goes client visit memory (.get req) .failed memory
  | notFound {req : NamespacedName} {msg : String} (absent : client.getInferencePool req = .error (.notFound msg)) :
      Goes client visit memory (.get req) .clear memory
  | marked {req : NamespacedName} {infPool : InferencePool} (read : client.getInferencePool req = .ok infPool)
      (marked : infPool.deletionTimestamp ≠ none) : Goes client visit memory (.get req) .clear memory
  | unmarked {req : NamespacedName} {infPool : InferencePool} (read : client.getInferencePool req = .ok infPool)
      (unmarked : infPool.deletionTimestamp = none) : Goes client visit memory (.get req) (.poolGet infPool) memory
  | cleared : Goes client visit memory .clear .returned { memory with ds := memory.ds.clear }
  | first {newPool : InferencePool} (none : memory.ds.pool = none) :
      Goes client visit memory (.poolGet newPool) (.poolSet newPool true) memory
  | compared {newPool oldPool : InferencePool} (pooled : memory.ds.pool = some oldPool) :
      Goes client visit memory (.poolGet newPool)
        (.poolSet newPool (newPool.spec.selector ≠ oldPool.spec.selector)) memory
  | set {newPool : InferencePool} :
      Goes client visit memory (.poolSet newPool false) .returned { memory with ds := memory.ds.poolSet newPool }
  | resyncs {newPool : InferencePool} :
      Goes client visit memory (.poolSet newPool true) (.listPods newPool)
        { memory with ds := memory.ds.poolSet newPool }
  | listFailed {newPool : InferencePool} {err : ApiError}
      (failed : client.listPods newPool.spec.selector newPool.ns = .error err) :
      Goes client visit memory (.listPods newPool) .returned memory
  | listed {newPool : InferencePool} {items : List Pod}
      (listed : client.listPods newPool.spec.selector newPool.ns = .ok items) :
      Goes client visit memory (.listPods newPool)
        (.podUpdateOrAddIfNotExist ((items.filter podIsReady).map Pod.name) (items.filter podIsReady) .load) memory
  | added {activePods : List String} {call : PodUpdate} :
      Goes client visit memory (.podUpdateOrAddIfNotExist activePods [] call) (.range activePods []) memory
  | updates {activePods : List String} {pod : Pod} {items : List Pod} {call call' : PodUpdate} {memory' : Memory}
      (called : PodUpdate.Goes pod memory call (some call') memory') :
      Goes client visit memory (.podUpdateOrAddIfNotExist activePods (pod :: items) call)
        (.podUpdateOrAddIfNotExist activePods (pod :: items) call') memory'
  | updated {activePods : List String} {pod : Pod} {items : List Pod} {call : PodUpdate} {memory' : Memory}
      (called : PodUpdate.Goes pod memory call none memory') :
      Goes client visit memory (.podUpdateOrAddIfNotExist activePods (pod :: items) call)
        (.podUpdateOrAddIfNotExist activePods items .load) memory'
  | ended {activePods : List String} {visited : List NamespacedName} (ends : visit = none) :
      Goes client visit memory (.range activePods visited) .returned memory
  | passed {activePods : List String} {visited : List NamespacedName} {key : NamespacedName}
      (visits : visit = some key) (skips : key ∈ visited ∨ memory.ds.pods.lookup key = none) :
      Goes client visit memory (.range activePods visited) (.range activePods visited) memory
  | kept {activePods : List String} {visited : List NamespacedName} {key : NamespacedName} {pm : PodMetrics}
      (visits : visit = some key) (fresh : key ∉ visited) (found : memory.ds.pods.lookup key = some pm)
      (active : pm.pod.namespacedName.name ∈ activePods) :
      Goes client visit memory (.range activePods visited) (.range activePods (key :: visited)) memory
  | dropped {activePods : List String} {visited : List NamespacedName} {key : NamespacedName} {pm : PodMetrics}
      (visits : visit = some key) (fresh : key ∉ visited) (found : memory.ds.pods.lookup key = some pm)
      (inactive : pm.pod.namespacedName.name ∉ activePods) :
      Goes client visit memory (.range activePods visited)
        (.podDelete activePods (key :: visited) pm.pod.namespacedName) memory
  | deleted {activePods : List String} {visited : List NamespacedName} {key : NamespacedName} :
      Goes client visit memory (.podDelete activePods visited key) (.range activePods visited)
        { memory with ds := memory.ds.podDelete key }
  | returned : Goes client visit memory .returned .returned memory
  | failed : Goes client visit memory .failed .failed memory

theorem Pc.Goes.of_range {activePods : List String} {visited : List NamespacedName} {visit : Option NamespacedName}
    {pc' : Pc} (taken : (Pc.range activePods visited).next client visit memory = (pc', memory')) :
    Goes client visit memory (.range activePods visited) pc' memory' := by
  cases visit with
  | none =>
      cases taken
      exact .ended rfl
  | some key =>
      simp only [next] at taken
      by_cases seen : key ∈ visited
      · rw [if_pos seen] at taken
        cases taken
        exact .passed rfl (.inl seen)
      · rw [if_neg seen] at taken
        cases found : memory.ds.pods.lookup key with
        | none =>
            rw [found] at taken
            cases taken
            exact .passed rfl (.inr found)
        | some pm =>
            simp only [found] at taken
            split at taken
            · rename_i active
              cases taken
              exact .kept rfl seen found active
            · rename_i inactive
              cases taken
              exact .dropped rfl seen found inactive

theorem Pc.Goes.of_next {visit : Option NamespacedName} {pc pc' : Pc}
    (taken : pc.next client visit memory = (pc', memory')) : Goes client visit memory pc pc' memory' := by
  cases pc with
  | get req =>
      simp only [next] at taken
      split at taken
      · cases taken
        exact .notFound ‹_›
      · cases taken
        exact .readFailed ‹_›
      · rename_i infPool read
        split at taken
        · rename_i marked
          cases taken
          exact .marked read (Option.isSome_iff_ne_none.mp marked)
        · rename_i unmarked
          cases taken
          exact .unmarked read (Option.not_isSome_iff_eq_none.mp unmarked)
  | clear =>
      cases taken
      exact .cleared
  | poolGet newPool =>
      cases pooled : memory.ds.pool with
      | none =>
          simp only [next, Datastore.poolGet, pooled] at taken
          cases taken
          exact .first pooled
      | some oldPool =>
          simp only [next, Datastore.poolGet, pooled] at taken
          cases taken
          exact .compared pooled
  | poolSet newPool resync =>
      cases resync with
      | true =>
          cases taken
          exact .resyncs
      | false =>
          cases taken
          exact .set
  | listPods newPool =>
      simp only [next] at taken
      split at taken
      · cases taken
        exact .listFailed ‹_›
      · cases taken
        exact .listed ‹_›
  | podUpdateOrAddIfNotExist activePods items call =>
      cases items with
      | nil =>
          cases taken
          exact .added
      | cons pod items =>
          simp only [next] at taken
          split at taken
          · rename_i called
            cases taken
            exact .updates (.of_next called)
          · rename_i called
            cases taken
            exact .updated (.of_next called)
  | range activePods visited => exact of_range taken
  | podDelete activePods visited key =>
      cases taken
      exact .deleted
  | returned =>
      cases taken
      exact .returned
  | failed =>
      cases taken
      exact .failed

end InferencePoolReconciler

end InferenceGateway
