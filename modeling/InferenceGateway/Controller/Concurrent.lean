import InferenceGateway.Cluster

/-!
# The controllers of `pkg/epp/controller` at work

Each reconcile is at the call that it makes next. A call of the datastore under its mutex is atomic, as
is an access of the `sync.Map` of pods or of a `podMetrics` object; PodUpdateOrAddIfNotExist and
PodResyncAll are several of them. A call of the client reads the cluster of that moment or fails. The
three controllers take turns call by call, and the cluster may change between any two calls. A controller
works on one request at a time. A reconcile that fails or panics is queued again.
-/

namespace InferenceGateway

/-- A call that fails for any reason but that the object is not there fails with another error. -/
def Answers {A : Type} (answer read : Except ApiError A) : Prop :=
  answer = read ∨ ∃ msg, answer = .error (.other msg)

structure Client.Reads (client : Client) (cluster : Cluster) : Prop where
  getInferenceModel : ∀ key, Answers (client.getInferenceModel key) (get cluster.models key)
  listInferenceModels : ∀ modelName ns, ∃ listing : Listing, listing.Of cluster ∧
    Answers (client.listInferenceModels modelName ns)
      ((cluster.client cluster listing).listInferenceModels modelName ns)
  getInferencePool : ∀ key, Answers (client.getInferencePool key) (get cluster.pools key)
  getPod : ∀ key, Answers (client.getPod key) (get cluster.pods key)
  listPods : ∀ selector ns, ∃ listing : Listing, listing.Of cluster ∧
    Answers (client.listPods selector ns) ((cluster.client cluster listing).listPods selector ns)

/-! ## The shared memory -/

/-- The datastore, and what the `podMetrics` objects hold, also those that have left the map. -/
structure Memory where
  ds : Datastore := {}
  heap : Nat → Option BackendPod := fun _ => none

namespace Memory

def newPodMetrics (pod : Pod) (memory : Memory) : PodMetrics × Memory :=
  let pm : PodMetrics := ⟨memory.ds.created, toInternalPod pod⟩
  (pm, {
    ds := { memory.ds with created := memory.ds.created + 1 }
    heap := Function.update memory.heap pm.ref (some pm.pod) })

def updatePod (pod : Pod) (ref : Nat) (memory : Memory) : Memory where
  ds :=
    match memory.ds.pods.lookup pod.namespacedName with
    | some pm =>
      if pm.ref = ref then
        { memory.ds with pods := memory.ds.pods.insert pod.namespacedName (pm.updatePod pod) }
      -- the object has been replaced
      else memory.ds
    | none => memory.ds
  heap := Function.update memory.heap ref (some (toInternalPod pod))

end Memory

/-- A call of PodUpdateOrAddIfNotExist. -/
inductive PodUpdate
  | load
  | store (pm : PodMetrics)
  | updatePod (ref : Nat)
deriving DecidableEq

def PodUpdate.next (pod : Pod) : PodUpdate → Memory → Option PodUpdate × Memory
  | .load, memory =>
    match memory.ds.pods.lookup pod.namespacedName with
    | none =>
      let (pm, memory) := memory.newPodMetrics pod
      (some (.store pm), memory)
    | some existing => (some (.updatePod existing.ref), memory)
  | .store pm, memory =>
    (some (.updatePod pm.ref),
      { memory with ds := { memory.ds with pods := memory.ds.pods.insert pod.namespacedName pm } })
  | .updatePod ref, memory => (none, memory.updatePod pod ref)

/-! ## The reconcilers -/

namespace InferenceModelReconciler

inductive Pc
  | get (req : NamespacedName)
  | modelSetIfOlder (infModel : InferenceModel)
  | modelDelete (req : NamespacedName)
  | modelResync (req : NamespacedName) (modelName : String)
  | returned
  | failed (req : NamespacedName)
deriving DecidableEq

def Pc.next (c : InferenceModelReconciler) (client : Client) (order : List String) :
    Pc → Memory → Pc × Memory
  | .get req, memory =>
    match client.getInferenceModel req with
    | .error (.other _) => (.failed req, memory)
    | .error (.notFound _) => (.modelDelete req, memory)
    | .ok infModel =>
      if infModel.deletionTimestamp.isSome ∨ infModel.spec.poolRef.name ≠ c.poolNamespacedName.name then
        (.modelDelete req, memory)
      else (.modelSetIfOlder infModel, memory)
  | .modelSetIfOlder infModel, memory => (.returned, { memory with ds := (memory.ds.modelSetIfOlder infModel).2 })
  | .modelDelete req, memory =>
    match memory.ds.modelDelete order req with
    | (none, ds) => (.returned, { memory with ds := ds })
    | (some existing, ds) => (.modelResync req existing.spec.modelName, { memory with ds := ds })
  -- the list is read while the lock is held
  | .modelResync req modelName, memory =>
    match memory.ds.modelResync client modelName with
    | none => (.failed req, memory)
    | some (.error _, ds) => (.failed req, { memory with ds := ds })
    | some (.ok _, ds) => (.returned, { memory with ds := ds })
  | .returned, memory => (.returned, memory)
  | .failed req, memory => (.failed req, memory)

end InferenceModelReconciler

namespace PodReconciler

inductive Pc
  | poolGet (req : NamespacedName)
  | get (req : NamespacedName)
  | poolLabelsMatch (req : NamespacedName) (pod : Pod)
  | podDelete (namespacedName : NamespacedName)
  | podUpdateOrAddIfNotExist (pod : Pod) (call : PodUpdate)
  | returned
  | failed (req : NamespacedName)
deriving DecidableEq

def Pc.next (client : Client) : Pc → Memory → Pc × Memory
  | .poolGet req, memory =>
    match memory.ds.poolGet with
    | .error _ => (.returned, memory)
    | .ok _ => (.get req, memory)
  | .get req, memory =>
    match client.getPod req with
    | .error (.notFound _) => (.podDelete req, memory)
    | .error (.other _) => (.failed req, memory)
    | .ok pod =>
      if pod.deletionTimestamp.isSome then (.podDelete pod.namespacedName, memory)
      else (.poolLabelsMatch req pod, memory)
  | .poolLabelsMatch req pod, memory =>
    match memory.ds.poolLabelsMatch pod.labels with
    -- the pool has been cleared since PoolGet
    | none => (.failed req, memory)
    | some labelsMatch =>
      if !labelsMatch || !podIsReady pod then (.podDelete pod.namespacedName, memory)
      else (.podUpdateOrAddIfNotExist pod .load, memory)
  | .podDelete namespacedName, memory => (.returned, { memory with ds := memory.ds.podDelete namespacedName })
  | .podUpdateOrAddIfNotExist pod call, memory =>
    match call.next pod memory with
    | (some call, memory) => (.podUpdateOrAddIfNotExist pod call, memory)
    | (none, memory) => (.returned, memory)
  | .returned, memory => (.returned, memory)
  | .failed req, memory => (.failed req, memory)

end PodReconciler

namespace InferencePoolReconciler

inductive Pc
  | get (req : NamespacedName)
  | clear
  | poolGet (newPool : InferencePool)
  | poolSet (newPool : InferencePool) (resync : Bool)
  | listPods (newPool : InferencePool)
  -- the ready pods of the list that are still to be added, the first of them by `call`
  | podUpdateOrAddIfNotExist (activePods : List String) (items : List Pod) (call : PodUpdate)
  | range (activePods : List String) (visited : List NamespacedName)
  | podDelete (activePods : List String) (visited : List NamespacedName) (namespacedName : NamespacedName)
  | returned
  | failed
deriving DecidableEq

/-- The key that the `Range` of PodResyncAll visits next is its own choice, as is when it ends. -/
def Pc.next (client : Client) (visit : Option NamespacedName) : Pc → Memory → Pc × Memory
  | .get req, memory =>
    match client.getInferencePool req with
    | .error (.notFound _) => (.clear, memory)
    | .error (.other _) => (.failed, memory)
    | .ok infPool => if infPool.deletionTimestamp.isSome then (.clear, memory) else (.poolGet infPool, memory)
  | .clear, memory => (.returned, { memory with ds := memory.ds.clear })
  | .poolGet newPool, memory =>
    match memory.ds.poolGet with
    | .error _ => (.poolSet newPool true, memory)
    | .ok oldPool => (.poolSet newPool (newPool.spec.selector ≠ oldPool.spec.selector), memory)
  | .poolSet newPool resync, memory =>
    (if resync then .listPods newPool else .returned, { memory with ds := memory.ds.poolSet newPool })
  | .listPods newPool, memory =>
    match client.listPods newPool.spec.selector newPool.ns with
    -- the error is only logged
    | .error _ => (.returned, memory)
    | .ok items =>
      let ready := items.filter podIsReady
      (.podUpdateOrAddIfNotExist (ready.map Pod.name) ready .load, memory)
  | .podUpdateOrAddIfNotExist activePods [] _, memory => (.range activePods [], memory)
  | .podUpdateOrAddIfNotExist activePods (pod :: items) call, memory =>
    match call.next pod memory with
    | (some call, memory) => (.podUpdateOrAddIfNotExist activePods (pod :: items) call, memory)
    | (none, memory) => (.podUpdateOrAddIfNotExist activePods items .load, memory)
  | .range activePods visited, memory =>
    match visit with
    | none => (.returned, memory)
    | some key =>
      match if key ∈ visited then none else memory.ds.pods.lookup key with
      | none => (.range activePods visited, memory)
      | some pm =>
        if pm.pod.namespacedName.name ∈ activePods then (.range activePods (key :: visited), memory)
        else (.podDelete activePods (key :: visited) pm.pod.namespacedName, memory)
  | .podDelete activePods visited namespacedName, memory =>
    (.range activePods visited, { memory with ds := memory.ds.podDelete namespacedName })
  | .returned, memory => (.returned, memory)
  | .failed, memory => (.failed, memory)

end InferencePoolReconciler

/-! ## The controllers together -/

structure Controllers where
  cluster : Cluster := {}
  pending : Finset ManagerRequest := ∅
  memory : Memory := {}
  model : InferenceModelReconciler.Pc := .returned
  pod : PodReconciler.Pc := .returned
  pool : InferencePoolReconciler.Pc := .returned

inductive Controllers.Step (pool : NamespacedName) (admits : InferenceModel → Prop) (s : Controllers) :
    Controllers → Prop
  | change {requests : Finset ManagerRequest} {cluster : Cluster}
      (changed : ManagerChange pool admits s.cluster requests cluster) :
      Step pool admits s { s with cluster := cluster, pending := s.pending ∪ requests }
  | startModel (req : NamespacedName) (enqueued : .model req ∈ s.pending) (idle : s.model = .returned) :
      Step pool admits s { s with pending := s.pending.erase (.model req), model := .get req }
  | startPod (req : NamespacedName) (enqueued : .pods (.pod req) ∈ s.pending) (idle : s.pod = .returned) :
      Step pool admits s { s with pending := s.pending.erase (.pods (.pod req)), pod := .poolGet req }
  | startPool (enqueued : .pods .pool ∈ s.pending) (idle : s.pool = .returned) :
      Step pool admits s { s with pending := s.pending.erase (.pods .pool), pool := .get pool }
  | model {client : Client} (reads : client.Reads s.cluster) {order : List String}
      (ranges : RangesOver order s.memory.ds.models) {pc : InferenceModelReconciler.Pc} {memory : Memory}
      (taken : s.model.next ⟨pool⟩ client order s.memory = (pc, memory)) :
      Step pool admits s { s with model := pc, memory := memory }
  | pod {client : Client} (reads : client.Reads s.cluster) {pc : PodReconciler.Pc} {memory : Memory}
      (taken : s.pod.next client s.memory = (pc, memory)) : Step pool admits s { s with pod := pc, memory := memory }
  | pool {client : Client} (reads : client.Reads s.cluster) (visit : Option NamespacedName)
      {pc : InferencePoolReconciler.Pc} {memory : Memory}
      (taken : s.pool.next client visit s.memory = (pc, memory)) :
      Step pool admits s { s with pool := pc, memory := memory }
  | retryModel (req : NamespacedName) (failed : s.model = .failed req) :
      Step pool admits s { s with pending := insert (.model req) s.pending, model := .returned }
  | retryPod (req : NamespacedName) (failed : s.pod = .failed req) :
      Step pool admits s { s with pending := insert (.pods (.pod req)) s.pending, pod := .returned }
  | retryPool (failed : s.pool = .failed) :
      Step pool admits s { s with pending := insert (.pods .pool) s.pending, pool := .returned }

abbrev Controllers.Reaches (pool : NamespacedName) (admits : InferenceModel → Prop) :
    Controllers → Controllers → Prop :=
  Relation.ReflTransGen (Controllers.Step pool admits)

/-- A run that has come to `s`, by its states from the first to the last. -/
structure Controllers.History (pool : NamespacedName) (admits : InferenceModel → Prop) (states : List Controllers)
    (s : Controllers) : Prop where
  first : states.head? = some {}
  steps : states.IsChain (Controllers.Step pool admits)
  last : states.getLast? = some s

end InferenceGateway
