import InferenceGateway.Proof.Controller.Calls

/-!
Whatever the interleaving of the controllers, the datastore and the `podMetrics` objects only hold what
has been in the cluster: pods that were ready and selected by the InferencePool, versions of that
InferencePool, and InferenceModels that refer to it.
-/

namespace InferenceGateway
open Lib.Workqueue

/-! ## What may be stored -/

/-- Conditions on objects. A pod is read before it is found to be ready and selected. -/
structure Vetting where
  read : Pod → Prop
  pod : Pod → Prop
  pool : InferencePool → Prop
  model : InferenceModel → Prop

/-- What the client returns meets the conditions. -/
structure Vetting.Admits (vetting : Vetting) (pool : NamespacedName) (client : Client) : Prop where
  getInferenceModel : ∀ key m, client.getInferenceModel key = .ok m → m.deletionTimestamp = none →
    m.spec.poolRef.name = pool.name → vetting.model m
  listInferenceModels : ∀ infPool modelName items, vetting.pool infPool →
    client.listInferenceModels modelName infPool.ns = .ok items →
    ∀ m ∈ items, Datastore.candidate infPool modelName m = true → vetting.model m
  getInferencePool : ∀ infPool, client.getInferencePool pool = .ok infPool → infPool.deletionTimestamp = none →
    vetting.pool infPool
  getPod : ∀ key pod, client.getPod key = .ok pod → vetting.read pod
  listPods : ∀ infPool items, vetting.pool infPool →
    client.listPods infPool.spec.selector infPool.ns = .ok items →
    ∀ pod ∈ items, podIsReady pod = true → vetting.pod pod
  selects : ∀ infPool pod, vetting.pool infPool → vetting.read pod →
    resyncable infPool.spec.selector pod = true → vetting.pod pod

/-- The pod as it is kept in the store. -/
def Vetting.Internal (vetting : Vetting) (stored : BackendPod) : Prop :=
  ∃ pod, vetting.pod pod ∧ stored = toInternalPod pod

structure Vetting.Holds (vetting : Vetting) (memory : Memory) : Prop where
  pool : ∀ infPool, memory.ds.pool = some infPool → vetting.pool infPool
  models : ∀ name m, memory.ds.models.lookup name = some m → vetting.model m ∧ m.spec.modelName = name
  pods : ∀ key pm, memory.ds.pods.lookup key = some pm → vetting.Internal pm.pod ∧ pm.pod.namespacedName = key
  heap : ∀ ref stored, memory.heap ref = some stored → vetting.Internal stored

namespace Vetting
variable {vetting : Vetting} {pool : NamespacedName} {client : Client} {memory memory' : Memory}

def PodUpdatePc (vetting : Vetting) (pod : Pod) : PodUpdate → Prop
  | .store pm => vetting.pod pod ∧ pm.pod = toInternalPod pod
  | _ => vetting.pod pod

def ModelPc (vetting : Vetting) : InferenceModelReconciler.Pc → Prop
  | .modelSetIfOlder m => vetting.model m
  | _ => True

def PodPc (vetting : Vetting) : PodReconciler.Pc → Prop
  | .poolLabelsMatch _ pod => vetting.read pod
  | .podUpdateOrAddIfNotExist pod call => vetting.PodUpdatePc pod call
  | _ => True

def PoolPc (vetting : Vetting) (pool : NamespacedName) : InferencePoolReconciler.Pc → Prop
  | .get req => req = pool
  | .poolGet infPool | .poolSet infPool _ | .listPods infPool => vetting.pool infPool
  | .podUpdateOrAddIfNotExist _ (pod :: items) call =>
    vetting.PodUpdatePc pod call ∧ ∀ later ∈ items, vetting.pod later
  | _ => True

/-! ## The calls of the datastore -/

theorem Holds.poolSet (holds : vetting.Holds memory) {infPool : InferencePool} (vetted : vetting.pool infPool) :
    vetting.Holds { memory with ds := memory.ds.poolSet infPool } where
  pool infPool' same := by
    cases same
    exact vetted
  models := holds.models
  pods := holds.pods
  heap := holds.heap

theorem Holds.clear (holds : vetting.Holds memory) : vetting.Holds { memory with ds := memory.ds.clear } where
  pool infPool found := by cases found
  models name m found := by cases found
  pods key pm found := by cases found
  heap := holds.heap

theorem Holds.insertModel (holds : vetting.Holds memory) {m : InferenceModel} (vetted : vetting.model m) :
    vetting.Holds { memory with
      ds := memory.ds.withModels (memory.ds.models.insert m.spec.modelName m) } where
  pool := holds.pool
  pods := holds.pods
  heap := holds.heap
  models name m' found := by
    rw [Datastore.withModels, lookup_insert_eq] at found
    split_ifs at found with same
    · cases found
      exact ⟨vetted, same.symm⟩
    · exact holds.models name m' found

theorem Holds.eraseModel (holds : vetting.Holds memory) (modelName : String) :
    vetting.Holds { memory with ds := memory.ds.withModels (memory.ds.models.erase modelName) } where
  pool := holds.pool
  pods := holds.pods
  heap := holds.heap
  models name m found := by
    rw [Datastore.withModels, lookup_erase_eq] at found
    split_ifs at found
    exact holds.models name m found

theorem Holds.podDelete (holds : vetting.Holds memory) (key : NamespacedName) :
    vetting.Holds { memory with ds := memory.ds.podDelete key } where
  pool := by
    rw [Datastore.podBlind_pool.podDelete]
    exact holds.pool
  models := by
    rw [Datastore.podBlind_models.podDelete]
    exact holds.models
  pods key' pm found := by
    rw [Datastore.podDelete_lookup] at found
    split_ifs at found
    exact holds.pods key' pm found
  heap := holds.heap

theorem Internal.of_pod {pod : Pod} (vetted : vetting.pod pod) : vetting.Internal (toInternalPod pod) :=
  ⟨pod, vetted, rfl⟩

theorem Holds.insertPod (holds : vetting.Holds memory) {pod : Pod} (vetted : vetting.pod pod) {pm : PodMetrics}
    (stored : pm.pod = toInternalPod pod) :
    vetting.Holds { memory with
      ds := { memory.ds with pods := memory.ds.pods.insert pod.namespacedName pm } } where
  pool := holds.pool
  models := holds.models
  heap := holds.heap
  pods key pm' found := by
    rw [lookup_insert_eq] at found
    split_ifs at found with same
    · cases found
      rw [stored, same]
      exact ⟨.of_pod vetted, rfl⟩
    · exact holds.pods key pm' found

theorem Holds.updateHeap (holds : vetting.Holds memory) {pod : Pod} (vetted : vetting.pod pod) (ref : Nat) :
    vetting.Holds { memory with heap := Function.update memory.heap ref (some (toInternalPod pod)) } where
  pool := holds.pool
  models := holds.models
  pods := holds.pods
  heap ref' stored found := by
    simp only [Function.update_apply] at found
    split_ifs at found
    · cases found
      exact .of_pod vetted
    · exact holds.heap ref' stored found

theorem Holds.podUpdate (holds : vetting.Holds memory) {pod : Pod} {call : PodUpdate}
    (vetted : vetting.PodUpdatePc pod call) {call' : Option PodUpdate}
    (goes : PodUpdate.Goes pod memory call call' memory') :
    (∀ next, call' = some next → vetting.PodUpdatePc pod next) ∧ vetting.Holds memory' := by
  cases goes with
  | created absent =>
      have heap := holds.updateHeap vetted memory.ds.created
      refine ⟨?_, ⟨heap.pool, heap.models, heap.pods, heap.heap⟩⟩
      intro next same
      cases same
      exact ⟨vetted, rfl⟩
  | loaded found =>
      refine ⟨?_, holds⟩
      intro next same
      cases same
      exact vetted
  | stored =>
      refine ⟨?_, holds.insertPod vetted.1 vetted.2⟩
      intro next same
      cases same
      exact vetted.1
  | @updated pm found =>
      refine ⟨?_, (holds.updateHeap vetted pm.ref).insertPod vetted rfl⟩
      intro next none
      cases none
  | @replaced ref other =>
      refine ⟨?_, holds.updateHeap vetted ref⟩
      intro next none
      cases none

/-! ## The steps of the reconcilers -/

theorem Admits.modelPc (admits : vetting.Admits pool client) (holds : vetting.Holds memory)
    {pc pc' : InferenceModelReconciler.Pc} (vetted : vetting.ModelPc pc)
    (goes : pc.Goes ⟨pool⟩ client memory pc' memory') : vetting.ModelPc pc' ∧ vetting.Holds memory' := by
  cases goes with
  | accepted read unmarked ours => exact ⟨admits.getInferenceModel _ _ read unmarked ours, holds⟩
  | set free => exact ⟨trivial, holds.insertModel vetted⟩
  | deleted stored own => exact ⟨trivial, holds.eraseModel _⟩
  | @resynced _ modelName infPool items m pooled listed oldest =>
      rw [Datastore.oldest_eq_argmin] at oldest
      obtain ⟨item, candidate⟩ := List.mem_filter.mp (List.argmin_mem oldest)
      have found :=
        admits.listInferenceModels infPool modelName items (holds.pool infPool pooled) listed m item candidate
      simp only [Datastore.candidate, decide_eq_true_eq] at candidate
      cases candidate.1
      exact ⟨trivial, holds.insertModel found⟩
  | _ => exact ⟨trivial, holds⟩

theorem Admits.podPc (admits : vetting.Admits pool client) (holds : vetting.Holds memory) {pc pc' : PodReconciler.Pc}
    (vetted : vetting.PodPc pc) (goes : pc.Goes client memory pc' memory') :
    vetting.PodPc pc' ∧ vetting.Holds memory' := by
  cases goes with
  | unmarked read unmarked => exact ⟨admits.getPod _ _ read, holds⟩
  | @accepted _ pod infPool pooled fits =>
      exact ⟨admits.selects infPool pod (holds.pool infPool pooled) vetted fits, holds⟩
  | deleted => exact ⟨trivial, holds.podDelete _⟩
  | updates called =>
      obtain ⟨vetted', holds'⟩ := holds.podUpdate vetted called
      exact ⟨vetted' _ rfl, holds'⟩
  | updated called => exact ⟨trivial, (holds.podUpdate vetted called).2⟩
  | _ => exact ⟨trivial, holds⟩

theorem poolPc_of_items {activePods : List String} {items : List Pod} (vetted : ∀ pod ∈ items, vetting.pod pod) :
    vetting.PoolPc pool (.podUpdateOrAddIfNotExist activePods items .load) := by
  cases items with
  | nil => trivial
  | cons pod items => exact List.forall_mem_cons.mp vetted

theorem Admits.poolPc (admits : vetting.Admits pool client) (holds : vetting.Holds memory)
    {pc pc' : InferencePoolReconciler.Pc} (vetted : vetting.PoolPc pool pc) {visit : Option NamespacedName}
    (goes : pc.Goes client visit memory pc' memory') : vetting.PoolPc pool pc' ∧ vetting.Holds memory' := by
  cases goes with
  | @unmarked req infPool read unmarked =>
      cases vetted
      exact ⟨admits.getInferencePool infPool read unmarked, holds⟩
  | cleared => exact ⟨trivial, holds.clear⟩
  | first none => exact ⟨vetted, holds⟩
  | compared pooled => exact ⟨vetted, holds⟩
  | set => exact ⟨trivial, holds.poolSet vetted⟩
  | resyncs => exact ⟨vetted, holds.poolSet vetted⟩
  | @listed newPool items listed =>
      refine ⟨poolPc_of_items ?_, holds⟩
      intro pod member
      obtain ⟨item, ready⟩ := List.mem_filter.mp member
      exact admits.listPods newPool items vetted listed pod item ready
  | updates called =>
      obtain ⟨vetted', holds'⟩ := holds.podUpdate vetted.1 called
      exact ⟨⟨vetted' _ rfl, vetted.2⟩, holds'⟩
  | updated called => exact ⟨poolPc_of_items vetted.2, (holds.podUpdate vetted.1 called).2⟩
  | deleted => exact ⟨trivial, holds.podDelete _⟩
  | _ => exact ⟨trivial, holds⟩

end Vetting

/-! ## Runs -/

structure Cluster.Named (cluster : Cluster) (pool : NamespacedName) : Prop where
  kept : cluster.Kept pool
  models : ∀ key m, cluster.models.lookup key = some m → m.namespacedName = key
  ownPool : ∀ infPool, cluster.pools.lookup pool = some infPool → infPool.namespacedName = pool

theorem ManagerChange.named {pool : NamespacedName} {admits : InferenceModel → Prop} {cluster cluster' : Cluster}
    {requests : Finset ManagerRequest} (change : ManagerChange pool admits cluster requests cluster')
    (named : cluster.Named pool) : cluster'.Named pool := by
  cases change with
  | model change admitted =>
      have kept : ((InferenceModelReconciler.mk pool).watch fun _ _ => True).Kept
          ⟨cluster.models, cluster.models⟩ :=
        fun key m found => ⟨named.models key m found, found⟩
      exact ⟨⟨named.kept.pods, named.kept.pool⟩, fun key m found => (change.kept kept key m found).1, named.ownPool⟩
  | pods change =>
      refine ⟨change.kept named.kept, ?_, change.ownPool named.ownPool⟩
      rw [change.models]
      exact named.models
  | requeue => exact named

namespace Controllers

section Vetted
variable (pool : NamespacedName) (states : List Controllers)

/-- The cluster has been like this in one of the states. -/
def Was (P : Cluster → Prop) : Prop := ∃ t ∈ states, P t.cluster

def PoolVetted (infPool : InferencePool) : Prop :=
  infPool.namespacedName = pool ∧ infPool.deletionTimestamp = none ∧
    Was states fun cluster => cluster.pools.lookup pool = some infPool

def PodRead (pod : Pod) : Prop := Was states fun cluster => cluster.pods.lookup pod.namespacedName = some pod

def PodVetted (pod : Pod) : Prop :=
  podIsReady pod = true ∧ PodRead states pod ∧
    ∃ infPool, PoolVetted pool states infPool ∧
      selectorFromInferencePoolSelector infPool.spec.selector pod.labels = true

def ModelVetted (m : InferenceModel) : Prop :=
  m.deletionTimestamp = none ∧ m.spec.poolRef.name = pool.name ∧
    Was states fun cluster => cluster.models.lookup m.namespacedName = some m

def vetting : Vetting where
  read := PodRead states
  pod := PodVetted pool states
  pool := PoolVetted pool states
  model := ModelVetted pool states

end Vetted

variable {pool : NamespacedName} {admits : InferenceModel → Prop} {s s' : Controllers}
  {states : List Controllers}

theorem named_start : Cluster.Named {} pool := by
  constructor
  · constructor
    · intro key pod found
      cases found
    · intro infPool found
      cases found
  · intro key m found
    cases found
  · intro infPool found
    cases found

theorem Step.named (step : Step pool admits s s') (named : s.cluster.Named pool) : s'.cluster.Named pool := by
  cases step with
  | change changed => exact changed.named named
  | _ => exact named

theorem Reaches.named (run : Reaches pool admits {} s) : s.cluster.Named pool := by
  induction run with
  | refl => exact named_start
  | tail _ step ih => exact step.named ih

theorem ok_of_answers {A : Type} {answer read : Except ApiError A} (answers : Answers answer read) {object : A}
    (ok : answer = .ok object) : read = .ok object := by
  rcases answers with same | ⟨msg, failed⟩
  · exact same.symm.trans ok
  · cases failed.symm.trans ok

theorem lookup_of_read {O : Type} {objects : Finmap (fun _ : NamespacedName => O)} {key : NamespacedName} {object : O}
    {answer : Except ApiError O} (answers : Answers answer (get objects key)) (ok : answer = .ok object) :
    objects.lookup key = some object := by
  have found := ok_of_answers answers ok
  unfold get at found
  split at found
  · cases found
  · cases found
    assumption

theorem lookup_of_notFound {O : Type} {objects : Finmap (fun _ : NamespacedName => O)} {key : NamespacedName}
    {answer : Except ApiError O} {msg : String} (answers : Answers answer (get objects key))
    (absent : answer = .error (.notFound msg)) : objects.lookup key = none := by
  rcases answers with same | ⟨_, failed⟩
  · rw [absent] at same
    unfold get at same
    split at same
    · assumption
    · cases same
  · cases absent.symm.trans failed

theorem vetting_admits {client : Client} (named : s.cluster.Named pool) (passed : s ∈ states)
    (reads : client.Reads s.cluster) : (vetting pool states).Admits pool client := by
  constructor
  · intro key m ok unmarked ours
    have found := lookup_of_read (reads.getInferenceModel key) ok
    refine ⟨unmarked, ours, s, passed, ?_⟩
    rw [named.models key m found]
    exact found
  · intro infPool modelName items pooled ok m member candidate
    obtain ⟨listing, lists, answers⟩ := reads.listInferenceModels modelName infPool.ns
    cases ok_of_answers answers ok
    obtain ⟨⟨key, _, found⟩, _⟩ := by simpa only [List.mem_filter, List.mem_filterMap] using member
    simp only [Datastore.candidate, decide_eq_true_eq] at candidate
    have name : infPool.name = pool.name := congrArg NamespacedName.name pooled.1
    refine ⟨candidate.2.2, candidate.2.1.trans name, s, passed, ?_⟩
    rw [named.models key m found]
    exact found
  · intro infPool ok unmarked
    have found := lookup_of_read (reads.getInferencePool pool) ok
    exact ⟨named.ownPool infPool found, unmarked, s, passed, found⟩
  · intro key pod ok
    have found := lookup_of_read (reads.getPod key) ok
    refine ⟨s, passed, ?_⟩
    rw [(named.kept.pods key pod found).1]
    exact found
  · intro infPool items pooled ok pod member ready
    obtain ⟨listing, lists, answers⟩ := reads.listPods infPool.spec.selector infPool.ns
    cases ok_of_answers answers ok
    obtain ⟨⟨key, found⟩, matched, _⟩ := (mem_listed lists pod).mp member
    refine ⟨ready, ⟨s, passed, ?_⟩, infPool, pooled, matched⟩
    rw [(named.kept.pods key pod found).1]
    exact found
  · intro infPool pod pooled read selected
    simp only [resyncable, Bool.and_eq_true] at selected
    exact ⟨selected.1, read, infPool, pooled, selected.2⟩

/-- The memory and the program counters, which hold objects that will be stored. -/
structure Vetted (vetting : Vetting) (pool : NamespacedName) (s : Controllers) : Prop where
  holds : vetting.Holds s.memory
  model : vetting.ModelPc s.model
  pod : vetting.PodPc s.pod
  poolPc : vetting.PoolPc pool s.pool

theorem Vetted.step {vetting : Vetting} (vetted : Vetted vetting pool s)
    (sound : ∀ client : Client, client.Reads s.cluster → vetting.Admits pool client)
    (step : Step pool admits s s') : Vetted vetting pool s' := by
  cases step with
  | change => exact ⟨vetted.holds, vetted.model, vetted.pod, vetted.poolPc⟩
  | startModel => exact ⟨vetted.holds, trivial, vetted.pod, vetted.poolPc⟩
  | startPod => exact ⟨vetted.holds, vetted.model, trivial, vetted.poolPc⟩
  | startPool => exact ⟨vetted.holds, vetted.model, vetted.pod, rfl⟩
  | model reads ranges taken =>
      obtain ⟨model, holds⟩ := (sound _ reads).modelPc vetted.holds vetted.model (.of_next ranges taken)
      exact ⟨holds, model, vetted.pod, vetted.poolPc⟩
  | pod reads taken =>
      obtain ⟨pod, holds⟩ := (sound _ reads).podPc vetted.holds vetted.pod (.of_next taken)
      exact ⟨holds, vetted.model, pod, vetted.poolPc⟩
  | pool reads visit taken =>
      obtain ⟨poolPc, holds⟩ := (sound _ reads).poolPc vetted.holds vetted.poolPc (.of_next taken)
      exact ⟨holds, vetted.model, vetted.pod, poolPc⟩
  | retryModel => exact ⟨vetted.holds, trivial, vetted.pod, vetted.poolPc⟩
  | retryPod => exact ⟨vetted.holds, vetted.model, trivial, vetted.poolPc⟩
  | retryPool => exact ⟨vetted.holds, vetted.model, vetted.pod, trivial⟩

theorem Vetted.start (vetting : Vetting) : Vetted vetting pool {} := by
  refine ⟨⟨?_, ?_, ?_, ?_⟩, trivial, trivial, trivial⟩
  · intro infPool found
    cases found
  · intro name m found
    cases found
  · intro key pm found
    cases found
  · intro ref stored found
    cases found

theorem chain_vetted {run : List Controllers} (steps : (s :: run).IsChain (Step pool admits))
    (passed : ∀ t ∈ s :: run, t ∈ states) (named : s.cluster.Named pool)
    (vetted : Vetted (vetting pool states) pool s) :
    ∀ t ∈ s :: run, Vetted (vetting pool states) pool t := by
  induction run generalizing s with
  | nil =>
      intro t member
      rw [List.mem_singleton.mp member]
      exact vetted
  | cons s' run ih =>
      obtain ⟨step, rest⟩ := List.isChain_cons_cons.mp steps
      obtain ⟨here, later⟩ := List.forall_mem_cons.mp passed
      have next := vetted.step (fun client reads => vetting_admits named here reads) step
      exact List.forall_mem_cons.mpr ⟨vetted, ih rest later (step.named named) next⟩

/-- In every state of a run, what is stored and what is about to be was vetted in a state of that run. -/
theorem History.vetted (history : History pool admits states s) :
    ∀ t ∈ states, Vetted (vetting pool states) pool t := by
  obtain ⟨run, rfl⟩ := List.head?_eq_some_iff.mp history.first
  exact chain_vetted history.steps (fun _ member => member) named_start (.start _)

theorem History.mem (history : History pool admits states s) : s ∈ states := List.mem_of_getLast? history.last

theorem Reaches.exists_history (run : Reaches pool admits {} s) : ∃ states, History pool admits states s := by
  induction run with
  | refl => exact ⟨[{}], rfl, .singleton _, rfl⟩
  | tail _ step ih =>
      obtain ⟨states, history⟩ := ih
      refine ⟨states ++ [_], ?_, List.isChain_append.mpr ⟨history.steps, .singleton _, ?_⟩, List.getLast?_concat⟩
      · rw [List.head?_append, history.first]
        rfl
      · rw [history.last]
        rintro _ ⟨⟩ _ ⟨⟩
        exact step

theorem Reaches.exists_vetted (run : Reaches pool admits {} s) : ∃ states, Vetted (vetting pool states) pool s := by
  obtain ⟨states, history⟩ := run.exists_history
  exact ⟨states, history.vetted s history.mem⟩

/-! ## Evaluating runs -/

section Evaluation

theorem listing_of_iff {listing : Listing} {cluster : Cluster} :
    RangesOver listing.models cluster.models ∧ RangesOver listing.pods cluster.pods ↔ listing.Of cluster :=
  ⟨fun lists => ⟨lists.1, lists.2⟩, fun lists => ⟨lists.models, lists.pods⟩⟩

instance (listing : Listing) (cluster : Cluster) : Decidable (listing.Of cluster) :=
  decidable_of_iff _ listing_of_iff

theorem client_reads {listing : Listing} {cluster : Cluster} (lists : listing.Of cluster) :
    (cluster.client cluster listing).Reads cluster where
  getInferenceModel _ := .inl rfl
  listInferenceModels _ _ := ⟨listing, lists, .inl rfl⟩
  getInferencePool _ := .inl rfl
  getPod _ := .inl rfl
  listPods _ _ := ⟨listing, lists, .inl rfl⟩

inductive Turn
  | change (action : ManagerAction)
  | startModel (req : NamespacedName)
  | startPod (req : NamespacedName)
  | startPool
  | model (listing : Listing) (order : List String)
  | pod (listing : Listing)
  | pool (listing : Listing) (visit : Option NamespacedName)

variable (pool : NamespacedName) (admits : InferenceModel → Prop) [DecidablePred admits]

/-- A turn in which no call of the client fails; `none` if it cannot be taken. -/
def perform (s : Controllers) : Turn → Option Controllers
  | .change action =>
    -- with an empty queue the manager performs changes only
    (performManager pool admits Unguarded ⟨s.cluster, ∅, {}⟩ action).map fun changed =>
      { s with cluster := changed.world, pending := s.pending ∪ changed.pending }
  | .startModel req =>
    if .model req ∈ s.pending ∧ s.model = .returned then
      some { s with pending := s.pending.erase (.model req), model := .get req }
    else none
  | .startPod req =>
    if .pods (.pod req) ∈ s.pending ∧ s.pod = .returned then
      some { s with pending := s.pending.erase (.pods (.pod req)), pod := .poolGet req }
    else none
  | .startPool =>
    if .pods .pool ∈ s.pending ∧ s.pool = .returned then
      some { s with pending := s.pending.erase (.pods .pool), pool := .get pool }
    else none
  | .model listing order =>
    if listing.Of s.cluster ∧ RangesOver order s.memory.ds.models then
      let next := s.model.next ⟨pool⟩ (s.cluster.client s.cluster listing) order s.memory
      some { s with model := next.1, memory := next.2 }
    else none
  | .pod listing =>
    if listing.Of s.cluster then
      let next := s.pod.next (s.cluster.client s.cluster listing) s.memory
      some { s with pod := next.1, memory := next.2 }
    else none
  | .pool listing visit =>
    if listing.Of s.cluster then
      let next := s.pool.next (s.cluster.client s.cluster listing) visit s.memory
      some { s with pool := next.1, memory := next.2 }
    else none

variable {pool admits}

theorem perform_step {turn : Turn} (performed : perform pool admits s turn = some s') : Step pool admits s s' := by
  cases turn with
  | change action =>
      obtain ⟨changed, single, same⟩ := Option.map_eq_some_iff.mp performed
      cases same
      cases performManager_step single with
      | change change =>
          rw [Finset.empty_union]
          exact .change change
      | reconcile request enqueued => cases enqueued
  | startModel req =>
      obtain ⟨⟨enqueued, idle⟩, same⟩ := Option.ite_none_right_eq_some.mp performed
      cases same
      exact .startModel req enqueued idle
  | startPod req =>
      obtain ⟨⟨enqueued, idle⟩, same⟩ := Option.ite_none_right_eq_some.mp performed
      cases same
      exact .startPod req enqueued idle
  | startPool =>
      obtain ⟨⟨enqueued, idle⟩, same⟩ := Option.ite_none_right_eq_some.mp performed
      cases same
      exact .startPool enqueued idle
  | model listing order =>
      obtain ⟨⟨lists, ranges⟩, same⟩ := Option.ite_none_right_eq_some.mp performed
      cases same
      exact .model (client_reads lists) ranges rfl
  | pod listing =>
      obtain ⟨lists, same⟩ := Option.ite_none_right_eq_some.mp performed
      cases same
      exact .pod (client_reads lists) rfl
  | pool listing visit =>
      obtain ⟨lists, same⟩ := Option.ite_none_right_eq_some.mp performed
      cases same
      exact .pool (client_reads lists) visit rfl

variable (pool admits)

theorem reaches_performed (turns : List Turn) (s : Controllers)
    (returns : (turns.foldlM (perform pool admits) s).isSome) :
    Reaches pool admits s ((turns.foldlM (perform pool admits) s).get returns) :=
  reaches_of_foldlM (Step pool admits) (fun _ _ _ => perform_step) (Option.some_get returns).symm

/-- A turn whose step meets a condition. -/
def performWhere (keeps : Controllers → Controllers → Prop) [DecidableRel keeps] (s : Controllers) (turn : Turn) :
    Option Controllers :=
  (perform pool admits s turn).filter (keeps s)

theorem reaches_performedWhere {keeps : Controllers → Controllers → Prop} [DecidableRel keeps] (turns : List Turn)
    (s : Controllers) (returns : (turns.foldlM (performWhere pool admits keeps) s).isSome) :
    Relation.ReflTransGen (fun s s' => Step pool admits s s' ∧ keeps s s') s
      ((turns.foldlM (performWhere pool admits keeps) s).get returns) := by
  refine reaches_of_foldlM (fun s s' => Step pool admits s s' ∧ keeps s s') ?_ (Option.some_get returns).symm
  intro s turn s' performed
  obtain ⟨taken, kept⟩ := Option.filter_eq_some_iff.mp performed
  exact ⟨perform_step taken, of_decide_eq_true kept⟩

/-- The states that the turns lead through. -/
def trail (s : Controllers) : List Turn → List Controllers
  | [] => [s]
  | turn :: turns => s :: (perform pool admits s turn).elim [] fun s' => trail s' turns

theorem trail_eq (turns : List Turn) (s : Controllers) : ∃ run, trail pool admits s turns = s :: run := by
  cases turns <;> exact ⟨_, rfl⟩

variable {pool admits}

theorem trail_steps {turns : List Turn} (performed : turns.foldlM (perform pool admits) s = some s') :
    (trail pool admits s turns).IsChain (Step pool admits) ∧ (trail pool admits s turns).getLast? = some s' := by
  induction turns generalizing s with
  | nil =>
      cases performed
      exact ⟨.singleton _, rfl⟩
  | cons turn turns ih =>
      rw [List.foldlM_cons, Option.bind_eq_bind, Option.bind_eq_some_iff] at performed
      obtain ⟨next, turned, performed⟩ := performed
      obtain ⟨steps, last⟩ := ih performed
      obtain ⟨run, same⟩ := trail_eq pool admits turns next
      rw [trail, turned, Option.elim_some, same]
      rw [same] at steps last
      exact ⟨List.isChain_cons_cons.mpr ⟨perform_step turned, steps⟩, by rw [List.getLast?_cons_cons, last]⟩

theorem history_trail {turns : List Turn} (performed : turns.foldlM (perform pool admits) {} = some s) :
    History pool admits (trail pool admits {} turns) s := by
  obtain ⟨steps, last⟩ := trail_steps performed
  obtain ⟨run, same⟩ := trail_eq pool admits turns {}
  exact ⟨by rw [same]; rfl, steps, last⟩

end Evaluation

theorem stored_objects_were_vetted (history : History pool admits states s) :
    (∀ infPool, s.memory.ds.pool = some infPool → PoolVetted pool states infPool) ∧
    (∀ name m, s.memory.ds.models.lookup name = some m → ModelVetted pool states m ∧ m.spec.modelName = name) ∧
    (∀ key stored, s.memory.ds.podAt key = some stored →
      ∃ pod, PodVetted pool states pod ∧ stored = toInternalPod pod ∧ pod.namespacedName = key) ∧
    ∀ ref stored, s.memory.heap ref = some stored → ∃ pod, PodVetted pool states pod ∧ stored = toInternalPod pod := by
  have holds := (history.vetted s history.mem).holds
  refine ⟨holds.pool, holds.models, ?_, holds.heap⟩
  intro key stored found
  obtain ⟨pm, present, same⟩ := Option.map_eq_some_iff.mp found
  cases same
  obtain ⟨⟨pod, vetted, internal⟩, own⟩ := holds.pods key pm present
  rw [internal] at own
  exact ⟨pod, vetted, internal, own⟩

open InferenceModelReconciler in
-- the InferenceModel is read before the pod's reconcile and stored after it
def syncTurns : List Turn :=
  [.change (.pods (.createPool vllmPool)), .startPool] ++ List.replicate 6 (.pool {} none) ++
  [.change (.model (.create (testModel "a" "llama" 1))), .startModel (testKey "a"), .model ⟨[testKey "a"], []⟩ [],
    .change (.pods (.createPod (vllmPod none))), .startPod vllmKey] ++
  List.replicate 6 (.pod ⟨[testKey "a"], [vllmKey]⟩) ++ [.model ⟨[testKey "a"], [vllmKey]⟩ []]

theorem syncTurns_return : (syncTurns.foldlM (perform ⟨"default", "pool"⟩ fun _ => True) {}).isSome := by
  decide +kernel

def synced : Controllers := (syncTurns.foldlM (perform ⟨"default", "pool"⟩ fun _ => True) {}).get syncTurns_return

def syncStates : List Controllers := trail ⟨"default", "pool"⟩ (fun _ => True) {} syncTurns

theorem history_synced : History ⟨"default", "pool"⟩ (fun _ => True) syncStates synced :=
  history_trail (Option.some_get syncTurns_return).symm

theorem synced_pod_was_vetted :
    synced.memory.ds.podAt vllmKey = some (toInternalPod (vllmPod none)) ∧
      ∃ pod, PodVetted ⟨"default", "pool"⟩ syncStates pod ∧
        toInternalPod (vllmPod none) = toInternalPod pod ∧ pod.namespacedName = vllmKey := by
  have stored : synced.memory.ds.podAt vllmKey = some (toInternalPod (vllmPod none)) := by decide +kernel
  exact ⟨stored, (stored_objects_were_vetted history_synced).2.2.1 vllmKey _ stored⟩

end Controllers

end InferenceGateway
