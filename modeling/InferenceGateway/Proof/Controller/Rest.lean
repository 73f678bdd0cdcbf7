import Mathlib.Algebra.Order.BigOperators.Group.Finset
import InferenceGateway.Proof.Controller.Settling

/-!
When the cluster stands still and the client answers, the controllers come to rest: every call that moves a
reconcile on, every start and every retry lowers the rank of the state, and a state without such a step has
empty queues and no reconcile. A call is one step here; what goes on inside the mutex of the datastore is not
part of these runs.
-/

namespace InferenceGateway
open Lib.Workqueue

/-! ## Calm steps -/

/-- A step while the cluster stands still and the client answers. A call moves its reconcile on: the range of
PodResyncAll does not count what it passes over. -/
inductive Controllers.Calm (pool : NamespacedName) (s : Controllers) : Controllers → Prop
  | startModel (req : NamespacedName) (enqueued : .model req ∈ s.pending) (idle : s.model = .returned) :
      Calm pool s { s with pending := s.pending.erase (.model req), model := .get req }
  | startPod (req : NamespacedName) (enqueued : .pods (.pod req) ∈ s.pending) (idle : s.pod = .returned) :
      Calm pool s { s with pending := s.pending.erase (.pods (.pod req)), pod := .poolGet req }
  | startPool (enqueued : .pods .pool ∈ s.pending) (idle : s.pool = .returned) :
      Calm pool s { s with pending := s.pending.erase (.pods .pool), pool := .get pool }
  | model {listing : Listing} (lists : listing.Of s.cluster) {order : List String}
      (ranges : RangesOver order s.memory.ds.models) {pc : InferenceModelReconciler.Pc} {memory : Memory}
      (taken : s.model.next ⟨pool⟩ (s.cluster.client s.cluster listing) order s.memory = (pc, memory))
      (moves : pc ≠ s.model) : Calm pool s { s with model := pc, memory := memory }
  | pod {listing : Listing} (lists : listing.Of s.cluster) {pc : PodReconciler.Pc} {memory : Memory}
      (taken : s.pod.next (s.cluster.client s.cluster listing) s.memory = (pc, memory)) (moves : pc ≠ s.pod) :
      Calm pool s { s with pod := pc, memory := memory }
  | pool {listing : Listing} (lists : listing.Of s.cluster) (visit : Option NamespacedName)
      {pc : InferencePoolReconciler.Pc} {memory : Memory}
      (taken : s.pool.next (s.cluster.client s.cluster listing) visit s.memory = (pc, memory))
      (moves : pc ≠ s.pool) : Calm pool s { s with pool := pc, memory := memory }
  | retryModel (req : NamespacedName) (failed : s.model = .failed req) :
      Calm pool s { s with pending := insert (.model req) s.pending, model := .returned }
  | retryPod (req : NamespacedName) (failed : s.pod = .failed req) :
      Calm pool s { s with pending := insert (.pods (.pod req)) s.pending, pod := .returned }
  | retryPool (failed : s.pool = .failed) :
      Calm pool s { s with pending := insert (.pods .pool) s.pending, pool := .returned }

/-! ## Ranks -/

def PodUpdate.rank : PodUpdate → Nat
  | .load => 5
  -- the stored pod may have to be visited by a range, for 2
  | .store _ => 4
  | .updatePod _ => 1

-- a stored InferenceModel counts 8, since it may cost a failed ModelResync
def InferenceModelReconciler.Pc.rank : Pc → Nat
  | .get _ => 15
  | .modelSetIfOlder _ => 9
  | .modelDelete _ => 12
  | .modelResync _ _ => 19
  | .returned => 0
  | .failed _ => 17

-- without a pool, a reconcile that has passed PoolGet fails and is queued again
def PodReconciler.Pc.rank (pooled : Bool) : Pc → Nat
  | .poolGet _ => 8
  | .get _ => if pooled then 7 else 12
  | .poolLabelsMatch _ _ => if pooled then 6 else 11
  | .podDelete _ => 1
  | .podUpdateOrAddIfNotExist _ call => call.rank
  | .returned => 0
  | .failed _ => 10

/-- `size` is the number of pods that may come to be stored, `listed` that of the pods in the cluster. -/
def InferencePoolReconciler.Pc.rank (size listed : Nat) (stored : Finset NamespacedName) : Pc → Nat
  | .get _ => 2 * size + 5 * listed + 9
  | .clear => 6
  | .poolGet _ => 2 * size + 5 * listed + 5
  | .poolSet _ _ => 2 * size + 5 * listed + 4
  | .listPods _ => 2 * size + 5 * listed + 3
  | .podUpdateOrAddIfNotExist _ [] _ => 2 * size + 2
  | .podUpdateOrAddIfNotExist _ (_ :: items) call => 2 * size + 5 * items.length + 2 + call.rank
  | .range _ visited => 2 * (stored \ visited.toFinset).card + 1
  | .podDelete _ visited _ => 2 * (stored \ visited.toFinset).card + 2
  | .returned => 0
  | .failed => 2 * size + 5 * listed + 11

def ManagerRequest.rank (size listed : Nat) : ManagerRequest → Nat
  | .model _ => 16
  | .pods (.pod _) => 9
  | .pods .pool => 2 * size + 5 * listed + 10

def PodReconciler.Pc.keys : Pc → Finset NamespacedName
  | .poolLabelsMatch _ pod | .podUpdateOrAddIfNotExist pod _ => {pod.namespacedName}
  | _ => ∅

def InferencePoolReconciler.Pc.keys : Pc → Finset NamespacedName
  | .podUpdateOrAddIfNotExist _ items _ => (items.map Pod.namespacedName).toFinset
  | _ => ∅

namespace Controllers

/-- The pods that are stored, and those that may come to be stored. -/
def keys (s : Controllers) : Finset NamespacedName :=
  s.memory.ds.pods.keys ∪ (s.cluster.pods.keys ∪ (s.pod.keys ∪ s.pool.keys))

def listed (s : Controllers) : Nat := s.cluster.pods.keys.card

def rank (s : Controllers) : Nat :=
  ∑ request ∈ s.pending, request.rank s.keys.card s.listed + 8 * s.memory.ds.models.keys.card + s.model.rank +
    s.pod.rank s.memory.ds.pool.isSome + s.pool.rank s.keys.card s.listed s.memory.ds.pods.keys

end Controllers

/-! ## The calls -/

theorem keys_insert {K V : Type} [DecidableEq K] (map : Finmap (fun _ : K => V)) (key : K) (value : V) :
    (map.insert key value).keys = insert key map.keys := by
  ext at_
  simp [Finmap.mem_keys]

theorem card_keys_insert {K V : Type} [DecidableEq K] (map : Finmap (fun _ : K => V)) (key : K) (value : V) :
    (map.insert key value).keys.card ≤ map.keys.card + 1 := by
  rw [keys_insert]
  exact Finset.card_insert_le _ _

section Calls
variable {memory memory' : Memory} {cluster : Cluster} {listing : Listing}

theorem get_ne_other {O : Type} {objects : Finmap (fun _ : NamespacedName => O)} {key : NamespacedName} {msg : String}
    (failed : get objects key = .error (.other msg)) : False := by
  unfold get at failed
  split at failed <;> cases failed

theorem InferenceModelReconciler.Pc.Goes.rank_lt {c : InferenceModelReconciler} {pc pc' : Pc}
    (named : ∀ name m, memory.ds.models.lookup name = some m → m.spec.modelName = name)
    (goes : pc.Goes c (cluster.client cluster listing) memory pc' memory') (moves : pc' ≠ pc) :
    pc'.rank + 8 * memory'.ds.models.keys.card < pc.rank + 8 * memory.ds.models.keys.card := by
  cases goes with
  | readFailed failed => exact (get_ne_other failed).elim
  | @set m free =>
      have grows := card_keys_insert memory.ds.models m.spec.modelName m
      simp only [rank, Datastore.withModels_models]
      omega
  | @deleted _ name existing stored own =>
      have member : existing.spec.modelName ∈ memory.ds.models.keys := by
        rw [named name existing stored]
        exact Finmap.mem_keys.mpr (Finmap.mem_of_lookup_eq_some stored)
      have shrinks := Finset.card_erase_add_one member
      simp only [rank, Datastore.withModels_models, Finmap.keys_erase]
      omega
  | @resynced _ modelName _ _ m =>
      have grows := card_keys_insert memory.ds.models modelName m
      simp only [rank, Datastore.withModels_models]
      omega
  | returned | failed => exact absurd rfl moves
  | _ =>
      simp only [rank]
      omega

def PodUpdate.rankOf : Option PodUpdate → Nat
  | none => 0
  | some call => call.rank

theorem PodUpdate.Goes.rank_lt {pod : Pod} {call : PodUpdate} {call' : Option PodUpdate}
    (goes : Goes pod memory call call' memory') : rankOf call' < call.rank := by
  cases goes <;> simp [rankOf, rank]

theorem PodUpdate.Goes.keys_subset {pod : Pod} {call : PodUpdate} {call' : Option PodUpdate}
    (goes : Goes pod memory call call' memory') :
    memory'.ds.pods.keys ⊆ insert pod.namespacedName memory.ds.pods.keys := by
  cases goes with
  | created | loaded | replaced => exact Finset.subset_insert _ _
  | stored | updated => exact (keys_insert _ _ _).subset

theorem PodUpdate.Goes.unvisited_lt {pod : Pod} {call : PodUpdate} {call' : Option PodUpdate}
    (goes : Goes pod memory call call' memory') (visited : Finset NamespacedName) :
    rankOf call' + 2 * (memory'.ds.pods.keys \ visited).card <
      call.rank + 2 * (memory.ds.pods.keys \ visited).card := by
  cases goes with
  | created | loaded | replaced =>
      simp only [rankOf, rank, Memory.newPodMetrics]
      omega
  | @stored pm =>
      have grows : ((memory.ds.pods.insert pod.namespacedName pm).keys \ visited).card ≤
          (memory.ds.pods.keys \ visited).card + 1 := by
        rw [keys_insert]
        refine le_trans (Finset.card_le_card ?_) (Finset.card_insert_le pod.namespacedName _)
        intro key
        simp only [Finset.mem_sdiff, Finset.mem_insert]
        tauto
      simp only [rankOf, rank]
      omega
  | @updated pm found =>
      have same : (memory.ds.pods.insert pod.namespacedName (pm.updatePod pod)).keys = memory.ds.pods.keys := by
        rw [keys_insert]
        exact Finset.insert_eq_of_mem (Finmap.mem_keys.mpr (Finmap.mem_of_lookup_eq_some found))
      rw [same]
      simp only [rankOf, rank]
      omega

theorem podDelete_keys (ds : Datastore) (key : NamespacedName) : (ds.podDelete key).pods.keys ⊆ ds.pods.keys := by
  unfold Datastore.podDelete
  split
  · exact subset_rfl
  · rw [Finmap.keys_erase]
    exact Finset.erase_subset _ _

theorem PodReconciler.Pc.Goes.rank_lt {pc pc' : Pc}
    (goes : pc.Goes (cluster.client cluster listing) memory pc' memory') (moves : pc' ≠ pc)
    (visited : Finset NamespacedName) :
    pc'.rank memory'.ds.pool.isSome + 2 * (memory'.ds.pods.keys \ visited).card <
      pc.rank memory.ds.pool.isSome + 2 * (memory.ds.pods.keys \ visited).card := by
  rw [goes.blind Datastore.podBlind_pool]
  cases goes with
  | readFailed failed => exact (get_ne_other failed).elim
  | synced pooled | refused pooled | accepted pooled =>
      simp only [rank, pooled, PodUpdate.rank, Option.isSome_some, if_true]
      omega
  | cleared none =>
      simp only [rank, none, Option.isSome_none, Bool.false_eq_true, if_false]
      omega
  | @deleted key =>
      have shrinks := Finset.card_le_card
        (Finset.sdiff_subset_sdiff (podDelete_keys memory.ds key) (subset_refl visited))
      simp only [rank]
      omega
  | updates called => exact called.unvisited_lt visited
  | updated called => exact called.unvisited_lt visited
  | returned | failed => exact absurd rfl moves
  | unsynced =>
      simp only [rank]
      omega
  | notFound | marked | unmarked =>
      simp only [rank]
      split_ifs <;> omega

theorem length_listed (lists : listing.Of cluster) (selector : Labels) (ns : String) {items : List Pod}
    (ok : (cluster.client cluster listing).listPods selector ns = .ok items) :
    items.length ≤ cluster.pods.keys.card := by
  obtain ⟨nodup, same⟩ := rangesOver_iff.mp lists.pods
  cases ok
  rw [← same, List.toFinset_card_of_nodup nodup]
  exact (List.length_filter_le _ _).trans (List.length_filterMap_le _ _)

theorem PodReconciler.Pc.rank_pooled (pc : Pc) (pooled : Bool) :
    pc.rank true ≤ pc.rank pooled ∧ pc.rank false ≤ pc.rank pooled + 5 := by
  cases pooled <;> cases pc <;> simp [rank]

theorem unvisited_cons {stored : Finset NamespacedName} {visited : List NamespacedName} {key : NamespacedName}
    (member : key ∈ stored) (fresh : key ∉ visited) :
    (stored \ (key :: visited).toFinset).card + 1 = (stored \ visited.toFinset).card := by
  have unvisited : key ∈ stored \ visited.toFinset := by simp [member, fresh]
  rw [← Finset.card_erase_add_one unvisited, List.toFinset_cons, Finset.sdiff_insert]

theorem rank_of_items (size listed : Nat) (stored : Finset NamespacedName) (activePods : List String)
    (items : List Pod) :
    (InferencePoolReconciler.Pc.podUpdateOrAddIfNotExist activePods items .load).rank size listed stored =
      2 * size + 5 * items.length + 2 := by
  cases items with
  | nil => rfl
  | cons pod items =>
      simp only [InferencePoolReconciler.Pc.rank, PodUpdate.rank, List.length_cons]
      omega

-- what the other reconciles may have to do changes when the pool is set or cleared
theorem InferencePoolReconciler.Pc.Goes.rank_lt {pc pc' : Pc} {visit : Option NamespacedName} {size : Nat}
    (lists : listing.Of cluster) (fits : memory.ds.pods.keys.card ≤ size)
    (goes : pc.Goes (cluster.client cluster listing) visit memory pc' memory') (moves : pc' ≠ pc)
    (other : PodReconciler.Pc) :
    pc'.rank size cluster.pods.keys.card memory'.ds.pods.keys + other.rank memory'.ds.pool.isSome +
        8 * memory'.ds.models.keys.card <
      pc.rank size cluster.pods.keys.card memory.ds.pods.keys + other.rank memory.ds.pool.isSome +
        8 * memory.ds.models.keys.card := by
  cases goes with
  | readFailed failed => exact (get_ne_other failed).elim
  | cleared =>
      have costs := (other.rank_pooled memory.ds.pool.isSome).2
      simp only [rank, Datastore.clear, Option.isSome_none, Finmap.keys_empty, Finset.card_empty]
      omega
  | set | resyncs =>
      have saves := (other.rank_pooled memory.ds.pool.isSome).1
      simp only [rank, Datastore.poolSet, Option.isSome_some]
      omega
  | @listed newPool items listed =>
      have few := (List.length_filter_le podIsReady items).trans (length_listed lists _ _ listed)
      rw [rank_of_items]
      simp only [rank]
      omega
  | added =>
      have all : (memory.ds.pods.keys \ [].toFinset).card ≤ memory.ds.pods.keys.card :=
        Finset.card_le_card Finset.sdiff_subset
      simp only [rank]
      omega
  | updates called =>
      rw [called.blind Datastore.podBlind_pool, called.blind Datastore.podBlind_models]
      have falls := called.rank_lt
      simp only [rank, PodUpdate.rankOf] at falls ⊢
      omega
  | updated called =>
      rw [called.blind Datastore.podBlind_pool, called.blind Datastore.podBlind_models, rank_of_items]
      have falls := called.rank_lt
      simp only [rank, PodUpdate.rankOf] at falls ⊢
      omega
  | passed | returned | failed => exact absurd rfl moves
  | kept visits fresh found | dropped visits fresh found =>
      have fewer := unvisited_cons (Finmap.mem_keys.mpr (Finmap.mem_of_lookup_eq_some found)) fresh
      simp only [rank]
      omega
  | @deleted _ visited key =>
      have shrinks := Finset.card_le_card
        (Finset.sdiff_subset_sdiff (podDelete_keys memory.ds key) (subset_refl visited.toFinset))
      simp only [rank, Datastore.podBlind_pool.podDelete, Datastore.podBlind_models.podDelete]
      omega
  | _ =>
      simp only [rank]
      omega

/-! ## The pods that may come to be stored -/

theorem mem_keys_of_found {pool : NamespacedName} (named : cluster.Named pool) {at_ : NamespacedName} {pod : Pod}
    (found : cluster.pods.lookup at_ = some pod) : pod.namespacedName ∈ cluster.pods.keys := by
  rw [(named.kept.pods at_ pod found).1]
  exact Finmap.mem_keys.mpr (Finmap.mem_of_lookup_eq_some found)

theorem PodReconciler.Pc.Goes.keys_subset {pool : NamespacedName} {pc pc' : Pc} (named : cluster.Named pool)
    (goes : pc.Goes (cluster.client cluster listing) memory pc' memory') :
    memory'.ds.pods.keys ∪ pc'.keys ⊆ memory.ds.pods.keys ∪ (cluster.pods.keys ∪ pc.keys) := by
  cases goes with
  | @unmarked req pod read =>
      have member := mem_keys_of_found named (Controllers.lookup_of_read (.inl rfl) read)
      apply Finset.union_subset_union_right
      exact (Finset.singleton_subset_iff.mpr member).trans Finset.subset_union_left
  | accepted => exact Finset.union_subset_union_right Finset.subset_union_right
  | deleted => exact Finset.union_subset_union (podDelete_keys _ _) (Finset.empty_subset _)
  | updates called | updated called =>
      intro key
      have grows := called.keys_subset
      have grows := @grows key
      simp only [keys, Finset.mem_union, Finset.mem_insert, Finset.mem_singleton, Finset.notMem_empty] at grows ⊢
      tauto
  | _ => exact Finset.union_subset_union_right (Finset.empty_subset _)

theorem InferencePoolReconciler.Pc.Goes.keys_subset {pool : NamespacedName} {visit : Option NamespacedName}
    {pc pc' : Pc} (named : cluster.Named pool) (lists : listing.Of cluster)
    (goes : pc.Goes (cluster.client cluster listing) visit memory pc' memory') :
    memory'.ds.pods.keys ∪ pc'.keys ⊆ memory.ds.pods.keys ∪ (cluster.pods.keys ∪ pc.keys) := by
  cases goes with
  | cleared => exact Finset.empty_subset _
  | listed listed =>
      apply Finset.union_subset_union_right
      intro key member
      obtain ⟨pod, item, same⟩ := List.mem_map.mp (List.mem_toFinset.mp member)
      cases same
      cases listed
      obtain ⟨⟨at_, found⟩, _⟩ := (mem_listed lists pod).mp (List.mem_of_mem_filter item)
      exact Finset.mem_union_left _ (mem_keys_of_found named found)
  | updates called | updated called =>
      intro key
      have grows := called.keys_subset
      have grows := @grows key
      simp only [keys, List.map_cons, List.toFinset_cons, Finset.mem_union, Finset.mem_insert] at grows ⊢
      tauto
  | deleted => exact Finset.union_subset_union (podDelete_keys _ _) (Finset.empty_subset _)
  | _ => exact Finset.union_subset_union_right (Finset.empty_subset _)

end Calls

/-! ## The rank falls -/

theorem sum_insert_le {K : Type} [DecidableEq K] (f : K → Nat) (key : K) (keys : Finset K) :
    ∑ at_ ∈ insert key keys, f at_ ≤ f key + ∑ at_ ∈ keys, f at_ := by
  by_cases member : key ∈ keys
  · rw [Finset.insert_eq_of_mem member]
    omega
  · rw [Finset.sum_insert member]

theorem ManagerRequest.rank_mono {size size' listed : Nat} (le : size' ≤ size) (request : ManagerRequest) :
    request.rank size' listed ≤ request.rank size listed := by
  cases request with
  | model key => exact Nat.le_refl _
  | pods request =>
      cases request with
      | pod key => exact Nat.le_refl _
      | pool =>
          simp only [rank]
          omega

theorem InferencePoolReconciler.Pc.rank_mono {size size' listed : Nat} (le : size' ≤ size)
    (stored : Finset NamespacedName) (pc : Pc) : pc.rank size' listed stored ≤ pc.rank size listed stored := by
  cases pc with
  | podUpdateOrAddIfNotExist activePods items call =>
      cases items with
      | nil | cons =>
          simp only [rank]
          omega
  | _ =>
      simp only [rank]
      omega

/-- Only a range depends on what is stored, and on what it has not visited. -/
theorem InferencePoolReconciler.Pc.rank_stored (pc : Pc) (size listed : Nat) (stored later : Finset NamespacedName) :
    ∃ visited : Finset NamespacedName, ∀ a b,
      a + 2 * (later \ visited).card < b + 2 * (stored \ visited).card →
        a + pc.rank size listed later < b + pc.rank size listed stored := by
  have all : (later \ (stored ∪ later)).card = 0 ∧ (stored \ (stored ∪ later)).card = 0 := by simp
  cases pc with
  | range activePods visited | podDelete activePods visited namespacedName =>
      refine ⟨visited.toFinset, fun a b falls => ?_⟩
      simp only [rank]
      omega
  | podUpdateOrAddIfNotExist activePods items call =>
      refine ⟨stored ∪ later, fun a b falls => ?_⟩
      cases items with
      | nil | cons =>
          simp only [rank]
          omega
  | _ =>
      refine ⟨stored ∪ later, fun a b falls => ?_⟩
      simp only [rank]
      omega

/-! ## Calls that do not move -/

section Still
variable {client : Client} {memory memory' : Memory}

theorem InferenceModelReconciler.Pc.Goes.still {c : InferenceModelReconciler} {pc : Pc}
    (goes : pc.Goes c client memory pc memory') : pc = .returned ∨ ∃ req, pc = .failed req := by
  cases goes with
  | returned => exact .inl rfl
  | @failed req => exact .inr ⟨req, rfl⟩

theorem PodReconciler.Pc.Goes.still {pc : Pc} (goes : pc.Goes client memory pc memory') :
    pc = .returned ∨ ∃ req, pc = .failed req := by
  cases goes with
  | updates called => exact absurd called.rank_lt (lt_irrefl _)
  | returned => exact .inl rfl
  | @failed req => exact .inr ⟨req, rfl⟩

-- the range may end
theorem InferencePoolReconciler.Pc.Goes.still {pc : Pc} (goes : pc.Goes client none memory pc memory') :
    pc = .returned ∨ pc = .failed := by
  cases goes with
  | updates called => exact absurd called.rank_lt (lt_irrefl _)
  | passed visits => cases visits
  | returned => exact .inl rfl
  | failed => exact .inr rfl

end Still

namespace Controllers
variable {pool : NamespacedName} {admits : InferenceModel → Prop} {s s' : Controllers}

theorem Calm.step (calm : Calm pool s s') : Step pool admits s s' := by
  cases calm with
  | startModel req enqueued idle => exact .startModel req enqueued idle
  | startPod req enqueued idle => exact .startPod req enqueued idle
  | startPool enqueued idle => exact .startPool enqueued idle
  | model lists ranges taken => exact .model (client_reads lists) ranges taken
  | pod lists taken => exact .pod (client_reads lists) taken
  | pool lists visit taken => exact .pool (client_reads lists) visit taken
  | retryModel req failed => exact .retryModel req failed
  | retryPod req failed => exact .retryPod req failed
  | retryPool failed => exact .retryPool failed

theorem Calm.cluster_eq (calm : Calm pool s s') : s'.cluster = s.cluster := by
  cases calm <;> rfl

theorem Calm.keys_subset (named : s.cluster.Named pool) (calm : Calm pool s s') : s'.keys ⊆ s.keys := by
  cases calm with
  | startModel | retryModel => exact subset_refl s.keys
  | startPod req enqueued idle | retryPod req idle =>
      unfold keys
      rw [idle]
      exact subset_rfl
  | startPool enqueued idle | retryPool idle =>
      unfold keys
      rw [idle]
      exact subset_rfl
  | model lists ranges taken =>
      obtain ⟨models, changed⟩ := (InferenceModelReconciler.Pc.Goes.of_next ranges taken).models
      cases changed
      exact subset_rfl
  | pod lists taken =>
      have sub := (PodReconciler.Pc.Goes.of_next taken).keys_subset named
      intro key
      have sub := @sub key
      simp only [keys, Finset.mem_union] at sub ⊢
      tauto
  | pool lists visit taken =>
      have sub := (InferencePoolReconciler.Pc.Goes.of_next taken).keys_subset named lists
      intro key
      have sub := @sub key
      simp only [keys, Finset.mem_union] at sub ⊢
      tauto

-- the size may be that of the state before
theorem rank_lt_of (cluster : s'.cluster = s.cluster) (sub : s'.keys ⊆ s.keys)
    (falls : ∑ request ∈ s'.pending, request.rank s.keys.card s.listed + 8 * s'.memory.ds.models.keys.card +
      s'.model.rank + s'.pod.rank s'.memory.ds.pool.isSome +
      s'.pool.rank s.keys.card s.listed s'.memory.ds.pods.keys < s.rank) : s'.rank < s.rank := by
  have fewer := Finset.card_le_card sub
  have listed : s'.listed = s.listed := by rw [Controllers.listed, cluster, Controllers.listed]
  have requests : ∑ request ∈ s'.pending, request.rank s'.keys.card s.listed ≤
      ∑ request ∈ s'.pending, request.rank s.keys.card s.listed :=
    Finset.sum_le_sum fun request _ => request.rank_mono fewer
  have range : s'.pool.rank s'.keys.card s.listed s'.memory.ds.pods.keys ≤
      s'.pool.rank s.keys.card s.listed s'.memory.ds.pods.keys := s'.pool.rank_mono fewer _
  refine lt_of_le_of_lt ?_ falls
  rw [rank, listed]
  omega

theorem Calm.rank_lt (reached : Reaches pool admits {} s) (calm : Calm pool s s') : s'.rank < s.rank := by
  apply rank_lt_of calm.cluster_eq (calm.keys_subset reached.named)
  cases calm with
  | startModel req enqueued idle =>
      have total := Finset.add_sum_erase s.pending (fun request => request.rank s.keys.card s.listed) enqueued
      simp only [rank, idle, ManagerRequest.rank, InferenceModelReconciler.Pc.rank] at total ⊢
      omega
  | startPod req enqueued idle =>
      have total := Finset.add_sum_erase s.pending (fun request => request.rank s.keys.card s.listed) enqueued
      simp only [rank, idle, ManagerRequest.rank, PodReconciler.Pc.rank] at total ⊢
      omega
  | startPool enqueued idle =>
      have total := Finset.add_sum_erase s.pending (fun request => request.rank s.keys.card s.listed) enqueued
      simp only [rank, idle, ManagerRequest.rank, InferencePoolReconciler.Pc.rank] at total ⊢
      omega
  | model lists ranges taken moves =>
      obtain ⟨_, vetted⟩ := reached.exists_vetted
      have named := fun name m stored => (vetted.holds.models name m stored).2
      have goes := InferenceModelReconciler.Pc.Goes.of_next ranges taken
      have falls := goes.rank_lt named moves
      obtain ⟨models, changed⟩ := goes.models
      cases changed
      simp only [rank, Datastore.withModels] at falls ⊢
      omega
  | @pod listing lists pc memory taken moves =>
      have goes := PodReconciler.Pc.Goes.of_next taken
      have models := goes.blind Datastore.podBlind_models
      obtain ⟨visited, rest⟩ :=
        s.pool.rank_stored s.keys.card s.listed s.memory.ds.pods.keys memory.ds.pods.keys
      have falls := rest _ _ (goes.rank_lt moves visited)
      simp only [rank, models]
      omega
  | pool lists visit taken moves =>
      have fits : s.memory.ds.pods.keys.card ≤ s.keys.card := Finset.card_le_card Finset.subset_union_left
      have falls := (InferencePoolReconciler.Pc.Goes.of_next taken).rank_lt lists fits moves s.pod
      simp only [rank, listed] at falls ⊢
      omega
  | retryModel req failed =>
      have total := sum_insert_le (fun request => request.rank s.keys.card s.listed) (.model req) s.pending
      simp only [rank, failed, ManagerRequest.rank, InferenceModelReconciler.Pc.rank] at total ⊢
      omega
  | retryPod req failed =>
      have total := sum_insert_le (fun request => request.rank s.keys.card s.listed) (.pods (.pod req)) s.pending
      simp only [rank, failed, ManagerRequest.rank, PodReconciler.Pc.rank] at total ⊢
      omega
  | retryPool failed =>
      have total := sum_insert_le (fun request => request.rank s.keys.card s.listed) (.pods .pool) s.pending
      simp only [rank, failed, ManagerRequest.rank, InferencePoolReconciler.Pc.rank] at total ⊢
      omega

/-! ## A state without a step is at rest -/

structure AtRest (s : Controllers) : Prop where
  worked : s.pending = ∅
  model : s.model = .returned
  pod : s.pod = .returned
  pool : s.pool = .returned

theorem atRest_of_stuck (stuck : ∀ s', ¬Calm pool s s') : s.AtRest := by
  obtain ⟨models, listsModels⟩ := exists_rangesOver s.cluster.models
  obtain ⟨pods, listsPods⟩ := exists_rangesOver s.cluster.pods
  obtain ⟨order, ranges⟩ := exists_rangesOver s.memory.ds.models
  have lists : Listing.Of ⟨models, pods⟩ s.cluster := ⟨listsModels, listsPods⟩
  have model : s.model = .returned := by
    have still : (s.model.next ⟨pool⟩ (s.cluster.client s.cluster ⟨models, pods⟩) order s.memory).1 = s.model := by
      by_contra moves
      exact stuck _ (.model lists ranges rfl moves)
    rcases (InferenceModelReconciler.Pc.Goes.of_next ranges (Prod.ext still rfl)).still with returned | ⟨req, failed⟩
    · exact returned
    · exact absurd (.retryModel req failed) (stuck _)
  have pod : s.pod = .returned := by
    have still : (s.pod.next (s.cluster.client s.cluster ⟨models, pods⟩) s.memory).1 = s.pod := by
      by_contra moves
      exact stuck _ (.pod lists rfl moves)
    rcases (PodReconciler.Pc.Goes.of_next (Prod.ext still rfl)).still with returned | ⟨req, failed⟩
    · exact returned
    · exact absurd (.retryPod req failed) (stuck _)
  have resting : s.pool = .returned := by
    have still : (s.pool.next (s.cluster.client s.cluster ⟨models, pods⟩) none s.memory).1 = s.pool := by
      by_contra moves
      exact stuck _ (.pool lists none rfl moves)
    rcases (InferencePoolReconciler.Pc.Goes.of_next (Prod.ext still rfl)).still with returned | failed
    · exact returned
    · exact absurd (.retryPool failed) (stuck _)
  refine ⟨Finset.eq_empty_of_forall_notMem ?_, model, pod, resting⟩
  intro request enqueued
  cases request with
  | model req => exact stuck _ (.startModel req enqueued model)
  | pods request =>
      cases request with
      | pod req => exact stuck _ (.startPod req enqueued pod)
      | pool => exact stuck _ (.startPool enqueued resting)

/-! ## Calm runs -/

theorem length_le_rank (reached : Reaches pool admits {} s) (run : List Controllers)
    (calm : (s :: run).IsChain (Calm pool)) : run.length ≤ s.rank := by
  induction run generalizing s with
  | nil => exact Nat.zero_le _
  | cons next run ih =>
      obtain ⟨first, rest⟩ := List.isChain_cons_cons.mp calm
      have falls := first.rank_lt reached
      have bound := ih (reached.tail first.step) rest
      rw [List.length_cons]
      omega

theorem exists_rest (reached : Reaches pool admits {} s) :
    ∃ s', Relation.ReflTransGen (Calm pool) s s' ∧ ∀ s'', ¬Calm pool s' s'' := by
  induction bound : s.rank using Nat.strong_induction_on generalizing s with
  | _ rank ih =>
      by_cases stuck : ∀ s'', ¬Calm pool s s''
      · exact ⟨s, .refl, stuck⟩
      · obtain ⟨next, first⟩ := not_forall_not.mp stuck
        obtain ⟨s', run, rest⟩ := ih next.rank (bound ▸ first.rank_lt reached) (reached.tail first.step) rfl
        exact ⟨s', run.head first, rest⟩

theorem controllers_come_to_rest (reached : Reaches pool admits {} s) :
    (∀ run : List Controllers, (s :: run).IsChain (Calm pool) → run.length ≤ s.rank) ∧
    (∀ s', Relation.ReflTransGen (Calm pool) s s' → (∀ s'', ¬Calm pool s' s'') → s'.AtRest) ∧
    ∃ s', Relation.ReflTransGen (Calm pool) s s' ∧ s'.AtRest := by
  refine ⟨length_le_rank reached, fun s' _ stuck => atRest_of_stuck stuck, ?_⟩
  obtain ⟨s', run, stuck⟩ := exists_rest reached
  exact ⟨s', run, atRest_of_stuck stuck⟩

theorem queued_come_to_rest :
    (∀ run : List Controllers, (queued :: run).IsChain (Calm ⟨"default", "pool"⟩) → run.length ≤ 9) ∧
    ∃ s', Relation.ReflTransGen (Calm ⟨"default", "pool"⟩) queued s' ∧ s'.AtRest := by
  have reached : Reaches ⟨"default", "pool"⟩ (fun _ => True) {} queued :=
    reaches_performed ⟨"default", "pool"⟩ (fun _ => True) queuedTurns {} queuedTurns_return
  have bound : queued.rank = 9 := by decide +kernel
  obtain ⟨bounded, _, rests⟩ := controllers_come_to_rest reached
  rw [bound] at bounded
  exact ⟨bounded, rests⟩

end Controllers

end InferenceGateway
