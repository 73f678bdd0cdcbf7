import InferenceGateway.Cluster

namespace InferenceGateway.Datastore
open Lib.Workqueue

variable {ds : Datastore} {key : NamespacedName}

def podAt (ds : Datastore) (key : NamespacedName) : Option BackendPod :=
  (ds.pods.lookup key).map PodMetrics.pod

def PodsKeyed (ds : Datastore) : Prop :=
  ∀ key pod, ds.podAt key = some pod → pod.namespacedName = key

theorem podDelete_lookup (ds : Datastore) (key at_ : NamespacedName) :
    (ds.podDelete key).pods.lookup at_ = if at_ = key then none else ds.pods.lookup at_ := by
  unfold podDelete
  cases found : ds.pods.lookup key with
  | none =>
      split_ifs with same
      · rw [same, found]
      · rfl
  | some pm => exact lookup_erase_eq ..

theorem podDelete_podAt (ds : Datastore) (key at_ : NamespacedName) :
    (ds.podDelete key).podAt at_ = if at_ = key then none else ds.podAt at_ := by
  rw [podAt, podDelete_lookup]
  split_ifs <;> rfl

theorem podAt_of_podDelete {ds : Datastore} {key at_ : NamespacedName} {pod : BackendPod}
    (remains : (ds.podDelete key).podAt at_ = some pod) : at_ ≠ key ∧ ds.podAt at_ = some pod := by
  rw [podDelete_podAt] at remains
  split_ifs at remains with deleted
  exact ⟨deleted, remains⟩

theorem podUpdate_podAt (ds : Datastore) (pod : Pod) (at_ : NamespacedName) :
    (ds.podUpdateOrAddIfNotExist pod).2.podAt at_ =
      if at_ = pod.namespacedName then some (toInternalPod pod) else ds.podAt at_ := by
  unfold podUpdateOrAddIfNotExist podAt
  cases ds.pods.lookup pod.namespacedName with
  | none | some =>
      simp only [lookup_insert_eq]
      split_ifs <;> rfl

def PodBlind {A : Type} (f : Datastore → A) : Prop :=
  ∀ ds pods created stopped, f { ds with pods := pods, created := created, stopped := stopped } = f ds

theorem podBlind_pool : PodBlind Datastore.pool := fun _ _ _ _ => rfl

theorem podBlind_models : PodBlind Datastore.models := fun _ _ _ _ => rfl

theorem PodBlind.podDelete {A : Type} {f : Datastore → A} (blind : PodBlind f) (ds : Datastore)
    (key : NamespacedName) : f (ds.podDelete key) = f ds := by
  unfold Datastore.podDelete
  cases ds.pods.lookup key with
  | none => rfl
  | some pm => exact blind ds _ _ _

theorem PodBlind.podUpdate {A : Type} {f : Datastore → A} (blind : PodBlind f) (ds : Datastore)
    (pod : Pod) : f (ds.podUpdateOrAddIfNotExist pod).2 = f ds := by
  unfold podUpdateOrAddIfNotExist
  cases ds.pods.lookup pod.namespacedName with
  | none | some => exact blind ds _ _ _

theorem PodsKeyed.podDelete (keyed : ds.PodsKeyed) (key : NamespacedName) : (ds.podDelete key).PodsKeyed := by
  intro at_ pod found
  exact keyed at_ pod (podAt_of_podDelete found).2

theorem PodsKeyed.podUpdate (keyed : ds.PodsKeyed) (pod : Pod) :
    (ds.podUpdateOrAddIfNotExist pod).2.PodsKeyed := by
  intro at_ stored found
  rw [podUpdate_podAt] at found
  split_ifs at found with same
  · obtain rfl := Option.some.inj found
    exact same.symm
  · exact keyed at_ stored found

/-! ## The loops of `PodResyncAll` -/

section Loops
variable {P : Datastore → Prop}

theorem podAddReady_of_podUpdate (podUpdate : ∀ ds pod, P ds → P (ds.podUpdateOrAddIfNotExist pod).2)
    (items : List Pod) (holds : P ds) : P (ds.podAddReady items) := by
  unfold podAddReady
  induction items.filter podIsReady generalizing ds with
  | nil => exact holds
  | cons pod rest ih => exact ih (podUpdate ds pod holds)

theorem podDeleteInactive_of_podDelete (podDelete : ∀ ds key, P ds → P (ds.podDelete key)) (active : List String)
    (key : NamespacedName) (holds : P ds) : P (ds.podDeleteInactive active key) := by
  unfold podDeleteInactive
  cases ds.pods.lookup key with
  | none => exact holds
  | some pm =>
      dsimp only
      split_ifs
      · exact holds
      · exact podDelete ds _ holds

theorem deleteLoop_of_podDelete (podDelete : ∀ ds key, P ds → P (ds.podDelete key)) (active : List String)
    (order : List NamespacedName) (holds : P ds) :
    P (order.foldl (fun ds key => ds.podDeleteInactive active key) ds) := by
  induction order generalizing ds with
  | nil => exact holds
  | cons key order ih => exact ih (podDeleteInactive_of_podDelete podDelete active key holds)

/-- What `PodUpdateOrAddIfNotExist` and `PodDelete` preserve, so that `PodResyncAll` does. -/
structure PodStable (P : Datastore → Prop) : Prop where
  podUpdate : ∀ ds pod, P ds → P (ds.podUpdateOrAddIfNotExist pod).2
  podDelete : ∀ ds key, P ds → P (ds.podDelete key)

theorem PodStable.podResyncAll (stable : PodStable P) (client : Client) (pool : InferencePool)
    (order : List NamespacedName) (holds : P ds) : P (ds.podResyncAll client pool order) := by
  unfold Datastore.podResyncAll
  split
  · exact holds
  · exact deleteLoop_of_podDelete stable.podDelete _ order (podAddReady_of_podUpdate stable.podUpdate _ holds)

end Loops

theorem podStable_podsKeyed : PodStable PodsKeyed :=
  ⟨fun _ pod keyed => keyed.podUpdate pod, fun _ key keyed => keyed.podDelete key⟩

theorem PodBlind.podResyncAll {A : Type} {f : Datastore → A} (blind : PodBlind f) (ds : Datastore)
    (client : Client) (pool : InferencePool) (order : List NamespacedName) :
    f (ds.podResyncAll client pool order) = f ds := by
  have stable : PodStable fun later => f later = f ds :=
    ⟨fun later pod same => (blind.podUpdate later pod).trans same,
      fun later key same => (blind.podDelete later key).trans same⟩
  exact stable.podResyncAll client pool order rfl

def lastReady (items : List Pod) (key : NamespacedName) : Option Pod :=
  (items.filter podIsReady).reverse.find? fun pod => pod.namespacedName = key

theorem lastReady_eq_some {items : List Pod} {pod : Pod} (found : lastReady items key = some pod) :
    pod ∈ items ∧ podIsReady pod = true ∧ pod.namespacedName = key := by
  have own := List.find?_some found
  have member := List.mem_of_find?_eq_some found
  rw [List.mem_reverse, List.mem_filter] at member
  exact ⟨member.1, member.2, of_decide_eq_true own⟩

theorem lastReady_eq_none {items : List Pod} :
    lastReady items key = none ↔ ∀ pod ∈ items, podIsReady pod = true → pod.namespacedName ≠ key := by
  simp [lastReady, List.find?_eq_none, List.mem_filter]

theorem podAddReady_podAt (ds : Datastore) (items : List Pod) (at_ : NamespacedName) :
    (ds.podAddReady items).podAt at_ = ((lastReady items at_).map toInternalPod).or (ds.podAt at_) := by
  unfold podAddReady lastReady
  induction items.filter podIsReady using List.reverseRecOn with
  | nil => rfl
  | append_singleton before pod ih =>
      rw [List.foldl_append, List.reverse_append]
      simp only [List.foldl_cons, List.foldl_nil, List.reverse_singleton, List.singleton_append,
        List.find?_cons, podUpdate_podAt, ih]
      by_cases same : pod.namespacedName = at_
      · simp [same]
      · simp [same, Ne.symm same]

theorem podDeleteInactive_podAt (keyed : ds.PodsKeyed) (active : List String) (key at_ : NamespacedName) :
    (ds.podDeleteInactive active key).podAt at_ =
      if at_ = key ∧ key.name ∉ active then none else ds.podAt at_ := by
  unfold podDeleteInactive
  cases found : ds.pods.lookup key with
  | none =>
      split_ifs with removed
      · rw [podAt, removed.1, found, Option.map_none]
      · rfl
  | some pm =>
      have own : pm.pod.namespacedName = key := keyed key pm.pod (by rw [podAt, found, Option.map_some])
      simp only [own]
      by_cases inactive : key.name ∈ active
      · simp [inactive]
      · simp [inactive, podDelete_podAt]

theorem deleteLoop_podAt (keyed : ds.PodsKeyed) (active : List String) (order : List NamespacedName)
    (at_ : NamespacedName) :
    (order.foldl (fun ds key => ds.podDeleteInactive active key) ds).podAt at_ =
      if at_ ∈ order ∧ at_.name ∉ active then none else ds.podAt at_ := by
  induction order generalizing ds with
  | nil => simp
  | cons key order ih =>
      have rest := podDeleteInactive_of_podDelete podStable_podsKeyed.podDelete active key keyed
      rw [List.foldl_cons, ih rest, podDeleteInactive_podAt keyed]
      by_cases same : at_ = key <;> by_cases inactive : at_.name ∈ active <;> simp_all

def activePods (items : List Pod) : List String := (items.filter podIsReady).map Pod.name

theorem podResyncAll_podAt {client : Client} {pool : InferencePool} {order : List NamespacedName}
    {items : List Pod} (keyed : ds.PodsKeyed) (listed : client.listPods pool.spec.selector pool.ns = .ok items)
    (ranges : RangesOver order (ds.podAddReady items).pods) (at_ : NamespacedName) :
    (ds.podResyncAll client pool order).podAt at_ =
      if at_.name ∈ activePods items then ((lastReady items at_).map toInternalPod).or (ds.podAt at_)
      else none := by
  simp only [podResyncAll, listed]
  have added := podAddReady_of_podUpdate podStable_podsKeyed.podUpdate items keyed
  rw [deleteLoop_podAt added, ← podAddReady_podAt, activePods]
  simp only [ranges.visits]
  by_cases inactive : at_.name ∈ (items.filter podIsReady).map Pod.name
  · simp [inactive]
  · rw [if_neg inactive]
    split_ifs with stored
    · rfl
    · have absent : at_ ∉ (ds.podAddReady items).pods := fun member => stored ⟨member, inactive⟩
      rw [podAt, Finmap.lookup_eq_none.mpr absent, Option.map_none]

end InferenceGateway.Datastore
