import InferenceGateway.Proof.Datastore.RefreshLoops

/-!
The store after a successful `PodResyncAll`.
-/

namespace InferenceGateway.Datastore

variable {ds : Datastore} {items : List Pod} {key : NamespacedName}

def ListedReady (items : List Pod) (key : NamespacedName) : Prop :=
  ∃ pod ∈ items, podIsReady pod = true ∧ pod.namespacedName = key

/-- The store holds exactly the listed ready pods, with their addresses, and has kept the objects of
those it held before. -/
structure Resynced (items : List Pod) (before after : Datastore) : Prop where
  keys : ∀ key, key ∈ after.pods ↔ ListedReady items key
  addresses : ∀ key pod, after.podAt key = some pod →
    ∃ listed ∈ items, podIsReady listed = true ∧ listed.namespacedName = key ∧ pod.address = listed.status.podIP
  objects : ∀ key ref, before.refAt key = some ref → key ∈ after.pods → after.refAt key = some ref

theorem mem_pods_iff_podAt : key ∈ ds.pods ↔ ∃ pod, ds.podAt key = some pod := by
  rw [← Finmap.lookup_isSome, Option.isSome_iff_exists]
  simp [podAt]

theorem mem_pods_iff_refAt : key ∈ ds.pods ↔ ∃ ref, ds.refAt key = some ref := by
  rw [← Finmap.lookup_isSome, Option.isSome_iff_exists]
  simp [refAt]

theorem listedReady_iff_lastReady : ListedReady items key ↔ ∃ pod, lastReady items key = some pod := by
  rw [← Option.isSome_iff_exists, ← not_iff_not, Option.not_isSome_iff_eq_none, lastReady_eq_none]
  simp [ListedReady]

theorem ListedReady.name_mem (listed : ListedReady items key) : key.name ∈ activePods items := by
  obtain ⟨pod, member, ready, rfl⟩ := listed
  exact List.mem_map.mpr ⟨pod, List.mem_filter.mpr ⟨member, ready⟩, rfl⟩

theorem podAddReady_keeps_ref {ref : Nat} (items : List Pod) (stored : ds.refAt key = some ref) :
    (ds.podAddReady items).refAt key = some ref := by
  refine podAddReady_of_podUpdate (P := fun later => later.refAt key = some ref) (fun later pod held => ?_) items stored
  rw [podUpdate_refAt]
  split_ifs with own
  · rw [← own, held, Option.getD_some]
  · exact held

theorem deleteLoop_keeps_ref {ref : Nat} (active : List String) (order : List NamespacedName)
    (stored : ds.refAt key = some ref)
    (remains : key ∈ (order.foldl (fun ds key => ds.podDeleteInactive active key) ds).pods) :
    (order.foldl (fun ds key => ds.podDeleteInactive active key) ds).refAt key = some ref := by
  have same := deleteLoop_of_podDelete (P := fun later => key ∈ later.pods → later.refAt key = some ref)
    (fun later deleted held remains => by
      obtain ⟨other, found⟩ := mem_pods_iff_refAt.mp remains
      rw [podDelete_refAt] at found ⊢
      split_ifs at found ⊢
      exact held (mem_pods_iff_refAt.mpr ⟨other, found⟩)) active order (fun _ => stored)
  exact same remains

section PodResyncAll
variable {client : Client} {pool : InferencePool} {order : List NamespacedName}

theorem podResyncAll_keeps_ref {ref : Nat} (stored : ds.refAt key = some ref)
    (remains : key ∈ (ds.podResyncAll client pool order).pods) :
    (ds.podResyncAll client pool order).refAt key = some ref := by
  unfold podResyncAll at remains ⊢
  split at remains
  · exact stored
  · exact deleteLoop_keeps_ref _ order (podAddReady_keeps_ref _ stored) remains

/-- `PodResyncAll` deletes by bare names: it makes the store equal to the listed ready pods exactly
when every stored pod that has the name of a listed ready pod has its namespace too. -/
theorem podResyncAll_resynced_iff (keyed : ds.PodsKeyed)
    (listed : client.listPods pool.spec.selector pool.ns = .ok items)
    (ranges : RangesOver order (ds.podAddReady items).pods) :
    Resynced items ds (ds.podResyncAll client pool order) ↔
      ∀ key ∈ ds.pods, key.name ∈ activePods items → ListedReady items key := by
  have after := podResyncAll_podAt keyed listed ranges
  constructor
  · intro resynced key stored active
    apply (resynced.keys key).mp
    obtain ⟨pod, held⟩ := mem_pods_iff_podAt.mp stored
    rw [mem_pods_iff_podAt, after, if_pos active, held]
    cases (lastReady items key).map toInternalPod with
    | none => exact ⟨pod, rfl⟩
    | some ready => exact ⟨ready, rfl⟩
  · intro named
    -- with no namesake left, what is stored is what was listed
    have stored (key : NamespacedName) :
        (ds.podResyncAll client pool order).podAt key = (lastReady items key).map toInternalPod := by
      rw [after]
      cases last : lastReady items key with
      | some pod =>
          have active := (listedReady_iff_lastReady.mpr ⟨pod, last⟩).name_mem
          rw [if_pos active]
          rfl
      | none =>
          split_ifs with active
          · cases held : ds.podAt key with
            | none => rfl
            | some pod =>
                obtain ⟨ready, found⟩ :=
                  listedReady_iff_lastReady.mp (named key (mem_pods_iff_podAt.mpr ⟨pod, held⟩) active)
                rw [last] at found
                cases found
          · rfl
    constructor
    · intro key
      rw [mem_pods_iff_podAt, listedReady_iff_lastReady]
      simp [stored]
    · intro key pod found
      rw [stored, Option.map_eq_some_iff] at found
      obtain ⟨ready, last, rfl⟩ := found
      obtain ⟨member, isReady, own⟩ := lastReady_eq_some last
      exact ⟨ready, member, isReady, own, rfl⟩
    · intro key ref held remains
      exact podResyncAll_keeps_ref held remains

end PodResyncAll

theorem podsKeyed_of_added (pods : List Pod) : (({} : Datastore).podAddReady pods).PodsKeyed := by
  refine podAddReady_of_podUpdate podStable_podsKeyed.podUpdate pods fun key pod found => ?_
  simp [podAt] at found

theorem moved_pod_resynced :
    let listed := [testPod "default" "vllm-0" "10.0.0.2"]
    let ds := ({} : Datastore).podAddReady
      [testPod "default" "vllm-0" "10.0.0.1", testPod "staging" "vllm-1" "10.1.0.1"]
    Resynced listed ds
      (ds.podResyncAll (listingClient listed) testPool [⟨"staging", "vllm-1"⟩, ⟨"default", "vllm-0"⟩]) := by
  intro listed ds
  have named : ∀ key ∈ ds.pods.keys, key.name ∈ activePods listed → ListedReady listed key := by
    unfold ListedReady
    decide +kernel
  refine (podResyncAll_resynced_iff (podsKeyed_of_added _) rfl (by decide +kernel)).mpr fun key stored => ?_
  exact named key (Finmap.mem_keys.mpr stored)

theorem namesake_survives_resync :
    let listed := [testPod "default" "vllm-0" "10.0.0.2"]
    let ds := ({} : Datastore).podAddReady [testPod "staging" "vllm-0" "10.1.0.1"]
    let order : List NamespacedName := [⟨"staging", "vllm-0"⟩, ⟨"default", "vllm-0"⟩]
    RangesOver order (ds.podAddReady listed).pods ∧
      ¬Resynced listed ds (ds.podResyncAll (listingClient listed) testPool order) := by
  intro listed ds order
  refine ⟨by decide +kernel, fun resynced => ?_⟩
  have stored : (⟨"staging", "vllm-0"⟩ : NamespacedName) ∈
      (ds.podResyncAll (listingClient listed) testPool order).pods := by
    decide +kernel
  have unlisted : ¬ListedReady listed ⟨"staging", "vllm-0"⟩ := by
    unfold ListedReady
    decide +kernel
  exact unlisted ((resynced.keys _).mp stored)

end InferenceGateway.Datastore
