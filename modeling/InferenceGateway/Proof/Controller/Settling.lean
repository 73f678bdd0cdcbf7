import InferenceGateway.Proof.Controller.Concurrent

/-!
While the InferencePool's controller rests, a pod whose request has been worked off is stored if and only
if it is eligible, and with its current address. Changes of the cluster, failed reads, retries and the
reconciles of InferenceModels may come between any two calls.
-/

namespace InferenceGateway
open Lib.Workqueue

/-! ## Calls that leave the pods alone -/

/-- A step of an InferenceModel's reconcile changes the InferenceModels only. -/
theorem InferenceModelReconciler.Pc.Goes.models {c : InferenceModelReconciler} {client : Client} {pc pc' : Pc}
    {memory memory' : Memory} (goes : pc.Goes c client memory pc' memory') :
    ∃ models, memory' = { memory with ds := memory.ds.withModels models } := by
  cases goes <;> exact ⟨_, rfl⟩

/-! ## The pod's reconcile -/

section Pods
variable {pod : Pod} {call : PodUpdate} {call' : Option PodUpdate} {memory memory' : Memory} {key : NamespacedName}

theorem PodUpdate.Goes.blind {A : Type} {f : Datastore → A} (blind : Datastore.PodBlind f)
    (goes : Goes pod memory call call' memory') : f memory'.ds = f memory.ds := by
  cases goes with
  | created | stored | updated => exact blind _ _ _ _
  | loaded | replaced => rfl

theorem PodReconciler.Pc.Goes.blind {A : Type} {f : Datastore → A} (blind : Datastore.PodBlind f) {client : Client}
    {pc pc' : Pc} (goes : pc.Goes client memory pc' memory') : f memory'.ds = f memory.ds := by
  cases goes with
  | deleted => exact blind.podDelete _ _
  | updates called | updated called => exact PodUpdate.Goes.blind blind called
  | _ => rfl

theorem PodUpdate.Goes.podAt_of_ne (goes : Goes pod memory call call' memory') (other : key ≠ pod.namespacedName) :
    memory'.ds.podAt key = memory.ds.podAt key := by
  cases goes with
  | created | loaded | replaced => rfl
  | stored | updated => simp only [Datastore.podAt, lookup_insert_eq, if_neg other]

/-- The call will leave the pod in the map. -/
def Lands (pod : Pod) (memory : Memory) : PodUpdate → Prop
  | .updatePod ref => ∃ pm, memory.ds.pods.lookup pod.namespacedName = some pm ∧ pm.ref = ref
  | _ => True

theorem PodUpdate.Goes.lands (lands : Lands pod memory call) (goes : Goes pod memory call call' memory') :
    (∃ next, call' = some next ∧ Lands pod memory' next) ∨
      call' = none ∧ memory'.ds.podAt pod.namespacedName = some (toInternalPod pod) := by
  cases goes with
  | created => exact .inl ⟨_, rfl, trivial⟩
  | @loaded existing found => exact .inl ⟨_, rfl, existing, found, rfl⟩
  | @stored pm => exact .inl ⟨_, rfl, pm, Finmap.lookup_insert _, rfl⟩
  | updated found =>
      refine .inr ⟨rfl, ?_⟩
      simp only [Datastore.podAt, Finmap.lookup_insert]
      rfl
  | replaced other =>
      obtain ⟨pm, found, same⟩ := lands
      exact absurd same (other pm found)

def wanted (selector : Labels) (found : Option Pod) : Option BackendPod :=
  (found.filter (eligible selector)).map toInternalPod

theorem wanted_of_eligible {selector : Labels} (taken : eligible selector pod = true) :
    wanted selector (some pod) = some (toInternalPod pod) := by
  simp [wanted, Option.filter, taken]

theorem wanted_of_not_eligible {selector : Labels} (refused : eligible selector pod = false) :
    wanted selector (some pod) = none := by
  simp [wanted, Option.filter, refused]

/-- `found` is the pod in the cluster. A reconcile of the pod will store or remove it as it should; during
any other the pod is already stored as it should be. -/
def Fresh (selector : Labels) (key : NamespacedName) (found : Option Pod) (memory : Memory) :
    PodReconciler.Pc → Prop
  | .poolGet req | .get req | .failed req => req = key ∨ memory.ds.podAt key = wanted selector found
  | .poolLabelsMatch req pod => pod.namespacedName = req ∧ pod.deletionTimestamp = none ∧
      (req = key ∧ found = some pod ∨ req ≠ key ∧ memory.ds.podAt key = wanted selector found)
  | .podDelete namespacedName => namespacedName = key ∧ wanted selector found = none ∨
      namespacedName ≠ key ∧ memory.ds.podAt key = wanted selector found
  | .podUpdateOrAddIfNotExist pod call =>
      pod.namespacedName = key ∧ wanted selector found = some (toInternalPod pod) ∧ Lands pod memory call ∨
      pod.namespacedName ≠ key ∧ memory.ds.podAt key = wanted selector found
  | .returned => memory.ds.podAt key = wanted selector found

/-- The reconcile has read that the pod is to be removed. -/
theorem Fresh.podDelete {selector : Labels} {cluster : Cluster} {req : NamespacedName}
    (fresh : req = key ∨ memory.ds.podAt key = wanted selector (cluster.pods.lookup key))
    (unwanted : wanted selector (cluster.pods.lookup req) = none) :
    Fresh selector key (cluster.pods.lookup key) memory (.podDelete req) := by
  by_cases same : req = key
  · cases same
    exact .inl ⟨rfl, unwanted⟩
  · exact .inr ⟨same, fresh.resolve_left same⟩

theorem Fresh.update {selector : Labels} {found : Option Pod}
    (fresh : Fresh selector key found memory (.podUpdateOrAddIfNotExist pod call))
    (goes : PodUpdate.Goes pod memory call call' memory') :
    Fresh selector key found memory' (call'.elim .returned (.podUpdateOrAddIfNotExist pod)) := by
  rcases fresh with ⟨same, stored, lands⟩ | ⟨other, right⟩
  · rcases goes.lands lands with ⟨next, rfl, lands'⟩ | ⟨rfl, landed⟩
    · exact .inl ⟨same, stored, lands'⟩
    · rw [same] at landed
      exact landed.trans stored.symm
  · have right' := (goes.podAt_of_ne (Ne.symm other)).trans right
    cases call' with
    | some next => exact .inr ⟨other, right'⟩
    | none => exact right'

theorem Fresh.goes {cluster : Cluster} {pool : NamespacedName} {client : Client} {infPool : InferencePool}
    {pc pc' : PodReconciler.Pc} (reads : client.Reads cluster) (named : cluster.Named pool)
    (pooled : memory.ds.pool = some infPool)
    (fresh : Fresh infPool.spec.selector key (cluster.pods.lookup key) memory pc)
    (goes : pc.Goes client memory pc' memory') :
    Fresh infPool.spec.selector key (cluster.pods.lookup key) memory' pc' := by
  cases goes with
  | unsynced none | cleared none => cases none.symm.trans pooled
  | synced | readFailed | returned | failed => exact fresh
  | notFound absent =>
      apply Fresh.podDelete fresh
      rw [Controllers.lookup_of_notFound (reads.getPod _) absent]
      rfl
  | @marked req pod read marked =>
      have found := Controllers.lookup_of_read (reads.getPod req) read
      rw [(named.kept.pods req pod found).1]
      apply Fresh.podDelete fresh
      rw [found, wanted_of_not_eligible]
      simp [eligible, Option.isSome_iff_ne_none.mpr marked]
  | @unmarked req pod read unmarked =>
      have found := Controllers.lookup_of_read (reads.getPod req) read
      refine ⟨(named.kept.pods req pod found).1, unmarked, ?_⟩
      by_cases same : req = key
      · cases same
        exact .inl ⟨rfl, found⟩
      · exact .inr ⟨same, fresh.resolve_left same⟩
  | @refused req pod stored pooled' unfit =>
      cases pooled.symm.trans pooled'
      obtain ⟨rfl, unmarked, fresh⟩ := fresh
      rcases fresh with ⟨same, found⟩ | ⟨other, right⟩
      · refine .inl ⟨same, ?_⟩
        rw [found, wanted_of_not_eligible]
        rw [eligible, ← resyncable, unfit, Bool.false_and]
      · exact .inr ⟨other, right⟩
  | @accepted req pod stored pooled' fits =>
      cases pooled.symm.trans pooled'
      obtain ⟨rfl, unmarked, fresh⟩ := fresh
      rcases fresh with ⟨same, found⟩ | ⟨other, right⟩
      · refine .inl ⟨same, ?_, trivial⟩
        rw [found, wanted_of_eligible]
        rw [eligible, ← resyncable, fits, unmarked]
        rfl
      · exact .inr ⟨other, right⟩
  | @deleted namespacedName =>
      change (memory.ds.podDelete namespacedName).podAt key = _
      rw [Datastore.podDelete_podAt]
      rcases fresh with ⟨same, none⟩ | ⟨other, right⟩
      · rw [if_pos same.symm, none]
      · rw [if_neg (Ne.symm other), right]
  | updates called => exact fresh.update called
  | updated called => exact fresh.update called

end Pods

/-! ## Runs -/

namespace Controllers
variable {pool : NamespacedName} {admits : InferenceModel → Prop} {s s' : Controllers} {key : NamespacedName}
  {infPool : InferencePool}

/-- The InferencePool's controller rests. -/
def Rests (s s' : Controllers) : Prop := s.pool = .returned ∧ s'.pool = .returned

instance : DecidableRel Rests := fun _ _ => inferInstanceAs (Decidable (_ ∧ _))

def Quiet (pool : NamespacedName) (admits : InferenceModel → Prop) (s s' : Controllers) : Prop :=
  Step pool admits s s' ∧ Rests s s'

structure Tracked (infPool : InferencePool) (key : NamespacedName) (s : Controllers) : Prop where
  pooled : s.memory.ds.pool = some infPool
  fresh : .pods (.pod key) ∈ s.pending ∨
    Fresh infPool.spec.selector key (s.cluster.pods.lookup key) s.memory s.pod

theorem ManagerChange.pod_event {cluster cluster' : Cluster} {requests : Finset ManagerRequest}
    (change : ManagerChange pool admits cluster requests cluster') (silent : .pods (.pod key) ∉ requests) :
    cluster'.pods.lookup key = cluster.pods.lookup key := by
  cases change with
  | model => rfl
  | pods change =>
      apply change.event.1
      intro member
      exact silent (Finset.mem_image_of_mem _ member)
  | requeue => rfl

theorem Tracked.step (tracked : Tracked infPool key s) (named : s.cluster.Named pool)
    (quiet : Quiet pool admits s s') : Tracked infPool key s' := by
  obtain ⟨step, rests, rests'⟩ := quiet
  obtain ⟨pooled, fresh⟩ := tracked
  cases step with
  | @change requests cluster changed =>
      refine ⟨pooled, ?_⟩
      by_cases event : .pods (.pod key) ∈ requests
      · exact .inl (Finset.mem_union_right _ event)
      · rcases fresh with queued | fresh
        · exact .inl (Finset.mem_union_left _ queued)
        · right
          rw [ManagerChange.pod_event changed event]
          exact fresh
  | startModel req enqueued idle =>
      refine ⟨pooled, ?_⟩
      rcases fresh with queued | fresh
      · exact .inl (Finset.mem_erase.mpr ⟨by simp, queued⟩)
      · exact .inr fresh
  | startPod req enqueued idle =>
      refine ⟨pooled, ?_⟩
      by_cases same : req = key
      · exact .inr (.inl same)
      · rcases fresh with queued | fresh
        · refine .inl (Finset.mem_erase.mpr ⟨?_, queued⟩)
          intro other
          cases other
          exact same rfl
        · rw [idle] at fresh
          exact .inr (.inr fresh)
  | startPool => cases rests'
  | model reads ranges taken =>
      obtain ⟨models, changed⟩ := (InferenceModelReconciler.Pc.Goes.of_next ranges taken).models
      cases changed
      exact ⟨pooled, fresh⟩
  | pod reads taken =>
      have goes := PodReconciler.Pc.Goes.of_next taken
      refine ⟨(goes.blind Datastore.podBlind_pool).trans pooled, ?_⟩
      rcases fresh with queued | fresh
      · exact .inl queued
      · exact .inr (fresh.goes reads named pooled goes)
  | pool reads visit taken =>
      rw [rests] at taken
      cases taken
      exact ⟨pooled, fresh⟩
  | retryModel req failed =>
      refine ⟨pooled, ?_⟩
      rcases fresh with queued | fresh
      · exact .inl (Finset.mem_insert_of_mem queued)
      · exact .inr fresh
  | retryPod req failed =>
      refine ⟨pooled, ?_⟩
      rcases fresh with queued | fresh
      · exact .inl (Finset.mem_insert_of_mem queued)
      · rw [failed] at fresh
        rcases fresh with same | right
        · cases same
          exact .inl (Finset.mem_insert_self _ _)
        · exact .inr right
  | retryPool failed =>
      rw [rests] at failed
      cases failed

theorem Tracked.run (tracked : Tracked infPool key s) (named : s.cluster.Named pool)
    (run : Relation.ReflTransGen (Quiet pool admits) s s') : s'.cluster.Named pool ∧ Tracked infPool key s' := by
  induction run with
  | refl => exact ⟨named, tracked⟩
  | tail _ quiet ih => exact ⟨quiet.1.named ih.1, ih.2.step ih.1 quiet⟩

theorem tracked_of_start (pooled : s.memory.ds.pool = some infPool)
    (start : .pods (.pod key) ∈ s.pending ∨
      s.pod = .returned ∧ s.memory.ds.podAt key = eligibleAt s.cluster infPool.spec.selector key) :
    Tracked infPool key s := by
  refine ⟨pooled, ?_⟩
  rcases start with queued | ⟨rests, right⟩
  · exact .inl queued
  · rw [rests]
    exact .inr right

theorem Tracked.right (tracked : Tracked infPool key s) (settled : .pods (.pod key) ∉ s.pending)
    (idle : s.pod = .returned) : s.memory.ds.podAt key = eligibleAt s.cluster infPool.spec.selector key := by
  have fresh := tracked.fresh.resolve_left settled
  rw [idle] at fresh
  exact fresh

def queuedTurns : List Turn :=
  [.change (.pods (.createPool vllmPool)), .startPool] ++ List.replicate 6 (.pool {} none) ++
    [.change (.pods (.createPod (vllmPod none)))]

theorem queuedTurns_return : (queuedTurns.foldlM (perform ⟨"default", "pool"⟩ fun _ => True) {}).isSome := by
  decide +kernel

def queued : Controllers :=
  (queuedTurns.foldlM (perform ⟨"default", "pool"⟩ fun _ => True) {}).get queuedTurns_return

def movedPod : Pod := { vllmPod none with status := ⟨[⟨.ready, .true⟩], "10.0.0.2"⟩ }

-- the address changes after the pod has been read
def movedTurns : List Turn :=
  [.startPod vllmKey] ++ List.replicate 3 (.pod ⟨[], [vllmKey]⟩) ++ [.change (.pods (.updatePod movedPod))] ++
    List.replicate 3 (.pod ⟨[], [vllmKey]⟩) ++ [.startPod vllmKey] ++ List.replicate 5 (.pod ⟨[], [vllmKey]⟩)

theorem movedTurns_return :
    (movedTurns.foldlM (performWhere ⟨"default", "pool"⟩ (fun _ => True) Rests) queued).isSome := by
  decide +kernel

def moved : Controllers :=
  (movedTurns.foldlM (performWhere ⟨"default", "pool"⟩ (fun _ => True) Rests) queued).get movedTurns_return

end Controllers

end InferenceGateway
