import InferenceGateway.Controller.Concurrent
import InferenceGateway.Proof.Datastore.Pods

/-!
A reconcile that nothing interrupts does call by call what the reconcilers of `Controller` do at once.
-/

namespace InferenceGateway

/-- `during` is where a reconcile stands during the call, and `after` where it stands then. -/
theorem PodUpdate.uninterrupted {X : Type} {step : X × Memory → X × Memory → Prop} (pod : Pod)
    (during : PodUpdate → X) (after : X)
    (goesOn : ∀ {call next memory memory'}, PodUpdate.next pod call memory = (some next, memory') →
      step (during call, memory) (during next, memory'))
    (returns : ∀ {call memory memory'}, PodUpdate.next pod call memory = (none, memory') →
      step (during call, memory) (after, memory')) (memory : Memory) :
    ∃ memory', Relation.ReflTransGen step (during .load, memory) (after, memory') ∧
      memory'.ds = (memory.ds.podUpdateOrAddIfNotExist pod).2 := by
  cases found : memory.ds.pods.lookup pod.namespacedName with
  | none =>
      have loads : PodUpdate.next pod .load memory =
          (some (.store (memory.newPodMetrics pod).1), (memory.newPodMetrics pod).2) := by
        simp only [PodUpdate.next, found]
      refine ⟨_, .head (goesOn loads) (.head (goesOn rfl) (.single (returns rfl))), ?_⟩
      simp [Memory.updatePod, Datastore.podUpdateOrAddIfNotExist, found, Memory.newPodMetrics]
  | some existing =>
      have loads : PodUpdate.next pod .load memory = (some (.updatePod existing.ref), memory) := by
        simp only [PodUpdate.next, found]
      refine ⟨_, .head (goesOn loads) (.single (returns rfl)), ?_⟩
      simp [Memory.updatePod, Datastore.podUpdateOrAddIfNotExist, found]

/-! ## The reconcilers -/

abbrev InferenceModelReconciler.Pc.Runs (c : InferenceModelReconciler) (client : Client) (order : List String) :
    Pc × Memory → Pc × Memory → Prop :=
  Relation.ReflTransGen fun before after => before.1.next c client order before.2 = after

abbrev PodReconciler.Pc.Runs (client : Client) : Pc × Memory → Pc × Memory → Prop :=
  Relation.ReflTransGen fun before after => before.1.next client before.2 = after

abbrev InferencePoolReconciler.Pc.Runs (client : Client) : Pc × Memory → Pc × Memory → Prop :=
  Relation.ReflTransGen fun before after => ∃ visit, before.1.next client visit before.2 = after

section Models
variable (c : InferenceModelReconciler) (client : Client) (order : List String) (req : NamespacedName)
  (memory : Memory)

theorem handleModelDeleted_uninterrupted :
    ∃ pc memory', InferenceModelReconciler.Pc.Runs c client order (.modelDelete req, memory) (pc, memory') ∧
      match InferenceModelReconciler.handleModelDeleted client order req memory.ds with
      | some (.ok _, ds) => pc = .returned ∧ memory'.ds = ds
      | some (.error _, ds) => pc = .failed req ∧ memory'.ds = ds
      | none => pc = .failed req ∧ memory'.ds = (memory.ds.modelDelete order req).2 := by
  unfold InferenceModelReconciler.handleModelDeleted
  cases deleted : memory.ds.modelDelete order req with
  | mk existing ds =>
      cases existing with
      | none =>
          refine ⟨.returned, { memory with ds := ds }, .single ?_, rfl, rfl⟩
          simp only [InferenceModelReconciler.Pc.next, deleted]
      | some existing =>
          have first : InferenceModelReconciler.Pc.next c client order (.modelDelete req) memory =
              (.modelResync req existing.spec.modelName, { memory with ds := ds }) := by
            simp only [InferenceModelReconciler.Pc.next, deleted]
          cases resynced : ds.modelResync client existing.spec.modelName with
          | none =>
              refine ⟨.failed req, { memory with ds := ds }, .head first (.single ?_), ?_⟩
              · simp only [InferenceModelReconciler.Pc.next, resynced]
              · simp [resynced]
          | some result =>
              obtain ⟨updated, after⟩ := result
              cases updated with
              | error err =>
                  refine ⟨.failed req, { memory with ds := after }, .head first (.single ?_), ?_⟩
                  · simp only [InferenceModelReconciler.Pc.next, resynced]
                  · simp [resynced, Except.map]
              | ok updated =>
                  refine ⟨.returned, { memory with ds := after }, .head first (.single ?_), ?_⟩
                  · simp only [InferenceModelReconciler.Pc.next, resynced]
                  · simp [resynced, Except.map]

theorem model_uninterrupted :
    ∃ pc memory', InferenceModelReconciler.Pc.Runs c client order (.get req, memory) (pc, memory') ∧
      match c.reconcile client order req memory.ds with
      | some (.ok _, ds) => pc = .returned ∧ memory'.ds = ds
      | some (.error _, ds) => pc = .failed req ∧ memory'.ds = ds
      | none => pc = .failed req ∧ memory'.ds = (memory.ds.modelDelete order req).2 := by
  obtain ⟨pc, memory', run, deletes⟩ := handleModelDeleted_uninterrupted c client order req memory
  unfold InferenceModelReconciler.reconcile
  cases read : client.getInferenceModel req with
  | error err =>
      cases err with
      | other msg =>
          refine ⟨.failed req, memory, .single ?_, rfl, rfl⟩
          simp only [InferenceModelReconciler.Pc.next, read]
      | notFound msg =>
          refine ⟨pc, memory', .head ?_ run, deletes⟩
          simp only [InferenceModelReconciler.Pc.next, read]
  | ok infModel =>
      by_cases gone : infModel.deletionTimestamp.isSome ∨ infModel.spec.poolRef.name ≠ c.poolNamespacedName.name
      · refine ⟨pc, memory', .head ?_ run, ?_⟩
        · simp only [InferenceModelReconciler.Pc.next, read, if_pos gone]
        · simp only [if_pos gone]
          exact deletes
      · have first : InferenceModelReconciler.Pc.next c client order (.get req) memory =
            (.modelSetIfOlder infModel, memory) := by
          simp only [InferenceModelReconciler.Pc.next, read, if_neg gone]
        simp only [if_neg gone]
        exact ⟨.returned, _, .head first (.single rfl), rfl, rfl⟩

end Models

section Pods
variable {client : Client} {req : NamespacedName} {memory : Memory}

theorem updateDatastore_uninterrupted {infPool : InferencePool} (pooled : memory.ds.pool = some infPool) {pod : Pod}
    (read : client.getPod req = .ok pod) :
    ∃ memory', PodReconciler.Pc.Runs client (.get req, memory) (.returned, memory') ∧
      PodReconciler.updateDatastore pod memory.ds = some memory'.ds := by
  by_cases marked : pod.deletionTimestamp.isSome
  · have first : PodReconciler.Pc.next client (.get req) memory = (.podDelete pod.namespacedName, memory) := by
      simp only [PodReconciler.Pc.next, read, if_pos marked]
    refine ⟨_, .head first (.single rfl), ?_⟩
    simp only [PodReconciler.updateDatastore, if_pos marked]
    rfl
  · have first : PodReconciler.Pc.next client (.get req) memory = (.poolLabelsMatch req pod, memory) := by
      simp only [PodReconciler.Pc.next, read, if_neg marked]
    have labels : memory.ds.poolLabelsMatch pod.labels =
        some (selectorFromInferencePoolSelector infPool.spec.selector pod.labels) := by
      simp [Datastore.poolLabelsMatch, pooled]
    by_cases refused : (!selectorFromInferencePoolSelector infPool.spec.selector pod.labels || !podIsReady pod) = true
    · have second : PodReconciler.Pc.next client (.poolLabelsMatch req pod) memory =
          (.podDelete pod.namespacedName, memory) := by
        simp only [PodReconciler.Pc.next, labels, if_pos refused]
      refine ⟨_, .head first (.head second (.single rfl)), ?_⟩
      simp only [PodReconciler.updateDatastore, if_neg marked, labels, Option.bind_eq_bind, Option.bind_some,
        if_pos refused]
      rfl
    · have second : PodReconciler.Pc.next client (.poolLabelsMatch req pod) memory =
          (.podUpdateOrAddIfNotExist pod .load, memory) := by
        simp only [PodReconciler.Pc.next, labels, if_neg refused]
      obtain ⟨memory', run, stored⟩ : ∃ memory', PodReconciler.Pc.Runs client _ (.returned, memory') ∧ _ :=
        PodUpdate.uninterrupted pod (PodReconciler.Pc.podUpdateOrAddIfNotExist pod) .returned
          (by intro call next memory memory' called
              simp only [PodReconciler.Pc.next, called])
          (by intro call memory memory' called
              simp only [PodReconciler.Pc.next, called]) memory
      refine ⟨memory', .head first (.head second run), ?_⟩
      simp only [PodReconciler.updateDatastore, if_neg marked, labels, Option.bind_eq_bind, Option.bind_some,
        if_neg refused, stored]
      rfl

theorem pod_uninterrupted (client : Client) (req : NamespacedName) (memory : Memory) :
    ∃ pc memory', PodReconciler.Pc.Runs client (.poolGet req, memory) (pc, memory') ∧
      match PodReconciler.reconcile client req memory.ds with
      | some (.ok _, ds) => pc = .returned ∧ memory'.ds = ds
      | some (.error _, ds) => pc = .failed req ∧ memory'.ds = ds
      -- with the pool in the store there is nothing to panic at
      | none => False := by
  unfold PodReconciler.reconcile
  cases pooled : memory.ds.pool with
  | none =>
      refine ⟨.returned, memory, .single ?_, ?_⟩
      · simp only [PodReconciler.Pc.next, Datastore.poolGet, pooled]
      · simp [Datastore.poolGet, pooled]
  | some infPool =>
      have first : PodReconciler.Pc.next client (.poolGet req) memory = (.get req, memory) := by
        simp only [PodReconciler.Pc.next, Datastore.poolGet, pooled]
      simp only [Datastore.poolGet, pooled]
      cases read : client.getPod req with
      | error err =>
          cases err with
          | other msg =>
              refine ⟨.failed req, memory, .head first (.single ?_), rfl, rfl⟩
              simp only [PodReconciler.Pc.next, read]
          | notFound msg =>
              have second : PodReconciler.Pc.next client (.get req) memory = (.podDelete req, memory) := by
                simp only [PodReconciler.Pc.next, read]
              exact ⟨.returned, _, .head first (.head second (.single rfl)), rfl, rfl⟩
      | ok pod =>
          obtain ⟨memory', run, updates⟩ := updateDatastore_uninterrupted pooled read
          refine ⟨.returned, memory', .head first run, ?_⟩
          simp [updates]

end Pods

/-! ## PodResyncAll -/

theorem podAddReady_uninterrupted (client : Client) (activePods : List String) (items : List Pod) (memory : Memory) :
    ∃ memory', InferencePoolReconciler.Pc.Runs client (.podUpdateOrAddIfNotExist activePods items .load, memory)
        (.range activePods [], memory') ∧
      memory'.ds = items.foldl (fun ds pod => (ds.podUpdateOrAddIfNotExist pod).2) memory.ds := by
  induction items generalizing memory with
  | nil => exact ⟨memory, .single ⟨none, rfl⟩, rfl⟩
  | cons pod items ih =>
      obtain ⟨between, first, added⟩ : ∃ memory', InferencePoolReconciler.Pc.Runs client _
          (.podUpdateOrAddIfNotExist activePods items .load, memory') ∧ _ :=
        PodUpdate.uninterrupted pod (InferencePoolReconciler.Pc.podUpdateOrAddIfNotExist activePods (pod :: items))
          (.podUpdateOrAddIfNotExist activePods items .load)
          (by intro call next memory memory' called
              exact ⟨none, by simp only [InferencePoolReconciler.Pc.next, called]⟩)
          (by intro call memory memory' called
              exact ⟨none, by simp only [InferencePoolReconciler.Pc.next, called]⟩) memory
      obtain ⟨memory', rest, done⟩ := ih between
      refine ⟨memory', first.trans rest, ?_⟩
      rw [done, added, List.foldl_cons]

theorem range_uninterrupted (client : Client) (activePods : List String) {order visited : List NamespacedName}
    (nodup : order.Nodup)
    (ahead : ∀ key ∈ order, key ∉ visited) (memory : Memory) :
    ∃ memory', InferencePoolReconciler.Pc.Runs client (.range activePods visited, memory) (.returned, memory') ∧
      memory'.ds = order.foldl (fun ds key => ds.podDeleteInactive activePods key) memory.ds := by
  induction order generalizing visited memory with
  | nil => exact ⟨memory, .single ⟨none, rfl⟩, rfl⟩
  | cons key order ih =>
      obtain ⟨first, rest⟩ := List.nodup_cons.mp nodup
      obtain ⟨new, later⟩ := List.forall_mem_cons.mp ahead
      have ahead' : ∀ other ∈ order, other ∉ key :: visited := by
        intro other member
        rw [List.mem_cons, not_or]
        refine ⟨?_, later other member⟩
        intro same
        rw [same] at member
        exact first member
      rw [List.foldl_cons, Datastore.podDeleteInactive]
      cases found : memory.ds.pods.lookup key with
      | none => exact ih rest later memory
      | some pm =>
          dsimp only
          split_ifs with active
          · obtain ⟨memory', run, done⟩ := ih rest ahead' memory
            refine ⟨memory', .head ⟨some key, ?_⟩ run, done⟩
            simp only [InferencePoolReconciler.Pc.next, if_neg new, found, if_pos active]
          · obtain ⟨memory', run, done⟩ :=
              ih rest ahead' { memory with ds := memory.ds.podDelete pm.pod.namespacedName }
            have visits : InferencePoolReconciler.Pc.next client (some key) (.range activePods visited) memory =
                (.podDelete activePods (key :: visited) pm.pod.namespacedName, memory) := by
              simp only [InferencePoolReconciler.Pc.next, if_neg new, found, if_neg active]
            exact ⟨memory', .head ⟨some key, visits⟩ (.head ⟨none, rfl⟩ run), done⟩

theorem podResyncAll_uninterrupted (client : Client) (infPool : InferencePool) {order : List NamespacedName}
    (nodup : order.Nodup) (memory : Memory) :
    ∃ memory', InferencePoolReconciler.Pc.Runs client (.listPods infPool, memory) (.returned, memory') ∧
      memory'.ds = memory.ds.podResyncAll client infPool order := by
  unfold Datastore.podResyncAll
  cases listed : client.listPods infPool.spec.selector infPool.ns with
  | error err =>
      refine ⟨memory, .single ⟨none, ?_⟩, rfl⟩
      simp only [InferencePoolReconciler.Pc.next, listed]
  | ok items =>
      obtain ⟨between, adds, added⟩ := podAddReady_uninterrupted client ((items.filter podIsReady).map Pod.name)
        (items.filter podIsReady) memory
      obtain ⟨memory', ranges, done⟩ := range_uninterrupted client ((items.filter podIsReady).map Pod.name) nodup
        (fun _ _ => List.not_mem_nil) between
      refine ⟨memory', .head ⟨none, ?_⟩ (adds.trans ranges), ?_⟩
      · simp only [InferencePoolReconciler.Pc.next, listed]
      · rw [done, added]
        rfl

theorem pool_uninterrupted (client : Client) {order : List NamespacedName} (nodup : order.Nodup)
    (req : NamespacedName) (memory : Memory) :
    ∃ pc memory', InferencePoolReconciler.Pc.Runs client (.get req, memory) (pc, memory') ∧
      match InferencePoolReconciler.reconcile client order req memory.ds with
      | (.ok _, ds) => pc = .returned ∧ memory'.ds = ds
      | (.error _, ds) => pc = .failed ∧ memory'.ds = ds := by
  have clears : InferencePoolReconciler.Pc.Runs client (.clear, memory)
      (.returned, { memory with ds := memory.ds.clear }) := .single ⟨none, rfl⟩
  unfold InferencePoolReconciler.reconcile
  cases read : client.getInferencePool req with
  | error err =>
      cases err with
      | notFound msg =>
          refine ⟨.returned, _, .head ⟨none, ?_⟩ clears, rfl, rfl⟩
          simp only [InferencePoolReconciler.Pc.next, read]
      | other msg =>
          refine ⟨.failed, memory, .single ⟨none, ?_⟩, rfl, rfl⟩
          simp only [InferencePoolReconciler.Pc.next, read]
  | ok infPool =>
      by_cases marked : infPool.deletionTimestamp.isSome
      · simp only [if_pos marked]
        refine ⟨.returned, _, .head ⟨none, ?_⟩ clears, rfl, rfl⟩
        simp only [InferencePoolReconciler.Pc.next, read, if_pos marked]
      · have first : InferencePoolReconciler.Pc.next client none (.get req) memory = (.poolGet infPool, memory) := by
          simp only [InferencePoolReconciler.Pc.next, read, if_neg marked]
        simp only [if_neg marked, InferencePoolReconciler.updateDatastore]
        obtain ⟨memory', resyncs, done⟩ := podResyncAll_uninterrupted client infPool nodup
          { memory with ds := memory.ds.poolSet infPool }
        -- with a new selector, or none before, the pods are listed next
        have sets : InferencePoolReconciler.Pc.Runs client (.poolSet infPool true, memory) (.returned, memory') :=
          .head ⟨none, rfl⟩ resyncs
        cases pooled : memory.ds.poolGet with
        | error err =>
            refine ⟨.returned, memory', .head ⟨none, first⟩ (.head ⟨none, ?_⟩ sets), rfl, done⟩
            simp only [InferencePoolReconciler.Pc.next, pooled]
        | ok oldPool =>
            by_cases changed : infPool.spec.selector ≠ oldPool.spec.selector
            · simp only [if_pos changed]
              refine ⟨.returned, memory', .head ⟨none, first⟩ (.head ⟨none, ?_⟩ sets), rfl, done⟩
              simp only [InferencePoolReconciler.Pc.next, pooled, decide_eq_true changed]
            · simp only [if_neg changed]
              have second : InferencePoolReconciler.Pc.next client none (.poolGet infPool) memory =
                  (.poolSet infPool false, memory) := by
                simp only [InferencePoolReconciler.Pc.next, pooled, decide_eq_false changed]
              have third : InferencePoolReconciler.Pc.next client none (.poolSet infPool false) memory =
                  (.returned, { memory with ds := memory.ds.poolSet infPool }) := rfl
              exact ⟨.returned, _, .head ⟨none, first⟩ (.head ⟨none, second⟩ (.single ⟨none, third⟩)), rfl, rfl⟩

end InferenceGateway
