import InferenceGateway.Proof.Scheduling.Schedule

/-!
# Which pods are candidates

What the filters of the tree do to a list of pods under metrics that do not change, carried through
the tree: a pod is never kept without the pods that are no worse, and the order of the list does
not matter. For critical requests, which group of pods the low-latency path ends up with.
-/

namespace InferenceGateway
open Lib
open Lib.Dialogue (Returns returns_pure)
variable {π : Type} {config : Config} {metrics : π → Metrics}

theorem Steady.loRASoftAffinityFilter_class {env : Env π} {t : Nat} {pods : List π}
    (steady : Steady env t pods metrics) (threshold : Float64) (req : LLMRequest) :
    ∃ cls, (InferenceGateway.loRASoftAffinityFilter threshold req pods env t).1 =
      (ofClass metrics req.resolvedTargetModel cls pods, none) := by
  obtain ⟨k, grouped⟩ := steady.loRASoftAffinityFilter threshold req
  rw [grouped, affinityGroup]
  split_ifs
  · exact ⟨.active, rfl⟩
  · exact ⟨.free, rfl⟩
  · exact ⟨.active, rfl⟩
  · exact ⟨.free, rfl⟩

theorem EachFilter.and {P Q : FilterFunc π → Prop} (left : EachFilter config P) (right : EachFilter config Q) :
    EachFilter config fun filter => P filter ∧ Q filter where
  criticalRequest := ⟨left.criticalRequest, right.criticalRequest⟩
  lowQueueing := ⟨left.lowQueueing, right.lowQueueing⟩
  hasCapacity := ⟨left.hasCapacity, right.hasCapacity⟩
  loRASoftAffinity := ⟨left.loRASoftAffinity, right.loRASoftAffinity⟩
  leastQueuing := ⟨left.leastQueuing, right.leastQueuing⟩
  leastKVCache := ⟨left.leastKVCache, right.leastKVCache⟩
  dropRequest := ⟨left.dropRequest, right.dropRequest⟩

/-! ## Better pods -/

structure NoWorse (target : String) (other pod : Metrics) : Prop where
  loRAClass : loRAClass target other = loRAClass target pod
  waitingQueueSize : other.waitingQueueSize ≤ pod.waitingQueueSize
  kvCacheUsagePercent : other.kvCacheUsagePercent.le pod.kvCacheUsagePercent = true

def KeepsBetter (env : Env π) (metrics : π → Metrics) (filter : FilterFunc π) : Prop :=
  ∀ req pods t, (∀ pod ∈ pods, (metrics pod).kvCacheUsagePercent.IsFinite) →
    ∀ pod ∈ (filter req pods env t).1.1, ∀ other ∈ pods,
      NoWorse req.resolvedTargetModel (metrics other) (metrics pod) → other ∈ (filter req pods env t).1.1

theorem Filter.All.run_keepsBetter {env : Env π} {f : Filter π}
    (all : f.All fun filter => Narrows filter ∧ KeepsBetter env metrics filter) : KeepsBetter env metrics f.run := by
  induction all with
  | node f here successors ih =>
      obtain ⟨narrows, keeps⟩ := here
      intro req pods t finite pod kept other listed noWorse
      rw [f.run_eq] at kept ⊢
      cases next : f.next (succeeded (f.filter req pods env t).1) with
      | none =>
          rw [next] at kept
          exact keeps req pods t finite pod kept other listed noWorse
      | some g =>
          rw [next] at kept
          have sub := handOver_sublist (narrows req pods env t)
          have onward := ((successors _ g next).imp fun _ both => both.1).run_narrows
          -- the better pod is handed on with the pod
          have handed : other ∈ handOver pods (f.filter req pods env t).1 := by
            have through := (onward req _ env _).subset kept
            unfold handOver at through ⊢
            split_ifs at through ⊢
            · exact keeps req pods t finite pod through other listed noWorse
            · exact listed
          exact ih _ g next req _ _ (fun p member => finite p (sub.subset member)) pod kept other handed noWorse

section Snapshot
variable (metrics : π → Metrics) (float64 : Nat → Set.Ico (0 : ℚ) 1) (intn : Nat → Nat)

theorem toFilterFunc_keepsBetter {pp : PodPredicate π} (test : LLMRequest → π → Bool) {env : Env π}
    (steady : ∀ t pods, Steady env t pods metrics)
    (returns : ∀ req pods, ∀ pod ∈ pods, Returns (Reads pods id metrics) (pp req pod) (test req pod))
    (mono : ∀ req pod other, NoWorse req.resolvedTargetModel (metrics other) (metrics pod) →
      test req pod = true → test req other = true) :
    KeepsBetter env metrics (toFilterFunc pp) := by
  intro req pods t _ pod kept other listed noWorse
  rw [(steady t pods).toFilterFunc (returns req pods)] at kept ⊢
  rw [List.mem_filter] at kept ⊢
  exact ⟨listed, mono req pod other noWorse kept.2⟩

theorem eachFilter_keepsBetter :
    EachFilter config (KeepsBetter (.snapshot metrics float64 intn) metrics) where
  criticalRequest := by
    refine toFilterFunc_keepsBetter metrics (fun req _ => req.critical) (steady_snapshot metrics float64 intn) ?_ ?_
    · exact fun _ _ _ _ => returns_pure _ _
    · exact fun _ _ _ _ critical => critical
  lowQueueing := by
    refine toFilterFunc_keepsBetter metrics _ (steady_snapshot metrics float64 intn)
      (fun req _ _ member => returns_lowQueueing member _ req) ?_
    intro req pod other noWorse low
    rw [decide_eq_true_eq] at low ⊢
    exact Int64.lt_of_le_of_lt noWorse.waitingQueueSize low
  hasCapacity := by
    refine toFilterFunc_keepsBetter metrics _ (steady_snapshot metrics float64 intn)
      (fun req _ _ member => returns_hasCapacity member config req) ?_
    intro req pod other noWorse capacity
    rw [decide_eq_true_eq] at capacity ⊢
    exact ⟨Int64.le_trans noWorse.waitingQueueSize capacity.1,
      Float64.le_trans noWorse.kvCacheUsagePercent capacity.2⟩
  loRASoftAffinity := by
    intro req pods t _ pod kept other listed noWorse
    obtain ⟨cls, grouped⟩ :=
      (steady_snapshot metrics float64 intn t pods).loRASoftAffinityFilter_class config.loraAffinityThreshold req
    rw [grouped, ofClass] at kept ⊢
    rw [List.mem_filter, decide_eq_true_eq] at kept ⊢
    exact ⟨listed, noWorse.loRAClass.trans kept.2⟩
  leastQueuing := by
    intro req pods t finite pod kept other listed noWorse
    rw [leastQueuingFilterFunc, (steady_snapshot metrics float64 intn t pods).leastFilterFunc_eq] at kept ⊢
    exact mem_leastOf_of_le (int64_ranked fun _ => True) (fun _ _ => trivial) trivial kept listed
      (decide_eq_true noWorse.waitingQueueSize)
  leastKVCache := by
    intro req pods t finite pod kept other listed noWorse
    rw [leastKVCacheFilterFunc, (steady_snapshot metrics float64 intn t pods).leastFilterFunc_eq] at kept ⊢
    exact mem_leastOf_of_le float64_ranked (fun pod member => (finite pod member).eq) rfl kept listed
      noWorse.kvCacheUsagePercent
  dropRequest := by
    intro req pods t _ pod kept
    cases kept

end Snapshot

theorem better_pod_kept (config : Config) (metrics : π → Metrics) (float64 : Nat → Set.Ico (0 : ℚ) 1)
    (intn : Nat → Nat) (t : Nat) (req : LLMRequest) (pods : List π)
    (finite : ∀ pod ∈ pods, (metrics pod).kvCacheUsagePercent.IsFinite) {p q : π}
    (returned : p ∈ ((defaultFilter config).run req pods (.snapshot metrics float64 intn) t).1.1)
    (listed : q ∈ pods)
    (sameClass : loRAClass req.resolvedTargetModel (metrics q) = loRAClass req.resolvedTargetModel (metrics p))
    (queue : (metrics q).waitingQueueSize ≤ (metrics p).waitingQueueSize)
    (usage : (metrics q).kvCacheUsagePercent.le (metrics p).kvCacheUsagePercent = true) :
    q ∈ ((defaultFilter config).run req pods (.snapshot metrics float64 intn) t).1.1 := by
  have each := (eachFilter_narrows config).and (eachFilter_keepsBetter metrics float64 intn)
  exact each.defaultFilter.run_keepsBetter req pods t finite p returned q listed ⟨sameClass, queue, usage⟩

def queueMetrics (queue : Nat) : Metrics :=
  { waitingQueueSize := Int64.ofNat queue, kvCacheUsagePercent := .finite (1 / 2) }

theorem queueMetrics_finite (pods : List Nat) :
    ∀ pod ∈ pods, (queueMetrics pod).kvCacheUsagePercent.IsFinite :=
  fun _ _ => Float64.isFinite_of_abs_le_one (by norm_num [abs_le])

def queueEnv : Env Nat := .snapshot queueMetrics (fun _ => ⟨0, zero_mem_draws⟩) fun _ => 0

theorem shorter_queue_kept : 2 ∈ ((defaultFilter defaultConfig).run ⟨"m", "m", true⟩ [9, 3, 2] queueEnv 0).1.1 :=
  better_pod_kept (p := 3) defaultConfig queueMetrics _ _ 0 ⟨"m", "m", true⟩ [9, 3, 2] (queueMetrics_finite _)
    (by decide +kernel) (by decide) (by decide +kernel) (by decide) (by decide +kernel)

/-! ## The order of the pods -/

structure SameUpToOrder (result result' : List π × Option Err) : Prop where
  err : result.2 = result'.2
  pods : result.1.Perm result'.1

theorem SameUpToOrder.succeeded {result result' : List π × Option Err} (same : SameUpToOrder result result') :
    succeeded result = succeeded result' := by
  simp only [InferenceGateway.succeeded, same.err, same.pods.length_eq]

theorem SameUpToOrder.handOver {result result' : List π × Option Err} {pods pods' : List π}
    (same : SameUpToOrder result result') (perm : pods.Perm pods') :
    (handOver pods result).Perm (handOver pods' result') := by
  simp only [InferenceGateway.handOver, same.succeeded]
  split
  · exact same.pods
  · exact perm

def OrderBlind (env env' : Env π) (metrics : π → Metrics) (filter : FilterFunc π) : Prop :=
  ∀ req pods pods' t t', (∀ pod ∈ pods, (metrics pod).kvCacheUsagePercent.IsFinite) → pods.Perm pods' →
    SameUpToOrder (filter req pods env t).1 (filter req pods' env' t').1

theorem Filter.All.run_orderBlind {env env' : Env π} {f : Filter π}
    (all : f.All fun filter => Narrows filter ∧ OrderBlind env env' metrics filter) :
    OrderBlind env env' metrics f.run := by
  induction all with
  | node f here _ ih =>
      obtain ⟨narrows, blind⟩ := here
      intro req pods pods' t t' finite perm
      have same := blind req pods pods' t t' finite perm
      rw [f.run_eq, f.run_eq, ← same.succeeded]
      cases next : f.next (succeeded (f.filter req pods env t).1) with
      | none => exact same
      | some g =>
          have sub := handOver_sublist (narrows req pods env t)
          exact ih _ g next req _ _ _ _ (fun p member => finite p (sub.subset member)) (same.handOver perm)

theorem toFilterFunc_orderBlind {pp : PodPredicate π} (test : LLMRequest → π → Bool) {env env' : Env π}
    (steady : ∀ t pods, Steady env t pods metrics) (steady' : ∀ t pods, Steady env' t pods metrics)
    (returns : ∀ req pods, ∀ pod ∈ pods, Returns (Reads pods id metrics) (pp req pod) (test req pod)) :
    OrderBlind env env' metrics (toFilterFunc pp) := by
  intro req pods pods' t t' _ perm
  rw [(steady t pods).toFilterFunc (returns req pods), (steady' t' pods').toFilterFunc (returns req pods')]
  have kept := perm.filter (test req)
  have empty : pods.filter (test req) = [] ↔ pods'.filter (test req) = [] :=
    ⟨fun none => List.perm_nil.mp (none ▸ kept.symm), fun none => List.perm_nil.mp (none ▸ kept)⟩
  refine ⟨?_, kept⟩
  simp only [empty]

theorem affinityGroup_perm (threshold : Float64) (draw : ℚ) {affinity affinity' available available' : List π}
    (left : affinity.Perm affinity') (right : available.Perm available') :
    (affinityGroup threshold draw affinity available).Perm (affinityGroup threshold draw affinity' available') := by
  have leftEmpty : affinity = [] ↔ affinity' = [] := by
    rw [← List.length_eq_zero_iff, left.length_eq, List.length_eq_zero_iff]
  have rightEmpty : available = [] ↔ available' = [] := by
    rw [← List.length_eq_zero_iff, right.length_eq, List.length_eq_zero_iff]
  simp only [affinityGroup, ne_eq, leftEmpty, rightEmpty]
  split_ifs
  · exact left
  · exact right
  · exact right
  · exact left

theorem eachFilter_orderBlind (metrics : π → Metrics) (draw : Set.Ico (0 : ℚ) 1) (intn intn' : Nat → Nat) :
    EachFilter config (OrderBlind (.snapshot metrics (fun _ => draw) intn) (.snapshot metrics (fun _ => draw) intn')
      metrics) where
  criticalRequest :=
    toFilterFunc_orderBlind (fun req _ => req.critical) (steady_snapshot metrics _ intn)
      (steady_snapshot metrics _ intn') fun _ _ _ _ => returns_pure _ _
  lowQueueing :=
    toFilterFunc_orderBlind _ (steady_snapshot metrics _ intn) (steady_snapshot metrics _ intn')
      fun req _ _ member => returns_lowQueueing member _ req
  hasCapacity :=
    toFilterFunc_orderBlind _ (steady_snapshot metrics _ intn) (steady_snapshot metrics _ intn')
      fun req _ _ member => returns_hasCapacity member config req
  loRASoftAffinity := by
    intro req pods pods' t t' _ perm
    obtain ⟨_, grouped⟩ := (steady_snapshot metrics (fun _ => draw) intn t pods).loRASoftAffinityFilter
      config.loraAffinityThreshold req
    obtain ⟨_, grouped'⟩ := (steady_snapshot metrics (fun _ => draw) intn' t' pods').loRASoftAffinityFilter
      config.loraAffinityThreshold req
    rw [grouped, grouped']
    exact ⟨rfl, affinityGroup_perm _ _ (perm.filter _) (perm.filter _)⟩
  leastQueuing := by
    intro req pods pods' t t' _ perm
    rw [leastQueuingFilterFunc, (steady_snapshot metrics _ intn t pods).leastFilterFunc_eq,
      (steady_snapshot metrics _ intn' t' pods').leastFilterFunc_eq]
    exact ⟨rfl, leastOf_perm (int64_ranked fun _ => True) (fun _ _ => trivial) trivial trivial perm⟩
  leastKVCache := by
    intro req pods pods' t t' finite perm
    rw [leastKVCacheFilterFunc, (steady_snapshot metrics _ intn t pods).leastFilterFunc_eq,
      (steady_snapshot metrics _ intn' t' pods').leastFilterFunc_eq]
    exact ⟨rfl, leastOf_perm float64_ranked (fun pod member => (finite pod member).eq) rfl rfl perm⟩
  dropRequest _ _ _ _ _ _ _ := ⟨rfl, .refl _⟩

/-- A run makes at most one draw, so that a run with the outcome `draw` is a run of an environment
that always draws it. -/
theorem candidates_order_independent (config : Config) (metrics : π → Metrics) (draw : Set.Ico (0 : ℚ) 1)
    (intn intn' : Nat → Nat) (t t' : Nat) (req : LLMRequest) (pods pods' : List π) (perm : pods.Perm pods')
    (finite : ∀ pod ∈ pods, (metrics pod).kvCacheUsagePercent.IsFinite) :
    let result := ((defaultFilter config).run req pods (.snapshot metrics (fun _ => draw) intn) t).1
    let result' := ((defaultFilter config).run req pods' (.snapshot metrics (fun _ => draw) intn') t').1
    result.2 = result'.2 ∧ result.1.Perm result'.1 := by
  have each := (eachFilter_narrows config).and (eachFilter_orderBlind metrics draw intn intn')
  have same := each.defaultFilter.run_orderBlind req pods pods' t t' finite perm
  exact ⟨same.err, same.pods⟩

theorem candidates_of_reversed_pods :
    ((defaultFilter defaultConfig).run ⟨"m", "m", true⟩ [9, 3, 2] queueEnv 0).1.1.Perm
      ((defaultFilter defaultConfig).run ⟨"m", "m", true⟩ [2, 3, 9] queueEnv 0).1.1 :=
  (candidates_order_independent defaultConfig queueMetrics _ _ _ 0 0 ⟨"m", "m", true⟩ [9, 3, 2] [2, 3, 9]
    (by decide) (queueMetrics_finite _)).2

/-! ## Critical requests -/

def lowQueueing (config : Config) (metrics : π → Metrics) (pods : List π) : List π :=
  pods.filter fun pod => (metrics pod).waitingQueueSize < config.queueingThresholdLoRA

theorem Filter.run_through {f g : Filter π} {req : LLMRequest} {pods : List π} {env : Env π} {t : Nat}
    {result : List π × Option Err} (next : ∀ success, f.next success = some g)
    (filtered : (f.filter req pods env t).1 = result) :
    ∃ t', f.run req pods env t = g.run req (handOver pods result) env t' := by
  rw [f.run_eq, next, filtered]
  exact ⟨_, rfl⟩

theorem Filter.run_leaf {f : Filter π} {req : LLMRequest} {pods : List π} {env : Env π} {t : Nat}
    (leaf : ∀ success, f.next success = none) : f.run req pods env t = f.filter req pods env t := by
  rw [f.run_eq, leaf]

section Critical
variable (config : Config) (metrics : π → Metrics) (float64 : Nat → Set.Ico (0 : ℚ) 1) (intn : Nat → Nat)
  (req : LLMRequest)

theorem queueAndKVCacheFilter_run (pods : List π) (t : Nat) :
    (queueAndKVCacheFilter.run req pods (.snapshot metrics float64 intn) t).1 =
      (leastKVCacheOf metrics (handOver pods (leastQueuingOf metrics pods, none)), none) := by
  have steady (t : Nat) (pods : List π) := steady_snapshot metrics float64 intn t pods
  obtain ⟨t', through⟩ := Filter.run_through (f := queueAndKVCacheFilter) (by rintro (_ | _) <;> rfl)
    ((steady t pods).leastQueuingFilterFunc req)
  rw [through, Filter.run_leaf (by rintro (_ | _) <;> rfl)]
  exact (steady t' _).leastKVCacheFilterFunc req

/-- With lowly queueing pods, the affinity filter hands on one of its groups, or all of these pods
if both are empty, and the range filters choose from what it hands on. -/
theorem lowLatencyFilter_run {pods : List π} (low : lowQueueing config metrics pods ≠ []) (t : Nat) :
    ∃ k, ((lowLatencyFilter config).run req pods (.snapshot metrics float64 intn) t).1 =
      let group := handOver (lowQueueing config metrics pods) (affinityGroup config.loraAffinityThreshold (float64 k)
        (ofClass metrics req.resolvedTargetModel .active (lowQueueing config metrics pods))
        (ofClass metrics req.resolvedTargetModel .free (lowQueueing config metrics pods)), none)
      (leastKVCacheOf metrics (handOver group (leastQueuingOf metrics group, none)), none) := by
  have steady (t : Nat) (pods : List π) := steady_snapshot metrics float64 intn t pods
  have filtered : ((lowLatencyFilter config).filter req pods (.snapshot metrics float64 intn) t).1 =
      (lowQueueing config metrics pods, none) := by
    rw [lowLatencyFilter, (steady t pods).toFilterFunc fun pod member => returns_lowQueueing member _ req]
    exact congrArg (Prod.mk _) (if_neg low)
  rw [Filter.run_of_success rfl filtered low]
  obtain ⟨k, grouped⟩ := (steady ((lowLatencyFilter config).filter req pods (.snapshot metrics float64 intn) t).2
    (lowQueueing config metrics pods)).loRASoftAffinityFilter config.loraAffinityThreshold req
  let affinity : Filter π :=
    { name := "affinity LoRA", filter := loRASoftAffinityFilter config.loraAffinityThreshold,
      nextOnSuccessOrFailure := some queueAndKVCacheFilter }
  obtain ⟨t', through⟩ := Filter.run_through (f := affinity) (by rintro (_ | _) <;> rfl) grouped
  refine ⟨k, ?_⟩
  rw [through]
  exact queueAndKVCacheFilter_run metrics float64 intn req _ t'

end Critical

theorem handOver_affinityGroup (low : List π) (threshold : Float64) (draw : ℚ) (affinity available : List π) :
    handOver low (affinityGroup threshold draw affinity available, none) =
      if affinity = [] ∧ available = [] then low else affinityGroup threshold draw affinity available := by
  have empty : affinityGroup threshold draw affinity available = [] ↔ affinity = [] ∧ available = [] := by
    unfold affinityGroup
    split_ifs <;> simp_all
  unfold handOver
  by_cases none : affinity = [] ∧ available = []
  · rw [if_pos none, if_neg]
    simp [succeeded_iff, empty.mpr none]
  · rw [if_neg none, if_pos]
    exact (succeeded_iff _).mpr ⟨rfl, mt empty.mp none⟩

theorem affinityGroup_sublist {low affinity available : List π} (threshold : Float64) (draw : ℚ)
    (left : affinity.Sublist low) (right : available.Sublist low) :
    (affinityGroup threshold draw affinity available).Sublist low := by
  unfold affinityGroup
  split_ifs
  · exact left
  · exact right
  · exact left
  · exact right

theorem critical_low_latency (config : Config) (metrics : π → Metrics) (float64 : Nat → Set.Ico (0 : ℚ) 1)
    (intn : Nat → Nat) (t : Nat) (req : LLMRequest) (pods : List π) (critical : req.critical = true)
    -- the length of a slice is an int
    (slice : pods.length < 2 ^ 63) (queues : ∀ pod ∈ pods, 0 ≤ (metrics pod).waitingQueueSize)
    (finite : ∀ pod ∈ pods, (metrics pod).kvCacheUsagePercent.IsFinite)
    (low : lowQueueing config metrics pods ≠ []) :
    let L := lowQueueing config metrics pods
    let A := ofClass metrics req.resolvedTargetModel .active L
    let V := ofClass metrics req.resolvedTargetModel .free L
    let result := ((defaultFilter config).run req pods (.snapshot metrics float64 intn) t).1
    result.2 = none ∧ result.1 ≠ [] ∧ ∃ k group,
      (A = [] → V = [] → group = L) ∧ (A ≠ [] → V = [] → group = A) ∧ (A = [] → V ≠ [] → group = V) ∧
      (A ≠ [] → V ≠ [] → group = if (Float64.finite (float64 k)).lt config.loraAffinityThreshold then A else V) ∧
      ∀ pod ∈ result.1, pod ∈ L ∧ pod ∈ group ∧
        ∀ least greatest, IsLeast (queueSizes metrics group) least → IsGreatest (queueSizes metrics group) greatest →
          (metrics pod).waitingQueueSize.toInt ≤ least + (greatest - least) / group.length := by
  intro L A V result
  have nonempty : pods ≠ [] := by
    rintro rfl
    exact low rfl
  obtain ⟨k, run⟩ := lowLatencyFilter_run config metrics float64 intn req low t
  rw [← defaultFilter_run_critical config critical nonempty] at run
  let group := handOver L (affinityGroup config.loraAffinityThreshold (float64 k) A V, none)
  have inLow : group.Sublist L :=
    handOver_sublist (affinityGroup_sublist _ _ List.filter_sublist List.filter_sublist)
  have inPods : group.Sublist pods := inLow.trans List.filter_sublist
  have some : group ≠ [] := handOver_ne_nil low _
  have groupSlice : group.length < 2 ^ 63 := inPods.length_le.trans_lt slice
  have groupQueues : ∀ pod ∈ group, 0 ≤ (metrics pod).waitingQueueSize.toInt :=
    fun pod member => Int64.le_iff_toInt_le.mp (queues pod (inPods.subset member))
  have queued := leastQueuingOf_ne_nil groupQueues groupSlice some
  have handed : handOver group (leastQueuingOf metrics group, none) = leastQueuingOf metrics group :=
    if_pos ((succeeded_iff _).mpr ⟨rfl, queued⟩)
  have outcome : result = (leastKVCacheOf metrics (leastQueuingOf metrics group), none) := by
    rw [← handed]
    exact run
  rw [outcome]
  refine ⟨rfl, leastKVCacheOf_ne_nil keepsLeast_exact queued fun pod member => ?_, k, group, ?_⟩
  · exact finite pod (inPods.subset (leastOf_sublist.subset member))
  · have chosen : group = if A = [] ∧ V = [] then L
        else affinityGroup config.loraAffinityThreshold (float64 k) A V := handOver_affinityGroup _ _ _ _ _
    refine ⟨?_, ?_, ?_, ?_, fun pod member => ?_⟩
    · intro noAffinity noAvailable
      rw [chosen, if_pos ⟨noAffinity, noAvailable⟩]
    · intro affinity noAvailable
      simp [chosen, affinityGroup, affinity, noAvailable]
    · intro noAffinity available
      simp [chosen, affinityGroup, noAffinity, available]
    · intro affinity available
      simp [chosen, affinityGroup, affinity, available]
    · have kept := leastOf_sublist.subset member
      have inGroup := leastOf_sublist.subset kept
      exact ⟨inLow.subset inGroup, inGroup, fun least greatest isLeast isGreatest =>
        le_of_mem_leastQueuingOf groupQueues groupSlice some kept isLeast isGreatest⟩

-- the pods without waiting requests have the adapter, the others have room for it
def adapterMetrics (queue : Nat) : Metrics :=
  { queueMetrics queue with
    activeModels := if queue = 0 then Finmap.singleton "m" 0 else ∅
    maxActiveModels := 4 }

theorem low_latency_beside_overload :
    let L := lowQueueing defaultConfig adapterMetrics [500, 3, 0]
    let A := ofClass adapterMetrics "m" .active L
    let V := ofClass adapterMetrics "m" .free L
    let result := ((defaultFilter defaultConfig).run ⟨"m", "m", true⟩ [500, 3, 0]
      (.snapshot adapterMetrics (fun _ => ⟨0, zero_mem_draws⟩) fun _ => 0) 0).1
    A ≠ [] ∧ V ≠ [] ∧ result.2 = none ∧ result.1 ≠ [] ∧ ∀ pod ∈ result.1, pod ∈ A := by
  intro L A V result
  have active : A ≠ [] := by decide +kernel
  have free : V ≠ [] := by decide +kernel
  have finite : ∀ pod ∈ [500, 3, 0], (adapterMetrics pod).kvCacheUsagePercent.IsFinite := queueMetrics_finite _
  obtain ⟨placed, some, _, group, _, _, _, drawn, each⟩ := critical_low_latency defaultConfig adapterMetrics
    (fun _ => ⟨0, zero_mem_draws⟩) (fun _ => 0) 0 ⟨"m", "m", true⟩ [500, 3, 0] rfl (by decide) (by decide +kernel)
    finite (by decide +kernel)
  refine ⟨active, free, placed, some, fun pod returned => ?_⟩
  have chosen : group = A := (drawn active free).trans (if_pos (by decide +kernel))
  rw [← chosen]
  exact (each pod returned).2.1

end InferenceGateway
