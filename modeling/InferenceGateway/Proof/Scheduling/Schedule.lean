import InferenceGateway.Proof.Scheduling.Filters

/-!
# Which requests the scheduler places

Every path of the production tree that does not drop the request ends in the least-KV-cache filter,
called on a non-empty subsequence of the pods. Whether a request is placed is therefore decided by
that one call: it always keeps a pod when the metrics do not change under it, and may keep none
when they do.
-/

namespace InferenceGateway
open Lib
open Lib.Dialogue (Returns returns_pure returns_ite)
variable {π : Type}

/-! ## The production tree -/

private theorem next_some {f g h : Filter π} (onSuccess : f.next true = some g)
    (onFailure : f.next false = some h) {P : Filter π → Prop} (yes : P g) (no : P h) :
    ∀ success k, f.next success = some k → P k := by
  rintro (_ | _) k link
  · exact Option.some.inj (onFailure.symm.trans link) ▸ no
  · exact Option.some.inj (onSuccess.symm.trans link) ▸ yes

private theorem next_none {f : Filter π} (leaf : ∀ success, f.next success = none)
    {P : Filter π → Prop} : ∀ success k, f.next success = some k → P k :=
  fun success k link => by rw [leaf success] at link; cases link

theorem criticalRequest_apply (req : LLMRequest) (pods : List π) (env : Env π) (t : Nat) :
    toFilterFunc criticalRequestPredicate req pods env t =
      (if req.critical = true ∧ pods ≠ [] then (pods, none)
        else ([], some (.new "no pods left")), t) := by
  have scan : (Dialogue.keep (criticalRequestPredicate req) pods : Run π (List π)) env t =
      (if req.critical then pods else [], t) := by
    induction pods with
    | nil => cases req.critical <;> rfl
    | cons pod pods ih =>
        simp only [Dialogue.keep, Run.exec_bind, Run.exec_pure, ih, criticalRequestPredicate]
        cases req.critical <;> rfl
  simp only [toFilterFunc, Run.exec_bind, scan]
  cases critical : req.critical <;> cases pods <;> rfl

section Trees
variable [Arithmetic] (config : Config)

private theorem leastKVCache_all {P : FilterFunc π → Prop} (here : P leastKVCacheFilterFunc)
    (name : String) : Filter.All P { name, filter := leastKVCacheFilterFunc } :=
  .node _ here (next_none fun success => by cases success <;> rfl)

structure EachFilter (P : FilterFunc π → Prop) : Prop where
  criticalRequest : P (toFilterFunc criticalRequestPredicate)
  lowQueueing : P (toFilterFunc (lowQueueingPodPredicate config.queueingThresholdLoRA))
  hasCapacity : P (toFilterFunc (noQueueAndLessThanKVCacheThresholdPredicate
    config.queueThresholdCritical config.kvCacheThreshold))
  loRASoftAffinity : P (loRASoftAffinityFilter config.loraAffinityThreshold)
  leastQueuing : P leastQueuingFilterFunc
  leastKVCache : P leastKVCacheFilterFunc
  dropRequest : P dropRequest

namespace EachFilter
variable {config} {P : FilterFunc π → Prop}

theorem queueLoRAAndKVCacheFilter (each : EachFilter config P) :
    (queueLoRAAndKVCacheFilter (π := π) config).All P :=
  have last := leastKVCache_all each.leastKVCache _
  have lora := .node _ each.loRASoftAffinity (next_some rfl rfl last last)
  .node _ each.leastQueuing (next_some rfl rfl lora lora)

theorem lowLatencyFilter (each : EachFilter config P) : (lowLatencyFilter (π := π) config).All P :=
  have last := leastKVCache_all each.leastKVCache _
  have queue := .node _ each.leastQueuing (next_some rfl rfl last last)
  have lora := .node _ each.loRASoftAffinity (next_some rfl rfl queue queue)
  .node _ each.lowQueueing (next_some rfl rfl lora each.queueLoRAAndKVCacheFilter)

theorem defaultFilter (each : EachFilter config P) : (defaultFilter (π := π) config).All P :=
  have drop := .node _ each.dropRequest (next_none fun success => by cases success <;> rfl)
  have sheddable := .node _ each.hasCapacity (next_some rfl rfl each.queueLoRAAndKVCacheFilter drop)
  .node _ each.criticalRequest (next_some rfl rfl each.lowLatencyFilter sheddable)

end EachFilter

theorem eachFilter_narrows : EachFilter (π := π) config Narrows where
  criticalRequest := toFilterFunc_narrows _
  lowQueueing := toFilterFunc_narrows _
  hasCapacity := toFilterFunc_narrows _
  loRASoftAffinity := loRASoftAffinityFilter_narrows _
  leastQueuing := leastFilterFunc_narrows _ _ _ _ _
  leastKVCache := leastFilterFunc_narrows _ _ _ _ _
  dropRequest := dropRequest_narrows

abbrev EndsInKVCache (f : Filter π) : Prop := f.Ends (· = leastKVCacheFilterFunc)

private theorem ends_through {f g h : Filter π} (onSuccess : f.next true = some g)
    (onFailure : f.next false = some h) (yes : EndsInKVCache g) (no : EndsInKVCache h) :
    EndsInKVCache f :=
  .node f (by rintro (_ | _) link <;> simp_all) (next_some onSuccess onFailure yes no)

theorem queueAndKVCacheFilter_ends : EndsInKVCache (queueAndKVCacheFilter (π := π)) :=
  have last := (leastKVCache_all (π := π) (P := (· = leastKVCacheFilterFunc)) rfl _).ends
  ends_through rfl rfl last last

theorem queueLoRAAndKVCacheFilter_ends :
    EndsInKVCache (queueLoRAAndKVCacheFilter (π := π) config) :=
  have last := (leastKVCache_all (π := π) (P := (· = leastKVCacheFilterFunc)) rfl _).ends
  have lora := ends_through rfl rfl last last
  ends_through rfl rfl lora lora

theorem lowLatencyFilter_ends : EndsInKVCache (lowLatencyFilter (π := π) config) :=
  have queue := queueAndKVCacheFilter_ends
  ends_through rfl rfl (ends_through rfl rfl queue queue) (queueLoRAAndKVCacheFilter_ends config)

theorem defaultFilter_filter_critical {req : LLMRequest} (critical : req.critical = true)
    {pods : List π} (nonempty : pods ≠ []) (env : Env π) (t : Nat) :
    (defaultFilter config).filter req pods env t = ((pods, none), t) := by
  simp only [defaultFilter, criticalRequest_apply, critical, nonempty, ne_eq, not_false_eq_true,
    and_self, if_true]

theorem defaultFilter_run_critical {req : LLMRequest} (critical : req.critical = true)
    {pods : List π} (nonempty : pods ≠ []) (env : Env π) (t : Nat) :
    (defaultFilter config).run req pods env t = (lowLatencyFilter config).run req pods env t := by
  have passed := defaultFilter_filter_critical config critical nonempty env t
  rw [Filter.run_of_success rfl (congrArg Prod.fst passed) nonempty, passed]

theorem defaultFilter_lastCall_critical {req : LLMRequest} (critical : req.critical = true)
    {pods : List π} (nonempty : pods ≠ []) (env : Env π) (t : Nat) :
    (defaultFilter config).lastCall req pods env t =
      (lowLatencyFilter config).lastCall req pods env t := by
  have passed := defaultFilter_filter_critical config critical nonempty env t
  rw [Filter.lastCall_of_success rfl (congrArg Prod.fst passed) nonempty, passed]

theorem defaultFilter_filter_sheddable {req : LLMRequest} (sheddable : req.critical = false)
    (pods : List π) (env : Env π) (t : Nat) :
    (defaultFilter config).filter req pods env t = (([], some (.new "no pods left")), t) := by
  simp only [defaultFilter, criticalRequest_apply, sheddable, Bool.false_eq_true, false_and, if_false]

theorem defaultFilter_run_sheddable {req : LLMRequest} (sheddable : req.critical = false)
    (pods : List π) (env : Env π) (t : Nat) :
    (defaultFilter config).run req pods env t =
      (sheddableRequestFilter config).run req pods env t := by
  have refused := defaultFilter_filter_sheddable config sheddable pods env t
  rw [Filter.run_of_failure rfl (congrArg Prod.fst refused), refused]

theorem lastCall_critical (env : Env π) (t : Nat) {req : LLMRequest} {pods : List π}
    (critical : req.critical = true) (nonempty : pods ≠ []) :
    ((defaultFilter config).lastCall req pods env t).filter = leastKVCacheFilterFunc := by
  rw [defaultFilter_lastCall_critical config critical nonempty]
  exact (lowLatencyFilter_ends config).lastCall req pods env t

end Trees

theorem schedule_mem [Arithmetic] (config : Config) {pods : List π} {req : LLMRequest} {env : Env π} {t : Nat} {pod : π}
    (placed : (schedule config pods req env t).1 = .ok pod) : pod ∈ pods := by
  have narrowed := (eachFilter_narrows config).defaultFilter.run_narrows req pods env t
  simp only [schedule, Run.exec_bind] at placed
  split at placed
  · cases placed
  · cases placed
    exact narrowed.subset (List.get_mem _ _)

theorem schedule_ok_iff [Arithmetic] (config : Config) (pods : List π) (req : LLMRequest) (env : Env π)
    (t : Nat) :
    (∃ pod ∈ pods, (schedule config pods req env t).1 = .ok pod) ↔
      succeeded ((defaultFilter config).run req pods env t).1 = true := by
  have chosen : (∃ pod, (schedule config pods req env t).1 = .ok pod) ↔
      succeeded ((defaultFilter config).run req pods env t).1 = true := by
    rw [succeeded_iff]
    simp only [schedule, Run.exec_bind]
    split
    · rename_i failed
      refine iff_of_false (by rintro ⟨pod, placed⟩; cases placed) ?_
      rintro ⟨ok, nonempty⟩
      simp [ok, nonempty] at failed
    · rename_i ok
      exact iff_of_true ⟨_, rfl⟩ (by simpa [not_or] using ok)
  rw [← chosen]
  exact ⟨fun ⟨pod, _, placed⟩ => ⟨pod, placed⟩, fun ⟨pod, placed⟩ => ⟨pod, schedule_mem config placed, placed⟩⟩

/-! ## Steady metrics -/

def Env.snapshot (metrics : π → Metrics) (float64 : Nat → Set.Ico (0 : ℚ) 1) (intn : Nat → Nat) :
    Env π where
  getMetrics := fun _ => metrics
  float64 := float64
  intn := intn

theorem steady_snapshot (metrics : π → Metrics) (float64 : Nat → Set.Ico (0 : ℚ) 1)
    (intn : Nat → Nat) (t : Nat) (pods : List π) :
    Steady (.snapshot metrics float64 intn) t pods metrics :=
  fun _ _ _ _ => rfl

theorem EndsInKVCache.run_keeps {f : Filter π} (ends : EndsInKVCache f) (narrows : f.All Narrows)
    (req : LLMRequest) {pods : List π} {env : Env π} (t : Nat) {metrics : π → Metrics}
    (nonempty : pods ≠ [])
    (steady : Steady env (f.lastCall req pods env t).clock (f.lastCall req pods env t).pods metrics)
    (finite : ∀ pod ∈ pods, (metrics pod).kvCacheUsagePercent.IsFinite) :
    ∃ kept, (f.run req pods env t).1 = (kept, none) ∧ kept ≠ [] ∧ ∀ pod ∈ kept, pod ∈ pods := by
  have sub := narrows.lastCall_sublist req pods env t
  obtain ⟨kept, result, keeps⟩ := steady.leastKVCache_keeps
    (f.lastCall_pods_ne_nil req pods env t nonempty) (fun pod member => finite pod (sub.subset member)) req
  have run : (f.run req pods env t).1 = (kept, none) := by
    rw [f.run_eq_lastCall, Call.run, ends.lastCall req pods env t, result]
  refine ⟨kept, run, keeps, fun pod member => ?_⟩
  have narrowed := narrows.run_narrows req pods env t
  rw [run] at narrowed
  exact narrowed.subset member

section Snapshot
variable (config : Config) {metrics : π → Metrics} (float64 : Nat → Set.Ico (0 : ℚ) 1) (intn : Nat → Nat) (t : Nat)
  {req : LLMRequest} {pods : List π} (finite : ∀ pod ∈ pods, (metrics pod).kvCacheUsagePercent.IsFinite)
include finite

theorem critical_run_keeps (critical : req.critical = true) (nonempty : pods ≠ []) :
    ∃ kept, ((defaultFilter config).run req pods (.snapshot metrics float64 intn) t).1 = (kept, none) ∧
      kept ≠ [] ∧ ∀ pod ∈ kept, pod ∈ pods := by
  rw [defaultFilter_run_critical config critical nonempty]
  exact (lowLatencyFilter_ends config).run_keeps (eachFilter_narrows config).lowLatencyFilter req t nonempty
    (steady_snapshot metrics float64 intn _ _) finite

end Snapshot

theorem critical_request_placed (config : Config) (metrics : π → Metrics)
    (float64 : Nat → Set.Ico (0 : ℚ) 1) (intn : Nat → Nat) (t : Nat) (req : LLMRequest)
    (pods : List π) (critical : req.critical = true) (nonempty : pods ≠ [])
    (finite : ∀ pod ∈ pods, (metrics pod).kvCacheUsagePercent.IsFinite) :
    (∃ kept, ((defaultFilter config).run req pods (.snapshot metrics float64 intn) t).1 = (kept, none) ∧
      kept ≠ [] ∧ ∀ pod ∈ kept, pod ∈ pods) ∧
    ∃ pod ∈ pods, (schedule config pods req (.snapshot metrics float64 intn) t).1 = .ok pod := by
  obtain ⟨kept, run, keeps, inside⟩ := critical_run_keeps config float64 intn t finite critical nonempty
  refine ⟨⟨kept, run, keeps, inside⟩, (schedule_ok_iff _ _ _ _ _).mpr ?_⟩
  rw [run]
  exact (succeeded_iff _).mpr ⟨rfl, keeps⟩

theorem critical_request_placed_on_overloaded_pod :
    ∃ pod ∈ [()], (schedule defaultConfig [()] ⟨"m", "m", true⟩
      (.snapshot (fun _ => { waitingQueueSize := Int64.minValue, kvCacheUsagePercent := .finite 1 })
        (fun _ => ⟨0, by simp⟩) fun _ => 0) 0).1 = .ok pod :=
  (critical_request_placed defaultConfig _ _ _ 0 ⟨"m", "m", true⟩ [()] rfl (by simp) (by
    intro pod _
    exact Float64.isFinite_of_abs_le_one (by norm_num))).2

def HasCapacity (config : Config) (metrics : Metrics) : Prop :=
  metrics.waitingQueueSize ≤ config.queueThresholdCritical ∧
    metrics.kvCacheUsagePercent.le config.kvCacheThreshold = true

instance (config : Config) (metrics : Metrics) : Decidable (HasCapacity config metrics) :=
  inferInstanceAs (Decidable (_ ∧ _))

theorem returns_hasCapacity {pods : List π} {metrics : π → Metrics} {pod : π} (member : pod ∈ pods) (config : Config)
    (req : LLMRequest) :
    Returns (Reads pods id metrics) (noQueueAndLessThanKVCacheThresholdPredicate config.queueThresholdCritical
      config.kvCacheThreshold req pod) (decide (HasCapacity config (metrics pod))) := by
  have split : decide (HasCapacity config (metrics pod)) =
      if (metrics pod).waitingQueueSize ≤ config.queueThresholdCritical then
        (metrics pod).kvCacheUsagePercent.le config.kvCacheThreshold else false := by
    by_cases queue : (metrics pod).waitingQueueSize ≤ config.queueThresholdCritical <;>
      simp [HasCapacity, queue]
  rw [split]
  apply returns_read member
  rintro _ rfl
  refine returns_ite (fun _ => returns_read member ?_) fun _ => returns_pure _ _
  rintro _ rfl
  exact returns_pure _ _

section Shedding
variable (config : Config) {env : Env π} {t : Nat} {pods : List π} {metrics : π → Metrics}

def withCapacity (metrics : π → Metrics) (pods : List π) : List π :=
  pods.filter fun pod => HasCapacity config (metrics pod)

theorem withCapacity_eq_nil_iff :
    withCapacity config metrics pods = [] ↔ ∀ pod ∈ pods, ¬HasCapacity config (metrics pod) := by
  simp [withCapacity, List.filter_eq_nil_iff]

theorem mem_withCapacity {pod : π} :
    pod ∈ withCapacity config metrics pods ↔ pod ∈ pods ∧ HasCapacity config (metrics pod) := by
  simp [withCapacity]

theorem sheddableRequestFilter_filter (steady : Steady env t pods metrics) (req : LLMRequest) :
    ((sheddableRequestFilter config).filter req pods env t).1 =
      (withCapacity config metrics pods,
        if withCapacity config metrics pods = [] then some (.new "no pods left") else none) :=
  steady.toFilterFunc fun _ member => returns_hasCapacity member config req

theorem defaultFilter_run_of_no_capacity (steady : Steady env t pods metrics) {req : LLMRequest}
    (sheddable : req.critical = false) (none : withCapacity config metrics pods = []) :
    ((defaultFilter config).run req pods env t).1 = ([], some resourceExhausted) := by
  have decided := sheddableRequestFilter_filter config steady req
  rw [if_pos none] at decided
  rw [defaultFilter_run_sheddable config sheddable, Filter.run_of_failure rfl decided]
  rfl

theorem sheddable_run_of_capacity (steady : Steady env t pods metrics) {req : LLMRequest}
    (sheddable : req.critical = false) (some : withCapacity config metrics pods ≠ []) :
    (defaultFilter config).run req pods env t = (queueLoRAAndKVCacheFilter config).run req
      (withCapacity config metrics pods) env ((sheddableRequestFilter config).filter req pods env t).2 := by
  have decided := sheddableRequestFilter_filter config steady req
  rw [if_neg some] at decided
  rw [defaultFilter_run_sheddable config sheddable]
  exact Filter.run_of_success rfl decided some

theorem sheddable_run_keeps (float64 : Nat → Set.Ico (0 : ℚ) 1) (intn : Nat → Nat) (t : Nat) {req : LLMRequest}
    (sheddable : req.critical = false) (finite : ∀ pod ∈ pods, (metrics pod).kvCacheUsagePercent.IsFinite)
    (some : withCapacity config metrics pods ≠ []) :
    ∃ kept, ((defaultFilter config).run req pods (.snapshot metrics float64 intn) t).1 = (kept, none) ∧
      kept ≠ [] ∧ ∀ pod ∈ kept, pod ∈ withCapacity config metrics pods := by
  rw [sheddable_run_of_capacity config (steady_snapshot metrics float64 intn t pods) sheddable some]
  exact (queueLoRAAndKVCacheFilter_ends config).run_keeps (eachFilter_narrows config).queueLoRAAndKVCacheFilter req _
    some (steady_snapshot metrics float64 intn _ _) fun pod member => finite pod ((mem_withCapacity config).mp member).1

end Shedding

/-- Load shedding is exact: a sheddable request is dropped exactly when no pod has capacity, and
no fallback of the tree re-admits a pod without. -/
theorem sheddable_request_shed_iff (config : Config) (metrics : π → Metrics)
    (float64 : Nat → Set.Ico (0 : ℚ) 1) (intn : Nat → Nat) (t : Nat) (req : LLMRequest)
    (pods : List π) (sheddable : req.critical = false)
    (finite : ∀ pod ∈ pods, (metrics pod).kvCacheUsagePercent.IsFinite) :
    let result := ((defaultFilter config).run req pods (.snapshot metrics float64 intn) t).1
    (result.2 = some resourceExhausted ↔ ∀ pod ∈ pods, ¬HasCapacity config (metrics pod)) ∧
    (result.2 = none → result.1 ≠ [] ∧ ∀ pod ∈ result.1, HasCapacity config (metrics pod)) := by
  intro result
  have steady := steady_snapshot metrics float64 intn t pods
  by_cases none : withCapacity config metrics pods = []
  · have dropped : result = ([], some resourceExhausted) :=
      defaultFilter_run_of_no_capacity config steady sheddable none
    simpa [dropped] using (withCapacity_eq_nil_iff config).mp none
  · obtain ⟨kept, run, keeps, inside⟩ := sheddable_run_keeps config float64 intn t sheddable finite none
    have placed : result = (kept, Option.none) := run
    rw [placed]
    rw [withCapacity_eq_nil_iff] at none
    exact ⟨⟨nofun, fun all => absurd all none⟩,
      fun _ => ⟨keeps, fun pod member => ((mem_withCapacity config).mp (inside pod member)).2⟩⟩

theorem sheddable_request_shed_at_capacity :
    ((defaultFilter defaultConfig).run ⟨"m", "m", false⟩ [1, 2] (.snapshot
      (fun pod : Nat => { kvCacheUsagePercent := .finite (if pod = 1 then 9 / 10 else 1) })
      (fun _ => ⟨0, by simp⟩) fun _ => 0) 0).1.2 = some resourceExhausted :=
  (sheddable_request_shed_iff defaultConfig _ _ _ 0 ⟨"m", "m", false⟩ [1, 2] rfl (by
    intro pod _
    dsimp only
    split
    · exact Float64.isFinite_of_abs_le_one (by norm_num [abs_le])
    · exact Float64.isFinite_of_abs_le_one (by norm_num))).1.mpr (by
    intro pod _ capacity
    have usage := capacity.2
    dsimp only at usage
    split at usage <;> norm_num [defaultConfig] at usage)

/-- With finite usages a request is placed exactly when there are pods, and it is critical or some pod has
capacity. -/
theorem schedule_ok_iff_of_snapshot (config : Config) (metrics : π → Metrics) (float64 : Nat → Set.Ico (0 : ℚ) 1)
    (intn : Nat → Nat) (t : Nat) (req : LLMRequest) (pods : List π)
    (finite : ∀ pod ∈ pods, (metrics pod).kvCacheUsagePercent.IsFinite) :
    (∃ pod ∈ pods, (schedule config pods req (.snapshot metrics float64 intn) t).1 = .ok pod) ↔
      pods ≠ [] ∧ (req.critical = true ∨ ∃ pod ∈ pods, HasCapacity config (metrics pod)) := by
  by_cases empty : pods = []
  · simp [empty]
  rw [schedule_ok_iff, succeeded_iff]
  cases critical : req.critical with
  | true =>
      obtain ⟨kept, run, keeps, _⟩ := critical_run_keeps config float64 intn t finite critical empty
      simp [run, keeps, empty]
  | false =>
      by_cases none : withCapacity config metrics pods = []
      · have steady := steady_snapshot metrics float64 intn t pods
        rw [defaultFilter_run_of_no_capacity config steady critical none]
        rw [withCapacity_eq_nil_iff] at none
        simpa using fun _ => none
      · obtain ⟨kept, run, keeps, _⟩ := sheddable_run_keeps config float64 intn t critical finite none
        rw [withCapacity_eq_nil_iff] at none
        push Not at none
        simp [run, keeps, empty, none]

end InferenceGateway
