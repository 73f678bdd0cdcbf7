import InferenceGateway.BackendMetrics.Logger

/-!
What the gauges of a pool say after a flush, against the pods that are stored.
-/

namespace InferenceGateway
open Lib

/-! ## Integers as float64 -/

theorem Float64.ofInt_ne_zero {n : ℤ} (positive : 0 < n) : Float64.ofInt n ≠ .finite 0 := by
  intro zero
  obtain ⟨-, rounded⟩ := Option.ite_none_right_eq_some.mp (round_finite_iff.mp zero)
  have large : (2 : ℚ) ^ (-1074 : ℤ) ≤ n := by
    have one : (1 : ℚ) ≤ n := by exact_mod_cast positive
    exact (zpow_le_one_of_nonpos₀ one_le_two (by decide)).trans one
  exact (Rounding.nearest_pos (by decide) large).ne' (Option.some.inj rounded)

theorem tdiv_mul_between (w : ℤ) {n : ℤ} (positive : 0 < n) :
    0 ≤ w.tdiv n * n ∧ w.tdiv n * n ≤ w ∨ w ≤ w.tdiv n * n ∧ w.tdiv n * n ≤ 0 := by
  rcases le_or_gt 0 w with nonneg | negative
  · left
    rw [Int.tdiv_eq_ediv_of_nonneg nonneg]
    exact ⟨mul_nonneg (Int.ediv_nonneg nonneg positive.le) positive.le, Int.ediv_mul_le w positive.ne'⟩
  · right
    obtain ⟨u, rfl⟩ : ∃ u, w = -u := ⟨-w, by omega⟩
    have nonneg : 0 ≤ u := by omega
    rw [Int.neg_tdiv, Int.tdiv_eq_ediv_of_nonneg nonneg, neg_mul]
    exact ⟨neg_le_neg (Int.ediv_mul_le u positive.ne'),
      neg_nonpos.mpr (mul_nonneg (Int.ediv_nonneg nonneg positive.le) positive.le)⟩

theorem bmod_cases (sum : ℤ) :
    ∃ j, sum = sum.bmod (2 ^ 64) + 2 ^ 64 * j ∧ -2 ^ 63 ≤ sum.bmod (2 ^ 64) ∧ sum.bmod (2 ^ 64) < 2 ^ 63 := by
  refine ⟨(sum - sum.bmod (2 ^ 64)) / 2 ^ 64, ?_⟩
  rw [Int.bmod_def]
  split <;> omega

/-- An average that is taken in integers after the sum has wrapped around is the mean only where
nothing has wrapped around, nothing is cut off and nothing is rounded. -/
theorem Float64.ofInt_tdiv_eq_mean_iff (sum : ℤ) {n : ℤ} (positive : 0 < n) :
    Float64.ofInt ((sum.bmod (2 ^ 64)).tdiv n) = .finite (sum / n) ↔
      n ∣ sum ∧ (-2 ^ 63 ≤ sum ∧ sum < 2 ^ 63) ∧ IsFloat64 (sum / n) := by
  have nonzero : (n : ℚ) ≠ 0 := Int.cast_ne_zero.mpr positive.ne'
  -- where the sum is in range and divisible, the average is a conversion of an integer
  have converted : n ∣ sum → (-2 ^ 63 ≤ sum ∧ sum < 2 ^ 63) →
      (Float64.ofInt ((sum.bmod (2 ^ 64)).tdiv n) = .finite (sum / n) ↔ IsFloat64 (sum / n)) := by
    intro divides range
    have same : sum.bmod (2 ^ 64) = sum := Int.bmod_eq_of_le (by omega) (by omega)
    rw [same, Int.tdiv_eq_ediv_of_dvd divides, ← Float64.ofInt_eq_iff, Int.cast_div divides nonzero]
  constructor
  · intro mean
    obtain ⟨-, rounded⟩ := Option.ite_none_right_eq_some.mp (round_finite_iff.mp mean)
    have value : nearestFloat64 ((sum.bmod (2 ^ 64)).tdiv n : ℤ) = sum / n := Option.some.inj rounded
    obtain ⟨k, whole⟩ := @Rounding.exists_nearest_intCast 53 (-1074) ((sum.bmod (2 ^ 64)).tdiv n)
    have product : sum = k * n := by
      have quotient : (k : ℚ) = sum / n := whole.symm.trans value
      rw [eq_div_iff nonzero] at quotient
      exact_mod_cast quotient.symm
    have error := @Rounding.abs_nearest_sub_le 53 (-1074) ((sum.bmod (2 ^ 64)).tdiv n : ℤ)
    rw [whole] at error
    have range : -2 ^ 63 ≤ sum ∧ sum < 2 ^ 63 := by
      obtain ⟨j, wrapped, low, high⟩ := bmod_cases sum
      generalize sum.bmod (2 ^ 64) = w at *
      have near : |k - w.tdiv n| * n ≤ |w.tdiv n| * n := by
        apply mul_le_mul_of_nonneg_right _ positive.le
        exact_mod_cast error
      rw [← abs_of_pos positive, ← abs_mul, ← abs_mul, abs_of_pos positive, sub_mul, ← product] at near
      -- a sum that has wrapped around is farther from the average than the average from zero
      rcases tdiv_mul_between w positive with ⟨above, below⟩ | ⟨above, below⟩
      · rw [abs_of_nonneg above, abs_le] at near
        omega
      · rw [abs_of_nonpos below, abs_le] at near
        omega
    have divides : n ∣ sum := ⟨k, by rw [product, mul_comm]⟩
    exact ⟨divides, range, (converted divides range).mp mean⟩
  · intro ⟨divides, range, float⟩
    exact (converted divides range).mpr float

/-! ## The pods that are stored -/

def Datastore.stored (ds : Datastore) : Multiset PodMetrics := ds.pods.entries.map fun entry => entry.2

theorem Datastore.coe_podGetAll {ds : Datastore} {order : List NamespacedName} (ranges : RangesOver order ds.pods) :
    (ds.podGetAll order : Multiset PodMetrics) = ds.stored := by
  have keys : (order : Multiset NamespacedName) = ds.pods.entries.map Sigma.fst := by
    apply (Multiset.Nodup.ext (Multiset.coe_nodup.mpr ranges.nodup) ds.pods.nodupKeys.nodup_keys).mpr
    exact ranges.visits
  have all : ds.podGetAll order = order.filterMap ds.pods.lookup := by simp [podGetAll, podList]
  have each : ∀ entry ∈ ds.pods.entries, ds.pods.lookup entry.1 = some entry.2 :=
    fun entry member => Finmap.lookup_eq_some_iff.mpr member
  rw [all, ← Multiset.filterMap_coe, keys, Multiset.filterMap_map, stored]
  generalize ds.pods.entries = entries at each
  induction entries using Multiset.induction with
  | empty => rfl
  | cons entry entries ih =>
      obtain ⟨first, others⟩ := Multiset.forall_mem_cons.mp each
      have found : ((fun key => ds.pods.lookup key) ∘ Sigma.fst) entry = some entry.2 := first
      rw [Multiset.filterMap_cons_some _ _ _ found, Multiset.map_cons, ih others]

namespace BackendMetrics

/-! ## Sums -/

section Sums
variable {getMetrics : Nat → Metrics} {pods : List PodMetrics}

theorem toInt_queueTotal (getMetrics : Nat → Metrics) (pods : List PodMetrics) :
    (queueTotal getMetrics pods).toInt =
      (pods.map fun pm => (getMetrics pm.ref).waitingQueueSize.toInt).sum.bmod (2 ^ 64) := by
  induction pods using List.reverseRecOn with
  | nil => rfl
  | append_singleton pods pod ih =>
      have last : queueTotal getMetrics (pods ++ [pod]) =
          queueTotal getMetrics pods + (getMetrics pod.ref).waitingQueueSize := by
        rw [queueTotal, List.foldl_append]
        rfl
      rw [last, Int64.toInt_add, ih, List.map_append, List.sum_append, List.map_singleton, List.sum_singleton,
        Int.bmod_add_bmod]

/-- Where every sum on the way is a float64, nothing is rounded. -/
theorem kvCacheTotal_exact {value : PodMetrics → ℚ}
    (finite : ∀ pm ∈ pods, (getMetrics pm.ref).kvCacheUsagePercent = .finite (value pm))
    (exact64 : ∀ before, before <+: pods → Binary64 (before.map value).sum) :
    kvCacheTotal getMetrics pods = .finite (pods.map value).sum := by
  induction pods using List.reverseRecOn with
  | nil => rfl
  | append_singleton pods pod ih =>
      obtain ⟨others, only⟩ := List.forall_mem_append.mp finite
      have before := ih others fun before isPrefix => exact64 before (isPrefix.trans (List.prefix_append _ _))
      have last : kvCacheTotal getMetrics (pods ++ [pod]) =
          (kvCacheTotal getMetrics pods).plus (getMetrics pod.ref).kvCacheUsagePercent := by
        rw [kvCacheTotal, List.foldl_append]
        rfl
      have total : (pods.map value).sum + value pod = ((pods ++ [pod]).map value).sum := by simp
      rw [last, before, only pod (List.mem_singleton_self pod), Float64.plus, Float64.add_finite, total]
      exact Float64.round_of_binary64 (exact64 _ List.prefix_rfl)

end Sums

/-! ## A flush -/

section Flush
variable {s : Monitor} {order : List NamespacedName} {pool : InferencePool}

theorem flush_of_unsynced (unsynced : s.store.pool = none) : flushPrometheusMetricsOnce order s = s := by
  simp [flushPrometheusMetricsOnce, Datastore.poolGet, unsynced]

theorem flush_of_empty (empty : s.store.podGetAll order = []) : flushPrometheusMetricsOnce order s = s := by
  rw [flushPrometheusMetricsOnce]
  split
  · rfl
  · simp [empty]

theorem flush_of_nonempty (synced : s.store.pool = some pool) (nonempty : s.store.podGetAll order ≠ []) :
    flushPrometheusMetricsOnce order s = { s with gauges := {
      avgKVCache := s.gauges.avgKVCache.insert pool.name
        ((kvCacheTotal s.getMetrics (s.store.podGetAll order)).quotient (.ofInt (s.store.podGetAll order).length))
      avgQueueSize := s.gauges.avgQueueSize.insert pool.name
        (.ofInt ((queueTotal s.getMetrics (s.store.podGetAll order)).toInt.tdiv (s.store.podGetAll order).length))
      readyPods := s.gauges.readyPods.insert pool.name (.ofInt (s.store.podGetAll order).length) } } := by
  have pods : (s.store.podGetAll order).length ≠ 0 := mt List.length_eq_zero_iff.mp nonempty
  simp only [flushPrometheusMetricsOnce, Datastore.poolGet, synced, if_neg pods]
  rfl

theorem store_flush (order : List NamespacedName) (s : Monitor) :
    (flushPrometheusMetricsOnce order s).store = s.store ∧
      (flushPrometheusMetricsOnce order s).getMetrics = s.getMetrics := by
  rw [flushPrometheusMetricsOnce]
  split
  · exact ⟨rfl, rfl⟩
  · dsimp only
    split <;> exact ⟨rfl, rfl⟩

theorem gaugeValue_insert (gauge : PoolGauge) (name : String) (value : Float64) :
    gaugeValue (gauge.insert name value) name = value := by
  rw [gaugeValue, Finmap.lookup_insert, Option.getD_some]

end Flush

/-! ## Runs -/

/-- The pods and their metrics change in any way between the flushes. The list holds the states in
which the flushes were made. -/
inductive Run (first : Monitor) : List Monitor → Monitor → Prop
  | start : Run first [] first
  | change {flushed : List Monitor} {s : Monitor} (run : Run first flushed s) (store : Datastore)
      (getMetrics : Nat → Metrics) : Run first flushed { s with store := store, getMetrics := getMetrics }
  | flush {flushed : List Monitor} {s : Monitor} {order : List NamespacedName} (run : Run first flushed s)
      (ranges : RangesOver order s.store.pods) : Run first (flushed ++ [s]) (flushPrometheusMetricsOnce order s)

/-- A flush for the pool with the name has found a pod. -/
def Published (flushed : List Monitor) (name : String) : Prop :=
  ∃ s ∈ flushed, ∃ pool, s.store.pool = some pool ∧ pool.name = name ∧ s.store.stored ≠ 0

structure ReadyKept (flushed : List Monitor) (gauge : PoolGauge) : Prop where
  known : ∀ name, name ∈ gauge ↔ Published flushed name
  positive : ∀ name value, gauge.lookup name = some value → ∃ n : ℤ, 0 < n ∧ value = .ofInt n

section Runs
variable {s : Monitor} {flushed : List Monitor} {order : List NamespacedName} {pool : InferencePool}

theorem published_append_iff {name : String} :
    Published (flushed ++ [s]) name ↔
      Published flushed name ∨ ∃ pool, s.store.pool = some pool ∧ pool.name = name ∧ s.store.stored ≠ 0 := by
  simp only [Published, List.mem_append, List.mem_singleton, or_and_right, exists_or, exists_eq_left]

theorem podGetAll_eq_nil_iff (ranges : RangesOver order s.store.pods) :
    s.store.podGetAll order = [] ↔ s.store.stored = 0 := by
  rw [← Datastore.coe_podGetAll ranges, Multiset.coe_eq_zero]

theorem length_podGetAll (ranges : RangesOver order s.store.pods) :
    (s.store.podGetAll order).length = s.store.stored.card := by
  rw [← Datastore.coe_podGetAll ranges, Multiset.coe_card]

theorem ReadyKept.flush_of_same (kept : ReadyKept flushed s.gauges.readyPods)
    (idle : s.store.pool = none ∨ s.store.stored = 0) : ReadyKept (flushed ++ [s]) s.gauges.readyPods := by
  constructor
  · intro name
    have nothing : ¬∃ pool, s.store.pool = some pool ∧ pool.name = name ∧ s.store.stored ≠ 0 := by
      intro ⟨pool, synced, _, present⟩
      rcases idle with unsynced | empty
      · cases unsynced.symm.trans synced
      · exact present empty
    rw [published_append_iff, or_iff_left nothing]
    exact kept.known name
  · exact kept.positive

theorem ReadyKept.flush (kept : ReadyKept flushed s.gauges.readyPods) (ranges : RangesOver order s.store.pods) :
    ReadyKept (flushed ++ [s]) (flushPrometheusMetricsOnce order s).gauges.readyPods := by
  cases synced : s.store.pool with
  | none =>
      rw [flush_of_unsynced synced]
      exact kept.flush_of_same (.inl synced)
  | some pool =>
      by_cases empty : s.store.stored = 0
      · rw [flush_of_empty ((podGetAll_eq_nil_iff ranges).mpr empty)]
        exact kept.flush_of_same (.inr empty)
      · rw [flush_of_nonempty synced (mt (podGetAll_eq_nil_iff ranges).mp empty)]
        constructor
        · intro name
          rw [published_append_iff, Finmap.mem_insert, kept.known name]
          simp [synced, empty, or_comm, eq_comm]
        · intro name value found
          by_cases same : name = pool.name
          · rw [same, Finmap.lookup_insert] at found
            refine ⟨_, ?_, (Option.some.inj found).symm⟩
            rw [length_podGetAll ranges]
            exact_mod_cast Multiset.card_pos.mpr empty
          · rw [Finmap.lookup_insert_of_ne _ same] at found
            exact kept.positive name value found

theorem Run.readyKept {store : Datastore} {getMetrics : Nat → Metrics}
    (run : Run ⟨store, getMetrics, {}⟩ flushed s) : ReadyKept flushed s.gauges.readyPods := by
  induction run with
  | start =>
      constructor
      · intro name
        simp [Published, Finmap.notMem_empty]
      · intro name value found
        cases found
  | change _ store getMetrics ih => exact ih
  | flush _ ranges ih => exact ih.flush ranges

end Runs

/-! ## The gauges against the store -/

def Monitor.queueSum (s : Monitor) : ℤ :=
  (s.store.stored.map fun pm => (s.getMetrics pm.ref).waitingQueueSize.toInt).sum

def ReadyPodsCurrent (name : String) (s : Monitor) : Prop :=
  gaugeValue s.gauges.readyPods name = .finite s.store.stored.card

def QueueSizeCurrent (name : String) (s : Monitor) : Prop :=
  gaugeValue s.gauges.avgQueueSize name = .finite (s.queueSum / s.store.stored.card)

def KVCacheCurrent (name : String) (s : Monitor) : Prop :=
  ∃ value : PodMetrics → ℚ,
    (∀ pm ∈ s.store.stored, (s.getMetrics pm.ref).kvCacheUsagePercent = .finite (value pm)) ∧
      gaugeValue s.gauges.avgKVCache name = .finite ((s.store.stored.map value).sum / s.store.stored.card)

/-- In the order of the pods, every sum of the utilizations is a float64, and so is their mean. -/
def ExactUtilizations (s : Monitor) (order : List NamespacedName) : Prop :=
  ∃ value : PodMetrics → ℚ,
    (∀ pm ∈ s.store.podGetAll order, (s.getMetrics pm.ref).kvCacheUsagePercent = .finite (value pm)) ∧
    (∀ before, before <+: s.store.podGetAll order → Binary64 (before.map value).sum) ∧
      Binary64 (((s.store.podGetAll order).map value).sum / (s.store.podGetAll order).length)

section Gauges
variable {s : Monitor} {flushed : List Monitor} {order : List NamespacedName} {pool : InferencePool}

theorem readyPods_of_empty {store : Datastore} {getMetrics : Nat → Metrics}
    (run : Run ⟨store, getMetrics, {}⟩ flushed s) (empty : s.store.stored = 0) (name : String) :
    ReadyPodsCurrent name s ↔ ¬Published flushed name := by
  have kept := run.readyKept
  rw [ReadyPodsCurrent, empty, ← kept.known name, gaugeValue]
  cases found : s.gauges.readyPods.lookup name with
  | none => simpa using Finmap.lookup_eq_none.mp found
  | some value =>
      obtain ⟨n, positive, rfl⟩ := kept.positive name value found
      have stale := Float64.ofInt_ne_zero positive
      have known : name ∈ s.gauges.readyPods := Finmap.mem_of_lookup_eq_some found
      simp [known, stale]

theorem readyPods_of_nonempty (synced : s.store.pool = some pool) (ranges : RangesOver order s.store.pods)
    (present : s.store.stored ≠ 0) :
    ReadyPodsCurrent pool.name (flushPrometheusMetricsOnce order s) ↔ IsFloat64 s.store.stored.card := by
  rw [ReadyPodsCurrent, (store_flush order s).1, flush_of_nonempty synced (mt (podGetAll_eq_nil_iff ranges).mp present),
    gaugeValue_insert, length_podGetAll ranges, ← Float64.ofInt_eq_iff, Int.cast_natCast]

theorem queueSize_of_nonempty (synced : s.store.pool = some pool) (ranges : RangesOver order s.store.pods)
    (present : s.store.stored ≠ 0) :
    QueueSizeCurrent pool.name (flushPrometheusMetricsOnce order s) ↔
      (s.store.stored.card : ℤ) ∣ s.queueSum ∧ (-2 ^ 63 ≤ s.queueSum ∧ s.queueSum < 2 ^ 63) ∧
        IsFloat64 (s.queueSum / s.store.stored.card) := by
  have positive : (0 : ℤ) < s.store.stored.card := by exact_mod_cast Multiset.card_pos.mpr present
  have sum : ((s.store.podGetAll order).map fun pm => (s.getMetrics pm.ref).waitingQueueSize.toInt).sum =
      s.queueSum := by
    rw [Monitor.queueSum, ← Datastore.coe_podGetAll ranges, Multiset.map_coe, Multiset.sum_coe]
  rw [← Float64.ofInt_tdiv_eq_mean_iff _ positive, QueueSizeCurrent, Monitor.queueSum, (store_flush order s).1,
    (store_flush order s).2, ← Monitor.queueSum,
    flush_of_nonempty synced (mt (podGetAll_eq_nil_iff ranges).mp present), gaugeValue_insert, length_podGetAll ranges,
    toInt_queueTotal, sum, Int.cast_natCast]

theorem kvCache_of_nonempty (synced : s.store.pool = some pool) (ranges : RangesOver order s.store.pods)
    (present : s.store.stored ≠ 0) (count : IsFloat64 s.store.stored.card) (utilizations : ExactUtilizations s order) :
    KVCacheCurrent pool.name (flushPrometheusMetricsOnce order s) := by
  obtain ⟨value, finite, sums, mean⟩ := utilizations
  have positive : (s.store.stored.card : ℚ) ≠ 0 := by exact_mod_cast (Multiset.card_pos.mpr present).ne'
  have total := kvCacheTotal_exact finite sums
  have sum : ((s.store.podGetAll order).map value).sum = (s.store.stored.map value).sum := by
    rw [← Datastore.coe_podGetAll ranges, Multiset.map_coe, Multiset.sum_coe]
  rw [length_podGetAll ranges, sum] at mean
  refine ⟨value, ?_, ?_⟩
  · intro pm member
    rw [(store_flush order s).1, ← Datastore.coe_podGetAll ranges, Multiset.mem_coe] at member
    rw [(store_flush order s).2]
    exact finite pm member
  · rw [(store_flush order s).1, flush_of_nonempty synced (mt (podGetAll_eq_nil_iff ranges).mp present),
      gaugeValue_insert, total, length_podGetAll ranges, (Float64.ofInt_eq_iff _).mpr count, Float64.quotient,
      Int.cast_natCast, Float64.divide_finite _ positive, sum, Float64.round_of_binary64 mean]

end Gauges

/-- After a flush the number of ready pods is current if there are pods, and where there are none if no
flush has found any; the average queue size is current if it is an integer; and the utilization is
current where the sums are exact. -/
theorem pool_gauges_current_iff {store : Datastore} {getMetrics : Nat → Metrics} {flushed : List Monitor}
    {s : Monitor} {order : List NamespacedName} {pool : InferencePool} (run : Run ⟨store, getMetrics, {}⟩ flushed s)
    (synced : s.store.pool = some pool) (ranges : RangesOver order s.store.pods) :
    (ReadyPodsCurrent pool.name (flushPrometheusMetricsOnce order s) ↔
      if s.store.stored = 0 then ¬Published flushed pool.name else IsFloat64 s.store.stored.card) ∧
    (s.store.stored ≠ 0 →
      (QueueSizeCurrent pool.name (flushPrometheusMetricsOnce order s) ↔
        (s.store.stored.card : ℤ) ∣ s.queueSum ∧ (-2 ^ 63 ≤ s.queueSum ∧ s.queueSum < 2 ^ 63) ∧
          IsFloat64 (s.queueSum / s.store.stored.card)) ∧
      (IsFloat64 s.store.stored.card → ExactUtilizations s order →
        KVCacheCurrent pool.name (flushPrometheusMetricsOnce order s))) := by
  refine ⟨?_, ?_⟩
  · split
    · rename_i empty
      rw [flush_of_empty ((podGetAll_eq_nil_iff ranges).mpr empty)]
      exact readyPods_of_empty run empty pool.name
    · rename_i present
      exact readyPods_of_nonempty synced ranges present
  · intro present
    exact ⟨queueSize_of_nonempty synced ranges present, kvCache_of_nonempty synced ranges present⟩

section Served

def servedPod (name : String) : Pod := testPod "default" name "10.0.0.1"

def servedStore (names : List String) : Datastore :=
  names.foldl (fun ds name => (ds.podUpdateOrAddIfNotExist (servedPod name)).2) (Datastore.poolSet testPool {})

def twoPods : Monitor where
  store := servedStore ["vllm-0", "vllm-1"]
  getMetrics ref := { waitingQueueSize := if ref = 1 then 1 else 0 }

def bothPods : List NamespacedName := [(servedPod "vllm-0").namespacedName, (servedPod "vllm-1").namespacedName]

def drained : Monitor :=
  let s := flushPrometheusMetricsOnce bothPods twoPods
  { s with store := bothPods.foldl (fun ds key => ds.podDelete key) s.store }

-- by the time of the second flush both pods have more to do
def busier : Monitor :=
  { flushPrometheusMetricsOnce bothPods twoPods with
    getMetrics := fun ref =>
      if ref = 1 then { waitingQueueSize := 4, kvCacheUsagePercent := .finite (3 / 4) }
      else { waitingQueueSize := 2, kvCacheUsagePercent := .finite (1 / 4) } }

end Served

theorem exactUtilizations_busier : ExactUtilizations busier bothPods := by
  have both : busier.store.podGetAll bothPods =
      [⟨0, toInternalPod (servedPod "vllm-0")⟩, ⟨1, toInternalPod (servedPod "vllm-1")⟩] := by decide +kernel
  have zero : Binary64 0 := ⟨by decide +kernel, 0, 0, by decide, by decide, by norm_num⟩
  have quarter : Binary64 (1 / 4) := ⟨by decide +kernel, 1, -2, by decide, by decide, by norm_num⟩
  have half : Binary64 (1 / 2) := ⟨by decide +kernel, 1, -1, by decide, by decide, by norm_num⟩
  have one : Binary64 1 := ⟨by decide +kernel, 1, 0, by decide, by decide, by norm_num⟩
  refine ⟨fun pm => if pm.ref = 1 then 3 / 4 else 1 / 4, ?_, ?_, ?_⟩
  · rw [both]
    decide +kernel
  · rw [both]
    intro before initial
    have sums : before.map (fun pm => if pm.ref = 1 then 3 / 4 else (1 / 4 : ℚ)) <+: [1 / 4, 3 / 4] :=
      initial.map _
    rcases List.prefix_cons_iff.mp sums with none | ⟨more, first, rest⟩
    · rw [none]
      exact zero
    · rcases List.prefix_cons_iff.mp rest with none | ⟨more', second, rest'⟩
      · rw [first, none, List.sum_singleton]
        exact quarter
      · rw [first, second, List.prefix_nil.mp rest', show ([1 / 4, 3 / 4] : List ℚ).sum = 1 by norm_num]
        exact one
  · have mean : (([1 / 4, 3 / 4] : List ℚ).sum / (2 : ℕ)) = 1 / 2 := by norm_num
    rw [both]
    exact mean.symm ▸ half

theorem later_flush_gauges_current :
    Run twoPods [twoPods] busier ∧ busier.store.stored.card = 2 ∧
    ReadyPodsCurrent "pool" (flushPrometheusMetricsOnce bothPods busier) ∧
      QueueSizeCurrent "pool" (flushPrometheusMetricsOnce bothPods busier) ∧
      KVCacheCurrent "pool" (flushPrometheusMetricsOnce bothPods busier) := by
  have ranges : RangesOver bothPods twoPods.store.pods := by decide +kernel
  have run : Run twoPods [twoPods] busier := .change (.flush .start ranges) _ _
  have count : busier.store.stored.card = 2 := by decide +kernel
  have queue : busier.queueSum = 6 := by decide +kernel
  have present : busier.store.stored ≠ 0 := by decide +kernel
  have two : IsFloat64 (2 : ℕ) := ⟨by decide +kernel, 2, 0, by decide, by decide⟩
  obtain ⟨ready, averages⟩ := @pool_gauges_current_iff twoPods.store twoPods.getMetrics [twoPods] busier bothPods
    testPool run rfl (by decide +kernel)
  obtain ⟨queueSize, kvCache⟩ := averages present
  rw [if_neg present, count] at ready
  rw [count, queue] at queueSize
  rw [count] at kvCache
  refine ⟨run, count, ready.mpr two, queueSize.mpr ?_, kvCache two exactUtilizations_busier⟩
  exact ⟨by decide, by decide, by decide +kernel, 3, 0, by decide, by decide⟩

theorem drained_pool_gauges_stale :
    (Run twoPods [] twoPods ∧ twoPods.store.pool = some testPool ∧ RangesOver bothPods twoPods.store.pods ∧
      ¬QueueSizeCurrent "pool" (flushPrometheusMetricsOnce bothPods twoPods)) ∧
    Run twoPods [twoPods] drained ∧ drained.store.pool = some testPool ∧ RangesOver [] drained.store.pods ∧
      ¬ReadyPodsCurrent "pool" (flushPrometheusMetricsOnce [] drained) := by
  have ranges : RangesOver bothPods twoPods.store.pods := by decide +kernel
  refine ⟨⟨.start, rfl, ranges, ?_⟩, .change (.flush .start ranges) _ _, rfl, by decide +kernel, ?_⟩
  · rw [QueueSizeCurrent]
    decide +kernel
  · rw [ReadyPodsCurrent]
    decide +kernel

end BackendMetrics

end InferenceGateway
