import InferenceGateway.Lib.Latest
import InferenceGateway.Numbers
import InferenceGateway.Proof.Scheduling.Schedule

/-!
# Requests that are scheduled while the metrics are refreshed

Whether a critical request is placed is decided by what the last filter reads. The range is made of the
readings for the last assignments to its bounds, and every candidate is read again to compare it with them.
-/

namespace InferenceGateway
open Lib
variable {π ν : Type}

/-! ## What a range filter reads -/

def Reading.event (reading : Reading π) : Event π := .answered (.getMetrics reading.site reading.pod) reading.metrics

def valuesAt (value : Metrics → ν) (site : Site) (readings : List (Reading π)) : List ν :=
  (readings.filter (·.site = site)).map fun reading => value reading.metrics

theorem valuesAt_append (value : Metrics → ν) (site : Site) (readings later : List (Reading π)) :
    valuesAt value site (readings ++ later) = valuesAt value site readings ++ valuesAt value site later := by
  simp [valuesAt]

theorem valuesAt_eq_nil (value : Metrics → ν) {site : Site} {readings : List (Reading π)}
    (absent : ∀ reading ∈ readings, reading.site ≠ site) : valuesAt value site readings = [] := by
  simpa [valuesAt] using absent

/-- Some pod is read to be no less than the one bound, and then to be no more than the other. -/
def Kept (value : Metrics → ν) (le : ν → ν → Bool) (min bound : ν) (readings : List (Reading π)) : Prop :=
  ∃ pod low high, [⟨.lower, pod, low⟩, ⟨.upper, pod, high⟩] <:+: readings ∧
    le min (value low) = true ∧ le (value high) bound = true

/-- The bounds are those of the last assignments, and there is one pod for each test of the minimum. -/
def KeptInFirstRange (value : Metrics → ν) (le : ν → ν → Bool) (top zero : ν) (bound : ν → ν → Nat → ν)
    (readings : List (Reading π)) : Prop :=
  let min := (valuesAt value .minSet readings).getLastD top
  let max := (valuesAt value .maxSet readings).getLastD zero
  Kept value le min (bound min max (valuesAt value .minTest readings).length) readings

section Kept
variable {value : Metrics → ν} {le : ν → ν → Bool} {min bound : ν} {readings : List (Reading π)}

theorem kept_cons_iff (first : Reading π) :
    Kept value le min bound (first :: readings) ↔
      (∃ pod low high, [⟨.lower, pod, low⟩, ⟨.upper, pod, high⟩] <+: first :: readings ∧
        le min (value low) = true ∧ le (value high) bound = true) ∨ Kept value le min bound readings := by
  simp only [Kept, List.infix_cons_iff, or_and_right, exists_or]

theorem kept_cons_of_ne {first : Reading π} (other : first.site ≠ .lower) :
    Kept value le min bound (first :: readings) ↔ Kept value le min bound readings := by
  rw [kept_cons_iff, or_iff_right]
  rintro ⟨pod, low, high, start, _⟩
  exact other (congrArg Reading.site (List.cons_prefix_cons.mp start).1.symm)

theorem kept_append {earlier : List (Reading π)} (others : ∀ reading ∈ earlier, reading.site ≠ .lower) :
    Kept value le min bound (earlier ++ readings) ↔ Kept value le min bound readings := by
  induction earlier with
  | nil => rfl
  | cons first earlier ih =>
      obtain ⟨other, rest⟩ := List.forall_mem_cons.mp others
      rw [List.cons_append, kept_cons_of_ne other, ih rest]

theorem kept_lower_cons (pod : π) (low : Metrics) (next : ∀ reading ∈ readings.head?, reading.site = .lower) :
    Kept value le min bound (⟨.lower, pod, low⟩ :: readings) ↔ Kept value le min bound readings := by
  rw [kept_cons_iff, or_iff_right]
  rintro ⟨pod, low, high, ⟨after, start⟩, _⟩
  cases start
  cases next _ rfl

theorem kept_pair_cons (pod : π) (low high : Metrics) :
    Kept value le min bound (⟨.lower, pod, low⟩ :: ⟨.upper, pod, high⟩ :: readings) ↔
      (le min (value low) = true ∧ le (value high) bound = true) ∨ Kept value le min bound readings := by
  have second : Kept value le min bound (⟨.upper, pod, high⟩ :: readings) ↔ Kept value le min bound readings :=
    kept_cons_of_ne (by simp)
  rw [kept_cons_iff, second]
  refine or_congr_left ⟨?_, fun pair => ⟨pod, low, high, ⟨readings, rfl⟩, pair⟩⟩
  rintro ⟨pod, low, high, ⟨after, start⟩, pair⟩
  cases start
  exact pair

end Kept

section RangeFilter
variable (value : Metrics → ν) (le : ν → ν → Bool) (env : Env π)

/-- One pod after the other is read to compare it with the bounds, and again where a bound is replaced. -/
structure Widens (range range' : ν × ν) (count : Nat) (readings : List (Reading π)) : Prop where
  min : range'.1 = (valuesAt value .minSet readings).getLastD range.1
  max : range'.2 = (valuesAt value .maxSet readings).getLastD range.2
  count : (valuesAt value .minTest readings).length = count
  sites : ∀ reading ∈ readings, reading.site ≠ .lower ∧ reading.site ≠ .upper

variable {value} in
theorem Widens.append {range range' range'' : ν × ν} {count count' : Nat} {readings later : List (Reading π)}
    (first : Widens value range range' count readings) (second : Widens value range' range'' count' later) :
    Widens value range range'' (count + count') (readings ++ later) where
  min := by rw [second.min, first.min, valuesAt_append, Latest.getLastD_append]
  max := by rw [second.max, first.max, valuesAt_append, Latest.getLastD_append]
  count := by rw [valuesAt_append, List.length_append, first.count, second.count]
  sites := List.forall_mem_append.mpr ⟨first.sites, second.sites⟩

theorem widen_readings (range : ν × ν) (pod : π) (t : Nat) :
    ∃ readings : List (Reading π), (widen value le range pod).log env.answers t = readings.map Reading.event ∧
      Widens value range (widen value le range pod env t).1 1 readings := by
  obtain ⟨min, max⟩ := range
  -- the second comparison and its assignment, for whatever minimum the first one left
  let second (min' : ν) : Run π (ν × ν) := do
    if le max (value (← getMetrics .maxTest pod)) then
      return (min', value (← getMetrics .maxSet pod))
    else
      return (min', max)
  have secondReads (min' : ν) (k : Nat) : ∃ readings : List (Reading π),
      (second min').log env.answers k = readings.map Reading.event ∧
        Widens value (min', max) (second min' env k).1 0 readings := by
    by_cases replaced : le max (value (env.getMetrics k pod)) = true
    · refine ⟨[⟨.maxTest, pod, env.getMetrics k pod⟩, ⟨.maxSet, pod, env.getMetrics (k + 1) pod⟩], ?_, ?_⟩
      · simp [second, getMetrics, Env.answers, Reading.event, replaced]
      · constructor <;> simp [second, valuesAt, replaced]
    · refine ⟨[⟨.maxTest, pod, env.getMetrics k pod⟩], ?_, ?_⟩
      · simp [second, getMetrics, Env.answers, Reading.event, replaced]
      · constructor <;> simp [second, valuesAt, replaced]
  by_cases replaced : le (value (env.getMetrics t pod)) min = true
  · obtain ⟨rest, logged, widens⟩ := secondReads (value (env.getMetrics (t + 1) pod)) (t + 2)
    have first : Widens value (min, max) (value (env.getMetrics (t + 1) pod), max) 1
        [⟨.minTest, pod, env.getMetrics t pod⟩, ⟨.minSet, pod, env.getMetrics (t + 1) pod⟩] := by
      constructor <;> simp [valuesAt]
    have ran : (widen value le (min, max) pod) env t = second (value (env.getMetrics (t + 1) pod)) env (t + 2) := by
      simp [widen, second, replaced]
    refine ⟨_, ?_, ran ▸ first.append widens⟩
    rw [List.map_append, ← logged]
    simp [widen, second, getMetrics, Env.answers, Reading.event, replaced]
  · obtain ⟨rest, logged, widens⟩ := secondReads min (t + 1)
    have first : Widens value (min, max) (min, max) 1 [⟨.minTest, pod, env.getMetrics t pod⟩] := by
      constructor <;> simp [valuesAt]
    have ran : (widen value le (min, max) pod) env t = second min env (t + 1) := by
      simp [widen, second, replaced]
    refine ⟨_, ?_, ran ▸ first.append widens⟩
    rw [List.map_append, ← logged]
    simp [widen, second, getMetrics, Env.answers, Reading.event, replaced]

theorem scan_readings (range : ν × ν) (pods : List π) (t : Nat) :
    ∃ readings : List (Reading π),
      (pods.foldlM (widen value le) range : Run π (ν × ν)).log env.answers t = readings.map Reading.event ∧
      Widens value range ((pods.foldlM (widen value le) range : Run π (ν × ν)) env t).1 pods.length readings := by
  induction pods generalizing range t with
  | nil => exact ⟨[], rfl, rfl, rfl, rfl, by simp⟩
  | cons pod pods ih =>
      obtain ⟨first, logged, widens⟩ := widen_readings value le env range pod t
      obtain ⟨rest, loggedRest, widensRest⟩ := ih (widen value le range pod env t).1 (widen value le range pod env t).2
      refine ⟨first ++ rest, ?_, ?_⟩
      · rw [List.foldlM_cons, Dialogue.log_bind, List.map_append, ← logged, ← loggedRest]
        rfl
      · rw [List.foldlM_cons, Run.exec_bind, List.length_cons, Nat.add_comm]
        exact widens.append widensRest

/-- Every pod is read once, or twice if the first comparison succeeds. -/
structure Selects (min bound : ν) (kept : List π) (readings : List (Reading π)) : Prop where
  sites : ∀ reading ∈ readings, reading.site = .lower ∨ reading.site = .upper
  starts : ∀ reading ∈ readings.head?, reading.site = .lower
  kept : kept ≠ [] ↔ Kept value le min bound readings

theorem select_readings (min bound : ν) (pods : List π) (t : Nat) :
    ∃ readings : List (Reading π),
      (Dialogue.keep (inFirstRange value le min bound) pods : Run π (List π)).log env.answers t =
        readings.map Reading.event ∧
      Selects value le min bound ((Dialogue.keep (inFirstRange value le min bound) pods : Run π (List π)) env t).1
        readings := by
  induction pods generalizing t with
  | nil => exact ⟨[], rfl, by simp, by simp, by simp [Dialogue.keep, Kept]⟩
  | cons pod pods ih =>
      obtain ⟨rest, logged, selects⟩ := ih (inFirstRange value le min bound pod env t).2
      have both : (Dialogue.keep (inFirstRange value le min bound) (pod :: pods) : Run π (List π)).log env.answers t =
          (inFirstRange value le min bound pod).log env.answers t ++ rest.map Reading.event := by
        rw [← logged, Dialogue.keep, Dialogue.log_bind, Dialogue.log_bind, Dialogue.log_pure, List.append_nil]
        rfl
      have result : ((Dialogue.keep (inFirstRange value le min bound) (pod :: pods) : Run π (List π)) env t).1 ≠ [] ↔
          (inFirstRange value le min bound pod env t).1 = true ∨ Kept value le min bound rest := by
        rw [← selects.kept, Dialogue.keep, Run.exec_bind, Run.exec_bind, Run.exec_pure]
        split <;> simp_all
      by_cases above : le min (value (env.getMetrics t pod)) = true
      · refine ⟨⟨.lower, pod, env.getMetrics t pod⟩ :: ⟨.upper, pod, env.getMetrics (t + 1) pod⟩ :: rest, ?_, ?_⟩
        · rw [both]
          simp [inFirstRange, getMetrics, Env.answers, Reading.event, above]
        · refine ⟨by simpa using selects.sites, by simp, ?_⟩
          rw [result, kept_pair_cons]
          simp [inFirstRange, above]
      · refine ⟨⟨.lower, pod, env.getMetrics t pod⟩ :: rest, ?_, ?_⟩
        · rw [both]
          simp [inFirstRange, getMetrics, Env.answers, Reading.event, above]
        · refine ⟨by simpa using selects.sites, by simp, ?_⟩
          rw [result, kept_lower_cons pod _ selects.starts]
          simp [inFirstRange, above]

theorem leastFilterFunc_readings (top zero : ν) (bound : ν → ν → Nat → ν) (req : LLMRequest) (pods : List π) (t : Nat) :
    ∃ readings : List (Reading π),
      (leastFilterFunc value le top zero bound req pods).log env.answers t = readings.map Reading.event ∧
      (succeeded (leastFilterFunc value le top zero bound req pods env t).1 = true ↔
        KeptInFirstRange value le top zero bound readings) := by
  obtain ⟨first, logged, widens⟩ := scan_readings value le env (top, zero) pods t
  let range := ((pods.foldlM (widen value le) (top, zero) : Run π (ν × ν)) env t)
  obtain ⟨second, logged', selects⟩ :=
    select_readings value le env range.1.1 (bound range.1.1 range.1.2 pods.length) pods range.2
  refine ⟨first ++ second, ?_, ?_⟩
  · rw [List.map_append, ← logged, ← logged', leastFilterFunc, Dialogue.log_bind, Dialogue.log_bind]
    simp
    rfl
  · have unset (site : Site) (other : site ≠ .lower ∧ site ≠ .upper) : valuesAt value site second = [] := by
      apply valuesAt_eq_nil
      rintro reading member rfl
      exact (selects.sites reading member).elim other.1 other.2
    have bounds : KeptInFirstRange value le top zero bound (first ++ second) ↔
        Kept value le range.1.1 (bound range.1.1 range.1.2 pods.length) (first ++ second) := by
      simp only [KeptInFirstRange, valuesAt_append, unset .minSet (by simp), unset .maxSet (by simp),
        unset .minTest (by simp), List.append_nil, ← widens.min, ← widens.max, widens.count]
      rfl
    rw [bounds, kept_append fun reading member => (widens.sites reading member).1, ← selects.kept, succeeded_iff]
    simp only [leastFilterFunc, Run.exec_bind, Run.exec_pure, true_and]
    rfl

end RangeFilter

/-! ## What the last filter of a tree reads -/

def Event.since (readings : List (Reading π)) : Event π → List (Reading π)
  | .noted _ => []
  | .answered (.getMetrics site pod) metrics => readings ++ [⟨site, pod, metrics⟩]
  | .answered .float64 _ | .answered .intn _ => readings

/-- The readings since a filter last started to run. -/
def lastReadings (log : List (Event π)) : List (Reading π) := log.foldl Event.since []

theorem foldl_since_readings (earlier readings : List (Reading π)) :
    (readings.map Reading.event).foldl Event.since earlier = earlier ++ readings := by
  induction readings generalizing earlier with
  | nil => simp
  | cons reading readings ih =>
      rw [List.map_cons, List.foldl_cons, ih]
      simp [Reading.event, Event.since]

theorem lastReadings_append (before : List (Event π)) (running : RunningFilter) (readings : List (Reading π)) :
    lastReadings (before ++ .noted running :: readings.map Reading.event) = readings := by
  rw [lastReadings, List.foldl_append, List.foldl_cons, foldl_since_readings]
  rfl

/-! ## The arithmetic of float64 -/

/-- A float64 as a pod reports it: finite, and not negative. -/
structure Float64.IsUsage (x : Float64) : Prop where
  finite : x.IsFinite
  float : x.round = x
  nonneg : (Float64.finite 0).le x = true

theorem Float64.round_zero : round (.finite 0) = .finite 0 :=
  round_of_binary64 ⟨by norm_num, 0, 0, by decide, by decide, by simp⟩

theorem Float64.round_one : round (.finite 1) = .finite 1 :=
  round_of_binary64 ⟨by rw [abs_one]; exact one_lt_pow₀ one_lt_two (by decide), 1, 0, by decide, by decide, by simp⟩

theorem Float64.round_maxFloat64 : round maxFloat64 = maxFloat64 :=
  round_of_binary64 ⟨by decide +kernel, 2 ^ 53 - 1, 971, by decide, by decide, by norm_num [maxFinite]⟩

namespace Float64

theorem nonneg_divide {r : ℚ} (nonneg : 0 ≤ r) {x : Float64} (large : le (.finite 1) x = true) :
    le (.finite 0) (divide (.finite r) x) = true := by
  cases x with
  | finite s =>
      have positive : 0 < s := zero_lt_one.trans_le (of_decide_eq_true large)
      rw [divide_finite r positive.ne']
      exact decide_eq_true (div_nonneg nonneg positive.le)
  | posInf => rfl
  | negInf => cases large
  | nan => cases large

theorem le_add_of_nonneg (a : ℚ) {x : Float64} (nonneg : le (.finite 0) x = true) :
    le (.finite a) (add (.finite a) x) = true := by
  cases x with
  | finite s => exact decide_eq_true (le_add_of_nonneg_right (of_decide_eq_true nonneg))
  | posInf => rfl
  | negInf => cases nonneg
  | nan => cases nonneg

theorem round_sub {a b : ℚ} (nonneg : 0 ≤ a) (width : a ≤ b) (float : round (.finite b) = .finite b) :
    round (sub (.finite b) (.finite a)) = .finite (nearestFloat64 (b - a)) ∧ 0 ≤ nearestFloat64 (b - a) := by
  obtain ⟨small, same⟩ := Option.ite_none_right_eq_some.mp (round_finite_iff.mp float)
  have low : 0 ≤ nearestFloat64 (b - a) := nearestFloat64_zero ▸ nearestFloat64_mono (sub_nonneg.mpr width)
  have high : nearestFloat64 (b - a) ≤ nearestFloat64 b := nearestFloat64_mono (sub_le_self b nonneg)
  refine ⟨?_, low⟩
  rw [sub_finite, round_finite_iff]
  apply if_pos
  rw [abs_of_nonneg low]
  exact high.trans_lt ((le_abs_self _).trans_lt small)

end Float64

theorem keepsLeast_float64 : @KeepsLeast float64Arithmetic Float64.IsUsage := by
  let := float64Arithmetic
  refine ⟨fun _ usage => usage.finite, ?_, ?_, ?_⟩
  · exact ⟨Float64.isFinite_maxFloat64, Float64.round_maxFloat64, by decide +kernel⟩
  · exact ⟨Float64.isFinite_of_abs_le_one (by norm_num), Float64.round_zero, by decide⟩
  · intro min max usageMin usageMax width count positive
    obtain ⟨a, rfl, _⟩ := usageMin.finite
    obtain ⟨b, rfl, _⟩ := usageMax.finite
    obtain ⟨span, nonneg⟩ := Float64.round_sub (of_decide_eq_true usageMin.nonneg) width usageMax.float
    have many : (Float64.finite 1).le (.finite count) = true := decide_eq_true (Nat.one_le_cast.mpr positive)
    have part := Float64.nonneg_divide nonneg (Float64.le_round Float64.round_one many)
    have sum := Float64.le_add_of_nonneg a (Float64.le_round Float64.round_zero part)
    rw [← span] at sum
    exact Float64.le_round usageMin.float sum

/-! ## Critical requests -/

theorem lastReadings_schedule [Arithmetic] (config : Config) (pods : List π) (req : LLMRequest) (env : Env π)
    (t : Nat) :
    lastReadings ((schedule config pods req).log env.answers t) =
      lastReadings (((defaultFilter config).run req pods).log env.answers t) := by
  -- after the filters there is at most the draw of a pod
  simp only [schedule, Dialogue.log_bind, lastReadings, List.foldl_append]
  split
  · rfl
  · simp [randIntn, Event.since]

/-- The last filter keeps a candidate: one whose usage is read, in the second loop, to be no less than the
minimum that the first loop set last and to be no more than the bound of the first part of the range. -/
def KVCacheWindowMet (readings : List (Reading π)) : Prop :=
  KeptInFirstRange Metrics.kvCacheUsagePercent Float64.le Float64.maxFloat64 (.finite 0)
    (@kvCacheBound float64Arithmetic) readings

/-- No refresh changes the usage of a pod between two of its readings. -/
def Undisturbed (readings : List (Reading π)) : Prop :=
  ∀ reading ∈ readings, ∀ later ∈ readings, reading.pod = later.pod →
    reading.metrics.kvCacheUsagePercent = later.metrics.kvCacheUsagePercent

theorem Undisturbed.exists_usage {readings : List (Reading π)} (undisturbed : Undisturbed readings)
    {good : Float64 → Prop} (zero : good (.finite 0))
    (goods : ∀ reading ∈ readings, good reading.metrics.kvCacheUsagePercent) :
    ∃ usage : π → Float64, (∀ pod, good (usage pod)) ∧
      ∀ reading ∈ readings, reading.metrics.kvCacheUsagePercent = usage reading.pod := by
  have each (pod : π) : ∃ usage, good usage ∧
      ∀ reading ∈ readings, reading.pod = pod → reading.metrics.kvCacheUsagePercent = usage := by
    by_cases read : ∃ reading ∈ readings, reading.pod = pod
    · obtain ⟨reading, member, rfl⟩ := read
      exact ⟨_, goods reading member, fun later member' same => undisturbed later member' reading member same⟩
    · exact ⟨_, zero, fun reading member same => absurd ⟨reading, member, same⟩ read⟩
  choose usage goodUsage same using each
  exact ⟨usage, goodUsage, fun reading member => same reading.pod reading member rfl⟩

theorem leastKVCache_keeps_of_undisturbed [Arithmetic] {good : Float64 → Prop} (keeps : KeepsLeast good) {env : Env π}
    {t : Nat} {req : LLMRequest} {pods : List π} (nonempty : pods ≠ []) {readings : List (Reading π)}
    (logged : (leastKVCacheFilterFunc req pods).log env.answers t = readings.map Reading.event)
    (goods : ∀ reading ∈ readings, good reading.metrics.kvCacheUsagePercent) (undisturbed : Undisturbed readings) :
    succeeded (leastKVCacheFilterFunc req pods env t).1 = true := by
  obtain ⟨usage, goodUsage, same⟩ := undisturbed.exists_usage keeps.zero goods
  let metrics (pod : π) : Metrics := { kvCacheUsagePercent := usage pod }
  have returned : (leastKVCacheFilterFunc req pods env t).1 = (leastKVCacheOf metrics pods, none) := by
    apply returns_leastOf
    intro event member
    rw [leastKVCacheFilterFunc] at logged
    rw [logged] at member
    obtain ⟨reading, read, rfl⟩ := List.mem_map.mp member
    rintro _ ⟨⟩ _
    exact same reading read
  rw [returned, succeeded_iff]
  exact ⟨rfl, leastKVCacheOf_ne_nil keeps nonempty fun pod _ => goodUsage pod⟩

abbrev scheduleFloat64 (config : Config) (podMetrics : List π) (req : LLMRequest) : Run π (Except Err π) :=
  @schedule π float64Arithmetic config podMetrics req

/-- A critical request is placed exactly when the last filter reads a candidate in the range that it has read
before, and so whenever no refresh changes the usage of a candidate between two readings. -/
theorem critical_request_placed_iff (config : Config) (env : Env π) (t : Nat) (req : LLMRequest)
    (pods : List π) (critical : req.critical = true) (nonempty : pods ≠ []) :
    let readings := lastReadings ((scheduleFloat64 config pods req).log env.answers t)
    ((∃ pod ∈ pods, (scheduleFloat64 config pods req env t).1 = .ok pod) ↔ KVCacheWindowMet readings) ∧
    ((∀ reading ∈ readings, reading.metrics.kvCacheUsagePercent.IsUsage) → Undisturbed readings →
      ∃ pod ∈ pods, (scheduleFloat64 config pods req env t).1 = .ok pod) := by
  intro readings
  let := float64Arithmetic
  let call := (defaultFilter config).lastCall req pods env t
  have last : call.filter = leastKVCacheFilterFunc := lastCall_critical config env t critical nonempty
  obtain ⟨read, logged, kept_iff⟩ := leastFilterFunc_readings Metrics.kvCacheUsagePercent Float64.le env
    Float64.maxFloat64 (.finite 0) kvCacheBound req call.pods call.clock
  obtain ⟨before, running, tree⟩ := (defaultFilter config).log_eq_lastCall req pods env t
  have same : readings = read := by
    have logged' : call.log req env = read.map Reading.event := by
      rw [Call.log, last]
      exact logged
    have found := lastReadings_schedule config pods req env t
    rw [tree, logged', lastReadings_append] at found
    exact found
  have placed_iff : (∃ pod ∈ pods, (schedule config pods req env t).1 = .ok pod) ↔
      succeeded (leastKVCacheFilterFunc req call.pods env call.clock).1 = true := by
    rw [schedule_ok_iff, Filter.run_eq_lastCall, Call.run, last]
  rw [same]
  refine ⟨placed_iff.trans kept_iff, fun usages undisturbed => placed_iff.mpr ?_⟩
  exact leastKVCache_keeps_of_undisturbed keepsLeast_float64 (Filter.lastCall_pods_ne_nil _ _ _ _ _ nonempty) logged
    usages undisturbed

def refreshedAt (query : Nat) : Env Unit where
  getMetrics := fun k _ => { kvCacheUsagePercent := .finite (if k < query then 1 / 2 else 1 / 4) }
  float64 := fun _ => ⟨0, zero_mem_draws⟩
  intn := fun _ => 0

theorem isUsage_quarter : Float64.IsUsage (.finite (1 / 4)) :=
  ⟨Float64.isFinite_of_abs_le_one (by norm_num [abs_le]), by decide +kernel, by decide +kernel⟩

theorem critical_request_placed_after_refresh :
    ∃ pod ∈ [()], (scheduleFloat64 defaultConfig [()] ⟨"m", "m", true⟩ (refreshedAt 10) 0).1 = .ok pod := by
  have quarter : ∀ reading ∈ lastReadings ((scheduleFloat64 defaultConfig [()] ⟨"m", "m", true⟩).log
      (refreshedAt 10).answers 0), reading.metrics.kvCacheUsagePercent = .finite (1 / 4) := by decide +kernel
  refine (critical_request_placed_iff defaultConfig (refreshedAt 10) 0 ⟨"m", "m", true⟩ [()] rfl (by simp)).2 ?_ ?_
  · intro reading member
    rw [quarter reading member]
    exact isUsage_quarter
  · intro reading member later member' _
    rw [quarter reading member, quarter later member']

theorem critical_request_lost_to_refresh :
    ¬∃ pod ∈ [()], (scheduleFloat64 defaultConfig [()] ⟨"m", "m", true⟩ (refreshedAt 14) 0).1 = .ok pod := by
  have lost : (scheduleFloat64 defaultConfig [()] ⟨"m", "m", true⟩ (refreshedAt 14) 0).1.isOk = false := by
    decide +kernel
  rintro ⟨pod, -, placed⟩
  rw [placed] at lost
  cases lost

end InferenceGateway
