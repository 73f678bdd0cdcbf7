import InferenceGateway.BackendMetrics.Client

/-!
Which series of a metric family is read.
-/

namespace InferenceGateway.BackendMetrics
open Lib

def Matches (spec : MetricSpec) (m : Series) : Prop :=
  ∀ labels ∈ spec.labels, ∀ name value, labels.lookup name = some value → ⟨name, value⟩ ∈ m.label

structure Reordered (m m' : Series) : Prop where
  label : m.label.Perm m'.label
  gauge : m.gauge = m'.gauge
  timestampMs : m.timestampMs = m'.timestampMs

/-- A series is found if one matches, and it is the first of the latest ones. -/
structure FindsLatest (families : MetricFamilies) (spec : MetricSpec) (mf : List Series) : Prop where
  succeeds : (∃ m, getMetric families spec = .ok m) ↔ ∃ m ∈ mf, Matches spec m
  latest : ∀ m, getMetric families spec = .ok m →
    Latest.IsLatest (Matches spec) (fun m => m.timestamp.toInt) mf m

def SameResult : Except ScrapeErr Series → Except ScrapeErr Series → Prop
  | .ok m, .ok m' => Reordered m m'
  | .error err, .error err' => err = err'
  | _, _ => False

section Families
variable {families : MetricFamilies} {spec : MetricSpec} {mf : List Series}

theorem matchesSpec_iff {m : Series} : matchesSpec spec m = true ↔ Matches spec m := by
  unfold matchesSpec Matches
  cases spec.labels with
  | none => simp
  | some labels =>
      simp only [labelsMatch, decide_eq_true_eq, Option.mem_some_iff, forall_eq']
      constructor
      · intro each name value required
        obtain ⟨⟨_, _⟩, member, rfl, rfl⟩ := each ⟨name, value⟩ (Finmap.lookup_eq_some_iff.mp required)
        exact member
      · intro each required member
        exact ⟨_, each required.1 required.2 (Finmap.lookup_eq_some_iff.mpr member), rfl, rfl⟩

theorem newer_iff (ts latest : Int64) : decide (latest < ts) = true ↔ latest.toInt < ts.toInt := by
  rw [decide_eq_true_eq, Int64.lt_iff_toInt_lt]

theorem zero_le_iff (ts : Int64) : (-1 : Int64).toInt < ts.toInt ↔ 0 ≤ ts := by
  have start : (-1 : Int64).toInt = -1 := by decide
  have zero : (0 : Int64).toInt = 0 := by decide
  rw [Int64.le_iff_toInt_le, start, zero]
  omega

theorem latestMatching_eq_some_iff {m : Series} :
    latestMatching spec mf = some m ↔
      Latest.IsLatest (Matches spec) (fun m => m.timestamp.toInt) mf m ∧ 0 ≤ m.timestamp := by
  have scanned : latestMatching spec mf = some m ↔
      Latest.IsLatest (matchesSpec spec · = true) (Int64.toInt ∘ Series.timestamp) mf m ∧
        (-1 : Int64).toInt < m.timestamp.toInt :=
    Latest.latest_eq_some_iff fun ts latest _ => newer_iff ts latest
  simp only [matchesSpec_iff, zero_le_iff] at scanned
  exact scanned

theorem latestMatching_eq_none_iff :
    latestMatching spec mf = none ↔ ∀ m ∈ mf, Matches spec m → ¬ 0 ≤ m.timestamp := by
  have scanned : latestMatching spec mf = none ↔
      ∀ m ∈ mf, matchesSpec spec m = true → m.timestamp.toInt ≤ (-1 : Int64).toInt :=
    Latest.latest_eq_none_iff fun ts latest _ => newer_iff ts latest
  simp only [matchesSpec_iff, ← not_lt, zero_le_iff] at scanned
  exact scanned

theorem getMetric_eq_ok_iff (found : families.lookup spec.metricName = some mf) {m : Series} :
    getMetric families spec = .ok m ↔ latestMatching spec mf = some m := by
  simp only [getMetric, found]
  cases mf with
  | nil => exact iff_of_false nofun nofun
  | cons first rest =>
      rw [if_neg (by simp), getLatestMetric]
      cases latestMatching spec (first :: rest) <;> simp

theorem Reordered.matches_iff {m m' : Series} (reordered : Reordered m m') : Matches spec m ↔ Matches spec m' := by
  unfold Matches
  simp only [reordered.label.mem_iff]

theorem rel_latestMatching {mf' : List Series} (reordered : List.Forall₂ Reordered mf mf') :
    Option.Rel Reordered (latestMatching spec mf) (latestMatching spec mf') := by
  apply Latest.rel_latest
  · intro m m' pair
    refine ⟨?_, ?_⟩
    · rw [Bool.eq_iff_iff, matchesSpec_iff, matchesSpec_iff, pair.matches_iff]
    · rw [Series.timestamp, pair.timestampMs, Series.timestamp]
  · exact reordered

theorem sameResult_getMetric {families' : MetricFamilies} {mf' : List Series}
    (found : families.lookup spec.metricName = some mf) (found' : families'.lookup spec.metricName = some mf')
    (reordered : List.Forall₂ Reordered mf mf') : SameResult (getMetric families spec) (getMetric families' spec) := by
  have related := @rel_latestMatching spec mf mf' reordered
  simp only [getMetric, found, found', ← reordered.length_eq]
  split
  · exact rfl
  · unfold getLatestMetric
    generalize latestMatching spec mf = first at related
    generalize latestMatching spec mf' = second at related
    cases related with
    | none => exact rfl
    | some pair => exact pair

end Families

theorem latest_matching_found_iff (families : MetricFamilies) (spec : MetricSpec) (mf : List Series)
    (found : families.lookup spec.metricName = some mf) :
    (FindsLatest families spec mf ↔
      ((∃ m ∈ mf, Matches spec m) → ∃ m ∈ mf, Matches spec m ∧ 0 ≤ m.timestamp)) ∧
    ∀ (families' : MetricFamilies) (mf' : List Series), families'.lookup spec.metricName = some mf' →
      List.Forall₂ Reordered mf mf' → SameResult (getMetric families spec) (getMetric families' spec) := by
  refine ⟨?_, fun families' mf' found' reordered => sameResult_getMetric found found' reordered⟩
  constructor
  · intro finds some
    obtain ⟨m, ok⟩ := finds.succeeds.mpr some
    obtain ⟨isLatest, late⟩ := latestMatching_eq_some_iff.mp ((getMetric_eq_ok_iff found).mp ok)
    exact ⟨m, isLatest.mem, isLatest.eligible, late⟩
  · intro seen
    refine ⟨⟨?_, ?_⟩, ?_⟩
    · rintro ⟨m, ok⟩
      obtain ⟨isLatest, _⟩ := latestMatching_eq_some_iff.mp ((getMetric_eq_ok_iff found).mp ok)
      exact ⟨m, isLatest.mem, isLatest.eligible⟩
    · intro some
      obtain ⟨m, member, meets, late⟩ := seen some
      cases scanned : latestMatching spec mf with
      | none => exact absurd late (latestMatching_eq_none_iff.mp scanned m member meets)
      | some latest => exact ⟨latest, (getMetric_eq_ok_iff found).mpr scanned⟩
    · intro m ok
      exact (latestMatching_eq_some_iff.mp ((getMetric_eq_ok_iff found).mp ok)).1

def waitingSpec : MetricSpec := ⟨"vllm:num_requests_waiting", none⟩

theorem matches_waitingSpec (m : Series) : Matches waitingSpec m :=
  fun _ labels => absurd labels (Option.not_mem_none _)

def waitingFamilies (timestamps : List Int64) : MetricFamilies :=
  (∅ : MetricFamilies).insert waitingSpec.metricName
    (timestamps.map fun ts => { gauge := some (.finite 3), timestampMs := some ts })

theorem lookup_waitingFamilies (timestamps : List Int64) :
    (waitingFamilies timestamps).lookup waitingSpec.metricName =
      some (timestamps.map fun ts => { gauge := some (.finite 3), timestampMs := some ts }) :=
  Finmap.lookup_insert _

theorem waiting_series_found :
    FindsLatest (waitingFamilies [1, 2, 2]) waitingSpec
      ([1, 2, 2].map fun ts => { gauge := some (.finite 3), timestampMs := some ts }) := by
  apply (latest_matching_found_iff _ _ _ (lookup_waitingFamilies [1, 2, 2])).1.mpr
  intro _
  exact ⟨_, List.mem_cons_self, matches_waitingSpec _, by decide⟩

theorem early_series_not_found :
    getMetric (waitingFamilies [-1000]) waitingSpec = .error (.noMatching waitingSpec) ∧
    ¬ FindsLatest (waitingFamilies [-1000]) waitingSpec
      ([-1000].map fun ts => { gauge := some (.finite 3), timestampMs := some ts }) := by
  have missed : getMetric (waitingFamilies [-1000]) waitingSpec = .error (.noMatching waitingSpec) := by
    rw [getMetric, lookup_waitingFamilies]
    rfl
  refine ⟨missed, fun finds => ?_⟩
  obtain ⟨m, ok⟩ := finds.succeeds.mpr ⟨_, List.mem_cons_self, matches_waitingSpec _⟩
  rw [missed] at ok
  cases ok

end InferenceGateway.BackendMetrics
