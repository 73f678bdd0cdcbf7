import Mathlib.Order.WithBot
import InferenceGateway.Proof.BackendMetrics.Series

/-!
What a scrape makes of the metrics of a pod: which fields it updates, and from what.
-/

namespace InferenceGateway

/-! ## The order of gauges -/

namespace Float64

/-- The order that `<` is on the values that are not NaN. -/
def rank : Float64 → WithBot (WithTop ℚ)
  | .finite q => ((q : WithTop ℚ) : WithBot (WithTop ℚ))
  | .posInf => ((⊤ : WithTop ℚ) : WithBot (WithTop ℚ))
  | .negInf | .nan => ⊥

def Positive (v : Float64) : Prop := lt (.finite 0) v = true

theorem lt_iff_rank_lt {v : Float64} (above : rank (.finite 0) ≤ rank v) (w : Float64) :
    lt v w = true ↔ rank v < rank w := by
  cases v with
  | finite p =>
      cases w with
      | finite q => simpa [lt, le, rank] using le_of_lt
      | posInf => exact iff_of_true rfl (WithBot.coe_lt_coe.mpr (WithTop.coe_lt_top p))
      | negInf => simp [lt, le, rank]
      | nan => simp [lt, le, rank]
  | posInf => cases w <;> simp [lt, le, rank]
  | negInf => simp [rank] at above
  | nan => simp [rank] at above

end Float64

namespace BackendMetrics
open Lib

/-! ## The LoRA series -/

def HasAdapters (m : Series) : Prop :=
  labelValue loraInfoRunningAdaptersMetricName m.label ≠ "" ∨
    labelValue loraInfoWaitingAdaptersMetricName m.label ≠ ""

theorem hasAdapters_iff {m : Series} : hasAdapters m = true ↔ HasAdapters m := by
  simp [hasAdapters, HasAdapters]

theorem latestLora_eq_some_iff {mf : List Series} {m : Series} :
    latestLora mf = some m ↔
      Latest.IsLatest HasAdapters (fun m => m.gaugeValue.rank) mf m ∧ m.gaugeValue.Positive := by
  have scanned : latestLora mf = some m ↔
      Latest.IsLatest (hasAdapters · = true) (Float64.rank ∘ Series.gaugeValue) mf m ∧
        (Float64.finite 0).rank < m.gaugeValue.rank :=
    Latest.latest_eq_some_iff fun ts latest above => Float64.lt_iff_rank_lt above ts
  rw [← Float64.lt_iff_rank_lt le_rfl] at scanned
  simp only [hasAdapters_iff] at scanned
  exact scanned

/-! ## The labels of the series -/

def isAdapterLabel (label : LabelPair) : Bool :=
  label.value ≠ "" ∧ (label.name = loraInfoRunningAdaptersMetricName ∨ label.name = loraInfoWaitingAdaptersMetricName)

def isMaxLabel (label : LabelPair) : Bool := label.value ≠ "" ∧ label.name = loraInfoMaxAdaptersMetricName

def adapterModels (labels : List LabelPair) (activeModels : Finmap fun _ : String => Int64) :
    Finmap fun _ : String => Int64 :=
  (labels.filter isAdapterLabel).foldl (fun models label => addAdapters models label.value) activeModels

def maxValues (labels : List LabelPair) : List String := (labels.filter isMaxLabel).map LabelPair.value

def unparsed (values : List String) : List ScrapeErr :=
  (values.filter fun value => !(atoi value).2).map .notAnInteger

theorem unparsed_append (first second : List String) :
    unparsed (first ++ second) = unparsed first ++ unparsed second := by
  simp [unparsed]

theorem readLoraLabel_of_adapter {label : LabelPair} (adapter : isAdapterLabel label = true) (updated : Metrics)
    (errs : List ScrapeErr) :
    readLoraLabel (updated, errs) label =
      ({ updated with activeModels := addAdapters updated.activeModels label.value }, errs) ∧
      isMaxLabel label = false := by
  obtain ⟨nonempty, name⟩ := of_decide_eq_true adapter
  rw [readLoraLabel, if_neg nonempty, if_pos name]
  refine ⟨rfl, decide_eq_false ?_⟩
  rintro ⟨_, same⟩
  rw [same] at name
  exact absurd name (by decide)

theorem readLoraLabel_of_max {label : LabelPair} (isMax : isMaxLabel label = true) (updated : Metrics)
    (errs : List ScrapeErr) :
    readLoraLabel (updated, errs) label =
      ({ updated with maxActiveModels := (atoi label.value).1 }, errs ++ unparsed [label.value]) ∧
      isAdapterLabel label = false := by
  obtain ⟨nonempty, name⟩ := of_decide_eq_true isMax
  have other : ¬ (label.name = loraInfoRunningAdaptersMetricName ∨ label.name = loraInfoWaitingAdaptersMetricName) := by
    rw [name]
    decide
  rw [readLoraLabel, if_neg nonempty, if_neg other, if_pos name]
  refine ⟨?_, decide_eq_false fun adapter => other adapter.2⟩
  cases parsed : (atoi label.value).2 <;> simp [unparsed, parsed]

theorem readLoraLabel_of_other {label : LabelPair} (noAdapter : isAdapterLabel label = false)
    (noMax : isMaxLabel label = false) (acc : Update) : readLoraLabel acc label = acc := by
  have adapter := of_decide_eq_false noAdapter
  have isMax := of_decide_eq_false noMax
  by_cases empty : label.value = ""
  · rw [readLoraLabel, if_pos empty]
  · rw [readLoraLabel, if_neg empty, if_neg fun name => adapter ⟨empty, name⟩, if_neg fun name => isMax ⟨empty, name⟩]

theorem foldl_readLoraLabel (labels : List LabelPair) (updated : Metrics) (errs : List ScrapeErr) :
    labels.foldl readLoraLabel (updated, errs) = ({ updated with
      activeModels := adapterModels labels updated.activeModels
      maxActiveModels := ((maxValues labels).getLast?.map fun value => (atoi value).1).getD updated.maxActiveModels },
      errs ++ unparsed (maxValues labels)) := by
  induction labels generalizing updated errs with
  | nil => simp [adapterModels, maxValues, unparsed]
  | cons label labels ih =>
      rw [List.foldl_cons]
      cases adapter : isAdapterLabel label with
      | true =>
          obtain ⟨read, noMax⟩ := readLoraLabel_of_adapter adapter updated errs
          rw [read, ih]
          simp [adapterModels, maxValues, adapter, noMax]
      | false =>
          cases isMax : isMaxLabel label with
          | true =>
              have models : adapterModels (label :: labels) updated.activeModels =
                  adapterModels labels updated.activeModels := by simp [adapterModels, adapter]
              have values : maxValues (label :: labels) = [label.value] ++ maxValues labels := by
                simp [maxValues, isMax]
              rw [(readLoraLabel_of_max isMax updated errs).1, ih, models, values, unparsed_append, List.append_assoc,
                List.getLast?_append]
              cases (maxValues labels).getLast? <;> rfl
          | false =>
              rw [readLoraLabel_of_other adapter isMax, ih]
              simp [adapterModels, maxValues, adapter, isMax]

/-! ## Partial updates -/

def scrapedGauge (families : MetricFamilies) (spec : Option MetricSpec) : Option Float64 :=
  spec.bind fun spec => (getMetric families spec).toOption.map Series.gaugeValue

def Missing (families : MetricFamilies) (spec : Option MetricSpec) : Prop :=
  ∃ configured ∈ spec, ∀ m, getMetric families configured ≠ .ok m

def loraSeries (mapping : MetricMapping) (families : MetricFamilies) : Option Series :=
  mapping.loraRequestInfo.bind fun spec => (families.lookup spec.metricName).bind latestLora

/-- The last label that states the maximum, if it is an integer. -/
def scrapedMax (m : Series) : Option Int64 :=
  (maxValues m.label).getLast?.bind fun value => if (atoi value).2 then some (atoi value).1 else none

def LoraFailed (mapping : MetricMapping) (families : MetricFamilies) : Prop :=
  (∃ spec ∈ mapping.loraRequestInfo, families.lookup spec.metricName = none) ∨
    ∃ m ∈ loraSeries mapping families, ∃ label ∈ m.label,
      label.name = loraInfoMaxAdaptersMetricName ∧ label.value ≠ "" ∧ (atoi label.value).2 = false

/-- Every field has its scraped value, or else the existing one, and an error tells what is missing or
cannot be parsed. -/
structure PartialUpdate (outOfRange : Float64 → Int64) (mapping : MetricMapping) (families : MetricFamilies)
    (existing updated : Metrics) (errs : List ScrapeErr) : Prop where
  waitingQueueSize : updated.waitingQueueSize =
    ((scrapedGauge families mapping.totalQueuedRequests).map (toInt outOfRange)).getD existing.waitingQueueSize
  kvCacheUsagePercent : updated.kvCacheUsagePercent =
    (scrapedGauge families mapping.kvCacheUtilization).getD existing.kvCacheUsagePercent
  activeModels : updated.activeModels =
    ((loraSeries mapping families).map fun m => adapterModels m.label ∅).getD existing.activeModels
  maxActiveModels : updated.maxActiveModels =
    ((loraSeries mapping families).bind scrapedMax).getD existing.maxActiveModels
  runningQueueSize : updated.runningQueueSize = existing.runningQueueSize
  kvCacheMaxTokenCapacity : updated.kvCacheMaxTokenCapacity = existing.kvCacheMaxTokenCapacity
  updateTime : updated.updateTime = existing.updateTime
  errors : errs ≠ [] ↔ Missing families mapping.totalQueuedRequests ∨ Missing families mapping.kvCacheUtilization ∨
    LoraFailed mapping families

section Updates
variable {outOfRange : Float64 → Int64} {mapping : MetricMapping} {families : MetricFamilies}

def gaugeErrs (families : MetricFamilies) (spec : Option MetricSpec) : List ScrapeErr :=
  match spec with
  | none => []
  | some spec =>
    match getMetric families spec with
    | .ok _ => []
    | .error err => [err]

theorem gaugeErrs_ne_nil_iff {spec : Option MetricSpec} : gaugeErrs families spec ≠ [] ↔ Missing families spec := by
  cases spec with
  | none => simp [gaugeErrs, Missing]
  | some spec => cases got : getMetric families spec <;> simp [gaugeErrs, Missing, got]

theorem readGauge_eq (spec : Option MetricSpec) (set : Float64 → Metrics → Metrics) (acc : Update) :
    readGauge families spec set acc =
      ((scrapedGauge families spec).elim acc.1 (set · acc.1), acc.2 ++ gaugeErrs families spec) := by
  unfold readGauge scrapedGauge gaugeErrs
  cases spec with
  | none => simp
  | some spec => cases got : getMetric families spec <;> simp [got, Except.toOption]

def assignedMax (m : Series) : Option Int64 := (maxValues m.label).getLast?.map fun value => (atoi value).1

def loraErrs (mapping : MetricMapping) (families : MetricFamilies) : List ScrapeErr :=
  match getLatestLoraMetric mapping families with
  | .error err => [err]
  | .ok none => []
  | .ok (some m) => unparsed (maxValues m.label)

theorem unparsed_maxValues_ne_nil_iff {labels : List LabelPair} :
    unparsed (maxValues labels) ≠ [] ↔ ∃ label ∈ labels,
      label.name = loraInfoMaxAdaptersMetricName ∧ label.value ≠ "" ∧ (atoi label.value).2 = false := by
  simp only [unparsed, maxValues, ne_eq, List.map_eq_nil_iff, List.filter_eq_nil_iff, not_forall, List.mem_map,
    List.mem_filter]
  constructor
  · rintro ⟨_, ⟨label, ⟨member, isMax⟩, rfl⟩, failed⟩
    obtain ⟨nonempty, name⟩ := of_decide_eq_true isMax
    exact ⟨label, member, name, nonempty, by simpa using failed⟩
  · rintro ⟨label, member, name, nonempty, failed⟩
    exact ⟨label.value, ⟨label, ⟨member, decide_eq_true ⟨nonempty, name⟩⟩, rfl⟩, by simp [failed]⟩

/-- The family is absent, or it is searched for the latest series. -/
theorem getLatestLoraMetric_cases (mapping : MetricMapping) (families : MetricFamilies) :
    ((∃ spec ∈ mapping.loraRequestInfo, families.lookup spec.metricName = none) ∧
      loraSeries mapping families = none ∧ ∃ err, getLatestLoraMetric mapping families = .error err) ∨
    ((¬∃ spec ∈ mapping.loraRequestInfo, families.lookup spec.metricName = none) ∧
      getLatestLoraMetric mapping families = .ok (loraSeries mapping families)) := by
  unfold getLatestLoraMetric loraSeries
  cases mapping.loraRequestInfo with
  | none => simp
  | some spec => cases found : families.lookup spec.metricName <;> simp [found]

theorem loraErrs_ne_nil_iff : loraErrs mapping families ≠ [] ↔ LoraFailed mapping families := by
  unfold loraErrs LoraFailed
  rcases getLatestLoraMetric_cases mapping families with ⟨absent, _, err, failed⟩ | ⟨found, searched⟩
  · rw [failed]
    exact iff_of_true (List.cons_ne_nil _ _) (.inl absent)
  · rw [searched, or_iff_right found]
    cases loraSeries mapping families with
    | none => simp
    | some m => simp [unparsed_maxValues_ne_nil_iff]

theorem readLora_eq (acc : Update) :
    readLora mapping families acc = ({ acc.1 with
      activeModels := ((loraSeries mapping families).map fun m => adapterModels m.label ∅).getD acc.1.activeModels
      maxActiveModels := ((loraSeries mapping families).bind assignedMax).getD acc.1.maxActiveModels },
      acc.2 ++ loraErrs mapping families) := by
  unfold readLora loraErrs
  rcases getLatestLoraMetric_cases mapping families with ⟨_, nothing, err, failed⟩ | ⟨_, searched⟩
  · simp [failed, nothing]
  · rw [searched]
    cases loraSeries mapping families with
    | none => simp
    | some m => simp [foldl_readLoraLabel, assignedMax]

theorem promToPodMetrics_eq (outOfRange : Float64 → Int64) (mapping : MetricMapping) (families : MetricFamilies)
    (existing : Metrics) :
    promToPodMetrics outOfRange mapping families existing = ({ existing with
      waitingQueueSize := ((scrapedGauge families mapping.totalQueuedRequests).map (toInt outOfRange)).getD
        existing.waitingQueueSize
      kvCacheUsagePercent := (scrapedGauge families mapping.kvCacheUtilization).getD existing.kvCacheUsagePercent
      activeModels := ((loraSeries mapping families).map fun m => adapterModels m.label ∅).getD existing.activeModels
      maxActiveModels := ((loraSeries mapping families).bind assignedMax).getD existing.maxActiveModels },
      gaugeErrs families mapping.totalQueuedRequests ++ gaugeErrs families mapping.kvCacheUtilization ++
        loraErrs mapping families) := by
  unfold promToPodMetrics
  simp only [readGauge_eq, readLora_eq, List.nil_append]
  cases scrapedGauge families mapping.totalQueuedRequests <;>
    cases scrapedGauge families mapping.kvCacheUtilization <;> simp

theorem assignedMax_getD_iff (m : Series) (existing : Int64) :
    (assignedMax m).getD existing = (scrapedMax m).getD existing ↔
      ∀ value ∈ (maxValues m.label).getLast?, (atoi value).2 = true ∨ (atoi value).1 = existing := by
  unfold assignedMax scrapedMax
  cases (maxValues m.label).getLast? with
  | none => simp
  | some value => cases parsed : (atoi value).2 <;> simp [parsed]

end Updates

theorem scrape_partial_update_iff (outOfRange : Float64 → Int64) (mapping : MetricMapping)
    (families : MetricFamilies) (existing : Metrics) :
    PartialUpdate outOfRange mapping families existing (promToPodMetrics outOfRange mapping families existing).1
        (promToPodMetrics outOfRange mapping families existing).2 ↔
      ∀ m ∈ loraSeries mapping families, ∀ value ∈ (maxValues m.label).getLast?,
        (atoi value).2 = true ∨ (atoi value).1 = existing.maxActiveModels := by
  rw [promToPodMetrics_eq]
  constructor
  · intro update m series
    have max := update.maxActiveModels
    rw [Option.mem_def.mp series] at max
    exact (assignedMax_getD_iff m _).mp max
  · intro parses
    refine ⟨rfl, rfl, rfl, ?_, rfl, rfl, rfl, ?_⟩
    · cases series : loraSeries mapping families with
      | none => rfl
      | some m => exact (assignedMax_getD_iff m _).mpr (parses m series)
    · rw [← gaugeErrs_ne_nil_iff, ← gaugeErrs_ne_nil_iff, ← loraErrs_ne_nil_iff]
      simp only [ne_eq, List.append_eq_nil_iff, not_and_or, or_assoc]

def loraMapping : MetricMapping := { loraRequestInfo := some ⟨"vllm:lora_requests_info", none⟩ }

def loraFamilies (labels : List LabelPair) : MetricFamilies :=
  (∅ : MetricFamilies).insert "vllm:lora_requests_info" [{ label := labels, gauge := some (.finite 1) }]

def unparsableMax : MetricFamilies := loraFamilies [⟨"running_lora_adapters", "a"⟩, ⟨"max_lora", "four"⟩]

theorem unparsable_max_assigned :
    (promToPodMetrics (fun _ => 0) loraMapping unparsableMax { maxActiveModels := 4 }).1.maxActiveModels = 0 ∧
    ¬ PartialUpdate (fun _ => 0) loraMapping unparsableMax { maxActiveModels := 4 }
      (promToPodMetrics (fun _ => 0) loraMapping unparsableMax { maxActiveModels := 4 }).1
      (promToPodMetrics (fun _ => 0) loraMapping unparsableMax { maxActiveModels := 4 }).2 := by
  have assigned : (promToPodMetrics (fun _ => 0) loraMapping unparsableMax
      { maxActiveModels := 4 }).1.maxActiveModels = 0 := by decide +kernel
  have kept : ((loraSeries loraMapping unparsableMax).bind scrapedMax).getD 4 = 4 := by decide +kernel
  refine ⟨assigned, fun update => ?_⟩
  have max := update.maxActiveModels
  rw [assigned, kept] at max
  exact absurd max (by decide)

/-! ## Whole runs of the refresh loop -/

section Loop
variable (outOfRange : Float64 → Int64) (mapping : MetricMapping)

def Refresh.families (refresh : Refresh) : Option MetricFamilies :=
  refresh.poolGet.toOption.bind fun _ => refresh.scraped

theorem refreshMetrics_eq (metrics : Metrics) (refresh : Refresh) :
    refreshMetrics outOfRange mapping metrics refresh = refresh.families.elim metrics fun families =>
      { (promToPodMetrics outOfRange mapping families metrics).1 with updateTime := refresh.now } := by
  unfold refreshMetrics Refresh.families
  cases refresh.poolGet with
  | error err => rfl
  | ok pool => cases refresh.scraped <;> rfl

/-- What the last round that wrote a field wrote to it. -/
def lastWritten {A : Type} (refreshes : List Refresh) (written : Refresh → Option A) : Option A :=
  (refreshes.filterMap written).getLast?

def lastScraped {A : Type} (refreshes : List Refresh) (scraped : MetricFamilies → Option A) : Option A :=
  lastWritten refreshes fun refresh => refresh.families.bind scraped

variable {outOfRange mapping} in
theorem field_refreshLoop {A : Type} (field : Metrics → A) {written : Refresh → Option A}
    (each : ∀ metrics refresh,
      field (refreshMetrics outOfRange mapping metrics refresh) = (written refresh).getD (field metrics))
    (refreshes : List Refresh) (metrics : Metrics) :
    field (refreshLoop outOfRange mapping refreshes metrics) = (lastWritten refreshes written).getD (field metrics) :=
  Latest.foldl_written each refreshes metrics

variable {outOfRange mapping} in
/-- The round's clock is the only thing it writes that it has not scraped. -/
theorem scraped_refreshLoop {A : Type} (field : Metrics → A) {scraped : MetricFamilies → Option A}
    (untimed : ∀ (metrics : Metrics) (now : Int), field { metrics with updateTime := now } = field metrics)
    (each : ∀ families metrics,
      field (promToPodMetrics outOfRange mapping families metrics).1 = (scraped families).getD (field metrics))
    (refreshes : List Refresh) (metrics : Metrics) :
    field (refreshLoop outOfRange mapping refreshes metrics) =
      (lastScraped refreshes scraped).getD (field metrics) := by
  apply field_refreshLoop field
  intro metrics refresh
  rw [refreshMetrics_eq]
  cases refresh.families with
  | none => rfl
  | some families => rw [Option.elim_some, untimed, each, Option.bind_some]

variable {outOfRange mapping} in
theorem unscraped_refreshLoop {A : Type} (field : Metrics → A)
    (untimed : ∀ (metrics : Metrics) (now : Int), field { metrics with updateTime := now } = field metrics)
    (each : ∀ families metrics, field (promToPodMetrics outOfRange mapping families metrics).1 = field metrics)
    (refreshes : List Refresh) (metrics : Metrics) :
    field (refreshLoop outOfRange mapping refreshes metrics) = field metrics := by
  have never : lastScraped refreshes (fun _ => (none : Option A)) = none := by simp [lastScraped, lastWritten]
  have kept := @scraped_refreshLoop _ _ A field (fun _ => none) untimed each refreshes metrics
  rw [never] at kept
  exact kept

/-- However many rounds fail, each field is what the last round that had the metric made of it. -/
theorem refreshed_metrics_latest (refreshes : List Refresh) (metrics : Metrics) :
    refreshLoop outOfRange mapping refreshes metrics = { metrics with
      waitingQueueSize := (lastScraped refreshes fun families =>
        (scrapedGauge families mapping.totalQueuedRequests).map (toInt outOfRange)).getD metrics.waitingQueueSize
      kvCacheUsagePercent := (lastScraped refreshes fun families =>
        scrapedGauge families mapping.kvCacheUtilization).getD metrics.kvCacheUsagePercent
      activeModels := (lastScraped refreshes fun families =>
        (loraSeries mapping families).map fun m => adapterModels m.label ∅).getD metrics.activeModels
      maxActiveModels := (lastScraped refreshes fun families =>
        (loraSeries mapping families).bind assignedMax).getD metrics.maxActiveModels
      updateTime := (lastWritten refreshes fun refresh =>
        refresh.families.map fun _ => refresh.now).getD metrics.updateTime } := by
  apply Metrics.ext
  case waitingQueueSize =>
    exact scraped_refreshLoop (·.waitingQueueSize) (fun _ _ => rfl) (fun _ _ => by rw [promToPodMetrics_eq]) _ _
  case kvCacheUsagePercent =>
    exact scraped_refreshLoop (·.kvCacheUsagePercent) (fun _ _ => rfl) (fun _ _ => by rw [promToPodMetrics_eq]) _ _
  case activeModels =>
    exact scraped_refreshLoop (·.activeModels) (fun _ _ => rfl) (fun _ _ => by rw [promToPodMetrics_eq]) _ _
  case maxActiveModels =>
    exact scraped_refreshLoop (·.maxActiveModels) (fun _ _ => rfl) (fun _ _ => by rw [promToPodMetrics_eq]) _ _
  case runningQueueSize =>
    exact unscraped_refreshLoop (·.runningQueueSize) (fun _ _ => rfl) (fun _ _ => by rw [promToPodMetrics_eq]) _ _
  case kvCacheMaxTokenCapacity =>
    exact unscraped_refreshLoop (·.kvCacheMaxTokenCapacity) (fun _ _ => rfl)
      (fun _ _ => by rw [promToPodMetrics_eq]) _ _
  case updateTime =>
    apply field_refreshLoop (·.updateTime)
    intro metrics refresh
    rw [refreshMetrics_eq]
    cases refresh.families <;> rfl

end Loop

end BackendMetrics

end InferenceGateway
