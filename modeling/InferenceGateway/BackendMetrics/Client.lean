import InferenceGateway.BackendMetrics.Spec
import InferenceGateway.Lib.Latest
import InferenceGateway.Scheduling.Filter

/-!
# `pkg/epp/backend/metrics/metrics.go`

What is made of the metric families that have been scraped from a pod. The errors that `multierr`
collects are a list.
-/

namespace InferenceGateway.BackendMetrics
open Lib

def loraInfoRunningAdaptersMetricName : String := "running_lora_adapters"

def loraInfoWaitingAdaptersMetricName : String := "waiting_lora_adapters"

def loraInfoMaxAdaptersMetricName : String := "max_lora"

@[ext]
structure Metrics extends InferenceGateway.Metrics where
  runningQueueSize : Int64 := 0
  kvCacheMaxTokenCapacity : Int64 := 0
  updateTime : Int := 0

/-! ## Metric families -/

structure LabelPair where
  name : String
  value : String
deriving DecidableEq, Repr

/-- A `dto.Metric`. -/
structure Series where
  label : List LabelPair := []
  gauge : Option Float64 := none
  timestampMs : Option Int64 := none
deriving DecidableEq, Repr

def Series.gaugeValue (m : Series) : Float64 := m.gauge.getD (.finite 0)

def Series.timestamp (m : Series) : Int64 := m.timestampMs.getD 0

abbrev MetricFamilies := Finmap fun _ : String => List Series

inductive ScrapeErr
  | familyNotFound (metricName : String)
  | noMetrics (metricName : String)
  | noMatching (spec : MetricSpec)
  | notAnInteger (value : String)
deriving DecidableEq

def labelsMatch (metricLabels : List LabelPair) (specLabels : Labels) : Bool :=
  decide (∀ required ∈ specLabels.entries, ∃ label ∈ metricLabels,
    label.name = required.1 ∧ label.value = required.2)

def matchesSpec (spec : MetricSpec) (m : Series) : Bool :=
  match spec.labels with
  | none => true
  | some labels => labelsMatch m.label labels

/-- The loop over the series. It starts at -1. -/
def latestMatching (spec : MetricSpec) (mf : List Series) : Option Series :=
  Latest.latest (matchesSpec spec) Series.timestamp (fun ts latest => latest < ts) (-1) mf

def getLatestMetric (mf : List Series) (spec : MetricSpec) : Except ScrapeErr Series :=
  match latestMatching spec mf with
  | some m => .ok m
  | none => .error (.noMatching spec)

def getMetric (families : MetricFamilies) (spec : MetricSpec) : Except ScrapeErr Series :=
  match families.lookup spec.metricName with
  | none => .error (.familyNotFound spec.metricName)
  | some mf => if mf.length = 0 then .error (.noMetrics spec.metricName) else getLatestMetric mf spec

/-! ## LoRA adapters -/

def labelValue (name : String) (labels : List LabelPair) : String :=
  labels.foldl (fun value label => if label.name = name then label.value else value) ""

def hasAdapters (m : Series) : Bool :=
  !(labelValue loraInfoRunningAdaptersMetricName m.label = "" &&
    labelValue loraInfoWaitingAdaptersMetricName m.label = "")

/-- The loop over the series, in which the gauge is the time. It starts at 0. -/
def latestLora (loraRequests : List Series) : Option Series :=
  Latest.latest hasAdapters Series.gaugeValue (fun ts latest => latest.lt ts) (.finite 0) loraRequests

def getLatestLoraMetric (mapping : MetricMapping) (families : MetricFamilies) :
    Except ScrapeErr (Option Series) :=
  match mapping.loraRequestInfo with
  | none => .ok none
  | some spec =>
    match families.lookup spec.metricName with
    | none => .error (.familyNotFound spec.metricName)
    | some loraRequests => .ok (latestLora loraRequests)

def splitAdapters (value : String) : List String := (value.toList.splitOn ',').map String.ofList

def addAdapters (activeModels : Finmap fun _ : String => Int64) (value : String) :
    Finmap fun _ : String => Int64 :=
  (splitAdapters value).foldl (fun models adapter => models.insert adapter 0) activeModels

inductive Digits
  | value (n : Nat)
  | syntaxError
  | rangeError
deriving DecidableEq, Repr

/-- The digits of a `uint64`; the first one that is wrong or too much ends the scan. -/
def parseUint : Nat → List Char → Digits
  | n, [] => .value n
  | n, c :: rest =>
    if c.isDigit then
      let n := 10 * n + (c.toNat - '0'.toNat)
      if n < 2 ^ 64 then parseUint n rest else .rangeError
    else .syntaxError

def atLeastZero : Digits → Int64 × Bool
  | .value n => if n < 2 ^ 63 then (Int64.ofNat n, true) else (Int64.maxValue, false)
  | .rangeError => (Int64.maxValue, false)
  | .syntaxError => (0, false)

def atMostZero : Digits → Int64 × Bool
  | .value n => if n ≤ 2 ^ 63 then (Int64.ofInt (-n), true) else (Int64.minValue, false)
  | .rangeError => (Int64.minValue, false)
  | .syntaxError => (0, false)

/-- `strconv.Atoi`, and whether there is no error. With one, the number is 0 or the bound that was passed. -/
def atoi (s : String) : Int64 × Bool :=
  match s.toList with
  | [] | ['-'] | ['+'] => (0, false)
  | '-' :: digits => atMostZero (parseUint 0 digits)
  | '+' :: digits => atLeastZero (parseUint 0 digits)
  | digits => atLeastZero (parseUint 0 digits)

abbrev Update := Metrics × List ScrapeErr

def readLoraLabel (acc : Update) (label : LabelPair) : Update :=
  let (updated, errs) := acc
  if label.value = "" then (updated, errs)
  else if label.name = loraInfoRunningAdaptersMetricName ∨ label.name = loraInfoWaitingAdaptersMetricName then
    ({ updated with activeModels := addAdapters updated.activeModels label.value }, errs)
  else if label.name = loraInfoMaxAdaptersMetricName then
    -- assigned before the error is looked at
    ({ updated with maxActiveModels := (atoi label.value).1 },
      if (atoi label.value).2 then errs else errs ++ [.notAnInteger label.value])
  else (updated, errs)

/-! ## Updates -/

/-- `int(v)`, where `outOfRange` is what the platform makes of a value that is not an int. -/
def toInt (outOfRange : Float64 → Int64) (v : Float64) : Int64 :=
  match v with
  | .finite q =>
    let n := q.num.tdiv q.den
    if -2 ^ 63 ≤ n ∧ n < 2 ^ 63 then Int64.ofInt n else outOfRange v
  | _ => outOfRange v

def readGauge (families : MetricFamilies) (spec : Option MetricSpec) (set : Float64 → Metrics → Metrics)
    (acc : Update) : Update :=
  match spec with
  | none => acc
  | some spec =>
    match getMetric families spec with
    | .ok m => (set m.gaugeValue acc.1, acc.2)
    | .error err => (acc.1, acc.2 ++ [err])

def readLora (mapping : MetricMapping) (families : MetricFamilies) (acc : Update) : Update :=
  match getLatestLoraMetric mapping families with
  | .error err => (acc.1, acc.2 ++ [err])
  | .ok none => acc
  | .ok (some loraMetrics) => loraMetrics.label.foldl readLoraLabel ({ acc.1 with activeModels := ∅ }, acc.2)

def promToPodMetrics (outOfRange : Float64 → Int64) (mapping : MetricMapping) (families : MetricFamilies)
    (existing : Metrics) : Update :=
  let acc := readGauge families mapping.totalQueuedRequests
    (fun v updated => { updated with waitingQueueSize := toInt outOfRange v }) (existing, [])
  let acc := readGauge families mapping.kvCacheUtilization
    (fun v updated => { updated with kvCacheUsagePercent := v }) acc
  readLora mapping families acc

/-! ## The refresh loop of `pod_metrics.go` -/

/-- What one round of the loop meets: the answer of the datastore, the families unless the scrape fails
before there are any, and the time. -/
structure Refresh where
  poolGet : Except Err InferencePool
  scraped : Option MetricFamilies
  now : Int

/-- The errors of a partial update are only logged. -/
def refreshMetrics (outOfRange : Float64 → Int64) (mapping : MetricMapping) (metrics : Metrics) (refresh : Refresh) :
    Metrics :=
  match refresh.poolGet, refresh.scraped with
  | .ok _, some families =>
    { (promToPodMetrics outOfRange mapping families metrics).1 with updateTime := refresh.now }
  | _, _ => metrics

def refreshLoop (outOfRange : Float64 → Int64) (mapping : MetricMapping) (refreshes : List Refresh)
    (metrics : Metrics) : Metrics :=
  refreshes.foldl (refreshMetrics outOfRange mapping) metrics

end InferenceGateway.BackendMetrics
