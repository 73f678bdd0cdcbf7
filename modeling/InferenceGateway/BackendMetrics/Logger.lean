import InferenceGateway.BackendMetrics.Client
import InferenceGateway.Datastore.Store
import InferenceGateway.Numbers

/-!
# `pkg/epp/backend/metrics/logger.go`

The gauges of the inference pools, from `pkg/epp/metrics/metrics.go`, and how they are flushed. A
length is never out of the range of an int.
-/

namespace InferenceGateway.BackendMetrics

/-- A `GaugeVec` whose only label is the name of the pool. -/
abbrev PoolGauge := Finmap fun _ : String => Float64

/-- The value of `WithLabelValues(name)`, which is created at zero. -/
def gaugeValue (gauge : PoolGauge) (name : String) : Float64 := (gauge.lookup name).getD (.finite 0)

structure PoolGauges where
  avgKVCache : PoolGauge := ∅
  avgQueueSize : PoolGauge := ∅
  readyPods : PoolGauge := ∅

def recordInferencePoolAvgKVCache (name : String) (utilization : Float64) (gauges : PoolGauges) : PoolGauges :=
  { gauges with avgKVCache := gauges.avgKVCache.insert name utilization }

def recordInferencePoolAvgQueueSize (name : String) (queueSize : Float64) (gauges : PoolGauges) : PoolGauges :=
  { gauges with avgQueueSize := gauges.avgQueueSize.insert name queueSize }

def recordInferencePoolReadyPods (name : String) (runningPods : Float64) (gauges : PoolGauges) : PoolGauges :=
  { gauges with readyPods := gauges.readyPods.insert name runningPods }

structure Monitor where
  store : Datastore := {}
  getMetrics : Nat → Metrics := fun _ => {}  -- by the number of the object
  gauges : PoolGauges := {}

def kvCacheTotal (getMetrics : Nat → Metrics) (podMetrics : List PodMetrics) : Float64 :=
  podMetrics.foldl (fun total pod => total.plus (getMetrics pod.ref).kvCacheUsagePercent) (.finite 0)

def queueTotal (getMetrics : Nat → Metrics) (podMetrics : List PodMetrics) : Int64 :=
  podMetrics.foldl (fun total pod => total + (getMetrics pod.ref).waitingQueueSize) 0

def flushPrometheusMetricsOnce (order : List NamespacedName) (s : Monitor) : Monitor :=
  match s.store.poolGet with
  | .error _ => s
  | .ok pool =>
    let podMetrics := s.store.podGetAll order
    if podMetrics.length = 0 then s
    else
      let podTotalCount : Int := podMetrics.length
      let gauges := recordInferencePoolAvgKVCache pool.name
        ((kvCacheTotal s.getMetrics podMetrics).quotient (.ofInt podTotalCount)) s.gauges
      -- an integer division
      let gauges := recordInferencePoolAvgQueueSize pool.name
        (.ofInt ((queueTotal s.getMetrics podMetrics).toInt.tdiv podTotalCount)) gauges
      { s with gauges := recordInferencePoolReadyPods pool.name (.ofInt podTotalCount) gauges }

end InferenceGateway.BackendMetrics
