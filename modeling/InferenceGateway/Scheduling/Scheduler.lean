import InferenceGateway.Scheduling.Filter

namespace InferenceGateway
variable {π : Type}

structure Config where
  kvCacheThreshold : Float64
  queueThresholdCritical : Int64
  queueingThresholdLoRA : Int64
  loraAffinityThreshold : Float64

def defaultConfig : Config where
  kvCacheThreshold := .finite (8 / 10)
  queueThresholdCritical := 5
  queueingThresholdLoRA := 128
  loraAffinityThreshold := .finite (999 / 1000)

section Trees
variable [Arithmetic] (config : Config)

def queueLoRAAndKVCacheFilter : Filter π where
  name := "least queuing"
  filter := leastQueuingFilterFunc
  nextOnSuccessOrFailure := some {
    name := "low cost LoRA"
    filter := loRASoftAffinityFilter config.loraAffinityThreshold
    nextOnSuccessOrFailure := some {
      name := "least KV cache percent"
      filter := leastKVCacheFilterFunc } }

def queueAndKVCacheFilter : Filter π where
  name := "least queuing"
  filter := leastQueuingFilterFunc
  nextOnSuccessOrFailure := some {
    name := "least KV cache percent"
    filter := leastKVCacheFilterFunc }

def lowLatencyFilter : Filter π where
  name := "low queueing filter"
  filter := toFilterFunc (lowQueueingPodPredicate config.queueingThresholdLoRA)
  nextOnSuccess := some {
    name := "affinity LoRA"
    filter := loRASoftAffinityFilter config.loraAffinityThreshold
    nextOnSuccessOrFailure := some queueAndKVCacheFilter }
  nextOnFailure := some (queueLoRAAndKVCacheFilter config)

def resourceExhausted : Err :=
  .coded ⟨.inferencePoolResourceExhausted, "dropping request due to limited backend resources"⟩

def dropRequest : FilterFunc π := fun _ _ => pure ([], some resourceExhausted)

def sheddableRequestFilter : Filter π where
  name := "has capacity for sheddable requests"
  filter := toFilterFunc (noQueueAndLessThanKVCacheThresholdPredicate
    config.queueThresholdCritical config.kvCacheThreshold)
  nextOnSuccess := some (queueLoRAAndKVCacheFilter config)
  nextOnFailure := some {
    name := "drop request"
    filter := dropRequest }

def defaultFilter : Filter π where
  name := "critical request"
  filter := toFilterFunc criticalRequestPredicate
  nextOnSuccess := some (lowLatencyFilter config)
  nextOnFailure := some (sheddableRequestFilter config)

end Trees

/-- `Scheduler.Schedule` with the production filter tree; `podMetrics` is what
`datastore.PodGetAll()` returned. -/
def schedule [Arithmetic] (config : Config) (podMetrics : List π) (req : LLMRequest) : Run π (Except Err π) := do
  let (pods, err) ← (defaultFilter config).run req podMetrics
  if failed : err.isSome ∨ pods.length = 0 then
    let count := pods.length
    return .error (.wrap s!"failed to apply filter, resulted {count} pods, this should never happen" err)
  else
    let i ← randIntn pods.length (by omega)
    return .ok (pods.get i)

end InferenceGateway
