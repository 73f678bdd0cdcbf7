import Mathlib.Data.Finmap
import Mathlib.Data.NNRat.Defs
import Mathlib.Data.PNat.Defs
import InferenceGateway.ContinuousBatching
import InferenceGateway.Lib.RunningBest
import InferenceGateway.Numbers

/-!
# The pod selectors of `tools/simulations/llm_ig_simulation/src/loadbalancer.py`

Actors are objects: `ι` is the type of references to them, and the state of an actor is looked up. The
percentages that the selectors compare are quotients of floating-point numbers and are rounded; the
latency estimates are exact rationals. What `random` and `numpy.random` return is a parameter.
-/

namespace InferenceGateway.Simulator
open Lib Lib.RunningBest

inductive PyError
  | indexError
  | valueError
  | zeroDivisionError
  | attributeError
  | unboundLocalError
deriving DecidableEq, Repr

def getItem {A : Type} (list : List A) (i : Nat) : Except PyError A :=
  match list[i]? with
  | none => .error .indexError
  | some item => .ok item

/-! ## Requests and actors -/

inductive Latency
  | finite (seconds : ℚ≥0)
  | inf
deriving DecidableEq

structure Request extends toBatched : ContinuousBatching.Request String where
  arrivalTime : ℚ
  targetLatency : Latency := .inf
  nonempty : 0 < inputSize

/-- A request that has been prefilled. -/
structure Running extends Request where
  endPrefillTime : ℚ
  endDecodeTime : ℚ
  tokensInKvCacheAtStartOfDecode : Option Int := none
  remaining : 0 ≤ outputSizeRemaining
  started : outputSizeRemaining < outputSize

structure LLMActor where
  prefillStore : List Request := []
  decodeStore : List Running := []
  decodedStore : List Running := []
  recomputeStore : List Request := []
  loraLoaded : Finset String := ∅
  maxNumTokensAllowed : Int := ContinuousBatching.maxNumTokensAllowed
  allowed : 0 < maxNumTokensAllowed

namespace LLMActor

def getNumTokensInDecode (llmactor : LLMActor) : Int := (llmactor.decodeStore.map fun item => item.len).sum

def getMinExpectedNumTokensInKvcacheAfterPrefill (llmactor : LLMActor) : Int :=
  match llmactor.recomputeStore, llmactor.prefillStore with
  | item :: _, _ => llmactor.getNumTokensInDecode + item.len
  | [], item :: _ => llmactor.getNumTokensInDecode + item.len
  | [], [] => llmactor.getNumTokensInDecode

-- `/ (llmactor.max_num_tokens_allowed + 0.0)`
def expectedKvcacheUsageAfterPrefill (llmactor : LLMActor) : ℚ :=
  nearestFloat64 (llmactor.getMinExpectedNumTokensInKvcacheAfterPrefill / llmactor.maxNumTokensAllowed)

end LLMActor

def getPendingTokensPerc (llmactor : LLMActor) : ℚ :=
  let pendingTokens := (llmactor.decodeStore.map fun item => item.outputSize + item.inputSize).sum +
    (llmactor.prefillStore.map fun item => item.outputSize + item.inputSize).sum
  nearestFloat64 (pendingTokens / llmactor.maxNumTokensAllowed)

structure LoadBalancer (ι : Type) where
  listOfLlmactors : List ι
  actor : ι → LLMActor
  queues : Finmap (fun _ : Latency => List Request) := ∅
  now : ℚ := 0
  queueingPerc : WithTop ℚ := ⊤
  maxPrefillQueueSize : Nat := 5

/-! ## Latency estimates -/

/-- `numpy.percentile`, which interpolates between the two nearest ranks. -/
def percentile (values : List ℚ) (p : ℚ) : ℚ :=
  let sorted := values.mergeSort
  let rank := (values.length - 1) * p / 100
  let below := sorted.getD ⌊rank⌋.toNat 0
  let above := sorted.getD (⌊rank⌋.toNat + 1) below
  below + (rank - ⌊rank⌋) * (above - below)

def mean (values : List ℚ) : ℚ := values.sum / values.length

section Estimates
variable {ι : Type} (lb : LoadBalancer ι)

def estimateAvgLatency (llmactor : LLMActor) (inputSize outputSize : ℚ) (includeRunningRequests : Bool)
    (p ttl : ℚ) : ℚ × ℚ × ℚ :=
  let items := if includeRunningRequests then llmactor.decodeStore else llmactor.decodedStore
  let recent := items.filter fun item => ¬lb.now - item.arrivalTime > ttl
  let prefillLatencies := recent.map fun item =>
    (item.endPrefillTime - item.arrivalTime) / item.inputSize * inputSize
  let decodeLatencies := recent.map fun item =>
    let tokens := item.tokensInKvCacheAtStartOfDecode.getD 0
    if tokens > 0 then
      (item.endDecodeTime - item.endPrefillTime) / tokens / (item.outputSize - item.outputSizeRemaining) *
        llmactor.getNumTokensInDecode * outputSize
    else 0
  let summary (values : List ℚ) : ℚ :=
    if values.length = 0 then 0 else if includeRunningRequests then percentile values p else mean values
  let queueTime := summary prefillLatencies * llmactor.prefillStore.length
  (summary prefillLatencies + summary decodeLatencies + queueTime, summary prefillLatencies, summary decodeLatencies)

end Estimates

/-! ## Selectors -/

structure Draws where
  -- of the standard normal distribution, for each pod
  normal : Nat → ℚ
  choice : Nat

def outputSizeForEstimation (outputSize outputError : ℚ) (maxTokens : ℕ+) (normal : ℚ) : ℚ :=
  min (max 1 (Rounding.halfEven |outputSize + outputSize * outputError * normal|)) (maxTokens : ℕ)

-- `estimate < buffer * target_latency`
def belowTarget (estimate buffer : ℚ) : Latency → Bool
  | .finite seconds => estimate < buffer * seconds
  -- zero times infinity is not a number
  | .inf => 0 < buffer

def randomChoice {A : Type} (draw : Nat) (candidates : List A) : Option A := candidates[draw % candidates.length]?

-- in Python, the float 0.9
def maxGPUMemoryPercBeforeRecompute : ℚ := nearestFloat64 ContinuousBatching.maxGPUMemoryPercBeforeRecompute

def maxGPUMemoryPercBeforeRecomputeNonCritical : ℚ := nearestFloat64 (8 / 10)

namespace LoadBalancer
variable {ι : Type} (lb : LoadBalancer ι)

/-- The end of every selector: a random one of the positions, and the actor at that position. -/
def randomPod (draw : Nat) (candidates : List Nat) : Except PyError (Option ι) :=
  match randomChoice draw candidates with
  | none => .ok none
  | some randomPodIndex => do return some (← getItem lb.listOfLlmactors randomPodIndex)

def pendingTokensPerc (entry : ι × Nat) : ℚ := getPendingTokensPerc (lb.actor entry.1)

def kvcacheUsage (entry : ι × Nat) : ℚ := (lb.actor entry.1).expectedKvcacheUsageAfterPrefill

def latencyPerOutputToken (inputSize outputSize outputError : ℚ) (maxTokens : ℕ+) (includeRunningRequests : Bool)
    (draws : Draws) (entry : ι × Nat) : ℚ :=
  let size := outputSizeForEstimation outputSize outputError maxTokens (draws.normal entry.2)
  (estimateAvgLatency lb (lb.actor entry.1) inputSize size includeRunningRequests 95 300).1 / size

def findTargetPodBasedOnMinLatency (pods : List ι) (inputSize outputSize outputError : ℚ) (maxTokens : ℕ+)
    (draws : Draws) : Except PyError (Option ι × ℚ) := do
  let latency := lb.latencyPerOutputToken inputSize outputSize outputError maxTokens false draws
  let found := scanLeast (fun entry => (latency entry : WithTop ℚ)) (fun _ => true) ⊤ pods
  let pod ← lb.randomPod draws.choice found.positions
  -- the estimate of the last pod, if there is one
  match pods.zipIdx.getLast? with
  | none => throw .unboundLocalError
  | some entry => return (pod, latency entry)

def findTargetPodBasedOnMaxPending (pods : List ι) (inputSize outputSize : ℚ) (targetLatency : Latency)
    (outputError : ℚ) (maxTokens : ℕ+) (buffer : ℚ) (draws : Draws) : Except PyError (Option ι × ℚ) :=
  let latency := lb.latencyPerOutputToken inputSize outputSize outputError maxTokens true draws
  let matching (entry : ι × Nat) : Bool :=
    belowTarget (latency entry) buffer targetLatency && lb.kvcacheUsage entry < maxGPUMemoryPercBeforeRecompute &&
      (lb.actor entry.1).prefillStore.length < lb.maxPrefillQueueSize
  let found := scan lb.pendingTokensPerc (fun entry best => lb.pendingTokensPerc entry > best && matching entry)
    (fun entry best => lb.pendingTokensPerc entry = best && matching entry) 0 pods
  match randomChoice draws.choice found.positions with
  | none => .ok (none, 0)
  | some randomPodIndex => do
    let pod ← getItem lb.listOfLlmactors randomPodIndex
    return (some pod, ← getItem (pods.zipIdx.map latency) randomPodIndex)

def findTargetPodBasedOnMinPending (pods : List ι) (evictionSafe : Bool) (maxKvPerc : ℚ) (draw : Nat) :
    Except PyError (Option ι) :=
  let pending (entry : ι × Nat) : WithTop ℚ := lb.pendingTokensPerc entry
  let found :=
    -- an actor with the same percentage joins whether it is safe or not
    if evictionSafe then scanLeast pending (fun entry => lb.kvcacheUsage entry < maxKvPerc) ⊤ pods
    else scanLeast pending (fun _ => true) ⊤ pods
  lb.randomPod draw found.positions

def findTargetPodBasedOnMinKvCache (pods : List ι) (draw : Nat) : Except PyError (Option ι) :=
  lb.randomPod draw (scanLeast (fun entry => (lb.kvcacheUsage entry : WithTop ℚ)) (fun _ => true) ⊤ pods).positions

def getLoraAffinity (loraRequested : Option String) : Except PyError (List ι) :=
  match loraRequested with
  | none | some "" => .ok lb.listOfLlmactors
  | some lora =>
    match lb.listOfLlmactors.filter fun pod => lora ∈ (lb.actor pod).loraLoaded with
    | pod :: pods => .ok (pod :: pods)
    | [] =>
      match (lb.listOfLlmactors.map fun pod => (lb.actor pod).loraLoaded.card).min? with
      | none => .error .valueError
      | some minLoraCount => .ok (lb.listOfLlmactors.filter fun pod => (lb.actor pod).loraLoaded.card = minLoraCount)

end LoadBalancer

end InferenceGateway.Simulator
