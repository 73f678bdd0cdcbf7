import InferenceGateway.LoadBalancer.Selectors

/-!
# The gateway queue of `loadbalancer.py`

One queue for each target latency, and the process that takes requests out of the queues and routes
them. A call of `random.choices` returns any item of the population: the weights only say how likely.
They are exact rationals, since the inverse of a number of seconds does not come near an overflow.
-/

namespace InferenceGateway.Simulator
open Lib

inductive RoutingType
  | random
  | least
  | leastPseudo
  | leastlatency
  | smart
deriving DecidableEq, Repr

def Latency.seconds? : Latency → Option ℚ≥0
  | .finite seconds => some seconds
  | .inf => none

def quotient (a b : ℚ) : Except PyError ℚ := if b = 0 then .error .zeroDivisionError else .ok (a / b)

def randomChoices {A : Type} (population : List A) (weights : List ℚ) (draw : Nat) : Except PyError A :=
  match randomChoice draw population with
  -- the last of the cumulative weights of nothing
  | none => .error .indexError
  | some item => if weights.sum ≤ 0 then .error .valueError else .ok item

def Request.setLora (newReq : Request) (loraRequested : String) : Request :=
  if loraRequested = "" then newReq else { newReq with lora := some loraRequested }

namespace LoadBalancer
variable {ι : Type} (lb : LoadBalancer ι)

/-! ## Signals -/

def checkSaturations (usePseudoKvCache : Bool) (maxSaturation : WithTop ℚ) : Bool :=
  lb.listOfLlmactors.all fun pod =>
    if usePseudoKvCache then maxSaturation ≤ (getPendingTokensPerc (lb.actor pod) : WithTop ℚ)
    else maxSaturation ≤ ((lb.actor pod).expectedKvcacheUsageAfterPrefill : WithTop ℚ)

def allServersQueued : Except PyError Bool :=
  match (lb.listOfLlmactors.map fun pod => (lb.actor pod).prefillStore.length).min? with
  | none => .error .valueError
  | some shortest => .ok (shortest > lb.maxPrefillQueueSize)

def getOverallPendingTokensPerc : ℚ :=
  let total := (lb.listOfLlmactors.map fun pod =>
    getPendingTokensPerc (lb.actor pod) * (lb.actor pod).maxNumTokensAllowed).sum
  let totalMaxTokens : ℚ := (lb.listOfLlmactors.map fun pod => (lb.actor pod).maxNumTokensAllowed).sum
  if totalMaxTokens = 0 then 0 else total / totalMaxTokens

def queueingSignal (routingType : RoutingType) : Except PyError Bool :=
  let saturated := match routingType with
    | .smart => lb.checkSaturations false lb.queueingPerc
    | _ => lb.queueingPerc < (lb.getOverallPendingTokensPerc : WithTop ℚ)
  if saturated then .ok true else lb.allServersQueued

def dequeueingSignal (routingType : RoutingType) : Except PyError Bool :=
  let free := match routingType with
    | .smart => !lb.checkSaturations false lb.queueingPerc
    | _ => (lb.getOverallPendingTokensPerc : WithTop ℚ) < lb.queueingPerc
  if free then do return !(← lb.allServersQueued) else .ok false

/-! ## Classes of requests -/

/-- The finite target latencies of the requests that the actors hold. -/
def getActiveReqTargetLatencyInWindow (timeWindows : WithTop ℚ) : List ℚ≥0 :=
  (lb.listOfLlmactors.flatMap fun pod =>
    let llmactor := lb.actor pod
    (llmactor.prefillStore.filterMap fun req => req.targetLatency.seconds?) ++
    (llmactor.decodeStore.filterMap fun req => req.targetLatency.seconds?) ++
    (llmactor.recomputeStore.filterMap fun req => req.targetLatency.seconds?) ++
    ((llmactor.decodedStore.filter fun req => ((lb.now - req.arrivalTime : ℚ) : WithTop ℚ) < timeWindows).filterMap
      fun req => req.targetLatency.seconds?)).dedup

/-- Whether some class has more than `percentile` of its recent requests over its target. -/
def getViolationsTargetLatencyInWindow (timeWindows percentile : ℚ) : Bool :=
  let recent := (lb.listOfLlmactors.flatMap fun pod => (lb.actor pod).decodedStore).filter fun req =>
    ¬(req.targetLatency = .inf ∨ lb.now - req.arrivalTime > timeWindows)
  (recent.filterMap fun req => req.targetLatency.seconds?).dedup.any fun seconds : ℚ≥0 =>
    let ofClass := recent.filter fun req => req.targetLatency = .finite seconds
    let violations := ofClass.filter fun req => (req.endDecodeTime - req.arrivalTime) / req.outputSize > (seconds : ℚ)
    (violations.length : ℚ) / ofClass.length > percentile

/-! ## Routing -/

/-- The defaults of the selectors that only some callers would override. -/
def maxPending (pods : List ι) (inputSize outputSize : ℚ) (targetLatency : Latency) (draws : Draws) :
    Except PyError (Option ι × ℚ) :=
  lb.findTargetPodBasedOnMaxPending pods inputSize outputSize targetLatency 0 1024 (1 / 2) draws

def minPending (pods : List ι) (evictionSafe : Bool) (draws : Draws) : Except PyError (Option ι) :=
  lb.findTargetPodBasedOnMinPending pods evictionSafe maxGPUMemoryPercBeforeRecompute draws.choice

/-- The draws of the selectors, in the order in which they may be called. -/
def findTargetPod (routingType : RoutingType) (inputSize outputSize : ℚ) (targetLatency : Latency)
    (loraRequested : Option String) (draws : Nat → Draws) : Except PyError (Option ι × ℚ) := do
  if targetLatency = .inf then
    if lb.checkSaturations false maxGPUMemoryPercBeforeRecomputeNonCritical &&
        (lb.getActiveReqTargetLatencyInWindow (300 : ℚ)).length > 0 then
      return (none, 0)
    if lb.getViolationsTargetLatencyInWindow 300 (nearestFloat64 (4 / 100)) then return (none, 0)
  match routingType with
  | .random =>
    match randomChoice (draws 0).choice lb.listOfLlmactors with
    -- `random.randint(0, -1)`
    | none => throw .valueError
    | some pod => return (some pod, 0)
  | .least => return (← lb.findTargetPodBasedOnMinKvCache lb.listOfLlmactors (draws 0).choice, 0)
  | .leastPseudo => return (← lb.minPending lb.listOfLlmactors false (draws 0), 0)
  | .leastlatency => lb.findTargetPodBasedOnMinLatency lb.listOfLlmactors inputSize outputSize 0 1024 (draws 0)
  | .smart =>
    if loraRequested ≠ some "" then
      let loraPods ← lb.getLoraAffinity loraRequested
      let (targetPod, latencyEstimated) ← lb.maxPending loraPods inputSize outputSize targetLatency (draws 0)
      if targetPod.isSome then return (targetPod, latencyEstimated)
      let (targetPod, latencyEstimated) ← lb.maxPending lb.listOfLlmactors inputSize outputSize targetLatency (draws 1)
      if targetPod.isSome then return (targetPod, latencyEstimated)
      let targetPod ← lb.minPending loraPods true (draws 2)
      if targetPod.isSome then return (targetPod, latencyEstimated)
      return (← lb.minPending lb.listOfLlmactors false (draws 3), latencyEstimated)
    else
      let (targetPod, latencyEstimated) ← lb.maxPending lb.listOfLlmactors inputSize outputSize targetLatency (draws 0)
      if targetPod.isSome then return (targetPod, latencyEstimated)
      return (← lb.minPending lb.listOfLlmactors false (draws 1), latencyEstimated)

/-! ## The queues -/

def checkIfQueuesEmpty : Bool := lb.queues.all fun _ queue => queue.isEmpty

def shouldEnqueueRequest (routingType : RoutingType) : Except PyError Bool :=
  if lb.queueingPerc = ⊤ then .ok false
  else do return (← lb.queueingSignal routingType) || !lb.checkIfQueuesEmpty

def enqueueRequest (newReq : Request) (loraRequested : String) (targetLatency : Latency) : LoadBalancer ι :=
  let targetQueue := (lb.queues.lookup targetLatency).getD []
  { lb with queues := lb.queues.insert targetLatency (targetQueue ++ [newReq.setLora loraRequested]) }

def putPrefill [DecidableEq ι] (pod : ι) (req : Request) : LoadBalancer ι :=
  let llmactor := lb.actor pod
  { lb with actor := Function.update lb.actor pod { llmactor with prefillStore := llmactor.prefillStore ++ [req] } }

def routeRequest [DecidableEq ι] (newReq : Request) (routingType : RoutingType) (loraRequested : String)
    (estimatedOutputSize : Option ℚ) (draws : Nat → Draws) : Except PyError (LoadBalancer ι) := do
  match ← lb.findTargetPod routingType newReq.inputSize (estimatedOutputSize.getD newReq.outputSize)
      newReq.targetLatency (some loraRequested) draws with
  | (none, _) => return lb
  | (some pod, _) => return lb.putPrefill pod (newReq.setLora loraRequested)

/-- One round of the loop of `generate_request_inference_gateway`, for the request that it creates. -/
def generateRequest [DecidableEq ι] (newReq : Request) (routingType : RoutingType) (loraRequested : String)
    (estimatedOutputSize : Option ℚ) (draws : Nat → Draws) : Except PyError (LoadBalancer ι) := do
  if ← lb.shouldEnqueueRequest routingType then
    return lb.enqueueRequest newReq loraRequested newReq.targetLatency
  else lb.routeRequest newReq routingType loraRequested estimatedOutputSize draws

/-- The attempts of `weighted_dequeue`, which are numbered for the draws. -/
def attempts (targets : List ℚ≥0) (probs : List ℚ) (draws : Nat → Nat) :
    Nat → Nat → Except PyError (Option Request × LoadBalancer ι)
  | 0, _ => .ok (none, lb)
  | left + 1, attempt => do
    let selectedTarget ← randomChoices targets probs (draws attempt)
    match lb.queues.lookup (.finite selectedTarget) with
    | some (req :: rest) =>
      return (some req, { lb with queues := lb.queues.insert (.finite selectedTarget) rest })
    | _ => attempts targets probs draws left (attempt + 1)

def weightedDequeue (draws : Nat → Nat) : Except PyError (Option Request × LoadBalancer ι) := do
  let activeTargets := lb.getActiveReqTargetLatencyInWindow ⊤
  let inverseWeights ← activeTargets.mapM fun target : ℚ≥0 => quotient 1 target
  let targetProbs ← inverseWeights.mapM fun weight => quotient weight inverseWeights.sum
  lb.attempts activeTargets targetProbs draws 1000 0

-- `now - arrival_time < 100 * target_latency`
def inTime (req : Request) : Bool :=
  match req.targetLatency with
  | .finite seconds => lb.now - req.arrivalTime < 100 * seconds
  | .inf => true

/-- One round of the loop of `dequeue_process`. -/
def dequeueProcess [DecidableEq ι] (routingType : RoutingType) (dropLateRequests : Bool) (picks : Nat → Nat)
    (draws : Nat → Draws) : Except PyError (LoadBalancer ι) := do
  if lb.checkIfQueuesEmpty then return lb
  if !(← lb.dequeueingSignal routingType) then return lb
  match ← lb.weightedDequeue picks with
  | (none, lb) => return lb
  | (some req, lb) =>
    if dropLateRequests && !lb.inTime req then return lb
    match ← lb.findTargetPod routingType req.inputSize req.outputSize req.targetLatency req.lora draws with
    -- `target_pod.id` of None
    | (none, _) => throw .attributeError
    | (some pod, _) => return lb.putPrefill pod req

end LoadBalancer

end InferenceGateway.Simulator
