import InferenceGateway.Datastore.Store
import InferenceGateway.Handlers.Encoding
import InferenceGateway.Scheduling.Scheduler

/-!
The messages of the external processing protocol, the request context, and what the handlers of
`pkg/epp/handlers` have in common.
-/

namespace InferenceGateway
open Lib

/-! ## Messages -/

structure HeaderValue where
  key : String
  rawValue : Bytes
deriving DecidableEq, Repr

inductive ProcessingRequest
  | requestHeaders (endOfStream : Bool)
  | requestBody (body : Bytes) (endOfStream : Bool)
  | requestTrailers
  | responseHeaders (headers : List HeaderValue)
  | responseBody (body : Bytes) (endOfStream : Bool)
  | responseTrailers
  | unset
deriving DecidableEq, Repr

inductive BodyMutation
  | body (body : Bytes)
  | streamedResponse (body : Bytes) (endOfStream : Bool)
deriving DecidableEq, Repr

structure CommonResponse where
  clearRouteCache : Bool := false
  setHeaders : List HeaderValue := []
  bodyMutation : Option BodyMutation := none
deriving DecidableEq, Repr

inductive StatusCode
  | badRequest
  | notFound
  | tooManyRequests
  | internalServerError
  | serviceUnavailable
deriving DecidableEq, Repr

inductive ResponseKind
  | requestHeaders (response : CommonResponse)
  | requestBody (response : CommonResponse)
  | responseHeaders (response : CommonResponse)
  | responseBody (response : CommonResponse)
  | immediateResponse (status : StatusCode)
deriving DecidableEq, Repr

/-- The dynamic metadata that the handlers build: a string under a key, and a namespace around it
if one is configured. -/
structure DynamicMetadata where
  ns : Option String
  key : String
  value : String
deriving DecidableEq, Repr

structure ProcessingResponse where
  response : ResponseKind
  dynamicMetadata : Option DynamicMetadata := none
deriving DecidableEq, Repr

def buildErrResponse (err : Err) : Except Err ProcessingResponse :=
  match err.canonicalCode with
  | .inferencePoolResourceExhausted => .ok ⟨.immediateResponse .tooManyRequests, none⟩
  | .internal => .ok ⟨.immediateResponse .internalServerError, none⟩
  | .badRequest => .ok ⟨.immediateResponse .badRequest, none⟩
  | .badConfiguration => .ok ⟨.immediateResponse .notFound, none⟩
  | .unknown | .modelServerError => .error (.wrap "failed to handle request" (some err))

inductive Exit
  | returned (err : Option Err)
  | panicked

def sendFailed : Err := .new "failed to send response back to Envoy"

/-! ## The request context -/

inductive StreamRequestState
  | requestReceived
  | headerRequestResponseComplete
  | bodyRequestResponsesComplete
  | trailerRequestResponsesComplete
  | responseRecieved
  | headerResponseResponseComplete
  | bodyResponseResponsesComplete
  | trailerResponseResponsesComplete
deriving DecidableEq, Repr

/-- The timestamps, which only the latency metric reads, are left out. -/
structure RequestContext where
  targetPod : String := ""
  targetEndpoint : String := ""
  model : String := ""
  resolvedTargetModel : String := ""
  requestSize : Nat := 0
  usage : Usage := {}
  responseSize : Nat := 0
  responseComplete : Bool := false
  responseStatusCode : Option ErrorCode := none
  requestRunning : Bool := false
  requestState : StreamRequestState := .requestReceived
  modelServerStreaming : Bool := false
  reqHeaderResp : Option ProcessingResponse := none
  reqBodyResp : Option ProcessingResponse := none
  reqTrailerResp : Option ProcessingResponse := none
  respHeaderResp : Option ProcessingResponse := none
  respBodyResp : Option ProcessingResponse := none
  respTrailerResp : Option ProcessingResponse := none
  workerInstanceID : String := ""
deriving DecidableEq, Repr

/-! ## Metrics -/

inductive Metric
  | requestCounter (model target : String)
  | requestErrCounter (model target : String) (code : ErrorCode)
  | requestSizes (model target : String) (size : Nat)
  | requestLatencies (model target : String)
  | responseSizes (model target : String) (size : Nat)
  | inputTokens (model target : String) (size : Int)
  | outputTokens (model target : String) (size : Int)
  | incRunningRequests (model : String)
  | decRunningRequests (model : String)
deriving DecidableEq, Repr

def recordInputTokens (ctx : RequestContext) (usage : Usage) : List Metric :=
  if 0 < usage.promptTokens then [.inputTokens ctx.model ctx.resolvedTargetModel usage.promptTokens] else []

def recordOutputTokens (ctx : RequestContext) (usage : Usage) : List Metric :=
  if 0 < usage.completionTokens then
    [.outputTokens ctx.model ctx.resolvedTargetModel usage.completionTokens]
  else []

def incRunningRequests (model : String) : List Metric :=
  if model = "" then [] else [.incRunningRequests model]

def decRunningRequests (model : String) : List Metric :=
  if model = "" then [] else [.decRunningRequests model]

/-! ## What the handlers call -/

/-- What the calls of one message return: the datastore's and the scheduler's answers, the numbers
that are drawn, and the FrontEnd's answer to a payload. They may come from different states of the
datastore, which changes while a message is handled. -/
structure Backend where
  modelGet : String → Option InferenceModel
  podGetAll : List BackendPod
  poolGet : Except Err InferencePool
  schedule : LLMRequest → Except Err BackendPod
  frontEnd : Bytes → Except Err String
  intn : Nat
  int31n : Nat

def Backend.ofDatastore (ds : Datastore) (order : List NamespacedName)
    (schedule : LLMRequest → Except Err BackendPod) (frontEnd : Bytes → Except Err String) (intn int31n : Nat) :
    Backend where
  modelGet modelName := ds.modelGet modelName
  podGetAll := (ds.podGetAll order).map (·.pod)
  poolGet := ds.poolGet
  schedule := schedule
  frontEnd := frontEnd
  intn := intn
  int31n := int31n

/-- `none` is a panic: `rand.Intn` of 0. -/
def getRandomPod (backend : Backend) : Option BackendPod :=
  backend.podGetAll[backend.intn % backend.podGetAll.length]?

/-- `none` is a panic: an index out of range, a nil weight, or `Int31n` of a number that is not
positive. -/
def randomWeightedDraw (draw : Nat) (model : InferenceModel) : Option String := do
  let first ← model.spec.targetModels.head?
  if first.weight = none then
    let target ← model.spec.targetModels[draw % model.spec.targetModels.length]?
    return target.name
  else
    let weights ← model.spec.targetModels.foldlM (fun weights target => return weights + (← target.weight)) 0
    if weights ≤ 0 then none
    else walk (Int32.ofNat (draw % weights.toInt.toNat)) model.spec.targetModels
where
  walk : Int32 → List TargetModel → Option String
    | _, [] => some ""
    | randomVal, target :: rest => do
      let weight ← target.weight
      if randomVal < weight then return target.name else walk (randomVal - weight) rest

/-- The model lookup and the draw of the target model, which both servers do alike. -/
def resolveTargetModel (backend : Backend) (model : String) : Option (Except Err LLMRequest) :=
  match backend.modelGet model with
  | none => some (.error (.coded ⟨.badConfiguration,
      "error finding a model object in InferenceModel for input " ++ model⟩))
  | some modelObj =>
    let llmReq (modelName : String) : LLMRequest := ⟨model, modelName, Datastore.isCritical modelObj⟩
    if modelObj.spec.targetModels = [] then some (.ok (llmReq model))
    else do
      let modelName ← randomWeightedDraw backend.int31n modelObj
      if modelName = "" then
        return .error (.coded ⟨.badConfiguration, "error getting target model name for model " ++ modelObj.name⟩)
      else return .ok (llmReq modelName)

def endpointOf (pod : BackendPod) (pool : InferencePool) : String :=
  pod.address ++ ":" ++ toString pool.spec.targetPortNumber.toInt

structure DestinationHint where
  destinationEndpointHintKey : String
  destinationEndpointHintMetadataNamespace : String

def DestinationHint.dynamicMetadata (hint : DestinationHint) (endpoint : String) : DynamicMetadata where
  ns := if hint.destinationEndpointHintMetadataNamespace = "" then none
    else some hint.destinationEndpointHintMetadataNamespace
  key := hint.destinationEndpointHintKey
  value := endpoint

end InferenceGateway
