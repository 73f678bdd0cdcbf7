import InferenceGateway.Handlers.Context
import InferenceGateway.Lib.Loop

/-!
# `pkg/epp/handlers/streamingserver.go`

A handler that panics returns `none`. `canSend n` says whether `Send` succeeds after `n` messages
have been sent.
-/

namespace InferenceGateway.StreamingServer
open Lib

/-! ## The handlers -/

def populateRequestHeaderResponse (hint : DestinationHint) (endpoint : String) (requestBodyLength : Nat)
    (ctx : RequestContext) : RequestContext :=
  let headers : List HeaderValue :=
    [⟨hint.destinationEndpointHintKey, bytes endpoint⟩] ++
    (if 0 < requestBodyLength then [⟨"Content-Length", bytes (toString requestBodyLength)⟩] else []) ++
    if ctx.workerInstanceID = "" then [] else [⟨"x-worker-instance-id", bytes ctx.workerInstanceID⟩]
  let response : ResponseKind := .requestHeaders { clearRouteCache := true, setHeaders := headers }
  { ctx with reqHeaderResp := some ⟨response, some (hint.dynamicMetadata endpoint)⟩ }

def handleRequestHeaders (hint : DestinationHint) (backend : Backend) (endOfStream : Bool)
    (ctx : RequestContext) : Option (Option Err × RequestContext) :=
  if endOfStream then do
    let pod ← getRandomPod backend
    match backend.poolGet with
    | .error err => return (some err, ctx)
    | .ok pool => return (none, populateRequestHeaderResponse hint (endpointOf pod pool) 0 ctx)
  else return (none, ctx)

def annotations (nvext : Object) : List String :=
  match nvext.get "annotations" with
  | some (.arr items) => items.filterMap fun
    | .str s => some s
    | _ => none
  | _ => []

def askedAnnotations (anns : List String) : List String :=
  if "query_instance_id" ∈ anns then anns else anns ++ ["query_instance_id"]

def frontEndNvext (nvext : Object) : Object :=
  nvext.set "annotations" (.arr ((askedAnnotations (annotations nvext)).map .str))

/-- The client's `nvext`, which is empty if it is not an object. -/
def clientNvext (body : Object) : Object :=
  match body.get "nvext" with
  | some (.obj members) => members
  | _ => []

def frontEndPayload (body : Object) : Object :=
  (if (body.get "stream").isSome then body else body.set "stream" (.bool true)).set "nvext"
    (.obj (frontEndNvext (clientNvext body)))

/-- The FrontEnd's answer, and the body: `nvext` is not copied, so its annotations change in the
caller's map. -/
def callFrontEndForWorker (codec : Codec) (backend : Backend) (originalBody : Option Object) :
    Except Err String × Option Object :=
  let body := originalBody.getD []
  let originalBody := match body.get "nvext" with
    | some (.obj nvext) => originalBody.map fun body => body.set "nvext" (.obj (frontEndNvext nvext))
    | _ => originalBody
  match codec.marshal (some (frontEndPayload body)) with
  | .error err => (.error (.wrap "marshal FrontEnd body" (some err)), originalBody)
  | .ok payload => (backend.frontEnd payload, originalBody)

def setWorkerInstanceID (answer : Except Err String) (ctx : RequestContext) : RequestContext :=
  match answer with
  | .error _ => ctx
  | .ok workerID => if workerID = "" then ctx else { ctx with workerInstanceID := workerID }

def handleRequestBody (codec : Codec) (hint : DestinationHint) (backend : Backend)
    (requestBodyMap : Option Object) (ctx : RequestContext) :
    Option (Option Err × RequestContext × Option Object) :=
  match field requestBodyMap "model" with
  | .str model => do
    match ← resolveTargetModel backend model with
    | .error err => return (some err, ctx, requestBodyMap)
    | .ok llmReq =>
      let requestBodyMap :=
        if llmReq.model ≠ llmReq.resolvedTargetModel then
          requestBodyMap.map fun body => body.set "model" (.str llmReq.resolvedTargetModel)
        else requestBodyMap
      match codec.marshal requestBodyMap with
      | .error err =>
        return (some (.coded ⟨.internal, "error marshaling request body: " ++ err.text⟩), ctx, requestBodyMap)
      | .ok requestBodyBytes =>
        let (answer, requestBodyMap) := callFrontEndForWorker codec backend requestBodyMap
        let ctx := setWorkerInstanceID answer ctx
        match backend.schedule llmReq with
        | .error err =>
          return (some (.coded ⟨.inferencePoolResourceExhausted, "failed to find target pod: " ++ err.text⟩),
            ctx, requestBodyMap)
        | .ok targetPod =>
          match backend.poolGet with
          | .error err => return (some err, ctx, requestBodyMap)
          | .ok pool =>
            let endpoint := endpointOf targetPod pool
            let ctx := populateRequestHeaderResponse hint endpoint requestBodyBytes.length { ctx with
              model := llmReq.model
              resolvedTargetModel := llmReq.resolvedTargetModel
              requestSize := requestBodyBytes.length
              targetPod := targetPod.namespacedName.ns ++ "/" ++ targetPod.namespacedName.name
              targetEndpoint := endpoint }
            let response : ResponseKind :=
              .requestBody { bodyMutation := some (.streamedResponse requestBodyBytes true) }
            return (none, { ctx with reqBodyResp := some ⟨response, none⟩ }, requestBodyMap)
  | _ => return (some (.coded ⟨.badRequest, "model not found in request"⟩), ctx, requestBodyMap)

/-- `int(x)` of a float64, which is the least integer if it is out of range, as on amd64. -/
def truncate (q : ℚ) : Int :=
  let n := if 0 ≤ q then q.floor else q.ceil
  if -2 ^ 63 ≤ n ∧ n < 2 ^ 63 then n else -2 ^ 63

/-- The type assertions on `response["usage"]`, which panic unless all three counters are numbers. -/
def usageOf : Json → Option Usage
  | .obj usg => do
    let tokens (key : String) : Option Int := match Object.get key usg with
      | some (.num q) => some (truncate q)
      | _ => none
    return ⟨← tokens "prompt_tokens", ← tokens "completion_tokens", ← tokens "total_tokens"⟩
  | _ => none

def readUsage (response : Option Object) (ctx : RequestContext) : Option Usage :=
  if field response "usage" = .null then some ctx.usage else usageOf (field response "usage")

def handleResponseBody (codec : Codec) (response : Option Object) (ctx : RequestContext) :
    Option (Option Err × RequestContext) :=
  match codec.marshal response with
  | .error err => return (some err, ctx)
  | .ok responseBytes => do
    let usage ← readUsage response ctx
    let response : ResponseKind := .responseBody { bodyMutation := some (.streamedResponse responseBytes true) }
    return (none, { ctx with
      usage := usage
      responseSize := responseBytes.length
      responseComplete := true
      respBodyResp := some ⟨response, none⟩ })

def handleResponseBodyModelStreaming (codec : Codec) (ctx : RequestContext) (responseText : Bytes) :
    List Metric :=
  if responseText.contains streamingEndMsg then
    let resp := parseRespForUsage codec responseText
    recordInputTokens ctx resp.usage ++ recordOutputTokens ctx resp.usage
  else []

def readResponseHeader (ctx : RequestContext) (header : HeaderValue) : RequestContext :=
  if header.key = "status" ∧ header.rawValue ≠ bytes "200" then
    { ctx with responseStatusCode := some .modelServerError }
  else if header.key = "content-type" ∧ header.rawValue.contains (bytes "text/event-stream") then
    { ctx with modelServerStreaming := true }
  else ctx

/-! ## Process -/

structure Stream where
  ctx : RequestContext := {}
  body : Bytes := []
  requestBody : Option Object := none
  responseBody : Option Object := none
  err : Option Err := none
  sent : List (Option ProcessingResponse) := []
  recorded : List Metric := []

def Stream.record (metrics : List Metric) (s : Stream) : Stream :=
  { s with recorded := s.recorded ++ metrics }

/-- The `switch` on the message. -/
def receive (codec : Codec) (hint : DestinationHint) (backend : Backend) (s : Stream) :
    ProcessingRequest → Option Stream
  | .requestHeaders endOfStream => do
    let (err, ctx) ← handleRequestHeaders hint backend endOfStream s.ctx
    return { s with err := err, ctx := ctx }
  | .requestBody chunk endOfStream =>
    let body := s.body ++ chunk
    if endOfStream then do
      -- the error of Unmarshal is only logged
      let requestBody := (codec.unmarshalMap body s.requestBody).1
      let (err, ctx, requestBody) ← handleRequestBody codec hint backend requestBody s.ctx
      let s := { s with body := [], requestBody := requestBody, err := err, ctx := ctx }
      return if err.isSome then s else
        s.record [.requestCounter ctx.model ctx.resolvedTargetModel,
          .requestSizes ctx.model ctx.resolvedTargetModel ctx.requestSize]
    else return { s with body := body }
  | .responseHeaders headers =>
    let ctx := headers.foldl readResponseHeader s.ctx
    let response : ResponseKind := .responseHeaders { setHeaders := [⟨"x-went-into-resp-headers", bytes "true"⟩] }
    return { s with ctx := { ctx with
      requestState := .responseRecieved, respHeaderResp := some ⟨response, none⟩ } }
  | .responseBody chunk endOfStream =>
    if s.ctx.modelServerStreaming then
      let s := s.record (handleResponseBodyModelStreaming codec s.ctx chunk)
      let s := if endOfStream then
          s.record [.requestLatencies s.ctx.model s.ctx.resolvedTargetModel,
            .responseSizes s.ctx.model s.ctx.resolvedTargetModel s.ctx.responseSize]
        else s
      let response : ResponseKind := .responseBody { bodyMutation := some (.streamedResponse chunk endOfStream) }
      return { s with ctx := { s.ctx with respBodyResp := some ⟨response, none⟩ } }
    else
      let body := s.body ++ chunk
      if endOfStream then do
        let responseBody := (codec.unmarshalMap body s.responseBody).1
        let (err, ctx) ← handleResponseBody codec responseBody s.ctx
        let s := { s with body := body, responseBody := responseBody, ctx := ctx }
        return if err.isNone ∧ ctx.responseComplete then
            s.record ([.requestLatencies ctx.model ctx.resolvedTargetModel,
              .responseSizes ctx.model ctx.resolvedTargetModel ctx.responseSize] ++
              recordInputTokens ctx ctx.usage ++ recordOutputTokens ctx ctx.usage)
          else s
      else return { s with body := body }
  | .requestTrailers | .responseTrailers | .unset => return s

/-- A branch of `updateStateAndSendIfNeeded`; the error is the state in which `Send` failed. -/
def sendIf (canSend : Nat → Bool) (condition : RequestContext → Bool)
    (resp : RequestContext → Option ProcessingResponse) (sent : Stream → Stream) (s : Stream) :
    Except Stream Stream :=
  if condition s.ctx then
    if canSend s.sent.length then .ok (sent { s with sent := s.sent ++ [resp s.ctx] }) else .error s
  else .ok s

def Stream.setState (state : StreamRequestState) (s : Stream) : Stream :=
  { s with ctx := { s.ctx with requestState := state } }

def isEndOfStream (resp : Option ProcessingResponse) : Bool :=
  match resp with
  | some ⟨.responseBody { bodyMutation := some (.streamedResponse _ endOfStream), .. }, _⟩ => endOfStream
  | _ => false

def sendRequestHeaders (canSend : Nat → Bool) : Stream → Except Stream Stream :=
  sendIf canSend (fun r => r.requestState = .requestReceived ∧ r.reqHeaderResp.isSome) (·.reqHeaderResp)
    (·.setState .headerRequestResponseComplete)

def sendRequestBody (canSend : Nat → Bool) : Stream → Except Stream Stream :=
  sendIf canSend (fun r => r.requestState = .headerRequestResponseComplete ∧ r.reqBodyResp.isSome)
    (·.reqBodyResp) fun s =>
      let s := s.record (incRunningRequests s.ctx.model)
      { s with ctx := { s.ctx with
        requestState := .bodyRequestResponsesComplete, requestRunning := true, reqBodyResp := none } }

-- both trailers send the request headers again
def sendRequestTrailers (canSend : Nat → Bool) : Stream → Except Stream Stream :=
  sendIf canSend (fun r => r.requestState = .bodyRequestResponsesComplete ∧ r.reqTrailerResp.isSome)
    (·.reqHeaderResp) id

def sendResponseHeaders (canSend : Nat → Bool) : Stream → Except Stream Stream :=
  sendIf canSend (fun r => r.requestState = .responseRecieved ∧ r.respHeaderResp.isSome) (·.respHeaderResp)
    (·.setState .headerResponseResponseComplete)

def sendResponseBody (canSend : Nat → Bool) : Stream → Except Stream Stream :=
  sendIf canSend (fun r => r.requestState = .headerResponseResponseComplete ∧ r.respBodyResp.isSome)
    (·.respBodyResp) fun s =>
      { s with ctx := { s.ctx with
        requestState := if isEndOfStream s.ctx.respBodyResp then .bodyResponseResponsesComplete
          else s.ctx.requestState
        respBodyResp := none } }

def sendResponseTrailers (canSend : Nat → Bool) : Stream → Except Stream Stream :=
  sendIf canSend (fun r => r.requestState = .bodyResponseResponsesComplete ∧ r.respTrailerResp.isSome)
    (·.reqHeaderResp) id

def updateStateAndSendIfNeeded (canSend : Nat → Bool) (s : Stream) : Except Stream Stream := do
  let s ← sendRequestHeaders canSend s
  let s ← sendRequestBody canSend s
  let s ← sendRequestTrailers canSend s
  let s ← sendResponseHeaders canSend s
  let s ← sendResponseBody canSend s
  sendResponseTrailers canSend s

def step (codec : Codec) (hint : DestinationHint) (canSend : Nat → Bool) (backend : Backend) (s : Stream)
    (message : ProcessingRequest) : Except (Stream × Exit) Stream :=
  match receive codec hint backend s message with
  | none => .error (s, .panicked)
  | some s =>
    match s.err with
    | some err =>
      match buildErrResponse err with
      | .error failed => .error (s, .returned (some failed))
      | .ok resp =>
        if canSend s.sent.length then .error ({ s with sent := s.sent ++ [some resp] }, .returned none)
        else .error (s, .returned (some sendFailed))
    | none =>
      match updateStateAndSendIfNeeded canSend s with
      | .error s => .error (s, .returned (some sendFailed))
      | .ok s => .ok s

/-- The deferred function. -/
def finish (s : Stream) : Stream :=
  let code := s.ctx.responseStatusCode.or (s.err.map Err.canonicalCode)
  let s := s.record (code.toList.map (.requestErrCounter s.ctx.model s.ctx.resolvedTargetModel))
  if s.ctx.requestRunning then s.record (decRunningRequests s.ctx.model) else s

/-- `backends n` answers the calls of message `n`, and the stream ends after the last message. -/
def process (codec : Codec) (hint : DestinationHint) (canSend : Nat → Bool) (backends : Nat → Backend)
    (messages : List ProcessingRequest) : Stream × Exit :=
  let (s, exit) := Loop.run (fun n => step codec hint canSend (backends n)) (.returned none) messages {}
  (finish s, exit)

/-- How the loop ends after the last message: the stream ends, `Recv` fails, or the context is done. -/
inductive StreamEnd
  | eof
  | canceled
  | recvFailed
  | contextDone (err : Err)

/-- The message of a failed `Recv` prints `err`, not the error of `Recv`. -/
def StreamEnd.returns (s : Stream) : StreamEnd → Option Err
  | .eof | .canceled => none
  | .recvFailed => some (.new ("cannot receive stream request: " ++ (s.err.map Err.text).getD "<nil>"))
  | .contextDone err => some err

/-- `Process` for a stream that may end in any way. -/
def processUntil (codec : Codec) (hint : DestinationHint) (canSend : Nat → Bool) (backends : Nat → Backend)
    (messages : List ProcessingRequest) (ending : StreamEnd) : Stream × Exit :=
  match Loop.steps (fun n => step codec hint canSend (backends n)) 0 messages {} with
  | .error (s, exit) => (finish s, exit)
  | .ok s => (finish s, .returned (ending.returns s))

theorem processUntil_fst (codec : Codec) (hint : DestinationHint) (canSend : Nat → Bool) (backends : Nat → Backend)
    (messages : List ProcessingRequest) (ending : StreamEnd) :
    (processUntil codec hint canSend backends messages ending).1 =
      (process codec hint canSend backends messages).1 := by
  unfold processUntil process Loop.run Loop.runFrom
  cases Loop.steps (fun n => step codec hint canSend (backends n)) 0 messages {} <;> rfl

end InferenceGateway.StreamingServer
