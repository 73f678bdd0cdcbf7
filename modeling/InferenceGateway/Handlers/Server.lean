import InferenceGateway.Handlers.Context
import InferenceGateway.Lib.Loop

/-!
# `pkg/epp/handlers/server.go`, `request.go` and `response.go`

The server for buffered bodies. A handler that panics returns `none`. `canSend n` says whether
`Send` succeeds after `n` messages have been sent.
-/

namespace InferenceGateway.Server
open Lib

/-! ## The handlers -/

def handleRequestHeaders : ProcessingResponse := ⟨.requestHeaders { clearRouteCache := true }, none⟩

def handleRequestBody (codec : Codec) (hint : DestinationHint) (backend : Backend) (body : Bytes)
    (ctx : RequestContext) : Option (Except Err ProcessingResponse × RequestContext) :=
  match codec.unmarshalMap body none with
  | (_, some err) =>
    return (.error (.coded ⟨.badRequest, "error unmarshaling request body: " ++ err.text⟩), ctx)
  | (rb, none) =>
    match field rb "model" with
    | .str model => do
      match ← resolveTargetModel backend model with
      | .error err => return (.error err, ctx)
      | .ok llmReq =>
        let updated := if llmReq.model ≠ llmReq.resolvedTargetModel then
            codec.marshal (rb.map fun rb => rb.set "model" (.str llmReq.resolvedTargetModel))
          else .ok body
        match updated with
        | .error err =>
          return (.error (.coded ⟨.internal, "error marshaling request body: " ++ err.text⟩), ctx)
        | .ok requestBody =>
          match backend.schedule llmReq with
          | .error err =>
            return (.error (.coded
              ⟨.inferencePoolResourceExhausted, "failed to find target pod: " ++ err.text⟩), ctx)
          | .ok targetPod =>
            match backend.poolGet with
            | .error err => return (.error err, ctx)
            | .ok pool =>
              let endpoint := endpointOf targetPod pool
              let ctx := { ctx with
                model := llmReq.model
                resolvedTargetModel := llmReq.resolvedTargetModel
                requestSize := body.length
                targetPod := targetPod.namespacedName.ns ++ "/" ++ targetPod.namespacedName.name
                targetEndpoint := endpoint }
              let headers : List HeaderValue := [⟨hint.destinationEndpointHintKey, bytes endpoint⟩,
                ⟨"Content-Length", bytes (toString requestBody.length)⟩]
              let response : ResponseKind :=
                .requestBody { setHeaders := headers, bodyMutation := some (.body requestBody) }
              return (.ok ⟨response, some (hint.dynamicMetadata endpoint)⟩, ctx)
    | _ => return (.error (.coded ⟨.badRequest, "model not found in request"⟩), ctx)

/-- The first byte of the status, as a string, is compared with the whole code. -/
def readStatus (ctx : RequestContext) (header : HeaderValue) : Option RequestContext :=
  if header.key = "status" then
    header.rawValue.head?.map fun code =>
      if String.singleton (Char.ofNat code.toNat) ≠ "200" then
        { ctx with responseStatusCode := some .modelServerError }
      else ctx
  else some ctx

/-- One header in the loop of `HandleResponseHeaders`, which never breaks: no header is both the status
and the content type. -/
def readResponseHeader (ctx : RequestContext) (header : HeaderValue) : Option RequestContext :=
  (readStatus ctx header).map fun ctx =>
    if header.key = "content-type" ∧ header.rawValue.contains (bytes "text/event-stream") then
      { ctx with modelServerStreaming := true }
    else ctx

def handleResponseHeaders (headers : List HeaderValue) (ctx : RequestContext) :
    Option (ProcessingResponse × RequestContext) := do
  let ctx ← headers.foldlM readResponseHeader ctx
  return (⟨.responseHeaders { setHeaders := [⟨"x-went-into-resp-headers", bytes "true"⟩] }, none⟩, ctx)

def handleNonStreaming (codec : Codec) (body : Bytes) (ctx : RequestContext) : Option Err × RequestContext :=
  match codec.unmarshalResponse body {} with
  | (_, some err) => (some (.coded ⟨.internal, "unmarshaling response body: " ++ err.text⟩), ctx)
  | (res, none) =>
    (none, { ctx with usage := res.usage, responseSize := body.length, responseComplete := true })

def handleStreaming (codec : Codec) (body : Bytes) (endOfStream : Bool) (ctx : RequestContext) :
    RequestContext :=
  let ctx := if body.contains streamingEndMsg then
      { ctx with usage := (parseRespForUsage codec body).usage }
    else ctx
  if endOfStream then { ctx with responseComplete := true }
  else { ctx with responseSize := ctx.responseSize + body.length }

def handleResponseBody (codec : Codec) (body : Bytes) (endOfStream : Bool) (ctx : RequestContext) :
    Option ProcessingResponse × Option Err × RequestContext :=
  let (err, ctx) := if ctx.modelServerStreaming then (none, handleStreaming codec body endOfStream ctx)
    else handleNonStreaming codec body ctx
  match err with
  | some err => (none, some err, ctx)
  | none => (some ⟨.responseBody {}, none⟩, none, ctx)

/-! ## Process -/

structure Stream where
  ctx : RequestContext := {}
  err : Option Err := none
  sent : List (Option ProcessingResponse) := []
  recorded : List Metric := []

def Stream.record (metrics : List Metric) (s : Stream) : Stream :=
  { s with recorded := s.recorded ++ metrics }

/-- The `switch` on the message: the response and the state after it. `none` is a panic and an error
ends `Process`. -/
def receive (codec : Codec) (hint : DestinationHint) (backend : Backend) (s : Stream) :
    ProcessingRequest → Option (Except Err (Option ProcessingResponse × Stream))
  | .requestHeaders _ => return .ok (some handleRequestHeaders, s)
  | .requestBody body _ => do
    let (result, ctx) ← handleRequestBody codec hint backend body s.ctx
    match result with
    | .error err => return .ok (none, { s with ctx := ctx, err := some err })
    | .ok resp =>
      let s := { s with ctx := ctx, err := none }
      return .ok (some resp, s.record [.requestCounter ctx.model ctx.resolvedTargetModel,
        .requestSizes ctx.model ctx.resolvedTargetModel ctx.requestSize])
  | .responseHeaders headers => do
    let (resp, ctx) ← handleResponseHeaders headers s.ctx
    return .ok (some resp, { s with ctx := ctx, err := none })
  | .responseBody body endOfStream =>
    let (resp, responseErr, ctx) := handleResponseBody codec body endOfStream s.ctx
    let s := { s with ctx := ctx }
    return .ok (resp, if responseErr.isNone ∧ ctx.responseComplete then
        s.record ([.requestLatencies ctx.model ctx.resolvedTargetModel,
          .responseSizes ctx.model ctx.resolvedTargetModel ctx.responseSize] ++
          recordInputTokens ctx ctx.usage ++ recordOutputTokens ctx ctx.usage)
      else s)
  | .requestTrailers | .responseTrailers | .unset => return .error (.new "unknown request type")

/-- The error is the state in which `Process` ends. -/
def step (codec : Codec) (hint : DestinationHint) (canSend : Nat → Bool) (backend : Backend) (s : Stream)
    (message : ProcessingRequest) : Except (Stream × Exit) Stream :=
  let send (resp : Option ProcessingResponse) (s : Stream) : Except (Stream × Exit) Stream :=
    if canSend s.sent.length then .ok { s with sent := s.sent ++ [resp] }
    else .error (s, .returned (some sendFailed))
  match receive codec hint backend s message with
  | none => .error (s, .panicked)
  | some (.error err) => .error (s, .returned (some err))
  | some (.ok (resp, s)) =>
    match s.err with
    | none => send resp s
    | some err =>
      match buildErrResponse err with
      | .error failed => .error ({ s with err := some failed }, .returned (some failed))
      | .ok resp => send (some resp) { s with err := none }

/-- The deferred function. -/
def finish (s : Stream) : Stream :=
  let code := s.ctx.responseStatusCode.or (s.err.map Err.canonicalCode)
  s.record (code.toList.map (.requestErrCounter s.ctx.model s.ctx.resolvedTargetModel))

/-- `backends n` answers the calls of message `n`, and the stream ends after the last message. -/
def process (codec : Codec) (hint : DestinationHint) (canSend : Nat → Bool) (backends : Nat → Backend)
    (messages : List ProcessingRequest) : Stream × Exit :=
  let (s, exit) := Loop.run (fun n => step codec hint canSend (backends n)) (.returned none) messages {}
  (finish s, exit)

end InferenceGateway.Server
