import InferenceGateway.Handlers.JsonCodec
import InferenceGateway.Proof.Handlers.Ordering
import InferenceGateway.Proof.Handlers.Usage

/-!
Whole exchanges with the streaming server: a request, response headers and a response body, the
bodies in any number of chunks.
-/

namespace InferenceGateway.StreamingServer
open Lib

/-! ## Exchanges -/

/-- A body in chunks, of which only the last one ends the stream. -/
def bodyMessages (message : Bytes → Bool → ProcessingRequest) (chunks : List Bytes) (last : Bytes) :
    List ProcessingRequest :=
  chunks.map (message · false) ++ [message last true]

inductive Request
  | headersOnly
  | withBody (chunks : List Bytes) (last : Bytes)

def Request.messages : Request → List ProcessingRequest
  | .headersOnly => [.requestHeaders true]
  | .withBody chunks last => .requestHeaders false :: bodyMessages .requestBody chunks last

def exchange (request : Request) (headers : List HeaderValue) (chunks : List Bytes) (last : Bytes) :
    List ProcessingRequest :=
  request.messages ++ .responseHeaders headers :: bodyMessages .responseBody chunks last

/-- What the handler of the request returns; it sees the concatenation of the chunks. -/
def Request.outcome (codec : Codec) (hint : DestinationHint) (backends : Nat → Backend) :
    Request → Option (Option Err × RequestContext)
  | .headersOnly => handleRequestHeaders hint (backends 0) true {}
  | .withBody chunks last =>
    (handleRequestBody codec hint (backends (chunks.length + 1))
      (codec.unmarshalMap (chunks.flatten ++ last) none).1 {}).map fun (err, ctx, _) => (err, ctx)

/-- There is a request-body response if and only if there is a body: its decoded concatenation, for
the resolved model, encoded again. -/
def Request.Answers (codec : Codec) (backends : Nat → Backend) (responses : List ProcessingResponse) :
    Request → Prop
  | .headersOnly => responses = []
  | .withBody chunks last => ∃ model llmReq encoded,
      field (codec.unmarshalMap (chunks.flatten ++ last) none).1 "model" = .str model ∧
      resolveTargetModel (backends (chunks.length + 1)) model = some (.ok llmReq) ∧
      codec.marshal (rewritten llmReq (codec.unmarshalMap (chunks.flatten ++ last) none).1) = .ok encoded ∧
      responses = [⟨.requestBody { bodyMutation := some (.streamedResponse encoded true) }, none⟩]

def responseHeaders : ProcessingResponse :=
  ⟨.responseHeaders { setHeaders := [⟨"x-went-into-resp-headers", bytes "true"⟩] }, none⟩

def isStreaming (headers : List HeaderValue) : Bool :=
  headers.any fun header =>
    header.key = "content-type" && header.rawValue.contains (bytes "text/event-stream")

/-- The chunks of a streamed response are sent on one by one; another response is decoded as a whole
and encoded again. -/
def ResponseAnswers (codec : Codec) (headers : List HeaderValue) (chunks : List Bytes) (last : Bytes)
    (responses : List ProcessingResponse) : Prop :=
  if isStreaming headers then
    responses = chunks.map (streamedChunk · false) ++ [streamedChunk last true]
  else ∃ members encoded, codec.unmarshal (chunks.flatten ++ last) = .object members none ∧
    codec.marshal (some members) = .ok encoded ∧ responses = [streamedChunk encoded true]

/-- `usage` is absent or null, or an object with the three counters, which are numbers. -/
def UsageReadable (members : Object) : Prop :=
  field (some members) "usage" = .null ∨
    ∃ usg : Object, field (some members) "usage" = .obj usg ∧
      ∀ counter : Counter, ∃ n, usg.get counter.name = some (.num n)

/-! ## One message -/

section Steps
variable {codec : Codec} {hint : DestinationHint} {backend : Backend} {s : Stream}

def stepAll (codec : Codec) (hint : DestinationHint) (backend : Backend) :
    Stream → ProcessingRequest → Except (Stream × Exit) Stream :=
  step codec hint (fun _ => true) backend

theorem stepAll_of_receive {message : ProcessingRequest} {next after : Stream}
    (received : receive codec hint backend s message = some next) (succeeded : next.err = none)
    (sent : updateStateAndSendIfNeeded (fun _ => true) next = .ok after) :
    stepAll codec hint backend s message = .ok after := by
  simp only [stepAll, step, received, succeeded, sent]

theorem sendIf_skip {condition : RequestContext → Bool} {resp : RequestContext → Option ProcessingResponse}
    {after : Stream → Stream} (skipped : condition s.ctx = false) :
    sendIf (fun _ => true) condition resp after s = .ok s := by
  simp only [sendIf, skipped, Bool.false_eq_true, if_false]

theorem sendIf_send {condition : RequestContext → Bool} {resp : RequestContext → Option ProcessingResponse}
    {after : Stream → Stream} (holds : condition s.ctx = true) :
    sendIf (fun _ => true) condition resp after s = .ok (after { s with sent := s.sent ++ [resp s.ctx] }) := by
  simp only [sendIf, holds, if_true]

theorem update_of_stages {canSend : Nat → Bool} {s₁ s₂ s₃ s₄ s₅ s₆ : Stream}
    (first : sendRequestHeaders canSend s = .ok s₁) (second : sendRequestBody canSend s₁ = .ok s₂)
    (third : sendRequestTrailers canSend s₂ = .ok s₃) (fourth : sendResponseHeaders canSend s₃ = .ok s₄)
    (fifth : sendResponseBody canSend s₄ = .ok s₅) (sixth : sendResponseTrailers canSend s₅ = .ok s₆) :
    updateStateAndSendIfNeeded canSend s = .ok s₆ := by
  have ok_bind (s : Stream) (stage : Stream → Except Stream Stream) : (Except.ok s >>= stage) = stage s := rfl
  simp only [updateStateAndSendIfNeeded, first, second, third, fourth, fifth, sixth, ok_bind]

theorem update_of_requestReceived (state : s.ctx.requestState = .requestReceived)
    (waiting : s.ctx.reqHeaderResp = none) : updateStateAndSendIfNeeded (fun _ => true) s = .ok s := by
  exact update_of_stages (sendIf_skip (by simp [waiting])) (sendIf_skip (by simp [state]))
    (sendIf_skip (by simp [state])) (sendIf_skip (by simp [state])) (sendIf_skip (by simp [state]))
    (sendIf_skip (by simp [state]))

/-- The state between the messages of a response body. -/
structure Responding (s : Stream) : Prop where
  err : s.err = none
  state : s.ctx.requestState = .headerResponseResponseComplete
  respBody : s.ctx.respBodyResp = none
  respTrailer : s.ctx.respTrailerResp = none

theorem Responding.update (responding : Responding s) :
    updateStateAndSendIfNeeded (fun _ => true) s = .ok s := by
  have state := responding.state
  exact update_of_stages (sendIf_skip (by simp [state])) (sendIf_skip (by simp [state]))
    (sendIf_skip (by simp [state])) (sendIf_skip (by simp [state])) (sendIf_skip (by simp [responding.respBody]))
    (sendIf_skip (by simp [state]))

theorem update_of_respBody {chunk : Bytes} {endOfStream : Bool}
    (state : s.ctx.requestState = .headerResponseResponseComplete)
    (waiting : s.ctx.respBodyResp = some (streamedChunk chunk endOfStream))
    (trailer : s.ctx.respTrailerResp = none) :
    updateStateAndSendIfNeeded (fun _ => true) s = .ok { s with
      sent := s.sent ++ [some (streamedChunk chunk endOfStream)]
      ctx := { s.ctx with
        requestState := if endOfStream then .bodyResponseResponsesComplete else .headerResponseResponseComplete
        respBodyResp := none } } := by
  have sent : sendResponseBody (fun _ => true) s = .ok { s with
      sent := s.sent ++ [some (streamedChunk chunk endOfStream)]
      ctx := { s.ctx with
        requestState := if endOfStream then .bodyResponseResponsesComplete else .headerResponseResponseComplete
        respBodyResp := none } } := by
    rw [sendResponseBody, sendIf_send (by simp [state, waiting])]
    simp only [waiting, state, isEndOfStream, streamedChunk]
  exact update_of_stages (sendIf_skip (by simp [state])) (sendIf_skip (by simp [state]))
    (sendIf_skip (by simp [state])) (sendIf_skip (by simp [state])) sent (sendIf_skip (by simp [trailer]))

theorem update_of_respHeaders (state : s.ctx.requestState = .responseRecieved)
    (waiting : s.ctx.respHeaderResp = some responseHeaders) (respBody : s.ctx.respBodyResp = none) :
    updateStateAndSendIfNeeded (fun _ => true) s = .ok { s with
      sent := s.sent ++ [some responseHeaders]
      ctx := { s.ctx with requestState := .headerResponseResponseComplete } } := by
  have sent : sendResponseHeaders (fun _ => true) s = .ok { s with
      sent := s.sent ++ [some responseHeaders]
      ctx := { s.ctx with requestState := .headerResponseResponseComplete } } := by
    rw [sendResponseHeaders, sendIf_send (by simp [state, waiting])]
    simp only [Stream.setState, waiting]
  exact update_of_stages (sendIf_skip (by simp [state])) (sendIf_skip (by simp [state]))
    (sendIf_skip (by simp [state])) sent (sendIf_skip (by simp [respBody])) (sendIf_skip (by simp))

theorem sendRequestHeaders_of_waiting {headers : ProcessingResponse}
    (state : s.ctx.requestState = .requestReceived) (waiting : s.ctx.reqHeaderResp = some headers) :
    sendRequestHeaders (fun _ => true) s = .ok { s with
      sent := s.sent ++ [some headers]
      ctx := { s.ctx with requestState := .headerRequestResponseComplete } } := by
  rw [sendRequestHeaders, sendIf_send (by simp [state, waiting])]
  simp only [Stream.setState, waiting]

theorem update_of_reqHeaders {headers : ProcessingResponse} (state : s.ctx.requestState = .requestReceived)
    (waiting : s.ctx.reqHeaderResp = some headers) (reqBody : s.ctx.reqBodyResp = none) :
    updateStateAndSendIfNeeded (fun _ => true) s = .ok { s with
      sent := s.sent ++ [some headers]
      ctx := { s.ctx with requestState := .headerRequestResponseComplete } } :=
  update_of_stages (sendRequestHeaders_of_waiting state waiting) (sendIf_skip (by simp [reqBody]))
    (sendIf_skip (by simp)) (sendIf_skip (by simp)) (sendIf_skip (by simp)) (sendIf_skip (by simp))

theorem update_of_reqBody {headers body : ProcessingResponse} (state : s.ctx.requestState = .requestReceived)
    (waiting : s.ctx.reqHeaderResp = some headers) (reqBody : s.ctx.reqBodyResp = some body)
    (trailer : s.ctx.reqTrailerResp = none) :
    updateStateAndSendIfNeeded (fun _ => true) s = .ok { s with
      sent := s.sent ++ [some headers] ++ [some body]
      recorded := s.recorded ++ incRunningRequests s.ctx.model
      ctx := { s.ctx with
        requestState := .bodyRequestResponsesComplete, requestRunning := true, reqBodyResp := none } } := by
  have second : sendRequestBody (fun _ => true) { s with
      sent := s.sent ++ [some headers]
      ctx := { s.ctx with requestState := .headerRequestResponseComplete } } = .ok { s with
      sent := s.sent ++ [some headers] ++ [some body]
      recorded := s.recorded ++ incRunningRequests s.ctx.model
      ctx := { s.ctx with
        requestState := .bodyRequestResponsesComplete, requestRunning := true, reqBodyResp := none } } := by
    rw [sendRequestBody, sendIf_send (by simp [reqBody])]
    simp only [Stream.record, reqBody]
  exact update_of_stages (sendRequestHeaders_of_waiting state waiting) second (sendIf_skip (by simp [trailer]))
    (sendIf_skip (by simp)) (sendIf_skip (by simp)) (sendIf_skip (by simp))

end Steps

/-! ## Chunks -/

section Runs
variable {codec : Codec} {hint : DestinationHint} {backends : Nat → Backend} {s : Stream} {n : Nat}

def runAll (codec : Codec) (hint : DestinationHint) (backends : Nat → Backend) :
    Nat → List ProcessingRequest → Stream → Except (Stream × Exit) Stream :=
  Loop.steps fun n => stepAll codec hint (backends n)

theorem runAll_append {before after : List ProcessingRequest} {s' : Stream}
    (first : runAll codec hint backends n before s = .ok s') :
    runAll codec hint backends n (before ++ after) s = runAll codec hint backends (n + before.length) after s' :=
  Loop.steps_append_of_ok first

theorem runAll_cons {message : ProcessingRequest} {after : List ProcessingRequest} {s' : Stream}
    (first : stepAll codec hint (backends n) s message = .ok s') :
    runAll codec hint backends n (message :: after) s = runAll codec hint backends (n + 1) after s' :=
  Loop.steps_cons_of_ok first

theorem runAll_singleton {message : ProcessingRequest} {s' : Stream}
    (only : stepAll codec hint (backends n) s message = .ok s') :
    runAll codec hint backends n [message] s = .ok s' :=
  runAll_cons only

theorem runAll_collect {message : Bytes → Bool → ProcessingRequest} {I : Stream → Prop}
    (collects : ∀ n s chunk, I s → stepAll codec hint (backends n) s (message chunk false) =
      .ok { s with body := s.body ++ chunk })
    (keeps : ∀ s body, I s → I { s with body := body }) (chunks : List Bytes) (n : Nat) (s : Stream) (start : I s) :
    runAll codec hint backends n (chunks.map (message · false)) s =
      .ok { s with body := s.body ++ chunks.flatten } := by
  induction chunks generalizing n s with
  | nil =>
      rw [List.flatten_nil, List.append_nil]
      rfl
  | cons chunk chunks ih =>
      rw [List.map_cons, runAll_cons (collects n s chunk start), ih (n + 1) _ (keeps s _ start), List.flatten_cons,
        List.append_assoc]

/-- The state before the last chunk of the request body. -/
structure Waiting (s : Stream) : Prop where
  err : s.err = none
  state : s.ctx.requestState = .requestReceived
  reqHeader : s.ctx.reqHeaderResp = none

theorem Waiting.collect (waiting : Waiting s) (backend : Backend) (chunk : Bytes) :
    stepAll codec hint backend s (.requestBody chunk false) = .ok { s with body := s.body ++ chunk } :=
  stepAll_of_receive rfl waiting.err
    (update_of_requestReceived waiting.state waiting.reqHeader)

theorem Responding.collect (responding : Responding s) (buffers : s.ctx.modelServerStreaming = false)
    (backend : Backend) (chunk : Bytes) :
    stepAll codec hint backend s (.responseBody chunk false) = .ok { s with body := s.body ++ chunk } := by
  have received : receive codec hint backend s (.responseBody chunk false) =
      some { s with body := s.body ++ chunk } := by
    simp only [receive, buffers, Bool.false_eq_true, if_false]
    rfl
  have after : Responding { s with body := s.body ++ chunk } := { responding with }
  exact stepAll_of_receive received responding.err after.update

/-! ## The request -/

structure Requested (sent : List (Option ProcessingResponse)) (s : Stream) : Prop where
  sent : s.sent = sent
  body : s.body = []
  responseBody : s.responseBody = none
  err : s.err = none
  buffers : s.ctx.modelServerStreaming = false
  respBody : s.ctx.respBodyResp = none
  respTrailer : s.ctx.respTrailerResp = none

theorem exists_reqHeaderResp (hint : DestinationHint) (endpoint : String) (length : Nat) (ctx : RequestContext) :
    ∃ headers, (populateRequestHeaderResponse hint endpoint length ctx).reqHeaderResp = some headers ∧
      kindOf headers = some .requestHeaders :=
  ⟨_, rfl, rfl⟩

theorem run_headersOnly (codec : Codec) {ctx : RequestContext}
    (handled : handleRequestHeaders hint (backends 0) true {} = some (none, ctx)) :
    ∃ headers s, ctx.reqHeaderResp = some headers ∧ kindOf headers = some .requestHeaders ∧
      runAll codec hint backends 0 [.requestHeaders true] {} = .ok s ∧ Requested [some headers] s := by
  obtain ⟨endpoint, rfl⟩ := (handleRequestHeaders_cases handled).resolve_left (by simp)
  have received : receive codec hint (backends 0) {} (.requestHeaders true) =
      some { ctx := populateRequestHeaderResponse hint endpoint 0 {} } := by
    simp only [receive, handled, Option.bind_eq_bind, Option.bind_some]
    rfl
  obtain ⟨headers, waiting, kind⟩ := exists_reqHeaderResp hint endpoint 0 {}
  have sent := stepAll_of_receive received rfl (update_of_reqHeaders rfl waiting rfl)
  exact ⟨headers, _, waiting, kind, runAll_singleton sent, ⟨rfl, rfl, rfl, rfl, rfl, rfl, rfl⟩⟩

theorem run_toLastChunk (codec : Codec) (hint : DestinationHint) (backends : Nat → Backend) (chunks : List Bytes)
    (last : Bytes) :
    runAll codec hint backends 0 (Request.withBody chunks last).messages {} =
      runAll codec hint backends (chunks.length + 1) [.requestBody last true] { body := chunks.flatten } := by
  have started : stepAll codec hint (backends 0) {} (.requestHeaders false) = .ok {} :=
    stepAll_of_receive rfl rfl (update_of_requestReceived rfl rfl)
  have collected : runAll codec hint backends 1 (chunks.map (.requestBody · false)) {} =
      .ok { body := [] ++ chunks.flatten } :=
    runAll_collect (I := Waiting) (fun n s chunk waiting => waiting.collect (backends n) chunk)
      (fun s body waiting => { waiting with }) chunks 1 {} ⟨rfl, rfl, rfl⟩
  rw [List.nil_append] at collected
  rw [Request.messages, runAll_cons started, bodyMessages, runAll_append collected, List.length_map, Nat.add_comm 1]

theorem receive_lastChunk {chunks : List Bytes} {last : Bytes} {backend : Backend} {err : Option Err}
    {ctx : RequestContext} {map : Option Object}
    (handled : handleRequestBody codec hint backend (codec.unmarshalMap (chunks.flatten ++ last) none).1 {} =
      some (err, ctx, map)) :
    ∃ recorded, receive codec hint backend { body := chunks.flatten } (.requestBody last true) =
      some { requestBody := map, err := err, ctx := ctx, recorded := recorded } :=
  receive_requestBody handled

theorem run_withBody (backends : Nat → Backend) {chunks : List Bytes} {last : Bytes} {ctx : RequestContext}
    {map : Option Object}
    (handled : handleRequestBody codec hint (backends (chunks.length + 1))
      (codec.unmarshalMap (chunks.flatten ++ last) none).1 {} = some (none, ctx, map)) :
    ∃ headers responses s, ctx.reqHeaderResp = some headers ∧ kindOf headers = some .requestHeaders ∧
      (Request.withBody chunks last).Answers codec backends responses ∧
      runAll codec hint backends 0 (Request.withBody chunks last).messages {} = .ok s ∧
      Requested (some headers :: responses.map some) s := by
  obtain ⟨model, llmReq, encoded, pod, pool, named, resolved, marshalled, routed⟩ := handleRequestBody_of_ok handled
  obtain ⟨worker, unchanged⟩ := asked_eq codec (backends (chunks.length + 1))
    (rewritten llmReq (codec.unmarshalMap (chunks.flatten ++ last) none).1) {}
  rw [unchanged] at routed
  obtain ⟨recorded, received⟩ := receive_lastChunk handled
  subst routed
  obtain ⟨headers, waiting, kind⟩ := exists_reqHeaderResp hint (endpointOf pod pool) encoded.length
    (Server.routedContext llmReq pod pool encoded.length { workerInstanceID := worker })
  have sent := stepAll_of_receive received rfl (update_of_reqBody rfl waiting rfl rfl)
  exact ⟨headers, [⟨.requestBody { bodyMutation := some (.streamedResponse encoded true) }, none⟩], _, waiting, kind,
    ⟨model, llmReq, encoded, named, resolved, marshalled, rfl⟩,
    (run_toLastChunk codec hint backends chunks last).trans (runAll_singleton sent),
    ⟨rfl, rfl, rfl, rfl, rfl, rfl, rfl⟩⟩

theorem run_request {request : Request} {ctx : RequestContext}
    (succeeds : request.outcome codec hint backends = some (none, ctx)) :
    ∃ headers responses s, ctx.reqHeaderResp = some headers ∧ kindOf headers = some .requestHeaders ∧
      request.Answers codec backends responses ∧
      runAll codec hint backends 0 request.messages {} = .ok s ∧
      Requested (some headers :: responses.map some) s := by
  cases request with
  | headersOnly =>
      obtain ⟨headers, s, waiting, kind, ran, requested⟩ := run_headersOnly codec succeeds
      exact ⟨headers, [], s, waiting, kind, rfl, ran, requested⟩
  | withBody chunks last =>
      obtain ⟨⟨err, ctx', map⟩, handled, same⟩ := Option.map_eq_some_iff.mp succeeds
      cases same
      exact run_withBody backends handled

/-! ## The response -/

theorem readResponseHeader_eq (ctx : RequestContext) (header : HeaderValue) :
    ∃ code, readResponseHeader ctx header = { ctx with
      responseStatusCode := code
      modelServerStreaming := ctx.modelServerStreaming || isStreaming [header] } := by
  unfold readResponseHeader
  split_ifs with status contentType
  · refine ⟨some .modelServerError, ?_⟩
    simp [isStreaming, status.1]
  · refine ⟨ctx.responseStatusCode, ?_⟩
    simp [isStreaming, contentType.1, contentType.2]
  · refine ⟨ctx.responseStatusCode, ?_⟩
    have other : isStreaming [header] = false := by
      simpa [isStreaming] using contentType
    rw [other, Bool.or_false]

theorem readResponseHeaders_eq (headers : List HeaderValue) (ctx : RequestContext) :
    ∃ code, headers.foldl readResponseHeader ctx = { ctx with
      responseStatusCode := code
      modelServerStreaming := ctx.modelServerStreaming || isStreaming headers } := by
  induction headers generalizing ctx with
  | nil => exact ⟨ctx.responseStatusCode, by simp [isStreaming]⟩
  | cons header headers ih =>
      obtain ⟨first, read⟩ := readResponseHeader_eq ctx header
      obtain ⟨code, rest⟩ := ih (readResponseHeader ctx header)
      refine ⟨code, ?_⟩
      rw [List.foldl_cons, rest, read]
      simp [isStreaming, Bool.or_assoc]

theorem step_responseHeaders (codec : Codec) (hint : DestinationHint)
    {sent : List (Option ProcessingResponse)} (requested : Requested sent s)
    (backend : Backend) (headers : List HeaderValue) :
    ∃ s', stepAll codec hint backend s (.responseHeaders headers) = .ok s' ∧ Responding s' ∧
      s'.sent = sent ++ [some responseHeaders] ∧ s'.body = [] ∧ s'.responseBody = none ∧
      s'.ctx.modelServerStreaming = isStreaming headers := by
  obtain ⟨code, read⟩ := readResponseHeaders_eq headers s.ctx
  have received : receive codec hint backend s (.responseHeaders headers) = some { s with
      ctx := { headers.foldl readResponseHeader s.ctx with
        requestState := .responseRecieved, respHeaderResp := some responseHeaders } } := rfl
  rw [read] at received
  have answered := stepAll_of_receive received requested.err
    (update_of_respHeaders rfl rfl requested.respBody)
  refine ⟨_, answered, ⟨requested.err, rfl, requested.respBody, requested.respTrailer⟩, ?_, requested.body,
    requested.responseBody, ?_⟩
  · rw [requested.sent]
  · simp [requested.buffers]

theorem step_streamed (responding : Responding s) (streaming : s.ctx.modelServerStreaming = true)
    (backend : Backend) (chunk : Bytes) (endOfStream : Bool) :
    ∃ s', stepAll codec hint backend s (.responseBody chunk endOfStream) = .ok s' ∧
      s'.sent = s.sent ++ [some (streamedChunk chunk endOfStream)] ∧
      (endOfStream = false → Responding s' ∧ s'.ctx.modelServerStreaming = true) := by
  obtain ⟨metrics, received⟩ :=
    receive_responseBody_of_streaming codec hint backend streaming chunk endOfStream
  have answered := stepAll_of_receive received responding.err
    (update_of_respBody responding.state rfl responding.respTrailer)
  refine ⟨_, answered, rfl, ?_⟩
  rintro rfl
  exact ⟨⟨responding.err, rfl, rfl, responding.respTrailer⟩, streaming⟩

theorem run_streamed (codec : Codec) (hint : DestinationHint) (backends : Nat → Backend) (chunks : List Bytes)
    (last : Bytes) (n : Nat) (s : Stream) (responding : Responding s)
    (streaming : s.ctx.modelServerStreaming = true) :
    ∃ s', runAll codec hint backends n (bodyMessages .responseBody chunks last) s = .ok s' ∧
      s'.sent = s.sent ++ (chunks.map (streamedChunk · false) ++ [streamedChunk last true]).map some := by
  induction chunks generalizing n s with
  | nil =>
      obtain ⟨s', answered, sent, _⟩ := step_streamed responding streaming (backends n) last true
      exact ⟨s', runAll_singleton answered, sent⟩
  | cons chunk chunks ih =>
      obtain ⟨s₁, answered, sent, goesOn⟩ := step_streamed responding streaming (backends n) chunk false
      obtain ⟨responding₁, streaming₁⟩ := goesOn rfl
      obtain ⟨s', rest, sentRest⟩ := ih (n + 1) s₁ responding₁ streaming₁
      refine ⟨s', ?_, ?_⟩
      · have first : runAll codec hint backends n (bodyMessages .responseBody (chunk :: chunks) last) s =
            runAll codec hint backends (n + 1) (bodyMessages .responseBody chunks last) s₁ := runAll_cons answered
        rw [first, rest]
      · rw [sentRest, sent, List.append_assoc]
        rfl

theorem UsageReadable.readUsage {members : Object} (readable : UsageReadable members) (ctx : RequestContext) :
    ∃ usage, StreamingServer.readUsage (some members) ctx = some usage := by
  unfold StreamingServer.readUsage
  split
  · exact ⟨ctx.usage, rfl⟩
  · rename_i present
    obtain ⟨usg, found, counted⟩ := readable.resolve_left present
    obtain ⟨prompt, first⟩ := counted .promptTokens
    obtain ⟨completion, second⟩ := counted .completionTokens
    obtain ⟨total, third⟩ := counted .totalTokens
    rw [found]
    exact ⟨_, usageOf_of_nums first second third⟩

theorem Responding.step_buffered (responding : Responding s) (hint : DestinationHint)
    (buffers : s.ctx.modelServerStreaming = false) (backend : Backend) (last : Bytes) {encoded : Bytes} {usage : Usage}
    (marshalled : codec.marshal (codec.unmarshalMap (s.body ++ last) s.responseBody).1 = .ok encoded)
    (read : readUsage (codec.unmarshalMap (s.body ++ last) s.responseBody).1 s.ctx = some usage) :
    ∃ s', stepAll codec hint backend s (.responseBody last true) = .ok s' ∧
      s'.sent = s.sent ++ [some (streamedChunk encoded true)] := by
  have handled : handleResponseBody codec (codec.unmarshalMap (s.body ++ last) s.responseBody).1 s.ctx =
      some (none, { s.ctx with
        usage := usage
        responseSize := encoded.length
        responseComplete := true
        respBodyResp := some (streamedChunk encoded true) }) := by
    simp only [handleResponseBody, marshalled, read, Option.bind_eq_bind, Option.bind_some]
    rfl
  obtain ⟨recorded, received⟩ : ∃ recorded, receive codec hint backend s (.responseBody last true) = some { s with
      body := s.body ++ last
      responseBody := (codec.unmarshalMap (s.body ++ last) s.responseBody).1
      recorded := recorded
      ctx := { s.ctx with
        usage := usage
        responseSize := encoded.length
        responseComplete := true
        respBodyResp := some (streamedChunk encoded true) } } := by
    simp only [receive, buffers, Bool.false_eq_true, if_false, if_true, handled, Option.bind_eq_bind,
      Option.bind_some]
    exact ⟨_, rfl⟩
  have answered := stepAll_of_receive received responding.err
    (update_of_respBody responding.state rfl responding.respTrailer)
  exact ⟨_, answered, rfl⟩

theorem process_of_ok {messages : List ProcessingRequest} (ran : runAll codec hint backends 0 messages {} = .ok s) :
    process codec hint (fun _ => true) backends messages = (finish s, .returned none) := by
  have same : Loop.steps (fun n => step codec hint (fun _ => true) (backends n)) 0 messages {} = .ok s := ran
  simp only [process, Loop.run, Loop.runFrom, same]

theorem process_of_error {messages : List ProcessingRequest} {exit : Exit}
    (ran : runAll codec hint backends 0 messages {} = .error (s, exit)) :
    process codec hint (fun _ => true) backends messages = (finish s, exit) := by
  have same : Loop.steps (fun n => step codec hint (fun _ => true) (backends n)) 0 messages {} =
      .error (s, exit) := ran
  simp only [process, Loop.run, Loop.runFrom, same]

theorem run_toResponse {request : Request} {ctx : RequestContext}
    (succeeds : request.outcome codec hint backends = some (none, ctx)) (headers : List HeaderValue) :
    ∃ requestHeaders requestBody s n, ctx.reqHeaderResp = some requestHeaders ∧
      kindOf requestHeaders = some .requestHeaders ∧ request.Answers codec backends requestBody ∧
      Responding s ∧ s.sent = (requestHeaders :: requestBody ++ [responseHeaders]).map some ∧ s.body = [] ∧
      s.responseBody = none ∧ s.ctx.modelServerStreaming = isStreaming headers ∧
      ∀ chunks last, runAll codec hint backends 0 (exchange request headers chunks last) {} =
        runAll codec hint backends n (bodyMessages .responseBody chunks last) s := by
  obtain ⟨requestHeaders, requestBody, s₁, waiting, kind, answers, ran, requested⟩ := run_request succeeds
  obtain ⟨s, answered, responding, sent, body, responseBody, streaming⟩ :=
    step_responseHeaders codec hint requested (backends (0 + request.messages.length)) headers
  refine ⟨requestHeaders, requestBody, s, 0 + request.messages.length + 1, waiting, kind, answers, responding, ?_,
    body, responseBody, streaming, fun chunks last => ?_⟩
  · rw [sent]
    simp
  · rw [exchange, runAll_append ran, runAll_cons answered]

theorem run_toLast (responding : Responding s) (buffers : s.ctx.modelServerStreaming = false) (body : s.body = [])
    (chunks : List Bytes) (last : Bytes) (n : Nat) :
    runAll codec hint backends n (bodyMessages .responseBody chunks last) s =
      runAll codec hint backends (n + chunks.length) [.responseBody last true] { s with body := chunks.flatten } := by
  have collected : runAll codec hint backends n (chunks.map (.responseBody · false)) s =
      .ok { s with body := s.body ++ chunks.flatten } :=
    runAll_collect (I := fun s => Responding s ∧ s.ctx.modelServerStreaming = false)
      (fun n s chunk state => state.1.collect state.2 (backends n) chunk)
      (fun s body state => ⟨{ state.1 with }, state.2⟩) chunks n s ⟨responding, buffers⟩
  rw [body, List.nil_append] at collected
  rw [bodyMessages, runAll_append collected, List.length_map]

theorem process_buffered {messages : List ProcessingRequest} {chunks : List Bytes} {last encoded : Bytes}
    {usage : Usage}
    (ran : runAll codec hint backends 0 messages {} =
      runAll codec hint backends n (bodyMessages .responseBody chunks last) s)
    (responding : Responding s) (buffers : s.ctx.modelServerStreaming = false) (body : s.body = [])
    (marshalled : codec.marshal (codec.unmarshalMap (chunks.flatten ++ last) s.responseBody).1 = .ok encoded)
    (read : readUsage (codec.unmarshalMap (chunks.flatten ++ last) s.responseBody).1 s.ctx = some usage) :
    ∃ s', process codec hint (fun _ => true) backends messages = (finish s', .returned none) ∧
      s'.sent = s.sent ++ [some (streamedChunk encoded true)] := by
  have collected : Responding { s with body := chunks.flatten } := { responding with }
  obtain ⟨s', answered, sent⟩ :=
    collected.step_buffered hint buffers (backends (n + chunks.length)) last marshalled read
  rw [run_toLast responding buffers body chunks last n] at ran
  exact ⟨s', process_of_ok (ran.trans (runAll_singleton answered)), sent⟩

end Runs

/-- What `Process` sends in an exchange, and that it returns without an error. -/
def AnsweredFaithfully (codec : Codec) (hint : DestinationHint) (backends : Nat → Backend) (request : Request)
    (headers : List HeaderValue) (chunks : List Bytes) (last : Bytes) (ctx : RequestContext) : Prop :=
  ∃ requestHeaders requestBody responseBody, ctx.reqHeaderResp = some requestHeaders ∧
    kindOf requestHeaders = some .requestHeaders ∧ request.Answers codec backends requestBody ∧
    ResponseAnswers codec headers chunks last responseBody ∧
    (process codec hint (fun _ => true) backends (exchange request headers chunks last)).2 = .returned none ∧
    (process codec hint (fun _ => true) backends (exchange request headers chunks last)).1.sent =
      (requestHeaders :: requestBody ++ [responseHeaders] ++ responseBody).map some

theorem exchange_answered (codec : Codec) (hint : DestinationHint) (backends : Nat → Backend) (request : Request)
    (headers : List HeaderValue) (chunks : List Bytes) (last : Bytes) (ctx : RequestContext)
    (succeeds : request.outcome codec hint backends = some (none, ctx))
    (decodes : isStreaming headers = false → ∃ members,
      codec.unmarshal (chunks.flatten ++ last) = .object members none ∧ UsageReadable members) :
    AnsweredFaithfully codec hint backends request headers chunks last ctx := by
  obtain ⟨requestHeaders, requestBody, s, n, waiting, kind, answers, responding, sent, body, responseBody, mode, ran⟩ :=
    run_toResponse succeeds headers
  cases streaming : isStreaming headers with
  | true =>
      rw [streaming] at mode
      obtain ⟨s', last', sent'⟩ := run_streamed codec hint backends chunks last n s responding mode
      have done := process_of_ok ((ran chunks last).trans last')
      refine ⟨requestHeaders, requestBody, chunks.map (streamedChunk · false) ++ [streamedChunk last true], waiting,
        kind, answers, by rw [ResponseAnswers, if_pos streaming], by rw [done], ?_⟩
      rw [done, finish_sent, sent', sent, ← List.map_append]
  | false =>
      rw [streaming] at mode
      obtain ⟨members, decoded, readable⟩ := decodes streaming
      obtain ⟨encoded, marshalled, _⟩ := codec.unmarshal_marshal decoded
      have map : (codec.unmarshalMap (chunks.flatten ++ last) s.responseBody).1 = some members := by
        rw [responseBody, unmarshalMap_of_object decoded]
      obtain ⟨usage, read⟩ := readable.readUsage s.ctx
      rw [← map] at marshalled read
      obtain ⟨s', done, sent'⟩ := process_buffered (ran chunks last) responding mode body marshalled read
      rw [map] at marshalled
      refine ⟨requestHeaders, requestBody, [streamedChunk encoded true], waiting, kind, answers, ?_, by rw [done], ?_⟩
      · rw [ResponseAnswers, if_neg (by simp [streaming])]
        exact ⟨members, encoded, decoded, marshalled, rfl⟩
      · rw [done, finish_sent, sent', sent]
        simp

def jsonHeaders : List HeaderValue := [⟨"content-type", bytes "application/json"⟩]

def chunkedRequest : Request := .withBody [bytes "\x7b\"model\":"] (bytes "\"m\"\x7d")

theorem chunkedRequest_succeeds :
    ∃ ctx, chunkedRequest.outcome jsonCodec testHint (fun _ => chatBackend) = some (none, ctx) := by
  have handled : (chunkedRequest.outcome jsonCodec testHint (fun _ => chatBackend)).map (·.1.isNone) =
      some true := by decide +kernel
  obtain ⟨⟨err, ctx⟩, outcome, succeeded⟩ := Option.map_eq_some_iff.mp handled
  obtain rfl : err = none := Option.isNone_iff_eq_none.mp succeeded
  exact ⟨ctx, outcome⟩

def usageChunks : List Bytes := [bytes "\x7b\"usage\":\x7b\"completion_tokens\":10,", bytes "\"prompt_tokens\":11,"]

def usageEnd : Bytes := bytes "\"total_tokens\":21\x7d\x7d"

def counted : Object := [("completion_tokens", .num 10), ("prompt_tokens", .num 11), ("total_tokens", .num 21)]

theorem counted_readable : UsageReadable [("usage", .obj counted)] := by
  refine .inr ⟨counted, rfl, ?_⟩
  intro counter
  cases counter with
  | promptTokens => exact ⟨11, rfl⟩
  | completionTokens => exact ⟨10, rfl⟩
  | totalTokens => exact ⟨21, rfl⟩

theorem chunked_exchange_answered :
    ∃ ctx, chunkedRequest.outcome jsonCodec testHint (fun _ => chatBackend) = some (none, ctx) ∧
      isStreaming jsonHeaders = false ∧
      AnsweredFaithfully jsonCodec testHint (fun _ => chatBackend) chunkedRequest jsonHeaders usageChunks usageEnd
        ctx := by
  obtain ⟨ctx, succeeds⟩ := chunkedRequest_succeeds
  refine ⟨ctx, succeeds, by decide +kernel, exchange_answered _ _ _ _ _ _ _ ctx succeeds fun _ => ?_⟩
  have read : JsonText.parse (JsonText.decodeUtf8 (usageChunks.flatten ++ usageEnd)) =
      some (.obj [("usage", .obj counted)]) := by decide +kernel
  refine ⟨_, JsonCodec.unmarshal_of_parse read (by decide +kernel), ?_⟩
  have kept : Object.merge [] (JsonText.normalizeMembers inFloat64Range [("usage", .obj counted)]) =
      [("usage", .obj counted)] := by decide +kernel
  rw [kept]
  exact counted_readable

/-! ## Responses that are not JSON objects -/

def PassedThrough (codec : Codec) (hint : DestinationHint) (backends : Nat → Backend) (request : Request)
    (headers : List HeaderValue) (chunks : List Bytes) (last : Bytes) : Prop :=
  ∃ before, (process codec hint (fun _ => true) backends (exchange request headers chunks last)).1.sent =
    before ++ [some (streamedChunk (chunks.flatten ++ last) true)]

section Undecodable
variable {codec : Codec} {hint : DestinationHint} {backends : Nat → Backend} {request : Request}
  {headers : List HeaderValue} {chunks : List Bytes} {last : Bytes} {ctx : RequestContext}

/-- A response whose body is neither an object nor part of one is sent on as `null`. -/
theorem sent_null (succeeds : request.outcome codec hint backends = some (none, ctx))
    (buffers : isStreaming headers = false)
    (map : (codec.unmarshalMap (chunks.flatten ++ last) none).1 = none) :
    ∃ before, (process codec hint (fun _ => true) backends (exchange request headers chunks last)).1.sent =
      before ++ [some (streamedChunk (bytes "null") true)] := by
  obtain ⟨_, _, s, n, _, _, _, responding, sent, body, responseBody, mode, ran⟩ := run_toResponse succeeds headers
  rw [buffers] at mode
  have nil : (codec.unmarshalMap (chunks.flatten ++ last) s.responseBody).1 = none := by rw [responseBody, map]
  have marshalled : codec.marshal (codec.unmarshalMap (chunks.flatten ++ last) s.responseBody).1 =
      .ok (bytes "null") := by rw [nil, codec.marshal_nil]
  have read : readUsage (codec.unmarshalMap (chunks.flatten ++ last) s.responseBody).1 s.ctx =
      some s.ctx.usage := by
    rw [nil]
    rfl
  obtain ⟨s', done, sent'⟩ := process_buffered (ran chunks last) responding mode body marshalled read
  exact ⟨s.sent, by rw [done, finish_sent, sent']⟩

/-- An object that is decoded in part is either sent as an encoding of that part, or, if its usage is
not as expected, the handler panics after the response headers have been sent. -/
theorem sent_part (succeeds : request.outcome codec hint backends = some (none, ctx))
    (buffers : isStreaming headers = false) {members : Object} {err : Err}
    (decoded : codec.unmarshal (chunks.flatten ++ last) = .object members (some err)) :
    ∃ before, (process codec hint (fun _ => true) backends (exchange request headers chunks last)).1.sent =
        before ++ [some responseHeaders] ∨
      ∃ encoded, codec.unmarshal encoded = .object members none ∧
        (process codec hint (fun _ => true) backends (exchange request headers chunks last)).1.sent =
          before ++ [some (streamedChunk encoded true)] := by
  obtain ⟨requestHeaders, requestBody, s, n, _, _, _, responding, sent, body, responseBody, mode, ran⟩ :=
    run_toResponse succeeds headers
  rw [buffers] at mode
  obtain ⟨encoded, marshalled, back⟩ := codec.unmarshal_marshal decoded
  have part : (codec.unmarshalMap (chunks.flatten ++ last) s.responseBody).1 = some members := by
    rw [responseBody, unmarshalMap_of_object decoded]
  rw [← part] at marshalled
  cases read : readUsage (codec.unmarshalMap (chunks.flatten ++ last) s.responseBody).1 s.ctx with
  | some usage =>
      obtain ⟨s', done, sent'⟩ := process_buffered (ran chunks last) responding mode body marshalled read
      exact ⟨s.sent, .inr ⟨encoded, back, by rw [done, finish_sent, sent']⟩⟩
  | none =>
      have crashed : receive codec hint (backends (n + chunks.length)) { s with body := chunks.flatten }
          (.responseBody last true) = none := by
        simp only [receive, mode, Bool.false_eq_true, if_false, if_true, handleResponseBody, marshalled, read,
          Option.bind_eq_bind, Option.bind_none]
      have panics : stepAll codec hint (backends (n + chunks.length)) { s with body := chunks.flatten }
          (.responseBody last true) = .error ({ s with body := chunks.flatten }, .panicked) := by
        simp only [stepAll, step, crashed]
      have toLast := (ran chunks last).trans (run_toLast responding mode body chunks last n)
      have done := process_of_error (toLast.trans (Loop.steps_cons_of_error panics))
      refine ⟨(requestHeaders :: requestBody).map some, .inl ?_⟩
      rw [done, finish_sent, sent, List.map_append]
      rfl

end Undecodable

/-- Of the responses that do not decode as an object, only the text `null` reaches the client as it
was received. -/
theorem undecodable_response_passes_iff (codec : Codec) (hint : DestinationHint) (backends : Nat → Backend)
    (request : Request) (headers : List HeaderValue) (chunks : List Bytes) (last : Bytes) (ctx : RequestContext)
    (succeeds : request.outcome codec hint backends = some (none, ctx)) (buffers : isStreaming headers = false)
    (undecodable : ∀ members, codec.unmarshal (chunks.flatten ++ last) ≠ .object members none) :
    PassedThrough codec hint backends request headers chunks last ↔ chunks.flatten ++ last = bytes "null" := by
  have ofNil (nil : (codec.unmarshalMap (chunks.flatten ++ last) none).1 = none) :
      PassedThrough codec hint backends request headers chunks last ↔ chunks.flatten ++ last = bytes "null" := by
    obtain ⟨before, sent⟩ := sent_null succeeds buffers nil
    constructor
    · rintro ⟨before', passed⟩
      rw [sent] at passed
      have same := List.append_inj_right' passed rfl
      simpa [streamedChunk] using same.symm
    · intro same
      exact ⟨before, by rw [sent, same]⟩
  cases decoded : codec.unmarshal (chunks.flatten ++ last) with
  | invalid err => exact ofNil (by simp only [Codec.unmarshalMap, decoded])
  | null => exact ofNil (by simp only [Codec.unmarshalMap, decoded])
  | object members failed =>
      cases failed with
      | none => exact absurd decoded (undecodable members)
      | some err =>
          -- neither side holds: an encoding decodes without an error, and null is not an object
          apply iff_of_false
          · rintro ⟨before', passed⟩
            obtain ⟨before, sent | ⟨encoded, back, sent⟩⟩ := sent_part succeeds buffers decoded
            · rw [sent] at passed
              have same := List.append_inj_right' passed rfl
              simp [streamedChunk, responseHeaders] at same
            · rw [sent] at passed
              have same : encoded = chunks.flatten ++ last := by
                simpa [streamedChunk] using List.append_inj_right' passed rfl
              exact undecodable members (same ▸ back)
          · intro same
            rw [same, codec.unmarshal_null] at decoded
            cases decoded

theorem null_response_passes :
    (∃ ctx, chunkedRequest.outcome jsonCodec testHint (fun _ => chatBackend) = some (none, ctx)) ∧
      isStreaming jsonHeaders = false ∧
      PassedThrough jsonCodec testHint (fun _ => chatBackend) chunkedRequest jsonHeaders [] (bytes "null") := by
  obtain ⟨ctx, succeeds⟩ := chunkedRequest_succeeds
  have buffers : isStreaming jsonHeaders = false := by decide +kernel
  refine ⟨⟨ctx, succeeds⟩, buffers, ?_⟩
  refine (undecodable_response_passes_iff _ _ _ _ _ _ _ ctx succeeds buffers ?_).mpr rfl
  intro members decoded
  have null : jsonCodec.unmarshal ([].flatten ++ bytes "null") = .null := jsonCodec.unmarshal_null
  rw [null] at decoded
  cases decoded

theorem error_text_becomes_null :
    (∃ ctx, chunkedRequest.outcome jsonCodec testHint (fun _ => chatBackend) = some (none, ctx)) ∧
      isStreaming jsonHeaders = false ∧
      (∀ members, jsonCodec.unmarshal ([bytes "Internal "].flatten ++ bytes "Server Error") ≠ .object members none) ∧
      (process jsonCodec testHint (fun _ => true) (fun _ => chatBackend)
        (exchange chunkedRequest jsonHeaders [bytes "Internal "] (bytes "Server Error"))).1.sent.getLast? =
          some (some (streamedChunk (bytes "null") true)) ∧
      ¬ PassedThrough jsonCodec testHint (fun _ => chatBackend) chunkedRequest jsonHeaders
        [bytes "Internal "] (bytes "Server Error") := by
  have read : JsonText.parse (JsonText.decodeUtf8 ([bytes "Internal "].flatten ++ bytes "Server Error")) = none := by
    decide +kernel
  have sent : (process jsonCodec testHint (fun _ => true) (fun _ => chatBackend)
      (exchange chunkedRequest jsonHeaders [bytes "Internal "] (bytes "Server Error"))).1.sent.getLast? =
      some (some (streamedChunk (bytes "null") true)) := by decide +kernel
  refine ⟨chunkedRequest_succeeds, by decide +kernel, ?_, sent, ?_⟩
  · intro members decoded
    have invalid : jsonCodec.unmarshal ([bytes "Internal "].flatten ++ bytes "Server Error") =
        .invalid JsonCodec.invalidText := by
      simp only [jsonCodec, JsonCodec.unmarshal, read]
    rw [invalid] at decoded
    cases decoded
  · rintro ⟨before, passed⟩
    rw [passed, List.getLast?_concat] at sent
    exact absurd sent (by decide +kernel)

end InferenceGateway.StreamingServer
