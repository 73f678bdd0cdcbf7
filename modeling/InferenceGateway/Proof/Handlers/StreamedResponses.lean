import InferenceGateway.Lib.Outcome
import InferenceGateway.Handlers.TextCodec
import InferenceGateway.Proof.Handlers.ResponseHeaders

/-!
What both servers record about a streamed response, over whole streams.
-/

namespace InferenceGateway
open Lib

/-! ## Progress -/

def Metric.responseSize : Metric → Option Nat
  | .responseSizes _ _ size => some size
  | _ => none

def Metric.inputSize : Metric → Option Int
  | .inputTokens _ _ size => some size
  | _ => none

def Metric.outputSize : Metric → Option Int
  | .outputTokens _ _ size => some size
  | _ => none

structure Observed where
  sizes : List Nat
  inputs : List Int
  outputs : List Int
deriving DecidableEq

def observed (recorded : List Metric) : Observed where
  sizes := recorded.filterMap Metric.responseSize
  inputs := recorded.filterMap Metric.inputSize
  outputs := recorded.filterMap Metric.outputSize

instance : Append Observed where
  append first second :=
    ⟨first.sizes ++ second.sizes, first.inputs ++ second.inputs, first.outputs ++ second.outputs⟩

theorem Observed.append_eq (first second : Observed) : first ++ second =
    ⟨first.sizes ++ second.sizes, first.inputs ++ second.inputs, first.outputs ++ second.outputs⟩ :=
  rfl

theorem observed_append (recorded metrics : List Metric) :
    observed (recorded ++ metrics) = observed recorded ++ observed metrics := by
  simp [observed, Observed.append_eq]

theorem observed_append_of_none (recorded : List Metric) {metrics : List Metric}
    (unobserved : observed metrics = ⟨[], [], []⟩) : observed (recorded ++ metrics) = observed recorded := by
  simp [observed_append, unobserved, Observed.append_eq]

def tokenCount (n : Int) : List Int := if 0 < n then [n] else []

theorem observed_tokens (ctx : RequestContext) (usage : Usage) :
    observed (recordInputTokens ctx usage ++ recordOutputTokens ctx usage) =
      ⟨[], tokenCount usage.promptTokens, tokenCount usage.completionTokens⟩ := by
  unfold recordInputTokens recordOutputTokens tokenCount
  split_ifs <;> rfl

theorem observed_latencyAndSize (ctx : RequestContext) :
    observed [.requestLatencies ctx.model ctx.resolvedTargetModel,
      .responseSizes ctx.model ctx.resolvedTargetModel ctx.responseSize] = ⟨[ctx.responseSize], [], []⟩ :=
  rfl

theorem observed_errCounter (code : Option ErrorCode) (model target : String) :
    observed (code.toList.map (.requestErrCounter model target)) = ⟨[], [], []⟩ := by
  cases code <;> rfl

theorem observed_running (model : String) :
    observed (incRunningRequests model) = ⟨[], [], []⟩ ∧ observed (decRunningRequests model) = ⟨[], [], []⟩ := by
  unfold incRunningRequests decRunningRequests
  split_ifs <;> exact ⟨rfl, rfl⟩

structure Progress where
  streaming : Bool
  complete : Bool
  size : Nat
  observed : Observed

def progress (ctx : RequestContext) (recorded : List Metric) : Progress where
  streaming := ctx.modelServerStreaming
  complete := ctx.responseComplete
  size := ctx.responseSize
  observed := observed recorded

theorem progress_append_of_none (ctx : RequestContext) (recorded : List Metric) {metrics : List Metric}
    (unobserved : observed metrics = ⟨[], [], []⟩) : progress ctx (recorded ++ metrics) = progress ctx recorded := by
  rw [progress, observed_append_of_none recorded unobserved, progress]

def Progress.begun : Progress := ⟨true, false, 0, ⟨[], [], []⟩⟩

def ProcessingRequest.isResponse : ProcessingRequest → Bool
  | .responseHeaders _ | .responseBody _ _ | .responseTrailers => true
  | _ => false

/-- The messages of a stream up to the last chunk of the response. -/
def opening (requests : List ProcessingRequest) (headers : List HeaderValue) (chunks : List Bytes) :
    List ProcessingRequest :=
  requests ++ .responseHeaders headers :: chunks.map (.responseBody · false)

def streamedRun (requests : List ProcessingRequest) (headers : List HeaderValue) (chunks : List Bytes) (last : Bytes) :
    List ProcessingRequest :=
  opening requests headers chunks ++ [.responseBody last true]

/-! ## The buffered server -/

namespace Server
variable {codec : Codec} {hint : DestinationHint} {canSend : Nat → Bool} {backend : Backend}
  {backends : Nat → Backend} {s s' : Stream} {message : ProcessingRequest}

def Stream.progress (s : Stream) : Progress := InferenceGateway.progress s.ctx s.recorded

def Reaches (codec : Codec) (hint : DestinationHint) (canSend : Nat → Bool) (backends : Nat → Backend)
    (messages : List ProcessingRequest) : Prop :=
  Loop.Passes (fun n => step codec hint canSend (backends n)) messages {}

theorem progress_outcome {resp : Option ProcessingResponse} {next : Stream}
    (received : receive codec hint backend s message = some (.ok (resp, next))) :
    (Loop.outcome (step codec hint canSend backend s message)).progress = next.progress := by
  simp only [step, received]
  split
  · split <;> rfl
  · split
    · rfl
    · split <;> rfl

theorem progress_step (moved : step codec hint canSend backend s message = .ok s') :
    ∃ resp next, receive codec hint backend s message = some (.ok (resp, next)) ∧ s'.progress = next.progress := by
  have moves := moves codec hint canSend backend s message
  rw [moved] at moves
  cases moves with
  | goesOn received err sent recorded ctx => exact ⟨_, _, received, by rw [Stream.progress, ctx, recorded]; rfl⟩

theorem progress_handleRequestBody {text : Bytes} {ctx ctx' : RequestContext} {result : Except Err ProcessingResponse}
    (handled : handleRequestBody codec hint backend text ctx = some (result, ctx')) (recorded : List Metric) :
    progress ctx' recorded = progress ctx recorded := by
  have handles := handles codec hint backend text ctx
  rw [handled] at handles
  cases handles <;> rfl

theorem progress_receive_request (request : message.isResponse = false) {resp : Option ProcessingResponse}
    {next : Stream} (received : receive codec hint backend s message = some (.ok (resp, next))) :
    next.progress = s.progress := by
  cases message with
  | requestHeaders endOfStream =>
      cases received
      rfl
  | requestBody body endOfStream =>
      simp only [receive, Option.bind_eq_bind, Option.bind_eq_some_iff] at received
      obtain ⟨⟨result, ctx⟩, handled, received⟩ := received
      have kept := progress_handleRequestBody handled s.recorded
      cases result with
      | error err =>
          cases received
          exact kept
      | ok resp =>
          cases received
          exact (progress_append_of_none ctx s.recorded rfl).trans kept
  | responseHeaders headers | responseBody chunk endOfStream | responseTrailers => cases request
  | requestTrailers | unset => cases received

theorem progress_step_request (request : message.isResponse = false)
    (moved : step codec hint canSend backend s message = .ok s') : s'.progress = s.progress := by
  obtain ⟨resp, next, received, same⟩ := progress_step moved
  rw [same, progress_receive_request request received]

theorem progress_step_responseHeaders {headers : List HeaderValue}
    (moved : step codec hint canSend backend s (.responseHeaders headers) = .ok s') :
    s'.progress = { s.progress with streaming := s.progress.streaming || StreamingServer.isStreaming headers } := by
  obtain ⟨resp, next, received, same⟩ := progress_step moved
  simp only [receive, Option.bind_eq_bind, Option.bind_eq_some_iff] at received
  obtain ⟨⟨response, ctx⟩, handled, received⟩ := received
  have nonempty : ∀ header ∈ headers, header.key = "status" → header.rawValue ≠ [] := by
    intro header member status empty
    rw [handleResponseHeaders_eq_none_iff.mpr ⟨header, member, status, empty⟩] at handled
    cases handled
  rw [handleResponseHeaders_eq s.ctx nonempty] at handled
  cases handled
  cases received
  exact same

theorem handleStreaming_eq (codec : Codec) (chunk : Bytes) (endOfStream : Bool) (ctx : RequestContext) :
    ∃ usage, handleStreaming codec chunk endOfStream ctx = { ctx with
      usage := usage
      responseComplete := ctx.responseComplete || endOfStream
      responseSize := if endOfStream then ctx.responseSize else ctx.responseSize + chunk.length } := by
  refine ⟨if chunk.contains streamingEndMsg then (parseRespForUsage codec chunk).usage else ctx.usage, ?_⟩
  unfold handleStreaming
  cases endOfStream <;> cases chunk.contains streamingEndMsg <;> simp

theorem receive_chunk (codec : Codec) (hint : DestinationHint) (backend : Backend)
    (streaming : s.ctx.modelServerStreaming = true) (incomplete : s.ctx.responseComplete = false) (chunk : Bytes) :
    ∃ resp next, receive codec hint backend s (.responseBody chunk false) = some (.ok (resp, next)) ∧
      next.progress = { s.progress with size := s.ctx.responseSize + chunk.length } := by
  obtain ⟨usage, handled⟩ := handleStreaming_eq codec chunk false s.ctx
  refine ⟨some ⟨.responseBody {}, none⟩, { s with ctx := handleStreaming codec chunk false s.ctx }, ?_, ?_⟩
  · simp [receive, handleResponseBody, streaming, handled, incomplete]
  · simp [Stream.progress, progress, handled]

theorem receive_last (codec : Codec) (hint : DestinationHint) (backend : Backend)
    (streaming : s.ctx.modelServerStreaming = true) (last : Bytes) :
    ∃ resp next, receive codec hint backend s (.responseBody last true) = some (.ok (resp, next)) ∧
      next.progress.observed.sizes = s.progress.observed.sizes ++ [s.ctx.responseSize] := by
  obtain ⟨usage, handled⟩ := handleStreaming_eq codec last true s.ctx
  generalize after : handleStreaming codec last true s.ctx = ctx at handled
  have complete : ctx.responseComplete = true := by simp [handled]
  refine ⟨some ⟨.responseBody {}, none⟩, { s with ctx := ctx }.record
    ([Metric.requestLatencies ctx.model ctx.resolvedTargetModel,
      Metric.responseSizes ctx.model ctx.resolvedTargetModel ctx.responseSize] ++
      recordInputTokens ctx ctx.usage ++ recordOutputTokens ctx ctx.usage), ?_, ?_⟩
  · simp [receive, handleResponseBody, streaming, after, complete]
  · have size : ctx.responseSize = s.ctx.responseSize := by simp [handled]
    simp only [Stream.record, Stream.progress, progress, List.append_assoc]
    rw [observed_append, observed_append, observed_latencyAndSize, observed_tokens, size]
    rfl

theorem progress_run_chunks {chunks : List Bytes} (streaming : s.progress.streaming = true)
    (incomplete : s.progress.complete = false) {n : Nat}
    (done : Loop.steps (fun n => step codec hint canSend (backends n)) n (chunks.map (.responseBody · false)) s =
      .ok s') :
    s'.progress = { s.progress with size := s.progress.size + chunks.flatten.length } := by
  induction chunks generalizing n s with
  | nil =>
      cases done
      rfl
  | cons chunk chunks ih =>
      obtain ⟨next, moved, rest⟩ := Loop.steps_cons_eq_ok done
      obtain ⟨resp, after, received, grown⟩ := receive_chunk codec hint (backends n) streaming incomplete chunk
      have same : next.progress = after.progress := by
        rw [← progress_outcome received, moved, Loop.outcome]
      rw [grown] at same
      rw [ih (by rw [same]; exact streaming) (by rw [same]; exact incomplete) rest, same, List.flatten_cons,
        List.length_append, ← Nat.add_assoc]
      rfl

theorem progress_finish (s : Stream) : (finish s).progress = s.progress :=
  progress_append_of_none s.ctx s.recorded (observed_errCounter _ _ _)

theorem progress_process {before : List ProcessingRequest} {resp : Option ProcessingResponse} {next : Stream}
    (reached : Loop.steps (fun n => step codec hint canSend (backends n)) 0 before {} = .ok s)
    (received : receive codec hint (backends before.length) s message = some (.ok (resp, next))) :
    (process codec hint canSend backends (before ++ [message])).1.progress = next.progress := by
  unfold process
  dsimp only
  rw [progress_finish, Loop.run_append_singleton reached, progress_outcome received]

/-- The size that is recorded is that of the chunks before the last one. -/
theorem sizes_streamedRun {requests : List ProcessingRequest} (only : ∀ message ∈ requests, message.isResponse = false)
    {headers : List HeaderValue} (eventStream : StreamingServer.isStreaming headers = true) {chunks : List Bytes}
    (reaches : Reaches codec hint canSend backends (opening requests headers chunks)) (last : Bytes) :
    (observed (process codec hint canSend backends (streamedRun requests headers chunks last)).1.recorded).sizes =
      [chunks.flatten.length] := by
  obtain ⟨s, done⟩ := reaches
  obtain ⟨s₁, requested, rest⟩ := Loop.steps_append_eq_ok done
  obtain ⟨s₂, headed, chunked⟩ := Loop.steps_cons_eq_ok rest
  have first : s₂.progress = .begun := by
    rw [progress_step_responseHeaders headed, Loop.view_steps (fun message member => progress_step_request
      (only message member)) requested, eventStream]
    rfl
  have before := progress_run_chunks (by rw [first]; rfl) (by rw [first]; rfl) chunked
  rw [first] at before
  obtain ⟨resp, next, received, sizes⟩ := receive_last codec hint (backends (opening requests headers chunks).length)
    (congrArg Progress.streaming before) last
  have size : s.ctx.responseSize = chunks.flatten.length :=
    (congrArg Progress.size before).trans (Nat.zero_add _)
  rw [before, size] at sizes
  exact (congrArg (·.observed.sizes) (progress_process done received)).trans sizes

end Server

/-! ## The streaming server -/

namespace StreamingServer
variable {codec : Codec} {hint : DestinationHint} {canSend : Nat → Bool} {backend : Backend}
  {backends : Nat → Backend} {s s' : Stream} {message : ProcessingRequest}

def Stream.progress (s : Stream) : Progress := InferenceGateway.progress s.ctx s.recorded

def Reaches (codec : Codec) (hint : DestinationHint) (canSend : Nat → Bool) (backends : Nat → Backend)
    (messages : List ProcessingRequest) : Prop :=
  Loop.Passes (fun n => step codec hint canSend (backends n)) messages {}

theorem preserves_progress (canSend : Nat → Bool) (p : Progress) :
    Preserves (fun s => s.progress = p) (updateStateAndSendIfNeeded canSend) := by
  apply preserves_updateStateAndSendIfNeeded
  · exact preserves_sendIf fun s same _ => same
  · apply preserves_sendIf
    intro s same _
    exact (progress_append_of_none s.ctx s.recorded (observed_running _).1).trans same
  · exact preserves_sendIf fun s same _ => same
  · exact preserves_sendIf fun s same _ => same
  · exact preserves_sendIf fun s same _ => same
  · exact preserves_sendIf fun s same _ => same

theorem progress_outcome {next : Stream} (received : receive codec hint backend s message = some next) :
    (Loop.outcome (step codec hint canSend backend s message)).progress = next.progress := by
  have kept := preserves_progress canSend next.progress next rfl
  rcases step_cases codec hint canSend backend s message with ⟨crashed, _⟩ | ⟨_, again, done⟩
  · rw [crashed] at received
    cases received
  · rw [received] at again
    cases again
    rcases done with ⟨exit, done⟩ | ⟨err, resp, _, done⟩ | ⟨failed, sent, done⟩ | ⟨after, _, sent, done⟩
    · rw [done]
      rfl
    · rw [done]
      rfl
    · rw [sent] at kept
      rw [done]
      exact kept
    · rw [sent] at kept
      rw [done]
      exact kept

theorem progress_step (moved : step codec hint canSend backend s message = .ok s') :
    ∃ next, receive codec hint backend s message = some next ∧ s'.progress = next.progress := by
  obtain ⟨next, received, _⟩ := receive_of_step moved
  refine ⟨next, received, ?_⟩
  rw [← progress_outcome received, moved, Loop.outcome]

theorem progress_handleRequestBody {map map' : Option Object} {err : Option Err} {ctx ctx' : RequestContext}
    (handled : handleRequestBody codec hint backend map ctx = some (err, ctx', map')) (recorded : List Metric) :
    progress ctx' recorded = progress ctx recorded := by
  rcases handleRequestBody_context handled with ⟨worker, rfl⟩ | ⟨rfl, _, _, _, _, worker, rfl⟩
  · rfl
  · rfl

theorem progress_step_request (request : message.isResponse = false)
    (moved : step codec hint canSend backend s message = .ok s') : s'.progress = s.progress := by
  obtain ⟨next, received, same⟩ := progress_step moved
  rw [same]
  cases message with
  | requestHeaders endOfStream =>
      simp only [receive, Option.bind_eq_bind, Option.bind_eq_some_iff] at received
      obtain ⟨⟨err, ctx⟩, handled, received⟩ := received
      cases received
      rcases handleRequestHeaders_cases handled with ⟨_, rfl⟩ | ⟨endpoint, rfl⟩
      · rfl
      · rfl
  | requestBody chunk endOfStream =>
      cases endOfStream with
      | false =>
          cases received
          rfl
      | true =>
          simp only [receive, if_true, Option.bind_eq_bind, Option.bind_eq_some_iff] at received
          obtain ⟨⟨err, ctx, map⟩, handled, received⟩ := received
          have kept := progress_handleRequestBody handled s.recorded
          cases err with
          | some err =>
              cases received
              exact kept
          | none =>
              cases received
              exact (progress_append_of_none ctx s.recorded rfl).trans kept
  | responseHeaders headers | responseBody chunk endOfStream | responseTrailers => cases request
  | requestTrailers | unset =>
      cases received
      rfl

theorem progress_step_responseHeaders {headers : List HeaderValue}
    (moved : step codec hint canSend backend s (.responseHeaders headers) = .ok s') :
    s'.progress = { s.progress with streaming := s.progress.streaming || isStreaming headers } := by
  obtain ⟨next, received, same⟩ := progress_step moved
  obtain ⟨code, read⟩ := readResponseHeaders_eq headers s.ctx
  cases received
  rw [same, Stream.progress, read]
  rfl

def chunkTokens (codec : Codec) (counter : Counter) (chunk : Bytes) : List Int :=
  if chunk.contains streamingEndMsg then tokenCount ((parseRespForUsage codec chunk).usage.get counter) else []

theorem observed_handleResponseBodyModelStreaming (codec : Codec) (ctx : RequestContext) (chunk : Bytes) :
    observed (handleResponseBodyModelStreaming codec ctx chunk) =
      ⟨[], chunkTokens codec .promptTokens chunk, chunkTokens codec .completionTokens chunk⟩ := by
  unfold handleResponseBodyModelStreaming chunkTokens
  split
  · exact observed_tokens ctx _
  · rfl

theorem receive_chunk (codec : Codec) (hint : DestinationHint) (backend : Backend)
    (streaming : s.ctx.modelServerStreaming = true) (chunk : Bytes) (endOfStream : Bool) :
    ∃ next, receive codec hint backend s (.responseBody chunk endOfStream) = some next ∧
      next.progress = { s.progress with observed := s.progress.observed ++
        ⟨if endOfStream then [s.ctx.responseSize] else [], chunkTokens codec .promptTokens chunk,
          chunkTokens codec .completionTokens chunk⟩ } := by
  cases endOfStream with
  | false =>
      refine ⟨{ s.record (handleResponseBodyModelStreaming codec s.ctx chunk) with
        ctx := { s.ctx with respBodyResp := some (streamedChunk chunk false) } }, ?_, ?_⟩
      · simp [receive, streaming, Stream.record, streamedChunk]
      · simp only [Stream.progress, progress, Stream.record, observed_append,
          observed_handleResponseBodyModelStreaming]
        rfl
  | true =>
      refine ⟨{ s.record (handleResponseBodyModelStreaming codec s.ctx chunk ++
        [.requestLatencies s.ctx.model s.ctx.resolvedTargetModel,
          .responseSizes s.ctx.model s.ctx.resolvedTargetModel s.ctx.responseSize]) with
        ctx := { s.ctx with respBodyResp := some (streamedChunk chunk true) } }, ?_, ?_⟩
      · simp [receive, streaming, Stream.record, streamedChunk]
      · simp only [Stream.progress, progress, Stream.record, observed_append,
          observed_handleResponseBodyModelStreaming, observed_latencyAndSize]
        simp [Observed.append_eq]

theorem progress_run_chunks {chunks : List Bytes} (streaming : s.progress.streaming = true) {n : Nat}
    (done : Loop.steps (fun n => step codec hint canSend (backends n)) n (chunks.map (.responseBody · false)) s =
      .ok s') :
    s'.progress = { s.progress with observed := s.progress.observed ++
      ⟨[], chunks.flatMap (chunkTokens codec .promptTokens),
        chunks.flatMap (chunkTokens codec .completionTokens)⟩ } := by
  induction chunks generalizing n s with
  | nil =>
      cases done
      simp [Observed.append_eq]
  | cons chunk chunks ih =>
      obtain ⟨next, moved, rest⟩ := Loop.steps_cons_eq_ok done
      obtain ⟨after, received, grown⟩ := receive_chunk codec hint (backends n) streaming chunk false
      have same : next.progress = after.progress := by
        rw [← progress_outcome received, moved, Loop.outcome]
      rw [grown] at same
      rw [ih (by rw [same]; exact streaming) rest, same]
      simp [Observed.append_eq]

theorem progress_finish (s : Stream) : (finish s).progress = s.progress := by
  have counted := progress_append_of_none s.ctx s.recorded
    (observed_errCounter (s.ctx.responseStatusCode.or (s.err.map Err.canonicalCode)) s.ctx.model
      s.ctx.resolvedTargetModel)
  unfold finish
  dsimp only
  split
  · exact (progress_append_of_none s.ctx _ (observed_running _).2).trans counted
  · exact counted

theorem progress_process {before : List ProcessingRequest} {next : Stream}
    (reached : Loop.steps (fun n => step codec hint canSend (backends n)) 0 before {} = .ok s)
    (received : receive codec hint (backends before.length) s message = some next) :
    (process codec hint canSend backends (before ++ [message])).1.progress = next.progress := by
  unfold process
  dsimp only
  rw [progress_finish, Loop.run_append_singleton reached, progress_outcome received]

/-- The size that is recorded is always 0, and tokens are recorded chunk by chunk. -/
theorem observed_streamedRun {requests : List ProcessingRequest}
    (only : ∀ message ∈ requests, message.isResponse = false) {headers : List HeaderValue}
    (eventStream : isStreaming headers = true) {chunks : List Bytes}
    (reaches : Reaches codec hint canSend backends (opening requests headers chunks)) (last : Bytes) :
    observed (process codec hint canSend backends (streamedRun requests headers chunks last)).1.recorded =
      ⟨[0], (chunks ++ [last]).flatMap (chunkTokens codec .promptTokens),
        (chunks ++ [last]).flatMap (chunkTokens codec .completionTokens)⟩ := by
  obtain ⟨s, done⟩ := reaches
  obtain ⟨s₁, requested, rest⟩ := Loop.steps_append_eq_ok done
  obtain ⟨s₂, headed, chunked⟩ := Loop.steps_cons_eq_ok rest
  have first : s₂.progress = .begun := by
    rw [progress_step_responseHeaders headed, Loop.view_steps (fun message member => progress_step_request
      (only message member)) requested, eventStream]
    rfl
  have before := progress_run_chunks (by rw [first]; rfl) chunked
  rw [first] at before
  obtain ⟨next, received, grown⟩ := receive_chunk codec hint (backends (opening requests headers chunks).length)
    (congrArg Progress.streaming before) last true
  have size : s.ctx.responseSize = 0 := congrArg Progress.size before
  rw [before, size] at grown
  have ended := congrArg Progress.observed ((progress_process done received).trans grown)
  refine ended.trans ?_
  simp [Observed.append_eq, Progress.begun]

end StreamingServer

/-! ## The size of a streamed response -/

theorem streamed_size_recorded_iff (codec : Codec) (hint : DestinationHint) (canSend : Nat → Bool)
    (backends : Nat → Backend) (requests : List ProcessingRequest)
    (only : ∀ message ∈ requests, message.isResponse = false) (headers : List HeaderValue)
    (eventStream : StreamingServer.isStreaming headers = true) (chunks : List Bytes) (last : Bytes)
    (buffered : Server.Reaches codec hint canSend backends (opening requests headers chunks))
    (streaming : StreamingServer.Reaches codec hint canSend backends (opening requests headers chunks)) :
    ((observed (Server.process codec hint canSend backends
        (streamedRun requests headers chunks last)).1.recorded).sizes = [(chunks.flatten ++ last).length] ↔
      last = []) ∧
    ((observed (StreamingServer.process codec hint canSend backends
        (streamedRun requests headers chunks last)).1.recorded).sizes = [(chunks.flatten ++ last).length] ↔
      chunks.flatten ++ last = []) := by
  rw [Server.sizes_streamedRun only eventStream buffered,
    StreamingServer.observed_streamedRun only eventStream streaming]
  constructor
  · rw [List.length_append]
    simp
  · rw [List.cons.injEq, eq_comm, List.length_eq_zero_iff]
    simp

def eventStreamHeaders : List HeaderValue := [⟨"content-type", bytes "text/event-stream"⟩]

def generateRequest : List ProcessingRequest :=
  [.requestHeaders false, .requestBody (bytes "\x7b\"model\":\"m\"\x7d") true]

theorem passes_of_ok {S M E : Type} {step : Nat → S → M → Except (S × E) S} {messages : List M} {s : S}
    (ok : (Loop.steps step 0 messages s).toOption.any (fun _ => true) = true) : Loop.Passes step messages s := by
  obtain ⟨s', done, -⟩ := Outcome.exists_of_any ok
  exact ⟨s', done⟩

theorem empty_last_chunk_recorded :
    Server.Reaches jsonCodec testHint (fun _ => true) (fun _ => chatBackend)
      (opening generateRequest eventStreamHeaders [bytes "data: 1\n\n"]) ∧
    StreamingServer.Reaches jsonCodec testHint (fun _ => true) (fun _ => chatBackend)
      (opening generateRequest eventStreamHeaders [bytes "data: 1\n\n"]) ∧
    (observed (Server.process jsonCodec testHint (fun _ => true) (fun _ => chatBackend)
      (streamedRun generateRequest eventStreamHeaders [bytes "data: 1\n\n"] [])).1.recorded).sizes = [9] ∧
    (observed (StreamingServer.process jsonCodec testHint (fun _ => true) (fun _ => chatBackend)
      (streamedRun generateRequest eventStreamHeaders [bytes "data: 1\n\n"] [])).1.recorded).sizes ≠ [9] := by
  have buffered : Server.Reaches jsonCodec testHint (fun _ => true) (fun _ => chatBackend)
      (opening generateRequest eventStreamHeaders [bytes "data: 1\n\n"]) := passes_of_ok (by decide +kernel)
  have streaming : StreamingServer.Reaches jsonCodec testHint (fun _ => true) (fun _ => chatBackend)
      (opening generateRequest eventStreamHeaders [bytes "data: 1\n\n"]) := passes_of_ok (by decide +kernel)
  obtain ⟨kept, lost⟩ := streamed_size_recorded_iff jsonCodec testHint (fun _ => true) (fun _ => chatBackend)
    generateRequest (by decide +kernel) eventStreamHeaders (by decide +kernel) [bytes "data: 1\n\n"] [] buffered
    streaming
  exact ⟨buffered, streaming, kept.mpr rfl, fun same => absurd (lost.mp same) (by decide +kernel)⟩

theorem last_chunk_not_counted :
    ([bytes "data: 1\n\n"].flatten ++ bytes "data: [DONE]\n\n").length = 23 ∧
    (observed (Server.process jsonCodec testHint (fun _ => true) (fun _ => chatBackend)
      (streamedRun generateRequest eventStreamHeaders [bytes "data: 1\n\n"]
        (bytes "data: [DONE]\n\n"))).1.recorded).sizes = [9] ∧
    (observed (StreamingServer.process jsonCodec testHint (fun _ => true) (fun _ => chatBackend)
      (streamedRun generateRequest eventStreamHeaders [bytes "data: 1\n\n"]
        (bytes "data: [DONE]\n\n"))).1.recorded).sizes = [0] := by
  decide +kernel

end InferenceGateway
