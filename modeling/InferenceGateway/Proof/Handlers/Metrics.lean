import InferenceGateway.Handlers.JsonCodec
import InferenceGateway.Proof.Handlers.Exchange

/-!
What the streaming server records besides its responses: no handler touches the gauge of running
requests or the counter of errors. The gauge goes up when the request body is sent, and the deferred
function takes it down again.
-/

namespace InferenceGateway
open Lib

def ProcessingRequest.isLastBody : ProcessingRequest → Bool
  | .requestBody _ endOfStream => endOfStream
  | _ => false

def Metric.isRunning : Metric → Bool
  | .incRunningRequests _ | .decRunningRequests _ => true
  | _ => false

def Metric.errCount : Metric → Option (String × ErrorCode)
  | .requestErrCounter model _ code => some (model, code)
  | _ => none

def Metric.Ordinary (metric : Metric) : Prop := metric.isRunning = false ∧ metric.errCount = none

def runningRequests (model : String) (recorded : List Metric) : Int :=
  recorded.count (.incRunningRequests model) - recorded.count (.decRunningRequests model)

def errCounts (recorded : List Metric) : List (String × ErrorCode) := recorded.filterMap Metric.errCount

theorem runningRequests_filter (model : String) (recorded : List Metric) :
    runningRequests model (recorded.filter Metric.isRunning) = runningRequests model recorded := by
  unfold runningRequests
  rw [List.count_filter rfl, List.count_filter rfl]

section Ordinary
variable {recorded metrics : List Metric} (ordinary : ∀ metric ∈ metrics, metric.Ordinary)
include ordinary

theorem filter_append_ordinary :
    (recorded ++ metrics).filter Metric.isRunning = recorded.filter Metric.isRunning := by
  have none : metrics.filter Metric.isRunning = [] := by
    apply List.filter_eq_nil_iff.mpr
    intro metric member
    rw [(ordinary metric member).1]
    exact Bool.false_ne_true
  rw [List.filter_append, none, List.append_nil]

theorem errCounts_append_ordinary : errCounts (recorded ++ metrics) = errCounts recorded := by
  have none : metrics.filterMap Metric.errCount = [] :=
    List.filterMap_eq_nil_iff.mpr fun metric member => (ordinary metric member).2
  rw [errCounts, List.filterMap_append, none, List.append_nil, errCounts]

end Ordinary

theorem nothing_recorded (recorded : List Metric) :
    ∃ metrics, recorded = recorded ++ metrics ∧ ∀ metric ∈ metrics, metric.Ordinary :=
  ⟨[], (List.append_nil _).symm, List.forall_mem_nil _⟩

theorem ordinary_recordTokens (ctx : RequestContext) (usage : Usage) :
    ∀ metric ∈ recordInputTokens ctx usage ++ recordOutputTokens ctx usage, metric.Ordinary := by
  intro metric member
  rcases List.mem_append.mp member with input | output
  · unfold recordInputTokens at input
    split at input
    · rw [List.mem_singleton.mp input]
      exact ⟨rfl, rfl⟩
    · cases input
  · unfold recordOutputTokens at output
    split at output
    · rw [List.mem_singleton.mp output]
      exact ⟨rfl, rfl⟩
    · cases output

theorem ordinary_latencyAndSize (ctx : RequestContext) :
    ∀ metric ∈ [Metric.requestLatencies ctx.model ctx.resolvedTargetModel,
      .responseSizes ctx.model ctx.resolvedTargetModel ctx.responseSize], metric.Ordinary := by
  simp [Metric.Ordinary, Metric.isRunning, Metric.errCount]

namespace StreamingServer
variable {codec : Codec} {hint : DestinationHint} {canSend : Nat → Bool} {backend : Backend}
  {message : ProcessingRequest} {s s' : Stream}

/-- What handling a message leaves alone: only the last chunk of a request body names the model and
makes a response for the body, and only response headers set the status. -/
structure Received (message : ProcessingRequest) (s s' : Stream) : Prop where
  recorded : ∃ metrics, s'.recorded = s.recorded ++ metrics ∧ ∀ metric ∈ metrics, metric.Ordinary
  running : s'.ctx.requestRunning = s.ctx.requestRunning
  state : s'.ctx.requestState = s.ctx.requestState ∨ s'.ctx.requestState = .responseRecieved
  status : (∀ headers, message ≠ .responseHeaders headers) →
    s'.ctx.responseStatusCode = s.ctx.responseStatusCode
  model : message.isLastBody = false → s'.ctx.model = s.ctx.model
  reqBody : message.isLastBody = false → s'.ctx.reqBodyResp = s.ctx.reqBodyResp

theorem ordinary_modelStreaming (codec : Codec) (ctx : RequestContext) (chunk : Bytes) :
    ∀ metric ∈ handleResponseBodyModelStreaming codec ctx chunk, metric.Ordinary := by
  unfold handleResponseBodyModelStreaming
  split
  · exact ordinary_recordTokens ctx _
  · exact fun metric member => absurd member List.not_mem_nil

theorem handleRequestBody_frame {map map' : Option Object} {err : Option Err} {ctx ctx' : RequestContext}
    (handled : handleRequestBody codec hint backend map ctx = some (err, ctx', map')) :
    ctx'.requestRunning = ctx.requestRunning ∧ ctx'.requestState = ctx.requestState ∧
      ctx'.responseStatusCode = ctx.responseStatusCode ∧ (err ≠ none → ctx'.model = ctx.model) := by
  rcases handleRequestBody_context handled with ⟨worker, rfl⟩ | ⟨rfl, _, _, _, _, worker, rfl⟩
  · exact ⟨rfl, rfl, rfl, fun _ => rfl⟩
  · exact ⟨rfl, rfl, rfl, fun failed => absurd rfl failed⟩

theorem received_requestBody {chunk : Bytes} {endOfStream : Bool}
    (received : receive codec hint backend s (.requestBody chunk endOfStream) = some s') :
    Received (.requestBody chunk endOfStream) s s' := by
  cases endOfStream with
  | false =>
      cases received
      exact ⟨nothing_recorded _, rfl, .inl rfl, fun _ => rfl, fun _ => rfl, fun _ => rfl⟩
  | true =>
      simp only [receive, if_true, Option.bind_eq_bind, Option.bind_eq_some_iff] at received
      obtain ⟨⟨err, ctx, map⟩, handled, received⟩ := received
      obtain ⟨running, state, status, _⟩ := handleRequestBody_frame handled
      have ends : (ProcessingRequest.requestBody chunk true).isLastBody ≠ false := Bool.noConfusion
      cases err with
      | none =>
          cases received
          refine ⟨⟨_, rfl, ?_⟩, running, .inl state, fun _ => status, fun other => absurd other ends,
            fun other => absurd other ends⟩
          simp [Metric.Ordinary, Metric.isRunning, Metric.errCount]
      | some err =>
          cases received
          exact ⟨nothing_recorded _, running, .inl state, fun _ => status, fun other => absurd other ends,
            fun other => absurd other ends⟩

theorem received_responseBody {chunk : Bytes} {endOfStream : Bool}
    (received : receive codec hint backend s (.responseBody chunk endOfStream) = some s') :
    Received (.responseBody chunk endOfStream) s s' := by
  cases streaming : s.ctx.modelServerStreaming with
  | true =>
      simp only [receive, streaming, if_true] at received
      have ordinary := ordinary_modelStreaming codec s.ctx chunk
      cases endOfStream with
      | false =>
          cases received
          exact ⟨⟨_, rfl, ordinary⟩, rfl, .inl rfl, fun _ => rfl, fun _ => rfl, fun _ => rfl⟩
      | true =>
          cases received
          refine ⟨⟨_, List.append_assoc .., ?_⟩, rfl, .inl rfl, fun _ => rfl, fun _ => rfl, fun _ => rfl⟩
          intro metric member
          exact (List.mem_append.mp member).elim (ordinary metric) (ordinary_latencyAndSize s.ctx metric)
  | false =>
      cases endOfStream with
      | false =>
          simp only [receive, streaming, Bool.false_eq_true, if_false] at received
          cases received
          exact ⟨nothing_recorded _, rfl, .inl rfl, fun _ => rfl, fun _ => rfl, fun _ => rfl⟩
      | true =>
          simp only [receive, streaming, Bool.false_eq_true, if_false, if_true, Option.bind_eq_bind,
            Option.bind_eq_some_iff] at received
          obtain ⟨⟨err, ctx⟩, handled, received⟩ := received
          obtain ⟨usage, size, complete, resp, rfl⟩ : ∃ usage size complete resp, ctx =
              { s.ctx with
                usage := usage, responseSize := size, responseComplete := complete, respBodyResp := resp } := by
            unfold handleResponseBody at handled
            split at handled
            · cases handled
              exact ⟨_, _, _, _, rfl⟩
            · rw [Option.bind_eq_bind, Option.bind_eq_some_iff] at handled
              obtain ⟨usage, _, handled⟩ := handled
              cases handled
              exact ⟨_, _, _, _, rfl⟩
          split at received
          · cases received
            refine ⟨⟨_, rfl, ?_⟩, rfl, .inl rfl, fun _ => rfl, fun _ => rfl, fun _ => rfl⟩
            intro metric member
            rw [List.append_assoc] at member
            exact (List.mem_append.mp member).elim (ordinary_latencyAndSize _ metric)
              (ordinary_recordTokens _ _ metric)
          · cases received
            exact ⟨nothing_recorded _, rfl, .inl rfl, fun _ => rfl, fun _ => rfl, fun _ => rfl⟩

theorem received_of_receive (received : receive codec hint backend s message = some s') : Received message s s' := by
  cases message with
  | requestHeaders endOfStream =>
      simp only [receive, Option.bind_eq_bind, Option.bind_eq_some_iff] at received
      obtain ⟨⟨err, ctx⟩, handled, received⟩ := received
      cases received
      rcases handleRequestHeaders_cases handled with ⟨_, rfl⟩ | ⟨endpoint, rfl⟩
      all_goals
        exact ⟨nothing_recorded _, rfl, .inl rfl, fun _ => rfl, fun _ => rfl, fun _ => rfl⟩
  | requestBody chunk endOfStream => exact received_requestBody received
  | responseHeaders headers =>
      cases received
      obtain ⟨code, same⟩ := readResponseHeaders_eq headers s.ctx
      rw [same]
      exact ⟨nothing_recorded _, rfl, .inr rfl, fun other => absurd rfl (other headers),
        fun _ => rfl, fun _ => rfl⟩
  | responseBody chunk endOfStream => exact received_responseBody received
  | requestTrailers | responseTrailers | unset =>
      cases received
      exact ⟨nothing_recorded _, rfl, .inl rfl, fun _ => rfl, fun _ => rfl, fun _ => rfl⟩

/-! ## The gauge -/

/-- The gauge's part of what was recorded says whether a request is running. -/
def GaugeTracks (s : Stream) : Prop :=
  s.recorded.filter Metric.isRunning = if s.ctx.requestRunning then incRunningRequests s.ctx.model else []

def pastRequest : StreamRequestState → Bool
  | .requestReceived | .headerRequestResponseComplete => false
  | _ => true

/-- What holds with the messages to come: once the request runs or its body waits to be sent, no other
body ends. -/
structure Balanced (rest : List ProcessingRequest) (s : Stream) : Prop where
  tracks : GaugeTracks s
  sent : s.ctx.requestRunning = true → pastRequest s.ctx.requestState = true
  last : s.ctx.requestRunning = true ∨ s.ctx.reqBodyResp ≠ none → rest.countP ProcessingRequest.isLastBody = 0
  once : rest.countP ProcessingRequest.isLastBody ≤ 1

theorem Balanced.receive {rest : List ProcessingRequest} (balanced : Balanced (message :: rest) s)
    (received : receive codec hint backend s message = some s') : Balanced rest s' := by
  obtain ⟨tracks, sent, last, once⟩ := balanced
  obtain ⟨⟨metrics, recorded, ordinary⟩, running, state, _, model, reqBody⟩ := received_of_receive received
  rw [List.countP_cons] at last once
  have kept : s'.recorded.filter Metric.isRunning = s.recorded.filter Metric.isRunning := by
    rw [recorded, filter_append_ordinary ordinary]
  have remaining : rest.countP ProcessingRequest.isLastBody ≤ 1 := by omega
  cases lastBody : message.isLastBody with
  | false =>
      rw [lastBody] at last
      refine ⟨?_, ?_, ?_, remaining⟩
      · rw [GaugeTracks, kept, running, model lastBody]
        exact tracks
      · intro runs
        rw [running] at runs
        rcases state with same | left
        · rw [same]
          exact sent runs
        · rw [left]
          rfl
      · rw [running, reqBody lastBody]
        exact fun holds => by simpa using last holds
  | true =>
      rw [lastBody] at last once
      have none : rest.countP ProcessingRequest.isLastBody = 0 := by simpa using once
      have idle : s.ctx.requestRunning = false := by
        cases runs : s.ctx.requestRunning with
        | false => rfl
        | true => exact absurd (last (.inl runs)) (by simp)
      rw [GaugeTracks, idle] at tracks
      rw [idle] at running
      refine ⟨?_, ?_, fun _ => none, remaining⟩
      · rw [GaugeTracks, kept, running]
        exact tracks
      · intro runs
        rw [running] at runs
        cases runs

theorem preserves_balanced (rest : List ProcessingRequest) (canSend : Nat → Bool) :
    Preserves (Balanced rest) (updateStateAndSendIfNeeded canSend) := by
  apply preserves_updateStateAndSendIfNeeded
  · apply preserves_sendIf
    rintro s ⟨tracks, sent, last, once⟩ holds
    refine ⟨tracks, fun runs => ?_, last, once⟩
    have past := sent runs
    rw [(of_decide_eq_true holds).1] at past
    cases past
  · apply preserves_sendIf
    rintro s ⟨tracks, sent, last, once⟩ holds
    obtain ⟨reached, waiting⟩ := of_decide_eq_true holds
    have idle : s.ctx.requestRunning = false := by
      cases runs : s.ctx.requestRunning with
      | false => rfl
      | true =>
          have past := sent runs
          rw [reached] at past
          cases past
    rw [GaugeTracks, idle] at tracks
    refine ⟨?_, fun _ => rfl, fun _ => last (.inr (Option.isSome_iff_ne_none.mp waiting)), once⟩
    have counts : (incRunningRequests s.ctx.model).filter Metric.isRunning = incRunningRequests s.ctx.model := by
      unfold incRunningRequests
      split <;> rfl
    rw [GaugeTracks, Stream.record, List.filter_append, tracks, counts]
    rfl
  · apply preserves_sendIf
    rintro s ⟨tracks, sent, last, once⟩ _
    exact ⟨tracks, sent, last, once⟩
  · apply preserves_sendIf
    rintro s ⟨tracks, sent, last, once⟩ _
    exact ⟨tracks, fun _ => rfl, last, once⟩
  · apply preserves_sendIf
    rintro s ⟨tracks, sent, last, once⟩ holds
    refine ⟨tracks, fun runs => ?_, last, once⟩
    dsimp only
    split
    · rfl
    · exact sent runs
  · apply preserves_sendIf
    rintro s ⟨tracks, sent, last, once⟩ _
    exact ⟨tracks, sent, last, once⟩

theorem Balanced.step {rest : List ProcessingRequest} (balanced : Balanced (message :: rest) s)
    (moved : step codec hint canSend backend s message = .ok s') : Balanced rest s' := by
  obtain ⟨next, received, _, sent⟩ := receive_of_step moved
  have kept := preserves_balanced rest canSend next (balanced.receive received)
  rw [sent] at kept
  exact kept

theorem Balanced.step_ends {rest : List ProcessingRequest} {ended : Stream × Exit}
    (balanced : Balanced (message :: rest) s)
    (moved : StreamingServer.step codec hint canSend backend s message = .error ended) : GaugeTracks ended.1 := by
  rcases step_cases codec hint canSend backend s message with ⟨_, done⟩ | ⟨next, received, done⟩
  · rw [done] at moved
    cases moved
    exact balanced.tracks
  · have between := balanced.receive received
    rcases done with ⟨exit, done⟩ | ⟨err, resp, built, done⟩ | ⟨failed, sent, done⟩ | ⟨after, _, _, done⟩
    · rw [done] at moved
      cases moved
      exact between.tracks
    · rw [done] at moved
      cases moved
      exact between.tracks
    · rw [done] at moved
      cases moved
      have kept := preserves_balanced rest canSend next between
      rw [sent] at kept
      exact kept.tracks
    · rw [done] at moved
      cases moved

theorem finish_running (tracks : GaugeTracks s) :
    (finish s).recorded.filter Metric.isRunning = [] ∨ ∃ model,
      (finish s).recorded.filter Metric.isRunning = [.incRunningRequests model, .decRunningRequests model] := by
  have counted : ((s.ctx.responseStatusCode.or (s.err.map Err.canonicalCode)).toList.map
      (Metric.requestErrCounter s.ctx.model s.ctx.resolvedTargetModel)).filter Metric.isRunning = [] := by
    cases s.ctx.responseStatusCode.or (s.err.map Err.canonicalCode) <;> rfl
  unfold GaugeTracks at tracks
  unfold finish
  dsimp only [Stream.record]
  split
  · rename_i running
    rw [List.filter_append, List.filter_append, counted, tracks, if_pos running]
    by_cases unnamed : s.ctx.model = ""
    · exact .inl (by simp [incRunningRequests, decRunningRequests, unnamed])
    · exact .inr ⟨s.ctx.model, by simp [incRunningRequests, decRunningRequests, unnamed, Metric.isRunning]⟩
  · rename_i idle
    rw [List.filter_append, counted, tracks, if_neg idle]
    exact .inl rfl

theorem runningRequests_before {log before : List Metric} {model : String}
    (shape : log = [] ∨ ∃ named, log = [.incRunningRequests named, .decRunningRequests named])
    (isPrefix : before <+: log) :
    (before = log → runningRequests model before = 0) ∧
      0 ≤ runningRequests model before ∧ runningRequests model before ≤ 1 := by
  rcases shape with rfl | ⟨named, rfl⟩
  · rw [List.prefix_nil.mp isPrefix]
    simp [runningRequests]
  · have prefixes : before = [] ∨ before = [.incRunningRequests named] ∨
        before = [.incRunningRequests named, .decRunningRequests named] := by
      rcases List.prefix_cons_iff.mp isPrefix with none | ⟨rest, rfl, shorter⟩
      · exact .inl none
      · rcases List.prefix_cons_iff.mp shorter with rfl | ⟨none, rfl, shortest⟩
        · exact .inr (.inl rfl)
        · rw [List.prefix_nil.mp shortest]
          exact .inr (.inr rfl)
    by_cases same : named = model
    · rcases prefixes with rfl | rfl | rfl <;> simp [runningRequests, same]
    · rcases prefixes with rfl | rfl | rfl <;> simp [runningRequests, same]

theorem gaugeTracks_run (codec : Codec) (hint : DestinationHint) (canSend : Nat → Bool) (backends : Nat → Backend)
    {messages : List ProcessingRequest} (once : messages.countP ProcessingRequest.isLastBody ≤ 1) :
    GaugeTracks (Loop.run (fun n => step codec hint canSend (backends n)) (.returned none) messages {}).1 := by
  have start : Balanced messages {} := by
    refine ⟨rfl, fun runs => absurd runs (by decide), ?_, once⟩
    rintro (runs | waits)
    · cases runs
    · exact absurd rfl waits
  exact Loop.runFrom_rule (I := fun _ => Balanced) (J := fun ended : Stream × Exit => GaugeTracks ended.1)
    Balanced.step Balanced.step_ends Balanced.tracks start

theorem running_requests_balanced (codec : Codec) (hint : DestinationHint) (canSend : Nat → Bool)
    (backends : Nat → Backend) (messages : List ProcessingRequest) (ending : StreamEnd)
    (once : messages.countP ProcessingRequest.isLastBody ≤ 1) (model : String) :
    runningRequests model (processUntil codec hint canSend backends messages ending).1.recorded = 0 ∧
      ∀ before, before <+: (processUntil codec hint canSend backends messages ending).1.recorded →
        0 ≤ runningRequests model before ∧ runningRequests model before ≤ 1 := by
  rw [processUntil_fst]
  have shape := finish_running (gaugeTracks_run codec hint canSend backends once)
  constructor
  · rw [← runningRequests_filter]
    exact (runningRequests_before shape List.prefix_rfl).1 rfl
  · intro before isPrefix
    rw [← runningRequests_filter]
    exact (runningRequests_before shape (isPrefix.filter Metric.isRunning)).2

def sentRequest : List ProcessingRequest := [.requestHeaders false, .requestBody chatBody true]

theorem sent_request_balanced :
    sentRequest.countP ProcessingRequest.isLastBody = 1 ∧
      (processUntil jsonCodec testHint (fun _ => true) (fun _ => chatBackend) sentRequest
        .recvFailed).1.recorded.filter Metric.isRunning = [.incRunningRequests "m", .decRunningRequests "m"] ∧
      runningRequests "m" (processUntil jsonCodec testHint (fun _ => true) (fun _ => chatBackend) sentRequest
        .recvFailed).1.recorded = 0 :=
  ⟨by decide, by decide +kernel,
    (running_requests_balanced jsonCodec testHint (fun _ => true) (fun _ => chatBackend) sentRequest .recvFailed
      (by decide) "m").1⟩

end StreamingServer

end InferenceGateway
