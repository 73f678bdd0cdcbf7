import InferenceGateway.Lib.Outcome
import InferenceGateway.Proof.Handlers.Buffered
import InferenceGateway.Proof.Handlers.Metrics

/-!
The errors that the deferred functions of the two servers count. In the streaming server the error of
the handler is still there when `Process` returns. The buffered server assigns the error of building
the immediate response to the same variable, so it counts only an error for which there is no such
response.
-/

namespace InferenceGateway
open Lib

def countedCodes (recorded : List Metric) : List ErrorCode := (errCounts recorded).map Prod.snd

def countedModels (recorded : List Metric) : List String := (errCounts recorded).map Prod.fst

theorem code_of_immediateResponse {err : Err} {resp : ProcessingResponse} (built : buildErrResponse err = .ok resp) :
    err.canonicalCode ≠ .unknown ∧ err.canonicalCode ≠ .modelServerError := by
  unfold buildErrResponse at built
  split at built <;> simp_all

theorem errCounts_append_counted {recorded : List Metric} (none : errCounts recorded = []) (model target : String)
    (code : Option ErrorCode) :
    errCounts (recorded ++ code.toList.map (Metric.requestErrCounter model target)) =
      code.toList.map fun code => (model, code) := by
  unfold errCounts at none ⊢
  rw [List.filterMap_append, none, List.nil_append]
  cases code <;> rfl

/-- Before the response headers, a server keeps what only they change. -/
theorem view_of_noHeaders {S E V : Type} {step : Nat → S → ProcessingRequest → Except (S × E) S} {view : S → V}
    {before : List ProcessingRequest} {start s : S} (noHeaders : ∀ headers, .responseHeaders headers ∉ before)
    (each : ∀ {n s message s'}, (∀ headers, message ≠ .responseHeaders headers) → step n s message = .ok s' →
      view s' = view s) (ran : Loop.steps step 0 before start = .ok s) : view s = view start := by
  apply Loop.view_steps _ ran
  intro message member n s s' moved
  apply each _ moved
  intro headers same
  rw [same] at member
  exact noHeaders headers member

/-! ## The streaming server -/

namespace StreamingServer
variable {codec : Codec} {hint : DestinationHint} {canSend : Nat → Bool} {backend : Backend}
  {message : ProcessingRequest} {s s' : Stream}

inductive RequestFails (codec : Codec) (hint : DestinationHint) (backend : Backend) (s : Stream) :
    ProcessingRequest → Err → Prop
  | headers {endOfStream : Bool} {err : Err} {ctx : RequestContext}
      (handled : handleRequestHeaders hint backend endOfStream s.ctx = some (some err, ctx)) :
      RequestFails codec hint backend s (.requestHeaders endOfStream) err
  | body {chunk : Bytes} {err : Err} {ctx : RequestContext} {map : Option Object}
      (handled : handleRequestBody codec hint backend (codec.unmarshalMap (s.body ++ chunk) s.requestBody).1 s.ctx =
        some (some err, ctx, map)) :
      RequestFails codec hint backend s (.requestBody chunk true) err

theorem preserves_of_recorded {I : List Metric → Option ErrorCode → Prop}
    (counts : ∀ recorded code model, I recorded code → I (recorded ++ incRunningRequests model) code)
    (canSend : Nat → Bool) :
    Preserves (fun s => I s.recorded s.ctx.responseStatusCode) (updateStateAndSendIfNeeded canSend) := by
  apply preserves_updateStateAndSendIfNeeded
  · exact preserves_sendIf fun s holds _ => holds
  · exact preserves_sendIf fun s holds _ => counts s.recorded _ s.ctx.model holds
  · exact preserves_sendIf fun s holds _ => holds
  · exact preserves_sendIf fun s holds _ => holds
  · exact preserves_sendIf fun s holds _ => holds
  · exact preserves_sendIf fun s holds _ => holds

theorem errCounts_append_incRunning (recorded : List Metric) (model : String) :
    errCounts (recorded ++ incRunningRequests model) = errCounts recorded := by
  unfold errCounts
  rw [List.filterMap_append, incRunningRequests]
  split <;> simp [Metric.errCount]

theorem errCounts_receive (none : errCounts s.recorded = [])
    (received : receive codec hint backend s message = some s') : errCounts s'.recorded = [] := by
  obtain ⟨metrics, recorded, ordinary⟩ := (received_of_receive received).recorded
  rw [recorded, errCounts_append_ordinary ordinary, none]

theorem errCounts_step (none : errCounts s.recorded = [])
    (moved : step codec hint canSend backend s message = .ok s') : errCounts s'.recorded = [] := by
  obtain ⟨next, received, _, sent⟩ := receive_of_step moved
  have counts := preserves_of_recorded (I := fun recorded _ => errCounts recorded = [])
    (fun recorded _ model none => (errCounts_append_incRunning recorded model).trans none) canSend next
    (errCounts_receive none received)
  rw [sent] at counts
  exact counts

theorem status_step (other : ∀ headers, message ≠ .responseHeaders headers)
    (moved : step codec hint canSend backend s message = .ok s') :
    s'.ctx.responseStatusCode = s.ctx.responseStatusCode := by
  obtain ⟨next, received, _, sent⟩ := receive_of_step moved
  have kept := preserves_of_recorded (I := fun _ code => code = s.ctx.responseStatusCode) (fun _ _ _ same => same)
    canSend next ((received_of_receive received).status other)
  rw [sent] at kept
  exact kept

theorem errCounts_finish (none : errCounts s.recorded = []) :
    errCounts (finish s).recorded =
      (s.ctx.responseStatusCode.or (s.err.map Err.canonicalCode)).toList.map fun code => (s.ctx.model, code) := by
  have counted := errCounts_append_counted none s.ctx.model s.ctx.resolvedTargetModel
    (s.ctx.responseStatusCode.or (s.err.map Err.canonicalCode))
  unfold finish
  dsimp only [Stream.record]
  split
  · rw [← counted]
    unfold errCounts decRunningRequests
    rw [List.filterMap_append]
    split <;> simp [Metric.errCount]
  · exact counted

section Runs
variable {backends : Nat → Backend} {before after : List ProcessingRequest}
  (ran : Loop.steps (fun n => step codec hint canSend (backends n)) 0 before {} = .ok s)
include ran

theorem errCounts_of_ran : errCounts s.recorded = [] :=
  Loop.steps_keeps (I := fun s => errCounts s.recorded = []) errCounts_step rfl ran

theorem status_of_ran (noHeaders : ∀ headers, .responseHeaders headers ∉ before) :
    s.ctx.responseStatusCode = none :=
  view_of_noHeaders noHeaders status_step ran

theorem errCounts_of_failure {next : Stream} {err : Err}
    (received : receive codec hint (backends before.length) s message = some next) (failed : next.err = some err) :
    errCounts (process codec hint canSend backends (before ++ message :: after)).1.recorded =
      [(next.ctx.model, next.ctx.responseStatusCode.getD err.canonicalCode)] := by
  obtain ⟨ended, exit, stopped, ctx, still, recorded⟩ : ∃ ended exit,
      step codec hint canSend (backends before.length) s message = .error (ended, exit) ∧ ended.ctx = next.ctx ∧
        ended.err = some err ∧ ended.recorded = next.recorded := by
    simp only [step, received, failed]
    cases buildErrResponse err with
    | error unknown => exact ⟨next, _, rfl, rfl, failed, rfl⟩
    | ok resp =>
        dsimp only
        split
        · exact ⟨_, _, rfl, rfl, rfl, rfl⟩
        · exact ⟨next, _, rfl, rfl, failed, rfl⟩
  have ends : Loop.steps (fun n => step codec hint canSend (backends n)) 0 (before ++ message :: after) {} =
      .error (ended, exit) := by
    rw [Loop.steps_append_of_ok ran, Nat.zero_add]
    exact Loop.steps_cons_of_error stopped
  have counted := errCounts_finish (s := ended)
    (by rw [recorded, errCounts_receive (errCounts_of_ran ran) received])
  rw [still, ctx] at counted
  simp only [process, Loop.run, Loop.runFrom, ends]
  rw [counted]
  cases next.ctx.responseStatusCode <;> rfl

end Runs

theorem receive_of_requestFails {err : Err} (fails : RequestFails codec hint backend s message err) :
    ∃ next, receive codec hint backend s message = some next ∧ next.err = some err ∧ next.ctx.model = s.ctx.model ∧
      next.ctx.responseStatusCode = s.ctx.responseStatusCode := by
  cases fails with
  | @headers endOfStream _ ctx handled =>
      refine ⟨{ s with err := some err, ctx := ctx }, ?_, rfl, ?_⟩
      · simp only [receive, handled, Option.bind_eq_bind, Option.bind_some]
        rfl
      · rcases handleRequestHeaders_cases handled with ⟨_, rfl⟩ | ⟨endpoint, rfl⟩
        · exact ⟨rfl, rfl⟩
        · exact ⟨rfl, rfl⟩
  | body handled =>
      obtain ⟨recorded, received⟩ := receive_requestBody handled
      obtain ⟨_, _, status, model⟩ := handleRequestBody_frame handled
      exact ⟨_, received, rfl, model (Option.some_ne_none err), status⟩

end StreamingServer

/-! ## The buffered server -/

namespace Server
variable {codec : Codec} {hint : DestinationHint} {canSend : Nat → Bool} {backend : Backend} {text : Bytes}
  {ctx ctx' : RequestContext} {err : Err} {message : ProcessingRequest} {s s' : Stream}

/-- A request body with which `HandleRequestBody` gets as far as asking for the pool: its model is
stored, a target is drawn and a pod is found. -/
def ReachesPool (codec : Codec) (backend : Backend) (text : Bytes) : Prop :=
  ∃ members model llmReq pod, codec.unmarshal text = .object members none ∧
    members.get "model" = some (.str model) ∧ resolveTargetModel backend model = some (.ok llmReq) ∧
    backend.schedule llmReq = .ok pod

theorem poolGet_of_reachesPool (reaches : ReachesPool codec backend text)
    (handled : handleRequestBody codec hint backend text ctx = some (.error err, ctx')) :
    backend.poolGet = .error err := by
  obtain ⟨members, model, llmReq, pod, decoded, named, resolved, scheduled⟩ := reaches
  obtain ⟨sent, settled⟩ := handled_of_llmReq hint ctx decoded named resolved
  rw [settled, scheduled] at handled
  cases pooled : backend.poolGet with
  | error err' =>
      rw [pooled] at handled
      cases handled
      rfl
  | ok pool =>
      rw [pooled] at handled
      cases handled

/-- An error of `HandleRequestBody` has an immediate response unless it is the pool's. -/
theorem handleRequestBody_error (handled : handleRequestBody codec hint backend text ctx = some (.error err, ctx')) :
    ctx' = ctx ∧ ((∃ resp, buildErrResponse err = .ok resp) ∨ ReachesPool codec backend text) := by
  have handles := handles codec hint backend text ctx
  rw [handled] at handles
  cases handles with
  | invalid | unnamed | unscheduled => exact ⟨rfl, .inl ⟨_, rfl⟩⟩
  | unresolved decoded named resolved =>
      refine ⟨rfl, .inl ?_⟩
      rw [buildErrResponse, resolveTargetModel_error_code resolved]
      exact ⟨_, rfl⟩
  | unpooled decoded named resolved scheduled =>
      exact ⟨rfl, .inr ⟨_, _, _, _, decoded, named, resolved, scheduled⟩⟩

theorem handleRequestBody_status {result : Except Err ProcessingResponse}
    (handled : handleRequestBody codec hint backend text ctx = some (result, ctx')) :
    ctx'.responseStatusCode = ctx.responseStatusCode := by
  have handles := handles codec hint backend text ctx
  rw [handled] at handles
  cases handles with
  | invalid | unnamed | unresolved | unscheduled | unpooled | routed => rfl

def StatusOf (code : Option ErrorCode) : Prop := code = none ∨ code = some .modelServerError

theorem readResponseHeaders_status {headers : List HeaderValue}
    (read : headers.foldlM readResponseHeader ctx = some ctx') (before : StatusOf ctx.responseStatusCode) :
    StatusOf ctx'.responseStatusCode := by
  induction headers generalizing ctx with
  | nil =>
      cases read
      exact before
  | cons header headers ih =>
      rw [List.foldlM_cons, Option.bind_eq_bind, Option.bind_eq_some_iff] at read
      obtain ⟨next, first, rest⟩ := read
      apply ih rest
      obtain ⟨stated, status, rfl⟩ := Option.map_eq_some_iff.mp first
      have after : StatusOf stated.responseStatusCode := by
        unfold readStatus at status
        split at status
        · obtain ⟨code, _, rfl⟩ := Option.map_eq_some_iff.mp status
          split
          · exact .inr rfl
          · exact before
        · cases status
          exact before
      split
      · exact after
      · exact after

/-- What handling a message leaves alone: only response headers set the status. -/
structure Received (message : ProcessingRequest) (s s' : Stream) : Prop where
  recorded : ∃ metrics, s'.recorded = s.recorded ++ metrics ∧ ∀ metric ∈ metrics, metric.Ordinary
  status : StatusOf s.ctx.responseStatusCode → StatusOf s'.ctx.responseStatusCode
  same : (∀ headers, message ≠ .responseHeaders headers) →
    s'.ctx.responseStatusCode = s.ctx.responseStatusCode

theorem received_of_same {metrics : List Metric} (recorded : s'.recorded = s.recorded ++ metrics)
    (ordinary : ∀ metric ∈ metrics, metric.Ordinary)
    (same : s'.ctx.responseStatusCode = s.ctx.responseStatusCode) : Received message s s' where
  recorded := ⟨metrics, recorded, ordinary⟩
  status := by
    rw [same]
    exact id
  same _ := same

theorem handleResponseBody_status (codec : Codec) (body : Bytes) (endOfStream : Bool) (ctx : RequestContext) :
    (handleResponseBody codec body endOfStream ctx).2.2.responseStatusCode = ctx.responseStatusCode := by
  cases streaming : ctx.modelServerStreaming with
  | true =>
      simp only [handleResponseBody, streaming, if_true, handleStreaming]
      split <;> split <;> rfl
  | false =>
      simp only [handleResponseBody, streaming, Bool.false_eq_true, if_false, handleNonStreaming]
      cases decoded : codec.unmarshalResponse body {} with
      | mk res failed => cases failed <;> rfl

theorem received_of_receive {resp : Option ProcessingResponse}
    (received : receive codec hint backend s message = some (.ok (resp, s'))) : Received message s s' := by
  cases message with
  | requestHeaders endOfStream =>
      cases received
      exact received_of_same (List.append_nil _).symm (List.forall_mem_nil _) rfl
  | requestBody body endOfStream =>
      simp only [receive, Option.bind_eq_bind, Option.bind_eq_some_iff] at received
      obtain ⟨⟨result, ctx⟩, handled, received⟩ := received
      have same := handleRequestBody_status handled
      cases result with
      | error err =>
          cases received
          exact received_of_same (List.append_nil _).symm (List.forall_mem_nil _) same
      | ok resp =>
          cases received
          refine received_of_same rfl ?_ same
          simp [Metric.Ordinary, Metric.isRunning, Metric.errCount]
  | responseHeaders headers =>
      simp only [receive, handleResponseHeaders, Option.bind_eq_bind, Option.bind_eq_some_iff] at received
      obtain ⟨⟨resp, ctx⟩, ⟨_, read, handled⟩, received⟩ := received
      cases handled
      cases received
      exact ⟨nothing_recorded _, readResponseHeaders_status read, fun other => absurd rfl (other headers)⟩
  | responseBody body endOfStream =>
      have same := handleResponseBody_status codec body endOfStream s.ctx
      cases handled : handleResponseBody codec body endOfStream s.ctx with
      | mk resp' result =>
          obtain ⟨responseErr, ctx⟩ := result
          rw [handled] at same
          simp only [receive, handled] at received
          split at received
          · cases received
            refine received_of_same rfl ?_ same
            intro metric member
            rw [List.append_assoc] at member
            exact (List.mem_append.mp member).elim (ordinary_latencyAndSize ctx metric)
              (ordinary_recordTokens ctx ctx.usage metric)
          · cases received
            exact received_of_same (List.append_nil _).symm (List.forall_mem_nil _) same
  | requestTrailers | responseTrailers | unset => cases received

/-- What holds between two messages: no error is counted, none is left over from an earlier message. -/
structure Uncounted (s : Stream) : Prop where
  none : errCounts s.recorded = []
  err : s.err = .none
  status : StatusOf s.ctx.responseStatusCode

theorem Uncounted.received {resp : Option ProcessingResponse} (uncounted : Uncounted s)
    (received : receive codec hint backend s message = some (.ok (resp, s'))) :
    errCounts s'.recorded = [] ∧ StatusOf s'.ctx.responseStatusCode := by
  obtain ⟨⟨metrics, grown, ordinary⟩, status, _⟩ := received_of_receive received
  constructor
  · rw [grown, errCounts_append_ordinary ordinary, uncounted.none]
  · exact status uncounted.status

theorem Uncounted.step (uncounted : Uncounted s) (moved : step codec hint canSend backend s message = .ok s') :
    Uncounted s' := by
  have moves := moves codec hint canSend backend s message
  rw [moved] at moves
  cases moves with
  | goesOn received err sent recorded ctx =>
      obtain ⟨none, status⟩ := uncounted.received received
      rw [← recorded] at none
      rw [← ctx] at status
      exact ⟨none, err, status⟩

def CountedOnce (recorded : List Metric) : Prop :=
  countedCodes recorded = [] ∨ countedCodes recorded = [.modelServerError] ∨ countedCodes recorded = [.unknown]

theorem countedCodes_finish (none : errCounts s.recorded = []) :
    countedCodes (finish s).recorded = (s.ctx.responseStatusCode.or (s.err.map Err.canonicalCode)).toList := by
  have counted := errCounts_append_counted none s.ctx.model s.ctx.resolvedTargetModel
    (s.ctx.responseStatusCode.or (s.err.map Err.canonicalCode))
  simp only [countedCodes, finish, Stream.record, counted, List.map_map]
  exact List.map_id _

theorem countedOnce_finish (none : errCounts s.recorded = []) (status : StatusOf s.ctx.responseStatusCode)
    (err : ∀ err ∈ s.err, err.canonicalCode = .unknown) : CountedOnce (finish s).recorded := by
  unfold CountedOnce
  rw [countedCodes_finish none]
  rcases status with unknown | failed
  · rw [unknown, Option.none_or]
    cases left : s.err with
    | none => exact .inl rfl
    | some e =>
        rw [Option.map_some, err e left]
        exact .inr (.inr rfl)
  · rw [failed]
    exact .inr (.inl rfl)

theorem Uncounted.countedOnce (uncounted : Uncounted s) : CountedOnce (finish s).recorded := by
  refine countedOnce_finish uncounted.none uncounted.status ?_
  rw [uncounted.err]
  exact fun err member => absurd member (Option.not_mem_none err)

theorem Uncounted.step_ends {ended : Stream × Exit} (uncounted : Uncounted s)
    (moved : Server.step codec hint canSend backend s message = .error ended) :
    CountedOnce (finish ended.1).recorded := by
  have moves := moves codec hint canSend backend s message
  rw [moved] at moves
  cases moves with
  | refuses => exact uncounted.countedOnce
  | ends received ends err sent recorded ctx =>
      obtain ⟨none, status⟩ := uncounted.received received
      rw [← recorded] at none
      rw [← ctx] at status
      exact countedOnce_finish none status err

theorem uncounted_start : Uncounted {} := ⟨rfl, rfl, .inl rfl⟩

theorem countedOnce_process (codec : Codec) (hint : DestinationHint) (canSend : Nat → Bool)
    (backends : Nat → Backend) (messages : List ProcessingRequest) :
    CountedOnce (process codec hint canSend backends messages).1.recorded := by
  unfold process
  dsimp only
  exact Loop.runFrom_rule (I := fun _ _ => Uncounted)
    (J := fun ended : Stream × Exit => CountedOnce (finish ended.1).recorded) Uncounted.step Uncounted.step_ends
    Uncounted.countedOnce uncounted_start

theorem status_step (other : ∀ headers, message ≠ .responseHeaders headers)
    (moved : step codec hint canSend backend s message = .ok s') :
    s'.ctx.responseStatusCode = s.ctx.responseStatusCode := by
  have moves := moves codec hint canSend backend s message
  rw [moved] at moves
  cases moves with
  | goesOn received err sent recorded ctx => rw [ctx, (received_of_receive received).same other]

section Runs
variable {backends : Nat → Backend} {before after : List ProcessingRequest} {endOfStream : Bool}
  (ran : Loop.steps (fun n => step codec hint canSend (backends n)) 0 before {} = .ok s)
include ran

theorem uncounted_of_ran : Uncounted s := Loop.steps_keeps Uncounted.step uncounted_start ran

theorem status_of_ran (noHeaders : ∀ headers, .responseHeaders headers ∉ before) :
    s.ctx.responseStatusCode = none :=
  view_of_noHeaders noHeaders status_step ran

theorem countedCodes_of_unanswered {failed : Err} (noHeaders : ∀ headers, .responseHeaders headers ∉ before)
    (handled : handleRequestBody codec hint (backends before.length) text s.ctx = some (.error err, ctx))
    (built : buildErrResponse err = .error failed) :
    countedCodes (process codec hint canSend backends (before ++ .requestBody text endOfStream :: after)).1.recorded =
      [.unknown] := by
  have uncounted := uncounted_of_ran ran
  have stopped : step codec hint canSend (backends before.length) s (.requestBody text endOfStream) =
      .error ({ s with ctx := ctx, err := some failed }, .returned (some failed)) := by
    simp only [step, receive, handled, Option.bind_eq_bind, Option.bind_some, Option.pure_def, built]
  have ends : Loop.steps (fun n => step codec hint canSend (backends n)) 0
      (before ++ .requestBody text endOfStream :: after) {} =
        .error ({ s with ctx := ctx, err := some failed }, .returned (some failed)) := by
    rw [Loop.steps_append_of_ok ran, Nat.zero_add]
    exact Loop.steps_cons_of_error stopped
  simp only [process, Loop.run, Loop.runFrom, ends]
  rw [countedCodes_finish (s := { s with ctx := ctx, err := some failed }) uncounted.none,
    (handleRequestBody_error handled).1, status_of_ran ran noHeaders, Option.none_or, Option.map_some,
    canonicalCode_of_buildErrResponse built]
  rfl

end Runs

end Server

/-! ## Counting failed requests -/

theorem Datastore.poolGet_eq_error_iff {ds : Datastore} {err : Err} :
    ds.poolGet = .error err ↔ ds.pool = none ∧ err = errPoolNotSynced := by
  unfold poolGet
  cases ds.pool with
  | none =>
      constructor
      · rintro ⟨⟩
        exact ⟨rfl, rfl⟩
      · rintro ⟨_, rfl⟩
        rfl
  | some pool => simp

theorem failed_request_counted_iff (codec : Codec) (hint : DestinationHint) (canSend : Nat → Bool)
    (backends : Nat → Backend) (stores : Nat → Datastore)
    (pools : ∀ n, (backends n).poolGet = (stores n).poolGet) (before after : List ProcessingRequest)
    (noHeaders : ∀ headers, .responseHeaders headers ∉ before) (err : Err) :
    (∀ s message,
      Loop.steps (fun n => StreamingServer.step codec hint canSend (backends n)) 0 before {} = .ok s →
      StreamingServer.RequestFails codec hint (backends before.length) s message err →
      countedCodes (StreamingServer.process codec hint canSend backends (before ++ message :: after)).1.recorded =
        [err.canonicalCode]) ∧
    ∀ s text endOfStream ctx,
      Loop.steps (fun n => Server.step codec hint canSend (backends n)) 0 before {} = .ok s →
      Server.handleRequestBody codec hint (backends before.length) text s.ctx = some (.error err, ctx) →
      (countedCodes (Server.process codec hint canSend backends
        (before ++ .requestBody text endOfStream :: after)).1.recorded = [err.canonicalCode] ↔
        Server.ReachesPool codec (backends before.length) text ∧ (stores before.length).pool = none) := by
  constructor
  · intro s message ran fails
    obtain ⟨next, received, failed, _, status⟩ := StreamingServer.receive_of_requestFails fails
    rw [countedCodes, StreamingServer.errCounts_of_failure ran received failed, status,
      StreamingServer.status_of_ran ran noHeaders]
    rfl
  · intro s text endOfStream ctx ran handled
    constructor
    · intro counted
      rcases (Server.handleRequestBody_error handled).2 with ⟨resp, built⟩ | reaches
      · obtain ⟨known, notServer⟩ := code_of_immediateResponse built
        rcases Server.countedOnce_process codec hint canSend backends
          (before ++ .requestBody text endOfStream :: after) with none | server | unknown
        · rw [counted] at none
          cases none
        · rw [counted] at server
          exact absurd (List.head_eq_of_cons_eq server) notServer
        · rw [counted] at unknown
          exact absurd (List.head_eq_of_cons_eq unknown) known
      · have pooled := Server.poolGet_of_reachesPool reaches handled
        rw [pools] at pooled
        exact ⟨reaches, (Datastore.poolGet_eq_error_iff.mp pooled).1⟩
    · rintro ⟨reaches, unsynced⟩
      have pooled := Server.poolGet_of_reachesPool reaches handled
      rw [pools] at pooled
      obtain ⟨_, rfl⟩ := Datastore.poolGet_eq_error_iff.mp pooled
      exact Server.countedCodes_of_unanswered ran noHeaders handled rfl

def unsyncedStore : Datastore := { chatStore with pool := none }

def unsyncedBackend : Backend :=
  Backend.ofDatastore unsyncedStore [chatPod.namespacedName] (fun _ => .ok chatPod) (fun _ => .ok "worker") 0 0

theorem chatStore_modelGet : chatStore.modelGet "m" = some chatModel := Finmap.lookup_singleton_eq

theorem unsynced_resolved : resolveTargetModel unsyncedBackend "m" = some (.ok ⟨"m", "m", false⟩) :=
  resolveTargetModel_of_no_targets (m := chatModel) chatStore_modelGet rfl

theorem unsynced_reachesPool : Server.ReachesPool jsonCodec unsyncedBackend chatBody :=
  ⟨_, "m", _, chatPod, chatBody_decoded, rfl, unsynced_resolved, rfl⟩

theorem unsynced_handled :
    Server.handleRequestBody jsonCodec testHint unsyncedBackend chatBody {} =
      some (.error Datastore.errPoolNotSynced, {}) := by
  obtain ⟨sent, settled⟩ := Server.handled_of_llmReq testHint {} chatBody_decoded rfl unsynced_resolved
  exact settled

theorem unsynced_counted :
    Server.ReachesPool jsonCodec unsyncedBackend chatBody ∧ unsyncedStore.pool = none ∧
      countedCodes (Server.process jsonCodec testHint (fun _ => true) (fun _ => unsyncedBackend)
        [.requestBody chatBody true]).1.recorded = [.unknown] := by
  refine ⟨unsynced_reachesPool, rfl, ?_⟩
  exact ((failed_request_counted_iff jsonCodec testHint (fun _ => true) (fun _ => unsyncedBackend)
    (fun _ => unsyncedStore) (fun _ => rfl) [] [] (fun _ => List.not_mem_nil) Datastore.errPoolNotSynced).2 {}
    chatBody true {} rfl unsynced_handled).mpr ⟨unsynced_reachesPool, rfl⟩

theorem invalid_body_uncounted :
    (∃ err, Server.handleRequestBody jsonCodec testHint chatBackend (bytes "?") {} = some (.error err, {}) ∧
      err.canonicalCode = .badRequest) ∧
    countedCodes (Server.process jsonCodec testHint (fun _ => true) (fun _ => chatBackend)
      [.requestBody (bytes "?") true]).1.recorded = [] ∧
    countedCodes (StreamingServer.process jsonCodec testHint (fun _ => true) (fun _ => chatBackend)
      [.requestBody (bytes "?") true]).1.recorded = [.badRequest] := by
  refine ⟨?_, by decide +kernel, by decide +kernel⟩
  cases decoded : jsonCodec.unmarshalMap (bytes "?") none with
  | mk map failed =>
      cases failed with
      | some err => exact ⟨_, Server.handleRequestBody_of_invalid decoded, rfl⟩
      | none =>
          have refused : (jsonCodec.unmarshalMap (bytes "?") none).2.isSome = true := by decide +kernel
          rw [decoded] at refused
          cases refused

/-! ## The model of a failed request -/

structure StreamingServer.FailsFor (codec : Codec) (hint : DestinationHint) (backend : Backend) (s : Stream)
    (chunk : Bytes) (model : String) (err : Err) : Prop where
  named : field (codec.unmarshalMap (s.body ++ chunk) s.requestBody).1 "model" = .str model
  stored : ∃ m, backend.modelGet model = some m
  failed : RequestFails codec hint backend s (.requestBody chunk true) err

theorem failed_request_names_model_iff (codec : Codec) (hint : DestinationHint) (canSend : Nat → Bool)
    (backends : Nat → Backend) (before after : List ProcessingRequest) (s : StreamingServer.Stream) (chunk : Bytes)
    (model : String) (err : Err)
    (ran : Loop.steps (fun n => StreamingServer.step codec hint canSend (backends n)) 0 before {} = .ok s)
    (fails : StreamingServer.FailsFor codec hint (backends before.length) s chunk model err) :
    countedModels (StreamingServer.process codec hint canSend backends
      (before ++ .requestBody chunk true :: after)).1.recorded = [model] ↔ s.ctx.model = model := by
  obtain ⟨next, received, failed, label, _⟩ := StreamingServer.receive_of_requestFails fails.failed
  rw [countedModels, StreamingServer.errCounts_of_failure ran received failed, label]
  simp

def sheddingBackends (n : Nat) : Backend :=
  Backend.ofDatastore chatStore [chatPod.namespacedName]
    (fun _ => if n = 0 then .ok chatPod else .error (.new "no pod")) (fun _ => .ok "worker") 0 0

theorem shed_request_unnamed :
    StreamingServer.FailsFor jsonCodec testHint (sheddingBackends 1) {} chatBody "m"
      (failedToSchedule (.new "no pod")) ∧
    countedModels (StreamingServer.process jsonCodec testHint (fun _ => true) (fun _ => sheddingBackends 1)
      [.requestBody chatBody true]).1.recorded = [""] := by
  have named := field_unmarshalMap chatBody_decoded rfl
  have resolved : resolveTargetModel (sheddingBackends 1) "m" = some (.ok ⟨"m", "m", false⟩) :=
    resolveTargetModel_of_no_targets (m := chatModel) chatStore_modelGet rfl
  obtain ⟨_, _, _, _, _, _, _, _, _, _, handled⟩ := handled_of_resolved testHint chatBody_decoded rfl resolved
  exact ⟨⟨named, ⟨chatModel, chatStore_modelGet⟩, .body handled⟩, by decide +kernel⟩

def secondFails (s : StreamingServer.Stream) : Bool :=
  let map := (jsonCodec.unmarshalMap (s.body ++ chatBody) s.requestBody).1
  s.ctx.model == "m" && field map "model" == .str "m" &&
    ((StreamingServer.handleRequestBody jsonCodec testHint (sheddingBackends 1) map s.ctx).bind (·.1)).isSome

theorem second_request_named :
    ∃ s err, Loop.steps (fun n => StreamingServer.step jsonCodec testHint (fun _ => true) (sheddingBackends n)) 0
        [.requestBody chatBody true] {} = .ok s ∧
      StreamingServer.FailsFor jsonCodec testHint (sheddingBackends 1) s chatBody "m" err ∧
      countedModels (StreamingServer.process jsonCodec testHint (fun _ => true) sheddingBackends
        ([.requestBody chatBody true] ++ [.requestBody chatBody true])).1.recorded = ["m"] := by
  obtain ⟨s, ran, known⟩ := @Outcome.exists_of_any _ _ (Loop.steps (fun n => StreamingServer.step jsonCodec
    testHint (fun _ => true) (sheddingBackends n)) 0 [.requestBody chatBody true] {}) secondFails (by decide +kernel)
  simp only [secondFails, Bool.and_eq_true, beq_iff_eq, Option.isSome_iff_exists, Option.bind_eq_some_iff] at known
  obtain ⟨⟨model, named⟩, err, ⟨failed, ctx, map⟩, handled, rfl⟩ := known
  have fails : StreamingServer.FailsFor jsonCodec testHint (sheddingBackends 1) s chatBody "m" err :=
    ⟨named, ⟨chatModel, chatStore_modelGet⟩, .body handled⟩
  refine ⟨s, err, ran, fails, ?_⟩
  exact (failed_request_names_model_iff jsonCodec testHint (fun _ => true) sheddingBackends
    [.requestBody chatBody true] [] s chatBody "m" err ran fails).mpr model

end InferenceGateway
