import InferenceGateway.EndpointPicker
import InferenceGateway.Proof.Controller.Concurrent
import InferenceGateway.Proof.Handlers.Buffered
import InferenceGateway.Proof.Handlers.Exchange
import InferenceGateway.Proof.Scheduling.Candidates

/-!
Where the endpoint picker sends a request, and for which model: to the address of a pod that was ready
and selected by the InferencePool, for a model that an InferenceModel of the pool offers.
-/

namespace InferenceGateway
open Lib Controllers

/-- The models that a request for an InferenceModel can be sent to. -/
def InferenceModelSpec.Offers (spec : InferenceModelSpec) (target : String) : Prop :=
  (spec.targetModels = [] ∧ target = spec.modelName) ∨ ∃ item ∈ spec.targetModels, item.name = target

section Draw
variable {model : InferenceModel}

theorem walk_mem {targets : List TargetModel} {randomVal : Int32} {name : String}
    (walked : randomWeightedDraw.walk randomVal targets = some name) (filled : name ≠ "") :
    ∃ item ∈ targets, item.name = name := by
  induction targets generalizing randomVal with
  | nil =>
      cases walked
      exact absurd rfl filled
  | cons target targets ih =>
      rw [randomWeightedDraw.walk, Option.bind_eq_bind, Option.bind_eq_some_iff] at walked
      obtain ⟨weight, _, walked⟩ := walked
      split_ifs at walked
      · cases walked
        exact ⟨target, List.mem_cons_self, rfl⟩
      · obtain ⟨item, member, same⟩ := ih walked
        exact ⟨item, List.mem_cons_of_mem target member, same⟩

theorem randomWeightedDraw_mem {draw : Nat} {name : String} (drawn : randomWeightedDraw draw model = some name)
    (filled : name ≠ "") : ∃ item ∈ model.spec.targetModels, item.name = name := by
  rw [randomWeightedDraw, Option.bind_eq_bind, Option.bind_eq_some_iff] at drawn
  obtain ⟨first, _, drawn⟩ := drawn
  split_ifs at drawn
  · rw [Option.bind_eq_some_iff] at drawn
    obtain ⟨item, found, same⟩ := drawn
    cases same
    exact ⟨item, List.mem_of_getElem? found, rfl⟩
  · simp only [Option.bind_eq_bind, Option.bind_eq_some_iff] at drawn
    obtain ⟨weights, _, drawn⟩ := drawn
    split_ifs at drawn
    exact walk_mem drawn filled

theorem offers_of_resolved {backend : Backend} {model : String} {llmReq : LLMRequest}
    (resolved : resolveTargetModel backend model = some (.ok llmReq)) :
    llmReq.model = model ∧ ∃ m, backend.modelGet model = some m ∧
      (m.spec.modelName = model → m.spec.Offers llmReq.resolvedTargetModel) := by
  refine ⟨resolveTargetModel_ok_model resolved, ?_⟩
  unfold resolveTargetModel at resolved
  split at resolved
  · cases resolved
  · rename_i m found
    refine ⟨m, found, ?_⟩
    intro named
    dsimp only at resolved
    split at resolved
    · rename_i none
      cases resolved
      exact .inl ⟨none, named.symm⟩
    · rw [Option.bind_eq_bind, Option.bind_eq_some_iff] at resolved
      obtain ⟨modelName, drawn, resolved⟩ := resolved
      split at resolved
      · cases resolved
      · rename_i filled
        cases resolved
        exact .inr (randomWeightedDraw_mem drawn filled)

end Draw

/-! ## The answers of the datastore and the scheduler -/

section Answers
variable {pool : NamespacedName} {admits : InferenceModel → Prop} {config : Config} {backend : Backend}
  {states : List Controllers} {s : Controllers}

theorem Controllers.History.holds (history : History pool admits states s) {P : Memory → Prop}
    (seen : Seen states P) : ∃ memory, P memory ∧ (vetting pool states).Holds memory := by
  obtain ⟨t, passed, holds⟩ := seen
  exact ⟨t.memory, holds, (history.vetted t passed).holds⟩

variable (history : History pool admits states s)
include history

theorem Backend.Reads.modelVetted (reads : backend.Reads config states) {modelName : String}
    {m : InferenceModel} (found : backend.modelGet modelName = some m) :
    ModelVetted pool states m ∧ m.spec.modelName = modelName := by
  obtain ⟨memory, stored, holds⟩ := history.holds (reads.modelGet modelName m found)
  exact holds.models modelName m stored

theorem Backend.Reads.poolVetted (reads : backend.Reads config states) {infPool : InferencePool}
    (found : backend.poolGet = .ok infPool) : PoolVetted pool states infPool := by
  obtain ⟨memory, stored, holds⟩ := history.holds (reads.poolGet infPool found)
  unfold Datastore.poolGet at stored
  split at stored
  · cases stored
  · rename_i pooled
    cases stored
    exact holds.pool infPool pooled

theorem Backend.Reads.podVetted (reads : backend.Reads config states) {pod : BackendPod}
    (drawn : getRandomPod backend = some pod) : (vetting pool states).Internal pod := by
  have member := List.mem_of_getElem? drawn
  obtain ⟨memory, ⟨ref, stored⟩, holds⟩ := history.holds (reads.podGetAll pod member)
  exact holds.heap ref pod stored

theorem Backend.Reads.scheduled (reads : backend.Reads config states) {req : LLMRequest} {pod : BackendPod}
    (placed : backend.schedule req = .ok pod) : (vetting pool states).Internal pod := by
  obtain ⟨listed, env, queries, getPod, stored, schedules⟩ := reads.schedule req
  rw [schedules] at placed
  cases chosen : (InferenceGateway.schedule config listed req env queries).1 with
  | error err =>
      rw [chosen] at placed
      cases placed
  | ok ref =>
      rw [chosen] at placed
      cases placed
      obtain ⟨memory, kept, holds⟩ := history.holds (stored ref (schedule_mem config chosen))
      exact holds.heap ref _ kept

theorem Backend.Reads.resolved (reads : backend.Reads config states) {model : String} {llmReq : LLMRequest}
    (resolved : resolveTargetModel backend model = some (.ok llmReq)) :
    llmReq.model = model ∧ ∃ m, ModelVetted pool states m ∧ m.spec.modelName = model ∧
      m.spec.Offers llmReq.resolvedTargetModel := by
  obtain ⟨same, m, found, offers⟩ := offers_of_resolved resolved
  obtain ⟨vetted, named⟩ := reads.modelVetted history found
  exact ⟨same, m, vetted, named, offers named⟩

end Answers

/-! ## A backend -/

def idleEnv : Env Nat := .snapshot (fun _ => {}) (fun _ => ⟨0, zero_mem_draws⟩) fun _ => 0

-- PodGetAll lists the first object
def vllmBackend : Backend where
  modelGet modelName := synced.memory.ds.modelGet modelName
  podGetAll := [toInternalPod (vllmPod none)]
  poolGet := synced.memory.ds.poolGet
  schedule req := (schedule defaultConfig [0] req idleEnv 0).1.map fun _ => toInternalPod (vllmPod none)
  frontEnd _ := .ok "worker"
  intn := 0
  int31n := 0

theorem vllmBackend_reads :
    vllmBackend.Reads defaultConfig syncStates := by
  have stored : synced.memory.heap 0 = some (toInternalPod (vllmPod none)) := by decide +kernel
  constructor
  · intro modelName m found
    exact ⟨synced, history_synced.mem, found⟩
  · intro pod member
    cases List.mem_singleton.mp member
    exact ⟨synced, history_synced.mem, 0, stored⟩
  · intro infPool found
    exact ⟨synced, history_synced.mem, found⟩
  · intro req
    refine ⟨[0], idleEnv, 0, fun _ => toInternalPod (vllmPod none), ?_, rfl⟩
    intro ref member
    cases List.mem_singleton.mp member
    exact ⟨synced, history_synced.mem, stored⟩

def llamaMessages : List ProcessingRequest :=
  [.requestHeaders false, .requestBody (bytes "\x7b\"model\":\"llama\"\x7d") true]

/-! ## What waits in a stream -/

namespace StreamingServer

/-- Every response that has been sent, or waits to be sent, meets `P`. -/
structure Carries (P : Option ProcessingResponse → Prop) (s : Stream) : Prop where
  reqHeader : P s.ctx.reqHeaderResp
  reqBody : P s.ctx.reqBodyResp
  respHeader : P s.ctx.respHeaderResp
  respBody : P s.ctx.respBodyResp
  sent : ∀ resp ∈ s.sent, P resp

section Carries
variable {P : Option ProcessingResponse → Prop} {s s' : Stream} {canSend : Nat → Bool}

theorem Carries.send (carries : Carries P s) {resp : Option ProcessingResponse} (meets : P resp) :
    Carries P { s with sent := s.sent ++ [resp] } := by
  refine ⟨carries.reqHeader, carries.reqBody, carries.respHeader, carries.respBody, ?_⟩
  intro other member
  rcases List.mem_append.mp member with earlier | last
  · exact carries.sent other earlier
  · rw [List.mem_singleton.mp last]
    exact meets

theorem Carries.update (nothing : P none) (carries : Carries P s) :
    Carries P (settled (updateStateAndSendIfNeeded canSend s)) := by
  -- the trailers send the request headers again
  apply preserves_updateStateAndSendIfNeeded (I := Carries P)
  · apply preserves_sendIf
    intro s carries _
    have sends := carries.send carries.reqHeader
    exact ⟨sends.reqHeader, sends.reqBody, sends.respHeader, sends.respBody, sends.sent⟩
  · apply preserves_sendIf
    intro s carries _
    have sends := carries.send carries.reqBody
    exact ⟨sends.reqHeader, nothing, sends.respHeader, sends.respBody, sends.sent⟩
  · apply preserves_sendIf
    intro s carries _
    exact carries.send carries.reqHeader
  · apply preserves_sendIf
    intro s carries _
    have sends := carries.send carries.respHeader
    exact ⟨sends.reqHeader, sends.reqBody, sends.respHeader, sends.respBody, sends.sent⟩
  · apply preserves_sendIf
    intro s carries _
    have sends := carries.send carries.respBody
    exact ⟨sends.reqHeader, sends.reqBody, sends.respHeader, nothing, sends.sent⟩
  · apply preserves_sendIf
    intro s carries _
    exact carries.send carries.reqHeader
  · exact carries

end Carries

/-! ## What the handlers put there -/

section Handlers
variable {codec : Codec} {hint : DestinationHint} {backend : Backend} {ctx ctx' : RequestContext}

theorem handleRequestHeaders_routes {endOfStream : Bool} {err : Option Err}
    (handled : handleRequestHeaders hint backend endOfStream ctx = some (err, ctx')) :
    ctx' = ctx ∨ ∃ pod infPool, getRandomPod backend = some pod ∧ backend.poolGet = .ok infPool ∧
      ctx' = populateRequestHeaderResponse hint (endpointOf pod infPool) 0 ctx := by
  cases endOfStream with
  | false =>
      cases handled
      exact .inl rfl
  | true =>
      simp only [handleRequestHeaders, if_true, Option.bind_eq_bind, Option.bind_eq_some_iff] at handled
      obtain ⟨pod, drawn, handled⟩ := handled
      split at handled
      · cases handled
        exact .inl rfl
      · rename_i infPool pooled
        cases handled
        exact .inr ⟨pod, infPool, drawn, pooled, rfl⟩

theorem handleRequestBody_routes {map map' : Option Object} {err : Option Err}
    (handled : handleRequestBody codec hint backend map ctx = some (err, ctx', map')) :
    (∃ worker, ctx' = { ctx with workerInstanceID := worker }) ∨
    ∃ model llmReq encoded pod infPool worker, field map "model" = .str model ∧
      resolveTargetModel backend model = some (.ok llmReq) ∧ codec.marshal (rewritten llmReq map) = .ok encoded ∧
      backend.schedule llmReq = .ok pod ∧ backend.poolGet = .ok infPool ∧
      ctx' = routedContext hint llmReq pod infPool encoded { ctx with workerInstanceID := worker } := by
  rcases handleRequestBody_cases codec hint backend map ctx with ⟨_, crashed⟩ | ⟨_, worker, _, failed⟩ |
    ⟨model, llmReq, encoded, _, _, _, named, resolved, marshalled, _⟩
  · rw [crashed] at handled
    cases handled
  · rw [failed] at handled
    cases handled
    exact .inl ⟨worker, rfl⟩
  · obtain ⟨worker, same⟩ := asked_eq codec backend (rewritten llmReq map) ctx
    obtain ⟨map', settled⟩ : ∃ map', handleRequestBody codec hint backend map ctx = _ :=
      handleRequestBody_of_resolved named resolved marshalled
    rw [settled, same] at handled
    cases placed : backend.schedule llmReq with
    | error err =>
        rw [placed] at handled
        cases handled
        exact .inl ⟨worker, rfl⟩
    | ok pod =>
        cases pooled : backend.poolGet with
        | error err =>
            rw [placed, pooled] at handled
            cases handled
            exact .inl ⟨worker, rfl⟩
        | ok infPool =>
            rw [placed, pooled] at handled
            cases handled
            exact .inr ⟨model, llmReq, encoded, pod, infPool, worker, named, resolved, marshalled, placed, rfl, rfl⟩

theorem handleResponseBody_answers {response : Option Object} {err : Option Err}
    (handled : handleResponseBody codec response ctx = some (err, ctx')) :
    ctx' = ctx ∨ ∃ usage size response, ctx' = { ctx with
      usage := usage
      responseSize := size
      responseComplete := true
      respBodyResp := some ⟨.responseBody response, none⟩ } := by
  unfold handleResponseBody at handled
  split at handled
  · cases handled
    exact .inl rfl
  · rw [Option.bind_eq_bind, Option.bind_eq_some_iff] at handled
    obtain ⟨usage, _, handled⟩ := handled
    cases handled
    exact .inr ⟨usage, _, _, rfl⟩

end Handlers

end StreamingServer

/-! ## Vetted responses -/

section Responses
variable (pool : NamespacedName) (states : List Controllers) (hint : DestinationHint) (codec : Codec)

/-- The response sends the request to a vetted pod, at the port of a vetted version of the pool. -/
def Routed (response : CommonResponse) (metadata : Option DynamicMetadata) : Prop :=
  ∃ pod infPool, PodVetted pool states pod ∧ PoolVetted pool states infPool ∧
    response.setHeaders.head? =
      some ⟨hint.destinationEndpointHintKey, bytes (endpointOf (toInternalPod pod) infPool)⟩ ∧
    metadata = some (hint.dynamicMetadata (endpointOf (toInternalPod pod) infPool))

/-- The body asks for a model that a vetted InferenceModel offers. -/
def AsksForOffered (body : Object) : Prop :=
  ∃ m target, ModelVetted pool states m ∧ m.spec.Offers target ∧ body.get "model" = some (.str target)

def StreamingServer.Vetted : Option ProcessingResponse → Prop
  | some ⟨.requestHeaders response, metadata⟩ => Routed pool states hint response metadata
  | some ⟨.requestBody response, _⟩ => ∃ text body, codec.marshal (some body) = .ok text ∧
      AsksForOffered pool states body ∧ response.bodyMutation = some (.streamedResponse text true)
  | _ => True

def Server.Vetted : Option ProcessingResponse → Prop
  | some ⟨.requestBody response, metadata⟩ => Routed pool states hint response metadata ∧
      ∃ text body, codec.unmarshal text = .object body none ∧ AsksForOffered pool states body ∧
        response.bodyMutation = some (.body text)
  | _ => True

end Responses

namespace StreamingServer
variable {pool : NamespacedName} {admits : InferenceModel → Prop} {config : Config} {hint : DestinationHint}
  {codec : Codec} {states : List Controllers} {s : Controllers} {backend : Backend}

theorem vetted_populateRequestHeaderResponse {stored : BackendPod} {infPool : InferencePool}
    (internal : (vetting pool states).Internal stored) (pooled : PoolVetted pool states infPool)
    (length : Nat) (ctx : RequestContext) :
    Vetted pool states hint codec
      (populateRequestHeaderResponse hint (endpointOf stored infPool) length ctx).reqHeaderResp := by
  obtain ⟨pod, vetted, same⟩ := internal
  cases same
  exact ⟨pod, infPool, vetted, pooled, rfl, rfl⟩

theorem exists_rewritten_of_field {llmReq : LLMRequest} {map : Option Object}
    (named : field map "model" = .str llmReq.model) :
    ∃ body, rewritten llmReq map = some body ∧
      Object.get "model" body = some (.str llmReq.resolvedTargetModel) := by
  -- a body without members has no model
  cases map with
  | none => cases named
  | some body =>
      by_cases same : llmReq.model = llmReq.resolvedTargetModel
      · refine ⟨body, by simp [rewritten, same], ?_⟩
        rw [← same]
        cases found : Object.get "model" body with
        | none =>
            rw [field, Option.getD_some, found] at named
            cases named
        | some value =>
            rw [field, Option.getD_some, found, Option.getD_some] at named
            rw [named]
      · exact ⟨body.set "model" (.str llmReq.resolvedTargetModel), by simp [rewritten, same], Object.get_set_self ..⟩

section Receive
variable {stream stream' : Stream} {chunk : Bytes} {endOfStream : Bool}

theorem Carries.requestHeaders (history : History pool admits states s) (reads : backend.Reads config states)
    (carries : Carries (Vetted pool states hint codec) stream)
    (received : receive codec hint backend stream (.requestHeaders endOfStream) = some stream') :
    Carries (Vetted pool states hint codec) stream' := by
  simp only [StreamingServer.receive, Option.bind_eq_bind, Option.bind_eq_some_iff] at received
  obtain ⟨⟨err, ctx⟩, handled, received⟩ := received
  cases received
  rcases handleRequestHeaders_routes handled with same | ⟨pod, infPool, drawn, pooled, routed⟩
  · cases same
    exact ⟨carries.reqHeader, carries.reqBody, carries.respHeader, carries.respBody, carries.sent⟩
  · cases routed
    exact ⟨vetted_populateRequestHeaderResponse (reads.podVetted history drawn) (reads.poolVetted history pooled) 0
        stream.ctx,
      carries.reqBody, carries.respHeader, carries.respBody, carries.sent⟩

theorem Carries.lastRequestBody (history : History pool admits states s) (reads : backend.Reads config states)
    (carries : Carries (Vetted pool states hint codec) stream)
    (received : receive codec hint backend stream (.requestBody chunk true) = some stream') :
    Carries (Vetted pool states hint codec) stream' := by
  cases handled : handleRequestBody codec hint backend
      (codec.unmarshalMap (stream.body ++ chunk) stream.requestBody).1 stream.ctx with
  | none =>
      rw [receive_requestBody_eq_none handled] at received
      cases received
  | some result =>
      obtain ⟨err, ctx, map⟩ := result
      obtain ⟨recorded, done⟩ := receive_requestBody handled
      rw [done] at received
      cases received
      rcases handleRequestBody_routes handled with ⟨worker, same⟩ |
        ⟨model, llmReq, encoded, pod, infPool, worker, named, resolved, marshalled, placed, pooled, same⟩
      · cases same
        exact ⟨carries.reqHeader, carries.reqBody, carries.respHeader, carries.respBody, carries.sent⟩
      · cases same
        obtain ⟨requested, m, vetted, _, offers⟩ := reads.resolved history resolved
        rw [← requested] at named
        obtain ⟨body, rewrites, target⟩ := exists_rewritten_of_field named
        rw [rewrites] at marshalled
        exact ⟨vetted_populateRequestHeaderResponse (reads.scheduled history placed)
            (reads.poolVetted history pooled) _ _,
          ⟨encoded, body, marshalled, ⟨m, _, vetted, offers, target⟩, rfl⟩, carries.respHeader,
          carries.respBody, carries.sent⟩

-- a response that is passed on names no endpoint
theorem Carries.responseBody (carries : Carries (Vetted pool states hint codec) stream)
    (received : receive codec hint backend stream (.responseBody chunk endOfStream) = some stream') :
    Carries (Vetted pool states hint codec) stream' := by
  cases streaming : stream.ctx.modelServerStreaming with
  | true =>
      obtain ⟨metrics, done⟩ := receive_responseBody_of_streaming codec hint backend streaming chunk endOfStream
      rw [done] at received
      cases received
      exact ⟨carries.reqHeader, carries.reqBody, carries.respHeader, trivial, carries.sent⟩
  | false =>
      cases endOfStream with
      | false =>
          simp only [StreamingServer.receive, streaming, Bool.false_eq_true, if_false] at received
          cases received
          exact ⟨carries.reqHeader, carries.reqBody, carries.respHeader, carries.respBody, carries.sent⟩
      | true =>
          simp only [StreamingServer.receive, streaming, Bool.false_eq_true, if_false, if_true,
            Option.bind_eq_bind, Option.bind_eq_some_iff] at received
          obtain ⟨⟨err, ctx⟩, handled, received⟩ := received
          have answered : Vetted pool states hint codec ctx.respBodyResp ∧
              ctx.reqHeaderResp = stream.ctx.reqHeaderResp ∧ ctx.reqBodyResp = stream.ctx.reqBodyResp ∧
                ctx.respHeaderResp = stream.ctx.respHeaderResp := by
            rcases handleResponseBody_answers handled with same | ⟨usage, size, response, same⟩
            · cases same
              exact ⟨carries.respBody, rfl, rfl, rfl⟩
            · cases same
              exact ⟨trivial, rfl, rfl, rfl⟩
          obtain ⟨respBody, reqHeader, reqBody, respHeader⟩ := answered
          split at received
          · cases received
            exact ⟨reqHeader ▸ carries.reqHeader, reqBody ▸ carries.reqBody, respHeader ▸ carries.respHeader,
              respBody, carries.sent⟩
          · cases received
            exact ⟨reqHeader ▸ carries.reqHeader, reqBody ▸ carries.reqBody, respHeader ▸ carries.respHeader,
              respBody, carries.sent⟩

theorem Carries.receive {message : ProcessingRequest} (history : History pool admits states s)
    (reads : backend.Reads config states) (carries : Carries (Vetted pool states hint codec) stream)
    (received : receive codec hint backend stream message = some stream') :
    Carries (Vetted pool states hint codec) stream' := by
  cases message with
  | requestHeaders endOfStream => exact carries.requestHeaders history reads received
  | requestBody chunk endOfStream =>
      cases endOfStream with
      | false =>
          cases received
          exact ⟨carries.reqHeader, carries.reqBody, carries.respHeader, carries.respBody, carries.sent⟩
      | true => exact carries.lastRequestBody history reads received
  | responseHeaders headers =>
      cases received
      obtain ⟨code, same⟩ := readResponseHeaders_eq headers stream.ctx
      simp only [same]
      exact ⟨carries.reqHeader, carries.reqBody, trivial, carries.respBody, carries.sent⟩
  | responseBody chunk endOfStream => exact carries.responseBody received
  | requestTrailers | responseTrailers | unset =>
      cases received
      exact carries

end Receive

theorem Carries.step {stream : Stream} (history : History pool admits states s) (reads : backend.Reads config states)
    (carries : Carries (Vetted pool states hint codec) stream) (canSend : Nat → Bool) (message : ProcessingRequest) :
    Carries (Vetted pool states hint codec)
      (Loop.outcome (step codec hint canSend backend stream message)) := by
  rcases step_cases codec hint canSend backend stream message with ⟨_, done⟩ | ⟨next, received, done⟩
  · rw [done]
    exact carries
  · have between := carries.receive history reads received
    have updated : Carries (Vetted pool states hint codec) (settled (updateStateAndSendIfNeeded canSend next)) :=
      between.update trivial
    rcases done with ⟨exit, done⟩ | ⟨err, resp, built, done⟩ | ⟨failed, sent, done⟩ | ⟨after, _, sent, done⟩
    · rw [done]
      exact between
    · rw [done]
      apply between.send
      unfold buildErrResponse at built
      split at built <;> cases built <;> trivial
    · rw [done]
      rw [sent] at updated
      exact updated
    · rw [done]
      rw [sent] at updated
      exact updated

theorem carries_start : Carries (Vetted pool states hint codec) {} := by
  refine ⟨trivial, trivial, trivial, trivial, ?_⟩
  intro resp member
  cases member

theorem streamed_responses_vetted (codec : Codec) (hint : DestinationHint) (canSend : Nat → Bool)
    {backends : Nat → Backend} {messages : List ProcessingRequest}
    (history : History pool admits states s) (reads : ∀ n < messages.length, (backends n).Reads config states) :
    ∀ resp ∈ (process codec hint canSend backends messages).1.sent, Vetted pool states hint codec resp := by
  unfold process
  dsimp only
  rw [finish_sent]
  apply Loop.runFrom_rule
    (I := fun n rest stream => n + rest.length = messages.length ∧ Carries (Vetted pool states hint codec) stream)
    (J := fun ended : Stream × Exit => ∀ resp ∈ ended.1.sent, Vetted pool states hint codec resp)
  · intro n stream message rest stream' holds moved
    obtain ⟨count, carries⟩ := holds
    rw [List.length_cons] at count
    have moves := carries.step history (reads n (by omega)) canSend message
    rw [moved] at moves
    exact ⟨by omega, moves⟩
  · intro n stream message rest ended holds moved
    obtain ⟨count, carries⟩ := holds
    rw [List.length_cons] at count
    have moves := carries.step history (reads n (by omega)) canSend message
    rw [moved] at moves
    exact moves.sent
  · intro n stream holds
    exact holds.2.sent
  · exact ⟨Nat.zero_add _, carries_start⟩

theorem llama_stream_vetted :
    (process jsonCodec testHint (fun _ => true) (fun _ => vllmBackend) llamaMessages).1.sent.length = 2 ∧
      ∀ resp ∈ (process jsonCodec testHint (fun _ => true) (fun _ => vllmBackend) llamaMessages).1.sent,
        Vetted ⟨"default", "pool"⟩ syncStates testHint jsonCodec resp :=
  ⟨by decide +kernel, streamed_responses_vetted jsonCodec testHint _ history_synced fun _ _ => vllmBackend_reads⟩

end StreamingServer

/-! ## The server for buffered bodies -/

namespace Server
variable {pool : NamespacedName} {admits : InferenceModel → Prop} {config : Config} {hint : DestinationHint}
  {codec : Codec} {states : List Controllers} {s : Controllers} {backend : Backend}

theorem vetted_handleRequestBody {text : Bytes} {ctx ctx' : RequestContext} {resp : ProcessingResponse}
    (history : History pool admits states s) (reads : backend.Reads config states)
    (handled : handleRequestBody codec hint backend text ctx = some (.ok resp, ctx')) :
    Vetted pool states hint codec (some resp) := by
  have handles := handles codec hint backend text ctx
  rw [handled] at handles
  cases handles with
  | routed decoded named resolved scheduled pooled sent =>
      obtain ⟨requested, m, vetted, _, offers⟩ := reads.resolved history resolved
      rw [← requested] at named
      obtain ⟨body, encoded, rewrites, marshalled, back, target, _⟩ := exists_rewritten decoded named
      obtain ⟨text', updated, decodes⟩ := exists_updated decoded rewrites marshalled back
      rw [requested] at named
      rw [handleRequestBody_of_resolved decoded named resolved updated, scheduled, pooled] at handled
      obtain ⟨answer, _⟩ := Prod.mk.inj (Option.some.inj handled)
      rw [← Except.ok.inj answer]
      obtain ⟨pod, ready, same⟩ := reads.scheduled history scheduled
      cases same
      exact ⟨⟨pod, _, ready, reads.poolVetted history pooled, rfl, rfl⟩,
        text', body, decodes, ⟨m, _, vetted, offers, target⟩, rfl⟩

theorem vetted_handleResponseBody (body : Bytes) (endOfStream : Bool) (ctx : RequestContext) :
    Vetted pool states hint codec (handleResponseBody codec body endOfStream ctx).1 := by
  unfold handleResponseBody
  generalize (if ctx.modelServerStreaming then (none, handleStreaming codec body endOfStream ctx)
    else handleNonStreaming codec body ctx) = result
  obtain ⟨err, ctx⟩ := result
  cases err with
  | none => trivial
  | some err => trivial

theorem vetted_receive {stream stream' : Stream} {message : ProcessingRequest} {resp : Option ProcessingResponse}
    (history : History pool admits states s) (reads : backend.Reads config states)
    (received : receive codec hint backend stream message = some (.ok (resp, stream'))) (fine : stream'.err = none) :
    Vetted pool states hint codec resp := by
  cases message with
  | requestHeaders endOfStream =>
      cases received
      trivial
  | requestBody body endOfStream =>
      simp only [receive, Option.bind_eq_bind, Option.bind_eq_some_iff] at received
      obtain ⟨⟨result, ctx⟩, handled, received⟩ := received
      cases result with
      | error err =>
          cases received
          cases fine
      | ok answer =>
          cases received
          exact vetted_handleRequestBody history reads handled
  | responseHeaders headers =>
      simp only [receive, Option.bind_eq_bind, Option.bind_eq_some_iff] at received
      obtain ⟨⟨answer, ctx⟩, handled, received⟩ := received
      cases received
      simp only [handleResponseHeaders, Option.bind_eq_bind, Option.bind_eq_some_iff] at handled
      obtain ⟨_, _, same⟩ := handled
      cases same
      trivial
  | responseBody body endOfStream =>
      cases received
      exact vetted_handleResponseBody body endOfStream stream.ctx
  | requestTrailers | responseTrailers | unset => cases received

def AllVetted (pool : NamespacedName) (states : List Controllers) (hint : DestinationHint) (codec : Codec)
    (stream : Stream) : Prop :=
  ∀ resp ∈ stream.sent, Vetted pool states hint codec resp

theorem AllVetted.send {stream : Stream} (all : AllVetted pool states hint codec stream)
    {resp : Option ProcessingResponse} (vetted : Vetted pool states hint codec resp) :
    AllVetted pool states hint codec { stream with sent := stream.sent ++ [resp] } := by
  intro other member
  rcases List.mem_append.mp member with earlier | last
  · exact all other earlier
  · rw [List.mem_singleton.mp last]
    exact vetted

theorem AllVetted.step {stream : Stream} (history : History pool admits states s) (reads : backend.Reads config states)
    (all : AllVetted pool states hint codec stream) (canSend : Nat → Bool) (message : ProcessingRequest) :
    AllVetted pool states hint codec (Loop.outcome (step codec hint canSend backend stream message)) := by
  unfold Server.step
  dsimp only
  split
  · exact all
  · exact all
  · rename_i resp next received
    have kept : AllVetted pool states hint codec next := by
      unfold AllVetted
      rw [receive_sent received]
      exact all
    split
    · rename_i fine
      split_ifs
      · exact kept.send (vetted_receive history reads received fine)
      · exact kept
    · split
      · exact kept
      · rename_i answer built
        split_ifs
        · apply AllVetted.send kept
          unfold buildErrResponse at built
          split at built <;> cases built <;> trivial
        · exact kept

theorem buffered_responses_vetted (codec : Codec) (hint : DestinationHint) (canSend : Nat → Bool)
    {backends : Nat → Backend} {messages : List ProcessingRequest}
    (history : History pool admits states s) (reads : ∀ n < messages.length, (backends n).Reads config states) :
    ∀ resp ∈ (process codec hint canSend backends messages).1.sent, Vetted pool states hint codec resp := by
  apply Loop.runFrom_rule
    (I := fun n rest stream => n + rest.length = messages.length ∧ AllVetted pool states hint codec stream)
    (J := fun ended : Stream × Exit => AllVetted pool states hint codec ended.1)
  · intro n stream message rest stream' holds moved
    obtain ⟨count, all⟩ := holds
    rw [List.length_cons] at count
    have moves := all.step history (reads n (by omega)) canSend message
    rw [moved] at moves
    exact ⟨by omega, moves⟩
  · intro n stream message rest ended holds moved
    obtain ⟨count, all⟩ := holds
    rw [List.length_cons] at count
    have moves := all.step history (reads n (by omega)) canSend message
    rw [moved] at moves
    exact moves
  · intro n stream holds
    exact holds.2
  · refine ⟨Nat.zero_add _, ?_⟩
    intro resp member
    cases member

theorem llama_answers_vetted :
    (process jsonCodec testHint (fun _ => true) (fun _ => vllmBackend) llamaMessages).1.sent.length = 2 ∧
      ∀ resp ∈ (process jsonCodec testHint (fun _ => true) (fun _ => vllmBackend) llamaMessages).1.sent,
        Vetted ⟨"default", "pool"⟩ syncStates testHint jsonCodec resp :=
  ⟨by decide +kernel, buffered_responses_vetted jsonCodec testHint _ history_synced fun _ _ => vllmBackend_reads⟩

end Server

end InferenceGateway
