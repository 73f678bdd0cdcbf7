import InferenceGateway.Handlers.JsonCodec
import InferenceGateway.Proof.Handlers.RequestBody

/-!
The routing decisions of the two servers on the same request body.
-/

namespace InferenceGateway
open Lib

/-- What a server sends for a routed request: the endpoint in the destination header and in the
metadata, the length of the body, and a body that decodes to `body`. The streaming server may add the
header of the worker. -/
structure SendsTo (codec : Codec) (hint : DestinationHint) (endpoint : String) (body : Object)
    (headers : List HeaderValue) (metadata : Option DynamicMetadata) (sent : Bytes) : Prop where
  headers : ∃ worker, headers = [⟨hint.destinationEndpointHintKey, bytes endpoint⟩,
      ⟨"Content-Length", bytes (toString sent.length)⟩] ++ worker ∧
    ∀ header ∈ worker, header.key = "x-worker-instance-id"
  metadata : metadata = some (hint.dynamicMetadata endpoint)
  decodes : codec.unmarshal sent = .object body none

structure Retargets (members : Object) (target : String) (body : Object) : Prop where
  model : body.get "model" = some (.str target)
  others : ∀ key, key ≠ "model" → body.get key = members.get key

def BothFail (buffered : Option (Except Err ProcessingResponse × RequestContext))
    (streaming : Option StreamingServer.Stream) : Prop :=
  ∃ err₁ ctx err₂ s, buffered = some (.error err₁, ctx) ∧ streaming = some s ∧ s.err = some err₂ ∧
    err₁.canonicalCode = err₂.canonicalCode

def BothRoute (codec : Codec) (hint : DestinationHint) (backend : Backend) (text : Bytes)
    (buffered : Option (Except Err ProcessingResponse × RequestContext))
    (streaming : Option StreamingServer.Stream) : Prop :=
  ∃ members model llmReq pod pool body, codec.unmarshal text = .object members none ∧
    members.get "model" = some (.str model) ∧ resolveTargetModel backend model = some (.ok llmReq) ∧
    backend.schedule llmReq = .ok pod ∧ backend.poolGet = .ok pool ∧
    Retargets members llmReq.resolvedTargetModel body ∧
    (∃ ctx response metadata sent, buffered = some (.ok ⟨.requestBody response, metadata⟩, ctx) ∧
      ctx.targetEndpoint = endpointOf pod pool ∧ response.bodyMutation = some (.body sent) ∧
      SendsTo codec hint (endpointOf pod pool) body response.setHeaders metadata sent) ∧
    ∃ s headers metadata response sent, streaming = some s ∧ s.err = none ∧
      s.ctx.targetEndpoint = endpointOf pod pool ∧
      s.ctx.reqHeaderResp = some ⟨.requestHeaders headers, metadata⟩ ∧
      s.ctx.reqBodyResp = some ⟨.requestBody response, none⟩ ∧
      response.bodyMutation = some (.streamedResponse sent true) ∧
      SendsTo codec hint (endpointOf pod pool) body headers.setHeaders metadata sent

def streamed (codec : Codec) (hint : DestinationHint) (backend : Backend) (text : Bytes) :
    Option StreamingServer.Stream :=
  StreamingServer.receive codec hint backend {} (.requestBody text true)

def buffered (codec : Codec) (hint : DestinationHint) (backend : Backend) (text : Bytes) :
    Option (Except Err ProcessingResponse × RequestContext) :=
  Server.handleRequestBody codec hint backend text {}

/-- The body is an object with a string model, but `Unmarshal` fails on a number in it. -/
def HalfDecoded (codec : Codec) (text : Bytes) : Prop :=
  ∃ members err model, codec.unmarshal text = .object members (some err) ∧
    members.get "model" = some (.str model)

section Agreement
variable {codec : Codec} {hint : DestinationHint} {backend : Backend} {text : Bytes} {members : Object}
  {model : String} {llmReq : LLMRequest}

theorem exists_streamed {err : Option Err} {ctx : RequestContext} {map : Option Object}
    (handled : StreamingServer.handleRequestBody codec hint backend (codec.unmarshalMap text none).1 {} =
      some (err, ctx, map)) :
    ∃ s, streamed codec hint backend text = some s ∧ s.err = err ∧ s.ctx = ctx := by
  have fresh : StreamingServer.handleRequestBody codec hint backend
      (codec.unmarshalMap (({} : StreamingServer.Stream).body ++ text) none).1 {} = some (err, ctx, map) := handled
  obtain ⟨recorded, received⟩ := StreamingServer.receive_requestBody fresh
  exact ⟨_, received, rfl, rfl⟩

theorem bothFail_of_unnamed
    (unnamed : ∀ model, field (codec.unmarshalMap text none).1 "model" ≠ .str model) :
    BothFail (buffered codec hint backend text) (streamed codec hint backend text) := by
  have handled : StreamingServer.handleRequestBody codec hint backend (codec.unmarshalMap text none).1 {} = _ :=
    StreamingServer.handleRequestBody_of_unnamed unnamed
  obtain ⟨s, received, err, _⟩ := exists_streamed handled
  cases decoded : codec.unmarshalMap text none with
  | mk map failed =>
      rw [decoded] at unnamed
      cases failed with
      | some failed =>
          exact ⟨_, _, _, s, Server.handleRequestBody_of_invalid decoded, received, err, rfl⟩
      | none =>
          exact ⟨_, _, _, s, Server.handleRequestBody_of_unnamed decoded unnamed, received, err, rfl⟩

theorem bothFail_of_unresolved (decoded : codec.unmarshal text = .object members none)
    (named : members.get "model" = some (.str model)) {err : Err}
    (resolved : resolveTargetModel backend model = some (.error err)) :
    BothFail (buffered codec hint backend text) (streamed codec hint backend text) := by
  have handled : StreamingServer.handleRequestBody codec hint backend (codec.unmarshalMap text none).1 {} = _ :=
    (StreamingServer.handleRequestBody_of_unresolved (field_unmarshalMap decoded named)).2 err resolved
  obtain ⟨s, received, failed, _⟩ := exists_streamed handled
  exact ⟨err, _, err, s, (Server.handleRequestBody_of_unresolved decoded named).2 err resolved, received,
    failed, rfl⟩

theorem sendsTo_buffered {endpoint : String} {body : Object} {sent : Bytes}
    (decodes : codec.unmarshal sent = .object body none) :
    SendsTo codec hint endpoint body [⟨hint.destinationEndpointHintKey, bytes endpoint⟩,
      ⟨"Content-Length", bytes (toString sent.length)⟩] (some (hint.dynamicMetadata endpoint)) sent where
  headers := ⟨[], rfl, fun _ member => absurd member List.not_mem_nil⟩
  metadata := rfl
  decodes := decodes

theorem sendsTo_streaming (hint : DestinationHint) {endpoint : String} {body : Object} {sent : Bytes}
    (ctx : RequestContext)
    (decodes : codec.unmarshal sent = .object body none) :
    ∃ headers, (StreamingServer.populateRequestHeaderResponse hint endpoint sent.length ctx).reqHeaderResp =
        some ⟨.requestHeaders headers, some (hint.dynamicMetadata endpoint)⟩ ∧
      SendsTo codec hint endpoint body headers.setHeaders (some (hint.dynamicMetadata endpoint)) sent := by
  have nonempty := length_pos_of_unmarshal decodes
  refine ⟨_, rfl, ⟨if ctx.workerInstanceID = "" then []
    else [⟨"x-worker-instance-id", bytes ctx.workerInstanceID⟩], ?_, ?_⟩, rfl, decodes⟩
  · simp only [if_pos nonempty, List.cons_append, List.nil_append]
  · intro header member
    split at member
    · cases member
    · rw [List.mem_singleton.mp member]

theorem agree_of_resolved (decoded : codec.unmarshal text = .object members none)
    (named : members.get "model" = some (.str model))
    (resolved : resolveTargetModel backend model = some (.ok llmReq)) :
    BothFail (buffered codec hint backend text) (streamed codec hint backend text) ∨
      BothRoute codec hint backend text (buffered codec hint backend text) (streamed codec hint backend text) := by
  obtain ⟨body, sent, encoded, map, asked, target, others, decodes, back, first, second⟩ :=
    handled_of_resolved hint decoded named resolved
  cases scheduled : backend.schedule llmReq with
  | error err =>
      rw [scheduled] at first second
      obtain ⟨s, received, failed, _⟩ := exists_streamed second
      exact .inl ⟨_, _, _, s, first, received, failed, rfl⟩
  | ok pod =>
      cases pooled : backend.poolGet with
      | error err =>
          rw [scheduled, pooled] at first second
          obtain ⟨s, received, failed, _⟩ := exists_streamed second
          exact .inl ⟨_, _, _, s, first, received, failed, rfl⟩
      | ok pool =>
          rw [scheduled, pooled] at first second
          obtain ⟨s, received, succeeded, ctx⟩ := exists_streamed second
          obtain ⟨headers, waiting, streams⟩ :=
            sendsTo_streaming hint (Server.routedContext llmReq pod pool encoded.length asked) back
          refine .inr ⟨members, model, llmReq, pod, pool, body, decoded, named, resolved, scheduled, pooled,
            ⟨target, others⟩, ⟨_, _, _, sent, first, rfl, rfl, sendsTo_buffered decodes⟩, ?_⟩
          refine ⟨s, headers, _, { bodyMutation := some (.streamedResponse encoded true) }, encoded, received,
            succeeded, ?_, ?_, ?_, rfl, streams⟩
          · rw [ctx]
            rfl
          · rw [ctx]
            exact waiting
          · rw [ctx]
            rfl

theorem streamed_cases {s : StreamingServer.Stream} (received : streamed codec hint backend text = some s) :
    ∃ ctx map, StreamingServer.handleRequestBody codec hint backend (codec.unmarshalMap text none).1 {} =
      some (s.err, ctx, map) := by
  cases handled : StreamingServer.handleRequestBody codec hint backend (codec.unmarshalMap text none).1 {} with
  | none =>
      have fresh : StreamingServer.handleRequestBody codec hint backend
          (codec.unmarshalMap (({} : StreamingServer.Stream).body ++ text) none).1 {} = none := handled
      have crashed : streamed codec hint backend text = none := StreamingServer.receive_requestBody_eq_none fresh
      rw [crashed] at received
      cases received
  | some result =>
      obtain ⟨err, ctx, map⟩ := result
      obtain ⟨s', received', same, _⟩ := exists_streamed handled
      rw [received'] at received
      cases received
      exact ⟨ctx, map, by rw [same]⟩

theorem streamed_code_ne_badRequest {failed : Option Err} (decoded : codec.unmarshal text = .object members failed)
    (named : members.get "model" = some (.str model))
    (notSynced : ∀ err, backend.poolGet = .error err → err.canonicalCode = .unknown)
    {s : StreamingServer.Stream} (received : streamed codec hint backend text = some s) {err : Err}
    (fails : s.err = some err) : err.canonicalCode ≠ .badRequest := by
  obtain ⟨ctx, map, handled⟩ := streamed_cases received
  rw [fails] at handled
  have field := field_unmarshalMap decoded named
  cases resolved : resolveTargetModel backend model with
  | none =>
      rw [(StreamingServer.handleRequestBody_of_unresolved field).1 resolved] at handled
      cases handled
  | some result =>
      cases result with
      | error unresolved =>
          rw [(StreamingServer.handleRequestBody_of_unresolved field).2 unresolved resolved] at handled
          cases handled
          rw [resolveTargetModel_error_code resolved]
          nofun
      | ok llmReq =>
          have same := resolveTargetModel_ok_model resolved
          rw [← same] at named
          obtain ⟨body, encoded, rewrites, marshalled, _⟩ := exists_rewritten decoded named
          have encodes : codec.marshal (rewritten llmReq (codec.unmarshalMap text none).1) = .ok encoded := by
            rw [unmarshalMap_of_object decoded, rewrites, marshalled]
          obtain ⟨map', settled⟩ : ∃ map', StreamingServer.handleRequestBody codec hint backend
              (codec.unmarshalMap text none).1 {} = _ :=
            StreamingServer.handleRequestBody_of_resolved field resolved encodes
          rw [settled] at handled
          cases scheduled : backend.schedule llmReq with
          | error unscheduled =>
              rw [scheduled] at handled
              cases handled
              nofun
          | ok pod =>
              cases pooled : backend.poolGet with
              | error unsynced =>
                  rw [scheduled, pooled] at handled
                  cases handled
                  rw [notSynced err pooled]
                  nofun
              | ok pool =>
                  rw [scheduled, pooled] at handled
                  cases handled

/-- On a body that is decoded in part only, the buffered server fails, and the streaming server does
not fail in the same way. -/
theorem not_agree_of_halfDecoded (half : HalfDecoded codec text)
    (notSynced : ∀ err, backend.poolGet = .error err → err.canonicalCode = .unknown) :
    ¬ (BothFail (buffered codec hint backend text) (streamed codec hint backend text) ∨
      BothRoute codec hint backend text (buffered codec hint backend text) (streamed codec hint backend text)) := by
  obtain ⟨members, invalid, model, decoded, named⟩ := half
  have rejected : buffered codec hint backend text = _ :=
    Server.handleRequestBody_of_invalid (unmarshalMap_of_object decoded)
  rintro (⟨err₁, ctx, err₂, s, first, second, fails, same⟩ | ⟨_, _, _, _, _, _, whole, _⟩)
  · rw [rejected] at first
    cases first
    exact streamed_code_ne_badRequest decoded named notSynced second fails same.symm
  · rw [decoded] at whole
    cases whole

end Agreement

/-- The two servers agree on every body, except one that is an object with a string model and a number
out of range, and one whose model has target models that cannot be drawn from, on which both panic. -/
theorem servers_route_alike_iff (codec : Codec) (hint : DestinationHint) (ds : Datastore)
    (order : List NamespacedName) (schedule : LLMRequest → Except Err BackendPod)
    (frontEnd : Bytes → Except Err String) (intn int31n : Nat) (text : Bytes) :
    let backend := Backend.ofDatastore ds order schedule frontEnd intn int31n
    (BothFail (buffered codec hint backend text) (streamed codec hint backend text) ∨
      BothRoute codec hint backend text (buffered codec hint backend text) (streamed codec hint backend text)) ↔
    ¬ HalfDecoded codec text ∧ ∀ members model, codec.unmarshal text = .object members none →
      members.get "model" = some (.str model) → ∀ m, ds.modelGet model = some m → Drawable m.spec := by
  intro backend
  have notSynced : ∀ err, backend.poolGet = .error err → err.canonicalCode = .unknown := by
    intro err missing
    simp only [backend, Backend.ofDatastore, Datastore.poolGet] at missing
    split at missing
    · cases missing
      rfl
    · cases missing
  have undrawn (model : String) : resolveTargetModel backend model = none ↔
      ∃ m, ds.modelGet model = some m ∧ ¬ Drawable m.spec := resolveTargetModel_eq_none_iff
  constructor
  · intro agree
    refine ⟨fun half => not_agree_of_halfDecoded half notSynced agree, ?_⟩
    intro members model decoded named m found
    by_contra stuck
    have crashes := (undrawn model).mpr ⟨m, found, stuck⟩
    have crashed : buffered codec hint backend text = none :=
      (Server.handleRequestBody_of_unresolved decoded named).1 crashes
    rw [crashed] at agree
    rcases agree with ⟨_, _, _, _, failed, _⟩ | ⟨_, _, _, _, _, _, _, _, _, _, _, _, ⟨_, _, _, _, routed, _⟩, _⟩
    · cases failed
    · cases routed
  · rintro ⟨whole, drawable⟩
    by_cases unnamed : ∀ model, field (codec.unmarshalMap text none).1 "model" ≠ .str model
    · exact .inl (bothFail_of_unnamed unnamed)
    · obtain ⟨model, read⟩ := not_forall_not.mp unnamed
      obtain ⟨members, err, decoded, named⟩ := decoded_of_field read
      cases err with
      | some err => exact absurd ⟨members, err, model, decoded, named⟩ whole
      | none =>
          cases resolved : resolveTargetModel backend model with
          | none =>
              obtain ⟨m, found, stuck⟩ := (undrawn model).mp resolved
              exact absurd (drawable members model decoded named m found) stuck
          | some result =>
              cases result with
              | error err => exact .inl (bothFail_of_unresolved decoded named resolved)
              | ok llmReq => exact agree_of_resolved decoded named resolved

def hugeNumber : Bytes := bytes "\x7b\"model\":\"m\",\"x\":1e400\x7d"

theorem hugeNumber_splits_servers :
    (buffered jsonCodec testHint chatBackend hugeNumber).map (fun result => match result.1 with
      | .error err => some err.canonicalCode
      | .ok _ => none) = some (some .badRequest) ∧
    (streamed jsonCodec testHint chatBackend hugeNumber).map (fun s => (s.err.isNone, s.ctx.targetEndpoint)) =
      some (true, "10.0.0.1:8000") ∧
    ¬ (BothFail (buffered jsonCodec testHint chatBackend hugeNumber)
        (streamed jsonCodec testHint chatBackend hugeNumber) ∨
      BothRoute jsonCodec testHint chatBackend hugeNumber (buffered jsonCodec testHint chatBackend hugeNumber)
        (streamed jsonCodec testHint chatBackend hugeNumber)) := by
  have first : (buffered jsonCodec testHint chatBackend hugeNumber).map (fun result => match result.1 with
      | .error err => some err.canonicalCode
      | .ok _ => none) = some (some .badRequest) := by decide +kernel
  have second : (streamed jsonCodec testHint chatBackend hugeNumber).map (fun s =>
      (s.err.isNone, s.ctx.targetEndpoint)) = some (true, "10.0.0.1:8000") := by decide +kernel
  refine ⟨first, second, ?_⟩
  rintro (⟨_, _, _, s, _, received, fails, _⟩ | ⟨_, _, _, _, _, _, _, _, _, _, _, _, ⟨_, _, _, _, routed, _⟩, _⟩)
  · rw [received] at second
    simp [fails] at second
  · rw [routed] at first
    simp at first

end InferenceGateway
