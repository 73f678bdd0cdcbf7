import InferenceGateway.Proof.BodyBasedRouting
import InferenceGateway.Proof.Handlers.StatusCodes

/-!
A request on its way through both filters of the gateway. The body-based router comes first and sets the
header by which the route is chosen; the endpoint picker behind it reads the model from the body that
the router lets through, in whatever chunks it arrives there.
-/

namespace InferenceGateway
open Lib

/-! ## What Envoy makes of the responses -/

def BodyMutation.text : BodyMutation → Bytes
  | .body text => text
  | .streamedResponse text _ => text

/-- The body that goes on: the one that was received, unless the responses replace it. -/
def passedOn (received : Bytes) : List Bytes → Bytes
  | [] => received
  | replacements => replacements.flatten

def ProcessingResponse.replacement (resp : ProcessingResponse) : Option Bytes :=
  match resp.response with
  | .requestBody response => response.bodyMutation.map (·.text)
  | _ => none

namespace BodyBasedRouting
variable {codec : Codec} {streaming : Bool} {chunks : List Bytes} {last : Bytes} {sent : List Response}

def Response.replacement : Response → Option Bytes
  | .requestBody response => response.bodyMutation.map (·.text)
  | _ => none

/-- What is sent for a body that arrives in chunks, which Envoy buffers unless the router streams. -/
def routeBody (codec : Codec) (streaming : Bool) (chunks : List Bytes) (last : Bytes) :
    Except HandlerErr (List Response) :=
  if streaming then streamed codec chunks last else buffered codec (chunks.flatten ++ last)

/-- The bytes that the router decodes. -/
def heard (streaming : Bool) (chunks : List Bytes) (last : Bytes) : Bytes :=
  if streaming then chunks.flatten else chunks.flatten ++ last

theorem modelHeaders_routing (data : Option Object) :
    (∃ model, field data "model" = .str model ∧ modelHeaders (.requestHeaders (routing data)) = [bytes model]) ∨
      (∀ model, field data "model" ≠ .str model) ∧ modelHeaders (.requestHeaders (routing data)) = [] := by
  unfold field routing
  cases (data.getD []).get "model" with
  | none => exact .inr ⟨by simp, rfl⟩
  | some value =>
      cases value with
      | str model => exact .inl ⟨model, rfl, rfl⟩
      | _ => exact .inr ⟨by simp, rfl⟩

theorem routed_of_buffered {text : Bytes} (routes : buffered codec text = .ok sent) :
    codec.unmarshalMap text none = ((codec.unmarshalMap text none).1, none) ∧
      sent = [.requestHeaders {}, .requestBody (routing (codec.unmarshalMap text none).1)] := by
  cases decoded : codec.unmarshalMap text none with
  | mk data failed =>
      cases failed with
      | some err =>
          rw [buffered_of_invalid decoded] at routes
          cases routes
      | none =>
          obtain ⟨encoded, encodes, _⟩ := exists_encoded codec text
          rw [decoded] at encodes
          rw [buffered_of_decoded decoded] at routes
          by_cases misnamed : Misnamed data
          · obtain ⟨err, handled⟩ := handled_of_misnamed encodes false misnamed
            rw [handled] at routes
            cases routes
          · rw [(handled_of_named encodes misnamed).1] at routes
            cases routes
            exact ⟨rfl, rfl⟩

theorem Encodes.unmarshalMap {encoded : Bytes} {data : Option Object} (encodes : Encodes codec encoded data) :
    codec.unmarshalMap encoded none = (data, none) := by
  cases data with
  | none =>
      obtain rfl : encoded = bytes "null" := encodes
      simp only [Codec.unmarshalMap, codec.unmarshal_null]
  | some members => exact unmarshalMap_of_object encodes

/-- The header and the body that go on belong to one object, the one that the router has decoded. -/
theorem routes_spec (routes : routeBody codec streaming chunks last = .ok sent) :
    sent.flatMap modelHeaders =
        modelHeaders (.requestHeaders (routing (codec.unmarshalMap (heard streaming chunks last) none).1)) ∧
      codec.unmarshalMap (passedOn (chunks.flatten ++ last) (sent.filterMap Response.replacement)) none =
        ((codec.unmarshalMap (heard streaming chunks last) none).1, none) := by
  cases streaming with
  | false =>
      obtain ⟨decoded, rfl⟩ := routed_of_buffered routes
      have unchanged (data : Option Object) : (routing data).bodyMutation = none := by
        unfold routing
        split <;> rfl
      refine ⟨List.append_nil _, ?_⟩
      simp only [List.filterMap_cons, Response.replacement, unchanged, Option.map_none, List.filterMap_nil]
      exact decoded
  | true =>
      have streams : streamed codec chunks last = .ok sent := routes
      by_cases misnamed : Misnamed (codec.unmarshalMap chunks.flatten none).1
      · obtain ⟨err, fails⟩ := streamed_of_misnamed last misnamed
        rw [fails] at streams
        cases streams
      · obtain ⟨encoded, sends, encodes⟩ := streamed_of_named last misnamed
        cases sends.symm.trans streams
        have passes : passedOn (chunks.flatten ++ last) [encoded] = encoded := List.append_nil encoded
        refine ⟨List.append_nil _, ?_⟩
        exact (congrArg (codec.unmarshalMap · none) passes).trans encodes.unmarshalMap

end BodyBasedRouting

/-! ## The endpoint picker behind the router -/

/-- The model server gets the object with the target model in the place of the model. -/
def Asks (codec : Codec) (members : Object) (target : String) (text : Bytes) : Prop :=
  ∃ body, codec.unmarshal text = .object body none ∧ body.get "model" = some (.str target) ∧
    ∀ key, key ≠ "model" → body.get key = members.get key

/-- What both servers of the endpoint picker make of a body that asks for a model. -/
inductive Serves (codec : Codec) (hint : DestinationHint) (backend : Backend) (model : String) (members : Object)
    (chunks : List Bytes) (last : Bytes) : Prop
  | undrawn (resolved : resolveTargetModel backend model = none)
  | notFound {err : Err} (resolved : resolveTargetModel backend model = some (.error err))
      (ends : BothEnd codec hint (fun _ => False) backend chunks last (some .notFound))
  | refused {llmReq : LLMRequest} {err : Err} (resolved : resolveTargetModel backend model = some (.ok llmReq))
      (scheduled : backend.schedule llmReq = .error err)
      (ends : BothEnd codec hint (fun _ => False) backend chunks last (some .tooManyRequests))
  | unsynced {err : Err} (pooled : backend.poolGet = .error err)
  | placed {llmReq : LLMRequest} {pod : BackendPod} {pool : InferencePool}
      (resolved : resolveTargetModel backend model = some (.ok llmReq)) (scheduled : backend.schedule llmReq = .ok pod)
      (pooled : backend.poolGet = .ok pool)
      (ends : BothEnd codec hint (fun endpoint => endpoint = endpointOf pod pool) backend chunks last none)
      (asks : ∀ sent ∈ [bufferedSent codec hint backend (chunks.flatten ++ last),
          streamedSent codec hint backend chunks last],
        Asks codec members llmReq.resolvedTargetModel
          (passedOn (chunks.flatten ++ last) (sent.filterMap fun resp => resp.bind (·.replacement))))

section Serves
variable {codec : Codec} {hint : DestinationHint} {backend : Backend} {picked : String → Prop} {model : String}
  {members : Object} {chunks : List Bytes} {last : Bytes}

theorem bothEnd_of_unnamed {data : Option Object}
    (decoded : codec.unmarshalMap (chunks.flatten ++ last) none = (data, none))
    (unnamed : ∀ model, field data "model" ≠ .str model) :
    BothEnd codec hint picked backend chunks last (some .badRequest) := by
  have first : Server.handleRequestBody codec hint backend (chunks.flatten ++ last) {} = _ :=
    Server.handleRequestBody_of_unnamed decoded unnamed
  have second : StreamingServer.handleRequestBody codec hint backend
      (codec.unmarshalMap (chunks.flatten ++ last) none).1 {} = _ :=
    StreamingServer.handleRequestBody_of_unnamed (by rwa [decoded])
  exact bothEnd_of_errors first second rfl

/-- The body that the streaming server sends, which it encodes again in any case. -/
theorem streamedSent_of_routed {ctx : RequestContext} {map : Option Object} {llmReq : LLMRequest}
    (decoded : codec.unmarshal (chunks.flatten ++ last) = .object members none)
    (named : members.get "model" = some (.str model))
    (resolved : resolveTargetModel backend model = some (.ok llmReq))
    (handled : StreamingServer.handleRequestBody codec hint backend
      (codec.unmarshalMap (chunks.flatten ++ last) none).1 {} = some (none, ctx, map)) :
    ∃ headers encoded, ctx.reqHeaderResp = some headers ∧ Asks codec members llmReq.resolvedTargetModel encoded ∧
      streamedSent codec hint backend chunks last = [some headers,
        some ⟨.requestBody { bodyMutation := some (.streamedResponse encoded true) }, none⟩] := by
  obtain ⟨headers, _, s, waiting, _, ⟨model', llmReq', encoded, named', resolved', marshalled, rfl⟩, ran, requested⟩ :=
    StreamingServer.run_withBody (fun _ => backend) handled
  rw [field_unmarshalMap decoded named] at named'
  cases named'
  cases resolved.symm.trans resolved'
  rw [← resolveTargetModel_ok_model resolved] at named
  obtain ⟨body, encoded', rewrites, marshalled', back, target, others⟩ := exists_rewritten decoded named
  rw [unmarshalMap_of_object decoded, rewrites, marshalled'] at marshalled
  cases marshalled
  refine ⟨headers, encoded, waiting, ⟨body, back, target, others⟩, ?_⟩
  rw [streamedSent, StreamingServer.process_of_ok ran, StreamingServer.finish_sent, requested.sent]
  rfl

theorem asks_of_scheduled {llmReq : LLMRequest} {pod : BackendPod} {pool : InferencePool}
    (decoded : codec.unmarshal (chunks.flatten ++ last) = .object members none)
    (named : members.get "model" = some (.str model))
    (resolved : resolveTargetModel backend model = some (.ok llmReq)) (scheduled : backend.schedule llmReq = .ok pod)
    (pooled : backend.poolGet = .ok pool) :
    ∀ sent ∈ [bufferedSent codec hint backend (chunks.flatten ++ last), streamedSent codec hint backend chunks last],
      Asks codec members llmReq.resolvedTargetModel
        (passedOn (chunks.flatten ++ last) (sent.filterMap fun resp => resp.bind (·.replacement))) := by
  obtain ⟨body, sent, encoded, map, asked, target, others, decodes, _, first, second⟩ :=
    handled_of_resolved hint decoded named resolved
  rw [scheduled, pooled] at first second
  have buffers := bufferedSent_of_ok first
  obtain ⟨headers, encoded, waiting, asks, streams⟩ := streamedSent_of_routed decoded named resolved second
  cases waiting
  simp only [List.mem_cons, List.not_mem_nil, or_false, forall_eq_or_imp, forall_eq, buffers, streams]
  have passes (text : Bytes) : passedOn (chunks.flatten ++ last) [text] = text := List.append_nil text
  constructor
  · exact ⟨body, (congrArg codec.unmarshal (passes sent)).trans decodes, target, others⟩
  · obtain ⟨body, back, asks⟩ := asks
    exact ⟨body, (congrArg codec.unmarshal (passes encoded)).trans back, asks⟩

theorem serves_of_named (decoded : codec.unmarshal (chunks.flatten ++ last) = .object members none)
    (named : members.get "model" = some (.str model)) :
    Serves codec hint backend model members chunks last := by
  cases resolved : resolveTargetModel backend model with
  | none => exact .undrawn resolved
  | some result =>
      cases result with
      | error err => exact .notFound resolved (bothEnd_of_unresolved decoded named resolved)
      | ok llmReq =>
          cases scheduled : backend.schedule llmReq with
          | error err => exact .refused resolved scheduled (bothEnd_of_unscheduled decoded named resolved scheduled)
          | ok pod =>
              cases pooled : backend.poolGet with
              | error err => exact .unsynced pooled
              | ok pool =>
                  refine .placed resolved scheduled pooled
                    (bothEnd_of_scheduled decoded named resolved scheduled pooled rfl) ?_
                  exact asks_of_scheduled decoded named resolved scheduled pooled

end Serves

/-- The model of the header is the model that the endpoint picker serves. -/
theorem header_model_served (codec : Codec) (streaming : Bool) (chunks : List Bytes) (last : Bytes)
    {sent : List BodyBasedRouting.Response}
    (routes : BodyBasedRouting.routeBody codec streaming chunks last = .ok sent) (hint : DestinationHint)
    (backend : Backend) {chunks' : List Bytes} {last' : Bytes}
    (arrives : chunks'.flatten ++ last' =
      passedOn (chunks.flatten ++ last) (sent.filterMap BodyBasedRouting.Response.replacement)) :
    (sent.flatMap BodyBasedRouting.modelHeaders = [] ∧
      BothEnd codec hint (fun _ => False) backend chunks' last' (some .badRequest)) ∨
    ∃ model members, sent.flatMap BodyBasedRouting.modelHeaders = [bytes model] ∧
      members.get "model" = some (.str model) ∧
      BodyBasedRouting.DecodesTo codec (BodyBasedRouting.heard streaming chunks last) members ∧
      Serves codec hint backend model members chunks' last' := by
  obtain ⟨headers, passed⟩ := BodyBasedRouting.routes_spec routes
  rw [← arrives] at passed
  rw [headers]
  rcases BodyBasedRouting.modelHeaders_routing
    (codec.unmarshalMap (BodyBasedRouting.heard streaming chunks last) none).1 with
    ⟨model, named, set⟩ | ⟨unnamed, unset⟩
  · obtain ⟨members, _, decoded, found⟩ := decoded_of_field named
    have whole : codec.unmarshal (chunks'.flatten ++ last') = .object members none := by
      rw [unmarshalMap_of_object decoded] at passed
      obtain ⟨failed, whole⟩ := BodyBasedRouting.decodesTo_iff.mpr (congrArg Prod.fst passed)
      cases (unmarshalMap_of_object whole).symm.trans passed
      exact whole
    exact .inr ⟨model, members, set, found, ⟨_, decoded⟩, serves_of_named whole found⟩
  · exact .inl ⟨unset, bothEnd_of_unnamed passed unnamed⟩

def routedChat : List BodyBasedRouting.Response :=
  [.requestHeaders (BodyBasedRouting.routing (some [("model", .str "m")])),
    .requestBody { bodyMutation := some (.streamedResponse chatBody true) }]

theorem split_chat_served :
    BodyBasedRouting.routeBody jsonCodec true [chatBody.take 5, chatBody.drop 5] [] = .ok routedChat ∧
      ∃ model members, [bytes "m"] = [bytes model] ∧ members.get "model" = some (.str model) ∧
        BodyBasedRouting.DecodesTo jsonCodec chatBody members ∧
        Serves jsonCodec testHint chatBackend model members [chatBody.take 3] (chatBody.drop 3) := by
  have routes : BodyBasedRouting.routeBody jsonCodec true [chatBody.take 5, chatBody.drop 5] [] = .ok routedChat := by
    have sends : (BodyBasedRouting.routeBody jsonCodec true [chatBody.take 5, chatBody.drop 5] []).toOption =
        some routedChat := by
      decide +kernel
    cases routed : BodyBasedRouting.routeBody jsonCodec true [chatBody.take 5, chatBody.drop 5] [] with
    | error err =>
        rw [routed] at sends
        cases sends
    | ok sent =>
        rw [routed] at sends
        exact congrArg Except.ok (Option.some.inj sends)
  have arrives : [chatBody.take 3].flatten ++ chatBody.drop 3 =
      passedOn ([chatBody.take 5, chatBody.drop 5].flatten ++ [])
        (routedChat.filterMap BodyBasedRouting.Response.replacement) := by
    decide +kernel
  refine ⟨routes, ?_⟩
  rcases header_model_served jsonCodec true _ _ routes testHint chatBackend arrives with ⟨unset, _⟩ | served
  · cases unset
  · exact served

end InferenceGateway
