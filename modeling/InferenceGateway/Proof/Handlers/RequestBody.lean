import InferenceGateway.Handlers.Server
import InferenceGateway.Handlers.StreamingServer
import InferenceGateway.Proof.Handlers.Draw

/-!
What the two servers make of a request body. Both look up the model, draw the target model, encode
the body, schedule and ask for the pool, in this order; the streaming server asks the FrontEnd
before it schedules.
-/

namespace InferenceGateway
open Lib

/-! ## The target model -/

theorem resolveTargetModel_eq_none_iff {backend : Backend} {model : String} :
    resolveTargetModel backend model = none ↔
      ∃ modelObj, backend.modelGet model = some modelObj ∧ ¬ Drawable modelObj.spec := by
  unfold resolveTargetModel
  cases found : backend.modelGet model with
  | none => simp
  | some modelObj =>
      by_cases targets : modelObj.spec.targetModels = []
      · simp [targets, Drawable]
      · have drawable := randomWeightedDraw_isSome_iff backend.int31n targets
        cases drawn : randomWeightedDraw backend.int31n modelObj with
        | none => simp_all
        | some modelName =>
            rw [drawn] at drawable
            simp only [targets, if_false, drawn, Option.bind_eq_bind, Option.bind_some, Option.some.injEq,
              exists_eq_left']
            constructor
            · intro resolved
              split at resolved <;> cases resolved
            · intro not
              exact absurd (drawable.mp rfl) not

theorem resolveTargetModel_ok_model {backend : Backend} {model : String} {llmReq : LLMRequest}
    (resolved : resolveTargetModel backend model = some (.ok llmReq)) : llmReq.model = model := by
  unfold resolveTargetModel at resolved
  split at resolved
  · cases resolved
  · dsimp only at resolved
    split at resolved
    · cases resolved
      rfl
    · rw [Option.bind_eq_bind, Option.bind_eq_some_iff] at resolved
      obtain ⟨modelName, _, resolved⟩ := resolved
      split at resolved <;> cases resolved
      rfl

theorem resolveTargetModel_error_code {backend : Backend} {model : String} {err : Err}
    (resolved : resolveTargetModel backend model = some (.error err)) : err.canonicalCode = .badConfiguration := by
  unfold resolveTargetModel at resolved
  split at resolved
  · cases resolved
    rfl
  · dsimp only at resolved
    split at resolved
    · cases resolved
    · rw [Option.bind_eq_bind, Option.bind_eq_some_iff] at resolved
      obtain ⟨modelName, _, resolved⟩ := resolved
      split at resolved <;> cases resolved
      rfl

theorem resolveTargetModel_of_absent {backend : Backend} {model : String} (absent : backend.modelGet model = none) :
    ∃ err, resolveTargetModel backend model = some (.error err) := by
  rw [resolveTargetModel, absent]
  exact ⟨_, rfl⟩

theorem resolveTargetModel_of_no_targets {backend : Backend} {model : String} {m : InferenceModel}
    (found : backend.modelGet model = some m) (none : m.spec.targetModels = []) :
    resolveTargetModel backend model = some (.ok ⟨model, model, Datastore.isCritical m⟩) := by
  simp only [resolveTargetModel, found, none, if_true]

theorem resolveTargetModel_of_drawn {backend : Backend} {model name : String} {m : InferenceModel}
    (found : backend.modelGet model = some m) (targets : m.spec.targetModels ≠ [])
    (drawn : randomWeightedDraw backend.int31n m = some name) :
    (name = "" → ∃ err, resolveTargetModel backend model = some (.error err)) ∧
    (name ≠ "" → resolveTargetModel backend model = some (.ok ⟨model, name, Datastore.isCritical m⟩)) := by
  simp only [resolveTargetModel, found, targets, if_false, drawn, Option.bind_eq_bind, Option.bind_some]
  exact ⟨fun empty => ⟨_, if_pos empty⟩, fun filled => if_neg filled⟩

/-! ## The encoded body -/

def rewritten (llmReq : LLMRequest) (body : Option Object) : Option Object :=
  if llmReq.model ≠ llmReq.resolvedTargetModel then
    body.map fun body => body.set "model" (.str llmReq.resolvedTargetModel)
  else body

theorem exists_rewritten {codec : Codec} {text : Bytes} {members : Object} {err : Option Err}
    (decoded : codec.unmarshal text = .object members err) {llmReq : LLMRequest}
    (named : members.get "model" = some (.str llmReq.model)) :
    ∃ (body : Object) (encoded : Bytes), rewritten llmReq (some members) = some body ∧
      codec.marshal (some body) = .ok encoded ∧ codec.unmarshal encoded = .object body none ∧
      body.get "model" = some (.str llmReq.resolvedTargetModel) ∧
      ∀ key, key ≠ "model" → body.get key = members.get key := by
  by_cases same : llmReq.model = llmReq.resolvedTargetModel
  · obtain ⟨encoded, marshalled, back⟩ := codec.unmarshal_marshal decoded
    refine ⟨members, encoded, by simp [rewritten, same], marshalled, back, ?_, fun _ _ => rfl⟩
    rw [named, same]
  · obtain ⟨text', decoded'⟩ := codec.unmarshal_set llmReq.resolvedTargetModel decoded named
    obtain ⟨encoded, marshalled, back⟩ := codec.unmarshal_marshal decoded'
    refine ⟨_, encoded, by simp [rewritten, same], marshalled, back, Object.get_set_self .., ?_⟩
    exact fun key other => Object.get_set_of_ne other ..

theorem length_pos_of_unmarshal {codec : Codec} {text : Bytes} {members : Object} {err : Option Err}
    (decoded : codec.unmarshal text = .object members err) : 0 < text.length := by
  apply List.length_pos_iff.mpr
  rintro rfl
  obtain ⟨invalid, empty⟩ := codec.unmarshal_empty
  rw [empty] at decoded
  cases decoded

def failedToSchedule (err : Err) : Err :=
  .coded ⟨.inferencePoolResourceExhausted, "failed to find target pod: " ++ err.text⟩

/-! ## The servers -/

section Handlers
variable {codec : Codec} {hint : DestinationHint} {backend : Backend} {text : Bytes} {members : Object}
  {ctx : RequestContext} {model : String} {llmReq : LLMRequest}

theorem field_some {key : String} {value : Json} (has : members.get key = some value) :
    field (some members) key = value := by
  simp [field, has]

theorem field_unmarshalMap {err : Option Err} (decoded : codec.unmarshal text = .object members err)
    (named : members.get "model" = some (.str model)) :
    field (codec.unmarshalMap text none).1 "model" = .str model := by
  rw [unmarshalMap_of_object decoded]
  exact field_some named

theorem decoded_of_field (named : field (codec.unmarshalMap text none).1 "model" = .str model) :
    ∃ members err, codec.unmarshal text = .object members err ∧ members.get "model" = some (.str model) := by
  cases decoded : codec.unmarshal text with
  | invalid err =>
      simp only [Codec.unmarshalMap, decoded] at named
      cases named
  | null =>
      simp only [Codec.unmarshalMap, decoded] at named
      cases named
  | object members err =>
      simp only [unmarshalMap_of_object decoded, field, Option.getD_some] at named
      cases value : members.get "model" with
      | none =>
          rw [value] at named
          cases named
      | some v =>
          rw [value] at named
          exact ⟨members, err, rfl, by rw [value, ← named, Option.getD_some]⟩

/-- The body that the buffered server sends: the text it received, unless the model changes. -/
theorem exists_updated (decoded : codec.unmarshal text = .object members none) {body : Object} {encoded : Bytes}
    (rewrites : rewritten llmReq (some members) = some body) (marshalled : codec.marshal (some body) = .ok encoded)
    (back : codec.unmarshal encoded = .object body none) :
    ∃ sent, (if llmReq.model ≠ llmReq.resolvedTargetModel then codec.marshal (rewritten llmReq (some members))
      else .ok text) = .ok sent ∧ codec.unmarshal sent = .object body none := by
  by_cases same : llmReq.model = llmReq.resolvedTargetModel
  · have unchanged : members = body := by simpa [rewritten, same] using rewrites
    exact ⟨text, by simp [same], by rw [decoded, unchanged]⟩
  · exact ⟨encoded, by simp [same, rewrites, marshalled], back⟩

namespace Server

def routedContext (llmReq : LLMRequest) (pod : BackendPod) (pool : InferencePool) (size : Nat)
    (ctx : RequestContext) : RequestContext :=
  { ctx with
    model := llmReq.model
    resolvedTargetModel := llmReq.resolvedTargetModel
    requestSize := size
    targetPod := pod.namespacedName.ns ++ "/" ++ pod.namespacedName.name
    targetEndpoint := endpointOf pod pool }

def routedResponse (hint : DestinationHint) (endpoint : String) (body : Bytes) : ProcessingResponse where
  response := .requestBody {
    setHeaders := [⟨hint.destinationEndpointHintKey, bytes endpoint⟩,
      ⟨"Content-Length", bytes (toString body.length)⟩]
    bodyMutation := some (.body body) }
  dynamicMetadata := some (hint.dynamicMetadata endpoint)

theorem handleRequestBody_of_invalid {map : Option Object} {err : Err}
    (decoded : codec.unmarshalMap text none = (map, some err)) :
    handleRequestBody codec hint backend text ctx =
      some (.error (.coded ⟨.badRequest, "error unmarshaling request body: " ++ err.text⟩), ctx) := by
  simp only [handleRequestBody, decoded]
  rfl

theorem handleRequestBody_of_unnamed {map : Option Object}
    (decoded : codec.unmarshalMap text none = (map, none)) (unnamed : ∀ model, field map "model" ≠ .str model) :
    handleRequestBody codec hint backend text ctx =
      some (.error (.coded ⟨.badRequest, "model not found in request"⟩), ctx) := by
  simp only [handleRequestBody, decoded]
  rfl

theorem handleRequestBody_of_unresolved (decoded : codec.unmarshal text = .object members none)
    (named : members.get "model" = some (.str model)) :
    (resolveTargetModel backend model = none → handleRequestBody codec hint backend text ctx = none) ∧
    ∀ err, resolveTargetModel backend model = some (.error err) →
      handleRequestBody codec hint backend text ctx = some (.error err, ctx) := by
  simp only [handleRequestBody, unmarshalMap_of_object decoded, field_some named]
  constructor
  · intro undrawn
    rw [undrawn]
    rfl
  · intro err failed
    rw [failed]
    rfl

/-- What `HandleRequestBody` does once the target model is known. The body is encoded again only if
the model changes. -/
theorem handleRequestBody_of_resolved (decoded : codec.unmarshal text = .object members none)
    (named : members.get "model" = some (.str model))
    (resolved : resolveTargetModel backend model = some (.ok llmReq)) {body : Bytes}
    (updated : (if llmReq.model ≠ llmReq.resolvedTargetModel then codec.marshal (rewritten llmReq (some members))
      else .ok text) = .ok body) :
    handleRequestBody codec hint backend text ctx =
      match backend.schedule llmReq with
      | .error err => some (.error (failedToSchedule err), ctx)
      | .ok pod =>
        match backend.poolGet with
        | .error err => some (.error err, ctx)
        | .ok pool => some (.ok (routedResponse hint (endpointOf pod pool) body),
            routedContext llmReq pod pool text.length ctx) := by
  have encoded : (if llmReq.model ≠ llmReq.resolvedTargetModel then
      codec.marshal ((some members).map fun rb => rb.set "model" (.str llmReq.resolvedTargetModel))
      else .ok text) = .ok body := by
    rw [← updated]
    split <;> simp_all [rewritten]
  simp only [handleRequestBody, unmarshalMap_of_object decoded, field_some named, resolved, Option.bind_eq_bind,
    Option.bind_some, encoded]
  cases backend.schedule llmReq with
  | error err => rfl
  | ok pod => cases backend.poolGet <;> rfl

theorem handled_of_llmReq (hint : DestinationHint) (ctx : RequestContext)
    (decoded : codec.unmarshal text = .object members none) (named : members.get "model" = some (.str model))
    (resolved : resolveTargetModel backend model = some (.ok llmReq)) :
    ∃ sent, handleRequestBody codec hint backend text ctx =
      match backend.schedule llmReq with
      | .error err => some (.error (failedToSchedule err), ctx)
      | .ok pod =>
        match backend.poolGet with
        | .error err => some (.error err, ctx)
        | .ok pool => some (.ok (routedResponse hint (endpointOf pod pool) sent),
            routedContext llmReq pod pool text.length ctx) := by
  have same := resolveTargetModel_ok_model resolved
  have target : members.get "model" = some (.str llmReq.model) := by rw [same, named]
  obtain ⟨body, encoded, rewrites, marshalled, back, _⟩ := exists_rewritten decoded target
  obtain ⟨sent, updated, _⟩ := exists_updated decoded rewrites marshalled back
  exact ⟨sent, handleRequestBody_of_resolved decoded named resolved updated⟩

/-- What `HandleRequestBody` may do, with what it found in the body and in the backend. -/
inductive Handles (codec : Codec) (hint : DestinationHint) (backend : Backend) (text : Bytes) (ctx : RequestContext) :
    Option (Except Err ProcessingResponse × RequestContext) → Prop
  | invalid {map : Option Object} {err : Err} (decoded : codec.unmarshalMap text none = (map, some err)) :
      Handles codec hint backend text ctx
        (some (.error (.coded ⟨.badRequest, "error unmarshaling request body: " ++ err.text⟩), ctx))
  | unnamed {map : Option Object} (decoded : codec.unmarshalMap text none = (map, none))
      (unnamed : ∀ model, field map "model" ≠ .str model) :
      Handles codec hint backend text ctx (some (.error (.coded ⟨.badRequest, "model not found in request"⟩), ctx))
  | undrawn {members : Object} {model : String} (decoded : codec.unmarshal text = .object members none)
      (named : members.get "model" = some (.str model)) (resolved : resolveTargetModel backend model = none) :
      Handles codec hint backend text ctx none
  | unresolved {members : Object} {model : String} {err : Err} (decoded : codec.unmarshal text = .object members none)
      (named : members.get "model" = some (.str model))
      (resolved : resolveTargetModel backend model = some (.error err)) :
      Handles codec hint backend text ctx (some (.error err, ctx))
  | unscheduled {members : Object} {model : String} {llmReq : LLMRequest} {err : Err}
      (decoded : codec.unmarshal text = .object members none) (named : members.get "model" = some (.str model))
      (resolved : resolveTargetModel backend model = some (.ok llmReq))
      (scheduled : backend.schedule llmReq = .error err) :
      Handles codec hint backend text ctx (some (.error (failedToSchedule err), ctx))
  | unpooled {members : Object} {model : String} {llmReq : LLMRequest} {pod : BackendPod} {err : Err}
      (decoded : codec.unmarshal text = .object members none) (named : members.get "model" = some (.str model))
      (resolved : resolveTargetModel backend model = some (.ok llmReq)) (scheduled : backend.schedule llmReq = .ok pod)
      (pooled : backend.poolGet = .error err) :
      Handles codec hint backend text ctx (some (.error err, ctx))
  | routed {members : Object} {model : String} {llmReq : LLMRequest} {pod : BackendPod} {pool : InferencePool}
      (decoded : codec.unmarshal text = .object members none) (named : members.get "model" = some (.str model))
      (resolved : resolveTargetModel backend model = some (.ok llmReq)) (scheduled : backend.schedule llmReq = .ok pod)
      (pooled : backend.poolGet = .ok pool) (sent : Bytes) :
      Handles codec hint backend text ctx (some (.ok (routedResponse hint (endpointOf pod pool) sent),
        routedContext llmReq pod pool text.length ctx))

theorem handles (codec : Codec) (hint : DestinationHint) (backend : Backend) (text : Bytes) (ctx : RequestContext) :
    Handles codec hint backend text ctx (handleRequestBody codec hint backend text ctx) := by
  cases decodes : codec.unmarshalMap text none with
  | mk map failed =>
      cases failed with
      | some err =>
          rw [handleRequestBody_of_invalid decodes]
          exact .invalid decodes
      | none =>
          by_cases unnamed : ∀ model, field map "model" ≠ .str model
          · rw [handleRequestBody_of_unnamed decodes unnamed]
            exact .unnamed decodes unnamed
          · obtain ⟨model, read⟩ := not_forall_not.mp unnamed
            rw [show map = (codec.unmarshalMap text none).1 by rw [decodes]] at read
            obtain ⟨members, failed, decoded, named⟩ := decoded_of_field read
            rw [unmarshalMap_of_object decoded] at decodes
            cases decodes
            cases resolved : resolveTargetModel backend model with
            | none =>
                rw [(handleRequestBody_of_unresolved decoded named).1 resolved]
                exact .undrawn decoded named resolved
            | some result =>
                cases result with
                | error err =>
                    rw [(handleRequestBody_of_unresolved decoded named).2 err resolved]
                    exact .unresolved decoded named resolved
                | ok llmReq =>
                    obtain ⟨sent, settled⟩ := handled_of_llmReq hint ctx decoded named resolved
                    rw [settled]
                    cases scheduled : backend.schedule llmReq with
                    | error err => exact .unscheduled decoded named resolved scheduled
                    | ok pod =>
                        cases pooled : backend.poolGet with
                        | error err => exact .unpooled decoded named resolved scheduled pooled
                        | ok pool => exact .routed decoded named resolved scheduled pooled sent

/-- The body is an object whose model has target models that cannot be drawn from. -/
def Undrawable (codec : Codec) (backend : Backend) (text : Bytes) : Prop :=
  ∃ members model, codec.unmarshal text = .object members none ∧ members.get "model" = some (.str model) ∧
    ∃ m, backend.modelGet model = some m ∧ ¬ Drawable m.spec

theorem undrawable_iff (decoded : codec.unmarshal text = .object members none)
    (named : members.get "model" = some (.str model)) :
    Undrawable codec backend text ↔ resolveTargetModel backend model = none := by
  rw [resolveTargetModel_eq_none_iff]
  constructor
  · rintro ⟨members', model', decoded', named', m, found, not⟩
    rw [decoded] at decoded'
    cases decoded'
    rw [named] at named'
    cases named'
    exact ⟨m, found, not⟩
  · rintro ⟨m, found, not⟩
    exact ⟨members, model, decoded, named, m, found, not⟩

theorem handleRequestBody_cases (codec : Codec) (hint : DestinationHint) (backend : Backend) (text : Bytes)
    (ctx : RequestContext) :
    (Undrawable codec backend text ∧ handleRequestBody codec hint backend text ctx = none) ∨
    (¬ Undrawable codec backend text ∧
      ((∃ err, handleRequestBody codec hint backend text ctx = some (.error err, ctx)) ∨
        ∃ response metadata ctx', handleRequestBody codec hint backend text ctx =
          some (.ok ⟨.requestBody response, metadata⟩, ctx'))) := by
  have handles := handles codec hint backend text ctx
  generalize handleRequestBody codec hint backend text ctx = result at handles ⊢
  cases handles with
  | invalid decoded =>
      refine .inr ⟨?_, .inl ⟨_, rfl⟩⟩
      rintro ⟨_, _, whole, _⟩
      rw [unmarshalMap_of_object whole] at decoded
      cases decoded
  | unnamed decoded unnamed =>
      refine .inr ⟨?_, .inl ⟨_, rfl⟩⟩
      rintro ⟨_, model, whole, named, _⟩
      rw [unmarshalMap_of_object whole] at decoded
      cases decoded
      exact unnamed model (field_some named)
  | undrawn decoded named resolved => exact .inl ⟨(undrawable_iff decoded named).mpr resolved, rfl⟩
  | unresolved decoded named resolved =>
      exact .inr ⟨by simp [undrawable_iff decoded named, resolved], .inl ⟨_, rfl⟩⟩
  | unscheduled decoded named resolved | unpooled decoded named resolved =>
      exact .inr ⟨by simp [undrawable_iff decoded named, resolved], .inl ⟨_, rfl⟩⟩
  | routed decoded named resolved =>
      exact .inr ⟨by simp [undrawable_iff decoded named, resolved], .inr ⟨_, _, _, rfl⟩⟩

end Server

namespace StreamingServer

def asked (codec : Codec) (backend : Backend) (body : Option Object) (ctx : RequestContext) : RequestContext :=
  setWorkerInstanceID (callFrontEndForWorker codec backend body).1 ctx

def routedContext (hint : DestinationHint) (llmReq : LLMRequest) (pod : BackendPod) (pool : InferencePool)
    (encoded : Bytes) (ctx : RequestContext) : RequestContext :=
  { populateRequestHeaderResponse hint (endpointOf pod pool) encoded.length
      (Server.routedContext llmReq pod pool encoded.length ctx) with
    reqBodyResp := some ⟨.requestBody { bodyMutation := some (.streamedResponse encoded true) }, none⟩ }

theorem handleRequestBody_of_unnamed {map : Option Object} (unnamed : ∀ model, field map "model" ≠ .str model) :
    handleRequestBody codec hint backend map ctx =
      some (some (.coded ⟨.badRequest, "model not found in request"⟩), ctx, map) := by
  unfold handleRequestBody
  split
  · rename_i model named
    exact absurd named (unnamed model)
  · rfl

theorem handleRequestBody_of_unresolved {map : Option Object} (named : field map "model" = .str model) :
    (resolveTargetModel backend model = none → handleRequestBody codec hint backend map ctx = none) ∧
    ∀ err, resolveTargetModel backend model = some (.error err) →
      handleRequestBody codec hint backend map ctx = some (some err, ctx, map) := by
  simp only [handleRequestBody, named]
  constructor
  · intro undrawn
    rw [undrawn]
    rfl
  · intro err failed
    rw [failed]
    rfl

theorem handleRequestBody_of_resolved {map : Option Object} (named : field map "model" = .str model)
    (resolved : resolveTargetModel backend model = some (.ok llmReq)) {encoded : Bytes}
    (marshalled : codec.marshal (rewritten llmReq map) = .ok encoded) :
    ∃ map', handleRequestBody codec hint backend map ctx =
      match backend.schedule llmReq with
      | .error err => some (some (failedToSchedule err), asked codec backend (rewritten llmReq map) ctx, map')
      | .ok pod =>
        match backend.poolGet with
        | .error err => some (some err, asked codec backend (rewritten llmReq map) ctx, map')
        | .ok pool => some (none, routedContext hint llmReq pod pool encoded
            (asked codec backend (rewritten llmReq map) ctx), map') := by
  refine ⟨(callFrontEndForWorker codec backend (rewritten llmReq map)).2, ?_⟩
  unfold rewritten at marshalled
  simp only [handleRequestBody, named, resolved, Option.bind_eq_bind, Option.bind_some, marshalled]
  cases backend.schedule llmReq with
  | error err => rfl
  | ok pod => cases backend.poolGet <;> rfl

theorem asked_eq (codec : Codec) (backend : Backend) (body : Option Object) (ctx : RequestContext) :
    ∃ worker, asked codec backend body ctx = { ctx with workerInstanceID := worker } := by
  unfold asked setWorkerInstanceID
  split
  · exact ⟨ctx.workerInstanceID, rfl⟩
  · split
    · exact ⟨ctx.workerInstanceID, rfl⟩
    · exact ⟨_, rfl⟩

theorem handleRequestBody_cases (codec : Codec) (hint : DestinationHint) (backend : Backend) (map : Option Object)
    (ctx : RequestContext) :
    ((∃ model m, backend.modelGet model = some m ∧ ¬ Drawable m.spec) ∧
      handleRequestBody codec hint backend map ctx = none) ∨
    (∃ err worker map', handleRequestBody codec hint backend map ctx =
      some (some err, { ctx with workerInstanceID := worker }, map')) ∨
    ∃ model llmReq encoded pod pool map', field map "model" = .str model ∧
      resolveTargetModel backend model = some (.ok llmReq) ∧ codec.marshal (rewritten llmReq map) = .ok encoded ∧
      handleRequestBody codec hint backend map ctx =
        some (none, routedContext hint llmReq pod pool encoded (asked codec backend (rewritten llmReq map) ctx),
          map') := by
  by_cases unnamed : ∀ model, field map "model" ≠ .str model
  · exact .inr (.inl ⟨_, ctx.workerInstanceID, _, handleRequestBody_of_unnamed unnamed⟩)
  · obtain ⟨model, named⟩ := not_forall_not.mp unnamed
    cases resolved : resolveTargetModel backend model with
    | none =>
        obtain ⟨m, found, stuck⟩ := resolveTargetModel_eq_none_iff.mp resolved
        exact .inl ⟨⟨model, m, found, stuck⟩, (handleRequestBody_of_unresolved named).1 resolved⟩
    | some result =>
        cases result with
        | error err =>
            exact .inr (.inl ⟨_, ctx.workerInstanceID, _, (handleRequestBody_of_unresolved named).2 err resolved⟩)
        | ok llmReq =>
            cases marshalled : codec.marshal (rewritten llmReq map) with
            | error err =>
                unfold rewritten at marshalled
                simp only [handleRequestBody, named, resolved, Option.bind_eq_bind, Option.bind_some, marshalled]
                exact .inr (.inl ⟨_, ctx.workerInstanceID, _, rfl⟩)
            | ok encoded =>
                obtain ⟨map', settled⟩ : ∃ map', handleRequestBody codec hint backend map ctx = _ :=
                  handleRequestBody_of_resolved named resolved marshalled
                rw [settled]
                obtain ⟨worker, same⟩ := asked_eq codec backend (rewritten llmReq map) ctx
                cases backend.schedule llmReq with
                | error err => exact .inr (.inl ⟨_, worker, map', by rw [same]⟩)
                | ok pod =>
                    cases backend.poolGet with
                    | error err => exact .inr (.inl ⟨err, worker, map', by rw [same]⟩)
                    | ok pool =>
                        exact .inr (.inr ⟨model, llmReq, encoded, pod, pool, map', named, resolved, marshalled, rfl⟩)

/-- An answer leaves the context with another worker at most, and a route is entered into it. -/
theorem handleRequestBody_context {map map' : Option Object} {err : Option Err} {ctx' : RequestContext}
    (handled : handleRequestBody codec hint backend map ctx = some (err, ctx', map')) :
    (∃ worker, ctx' = { ctx with workerInstanceID := worker }) ∨
    err = none ∧ ∃ llmReq encoded pod pool worker,
      ctx' = routedContext hint llmReq pod pool encoded { ctx with workerInstanceID := worker } := by
  rcases handleRequestBody_cases codec hint backend map ctx with ⟨_, crashed⟩ | ⟨_, worker, _, failed⟩ |
    ⟨_, llmReq, encoded, pod, pool, _, _, _, _, routed⟩
  · rw [crashed] at handled
    cases handled
  · rw [failed] at handled
    cases handled
    exact .inl ⟨worker, rfl⟩
  · obtain ⟨worker, same⟩ := asked_eq codec backend (rewritten llmReq map) ctx
    rw [routed, same] at handled
    cases handled
    exact .inr ⟨rfl, llmReq, encoded, pod, pool, worker, rfl⟩

theorem handleRequestBody_of_ok {map map' : Option Object} {ctx' : RequestContext}
    (handled : handleRequestBody codec hint backend map ctx = some (none, ctx', map')) :
    ∃ model llmReq encoded pod pool, field map "model" = .str model ∧
      resolveTargetModel backend model = some (.ok llmReq) ∧
      codec.marshal (rewritten llmReq map) = .ok encoded ∧
      ctx' = routedContext hint llmReq pod pool encoded (asked codec backend (rewritten llmReq map) ctx) := by
  rcases handleRequestBody_cases codec hint backend map ctx with ⟨_, crashed⟩ | ⟨err, _, _, failed⟩ |
    ⟨model, llmReq, encoded, pod, pool, _, named, resolved, marshalled, routed⟩
  · rw [crashed] at handled
    cases handled
  · rw [failed] at handled
    cases handled
  · rw [routed] at handled
    cases handled
    exact ⟨model, llmReq, encoded, pod, pool, named, resolved, marshalled, rfl⟩

theorem receive_requestBody {s : Stream} {chunk : Bytes} {err : Option Err} {ctx : RequestContext}
    {map : Option Object}
    (handled : handleRequestBody codec hint backend (codec.unmarshalMap (s.body ++ chunk) s.requestBody).1 s.ctx =
      some (err, ctx, map)) :
    ∃ recorded, receive codec hint backend s (.requestBody chunk true) =
      some { s with body := [], requestBody := map, err := err, ctx := ctx, recorded := recorded } := by
  simp only [receive, if_true, handled, Option.bind_eq_bind, Option.bind_some]
  cases err with
  | none => exact ⟨_, rfl⟩
  | some err => exact ⟨_, rfl⟩

theorem receive_requestBody_eq_none {s : Stream} {chunk : Bytes}
    (handled : handleRequestBody codec hint backend (codec.unmarshalMap (s.body ++ chunk) s.requestBody).1 s.ctx =
      none) :
    receive codec hint backend s (.requestBody chunk true) = none := by
  simp only [receive, if_true, handled, Option.bind_eq_bind, Option.bind_none]

end StreamingServer

theorem handled_of_resolved (hint : DestinationHint) (decoded : codec.unmarshal text = .object members none)
    (named : members.get "model" = some (.str model))
    (resolved : resolveTargetModel backend model = some (.ok llmReq)) :
    ∃ (body : Object) (sent encoded : Bytes) (map : Option Object) (asked : RequestContext),
      body.get "model" = some (.str llmReq.resolvedTargetModel) ∧
      (∀ key, key ≠ "model" → body.get key = members.get key) ∧
      codec.unmarshal sent = .object body none ∧ codec.unmarshal encoded = .object body none ∧
      Server.handleRequestBody codec hint backend text {} =
        (match backend.schedule llmReq with
        | .error err => some (.error (failedToSchedule err), {})
        | .ok pod =>
          match backend.poolGet with
          | .error err => some (.error err, {})
          | .ok pool => some (.ok (Server.routedResponse hint (endpointOf pod pool) sent),
              Server.routedContext llmReq pod pool text.length {})) ∧
      StreamingServer.handleRequestBody codec hint backend (codec.unmarshalMap text none).1 {} =
        match backend.schedule llmReq with
        | .error err => some (some (failedToSchedule err), asked, map)
        | .ok pod =>
          match backend.poolGet with
          | .error err => some (some err, asked, map)
          | .ok pool => some (none, StreamingServer.routedContext hint llmReq pod pool encoded asked, map) := by
  have same := resolveTargetModel_ok_model resolved
  rw [← same] at named
  obtain ⟨body, encoded, rewrites, marshalled, back, target, others⟩ := exists_rewritten decoded named
  obtain ⟨sent, updated, decodes⟩ := exists_updated decoded rewrites marshalled back
  rw [same] at named
  have encodes : codec.marshal (rewritten llmReq (codec.unmarshalMap text none).1) = .ok encoded := by
    rw [unmarshalMap_of_object decoded, rewrites, marshalled]
  obtain ⟨map', second⟩ : ∃ map', StreamingServer.handleRequestBody codec hint backend
      (codec.unmarshalMap text none).1 {} = _ :=
    StreamingServer.handleRequestBody_of_resolved (field_unmarshalMap decoded named) resolved encodes
  exact ⟨body, sent, encoded, map', _, target, others, decodes, back,
    Server.handleRequestBody_of_resolved decoded named resolved updated, second⟩

end Handlers

/-! ## A store with one model and one pod -/

def chatModel : InferenceModel := testModel "chat" "m" 0

def chatPod : BackendPod where
  namespacedName := ⟨"default", "pod"⟩
  address := "10.0.0.1"

def chatStore : Datastore where
  pool := some testPool
  models := Finmap.singleton "m" chatModel
  pods := Finmap.singleton chatPod.namespacedName ⟨0, chatPod⟩

def chatBackend : Backend :=
  Backend.ofDatastore chatStore [chatPod.namespacedName] (fun _ => .ok chatPod) (fun _ => .ok "worker") 0 0

def testHint : DestinationHint where
  destinationEndpointHintKey := "x-gateway-destination-endpoint"
  destinationEndpointHintMetadataNamespace := "envoy.lb"

end InferenceGateway
