import InferenceGateway.Proof.Controller.Reachable
import InferenceGateway.Proof.Handlers.Exchange
import InferenceGateway.Proof.Scheduling.Schedule

/-!
How the request phase ends, and how the endpoint-picker protocol wants it to end.
-/

namespace InferenceGateway
open Lib

/-! ## The endpoint picker -/

theorem Datastore.mem_podGetAll {ds : Datastore} {order : List NamespacedName} (ranges : RangesOver order ds.pods)
    {pm : PodMetrics} : pm ∈ ds.podGetAll order ↔ ∃ key, ds.pods.lookup key = some pm := by
  simp only [podGetAll, podList, List.mem_filter, List.mem_filterMap, and_true]
  constructor
  · rintro ⟨key, _, stored⟩
    exact ⟨key, stored⟩
  · rintro ⟨key, stored⟩
    exact ⟨key, (ranges.visits key).mpr (Finmap.mem_of_lookup_eq_some stored), stored⟩

theorem Datastore.podGetAll_eq_nil_iff {ds : Datastore} {order : List NamespacedName}
    (ranges : RangesOver order ds.pods) : ds.podGetAll order = [] ↔ ds.pods = ∅ := by
  rw [List.eq_nil_iff_forall_not_mem]
  simp only [mem_podGetAll ranges, not_exists]
  constructor
  · intro none
    apply Finmap.ext_lookup
    intro key
    rw [Finmap.lookup_empty]
    exact Option.eq_none_iff_forall_not_mem.mpr fun pm stored => none pm key stored
  · intro empty pm key stored
    rw [empty, Finmap.lookup_empty] at stored
    cases stored

/-- A datastore with the pool synced and valid InferenceModels, the metrics of its pods, and the
configuration and the draws of the scheduler. -/
structure Picker where
  ds : Datastore
  pool : InferencePool
  synced : ds.pool = some pool
  valid : ds.ModelsValid
  order : List NamespacedName
  ranges : RangesOver order ds.pods
  config : Config
  metrics : PodMetrics → Metrics
  float64 : Nat → Set.Ico (0 : ℚ) 1
  intn : Nat → Nat

namespace Picker
variable (picker : Picker)

def env : Env PodMetrics := .snapshot picker.metrics picker.float64 picker.intn

def pods : List PodMetrics := picker.ds.podGetAll picker.order

def schedule (req : LLMRequest) : Except Err PodMetrics :=
  (InferenceGateway.schedule picker.config picker.pods req picker.env 0).1

def backend (frontEnd : Bytes → Except Err String) (draw : Nat) : Backend :=
  Backend.ofDatastore picker.ds picker.order (fun req => (picker.schedule req).map (·.pod)) frontEnd 0 draw

/-- The request is to be placed, whatever its target: it is critical or some pod is within both
thresholds. -/
def Admits (m : InferenceModel) : Prop :=
  Datastore.isCritical m = true ∨ ∃ pm ∈ picker.pods, HasCapacity picker.config (picker.metrics pm)

/-- How a request for a model has to end: with the status of an immediate response, or with none and
a picked endpoint. -/
inductive Requires (model : String) : Option StatusCode → Prop
  | notFound (absent : picker.ds.modelGet model = none) : Requires model (some .notFound)
  | unavailable {m : InferenceModel} (stored : picker.ds.modelGet model = some m) (noPods : picker.ds.pods = ∅) :
      Requires model (some .serviceUnavailable)
  | shed {m : InferenceModel} (stored : picker.ds.modelGet model = some m) (pods : picker.ds.pods ≠ ∅)
      (busy : ¬ picker.Admits m) : Requires model (some .tooManyRequests)
  | pick {m : InferenceModel} (stored : picker.ds.modelGet model = some m) (pods : picker.ds.pods ≠ ∅)
      (admits : picker.Admits m) : Requires model none

end Picker

inductive Carries (hint : DestinationHint) (endpoint : String) : ProcessingResponse → Prop
  | headers {response : CommonResponse}
      (header : ⟨hint.destinationEndpointHintKey, bytes endpoint⟩ ∈ response.setHeaders) :
      Carries hint endpoint ⟨.requestHeaders response, some (hint.dynamicMetadata endpoint)⟩
  | body {response : CommonResponse}
      (header : ⟨hint.destinationEndpointHintKey, bytes endpoint⟩ ∈ response.setHeaders) :
      Carries hint endpoint ⟨.requestBody response, some (hint.dynamicMetadata endpoint)⟩

/-- The messages sent in the request phase end with an immediate response, or there is none among them
and one carries a picked endpoint. -/
def EndsWith (hint : DestinationHint) (picked : String → Prop) (sent : List (Option ProcessingResponse)) :
    Option StatusCode → Prop
  | some status => sent.getLast? = some (some ⟨.immediateResponse status, none⟩)
  | none => (∀ status metadata, some ⟨.immediateResponse status, metadata⟩ ∉ sent) ∧
      ∃ endpoint resp, picked endpoint ∧ some resp ∈ sent ∧ Carries hint endpoint resp

theorem EndsWith.unique {hint : DestinationHint} {picked : String → Prop} {sent : List (Option ProcessingResponse)}
    {status status' : Option StatusCode} (first : EndsWith hint picked sent status)
    (second : EndsWith hint picked sent status') : status = status' := by
  cases status with
  | none =>
      cases status' with
      | none => rfl
      | some code => exact absurd (List.mem_of_getLast? second) (first.1 code none)
  | some code =>
      cases status' with
      | none => exact absurd (List.mem_of_getLast? first) (second.1 code none)
      | some code' =>
          have same := Option.some.inj (Option.some.inj (Eq.trans (Eq.symm first) second))
          cases same
          rfl

/-! ## What the servers send -/

def bufferedSent (codec : Codec) (hint : DestinationHint) (backend : Backend) (text : Bytes) :
    List (Option ProcessingResponse) :=
  (Server.process codec hint (fun _ => true) (fun _ => backend) [.requestHeaders false, .requestBody text true]).1.sent

def streamedSent (codec : Codec) (hint : DestinationHint) (backend : Backend) (chunks : List Bytes) (last : Bytes) :
    List (Option ProcessingResponse) :=
  (StreamingServer.process codec hint (fun _ => true) (fun _ => backend)
    (StreamingServer.Request.withBody chunks last).messages).1.sent

def BothEnd (codec : Codec) (hint : DestinationHint) (picked : String → Prop) (backend : Backend)
    (chunks : List Bytes) (last : Bytes) (status : Option StatusCode) : Prop :=
  EndsWith hint picked (bufferedSent codec hint backend (chunks.flatten ++ last)) status ∧
    EndsWith hint picked (streamedSent codec hint backend chunks last) status

section Sent
variable {codec : Codec} {hint : DestinationHint} {picked : String → Prop} {backend : Backend} {chunks : List Bytes}
  {last : Bytes} {members : Object} {model : String} {llmReq : LLMRequest}

theorem bufferedSent_of_error {text : Bytes} {err : Err} {ctx : RequestContext} {resp : ProcessingResponse}
    (handled : Server.handleRequestBody codec hint backend text {} = some (.error err, ctx))
    (built : buildErrResponse err = .ok resp) :
    bufferedSent codec hint backend text = [some Server.handleRequestHeaders, some resp] := by
  simp [bufferedSent, Server.process, Loop.run, Loop.runFrom, Loop.steps, Server.step, Server.receive, handled, built,
    Server.finish, Server.Stream.record]

theorem bufferedSent_of_ok {text : Bytes} {ctx : RequestContext} {resp : ProcessingResponse}
    (handled : Server.handleRequestBody codec hint backend text {} = some (.ok resp, ctx)) :
    bufferedSent codec hint backend text = [some Server.handleRequestHeaders, some resp] := by
  simp [bufferedSent, Server.process, Loop.run, Loop.runFrom, Loop.steps, Server.step, Server.receive, handled,
    Server.finish, Server.Stream.record]

theorem streamedSent_of_error {err : Err} {ctx : RequestContext} {map : Option Object} {resp : ProcessingResponse}
    (handled : StreamingServer.handleRequestBody codec hint backend
      (codec.unmarshalMap (chunks.flatten ++ last) none).1 {} = some (some err, ctx, map))
    (built : buildErrResponse err = .ok resp) :
    streamedSent codec hint backend chunks last = [some resp] := by
  obtain ⟨recorded, received⟩ := StreamingServer.receive_lastChunk handled
  have stopped : StreamingServer.stepAll codec hint backend { body := chunks.flatten } (.requestBody last true) =
      .error ({ requestBody := map, err := some err, ctx := ctx, recorded := recorded, sent := [some resp] },
        .returned none) := by
    simp only [StreamingServer.stepAll, StreamingServer.step, received, built, if_true, List.nil_append]
  have ran := (StreamingServer.run_toLastChunk codec hint (fun _ => backend) chunks last).trans
    (Loop.steps_cons_of_error stopped)
  rw [streamedSent, StreamingServer.process_of_error ran, StreamingServer.finish_sent]

theorem streamedSent_of_ok {ctx : RequestContext} {map : Option Object}
    (handled : StreamingServer.handleRequestBody codec hint backend
      (codec.unmarshalMap (chunks.flatten ++ last) none).1 {} = some (none, ctx, map)) :
    ∃ headers response, ctx.reqHeaderResp = some headers ∧
      streamedSent codec hint backend chunks last = [some headers, some ⟨.requestBody response, none⟩] := by
  obtain ⟨headers, _, s, waiting, _, ⟨_, _, encoded, _, _, _, rfl⟩, ran, requested⟩ :=
    StreamingServer.run_withBody (fun _ => backend) handled
  refine ⟨headers, { bodyMutation := some (.streamedResponse encoded true) }, waiting, ?_⟩
  rw [streamedSent, StreamingServer.process_of_ok ran, StreamingServer.finish_sent, requested.sent]
  rfl

theorem bothEnd_of_errors {err : Err} {status : StatusCode} {ctx ctx' : RequestContext} {map : Option Object}
    (first : Server.handleRequestBody codec hint backend (chunks.flatten ++ last) {} = some (.error err, ctx))
    (second : StreamingServer.handleRequestBody codec hint backend
      (codec.unmarshalMap (chunks.flatten ++ last) none).1 {} = some (some err, ctx', map))
    (built : buildErrResponse err = .ok ⟨.immediateResponse status, none⟩) :
    BothEnd codec hint picked backend chunks last (some status) := by
  rw [BothEnd, bufferedSent_of_error first built, streamedSent_of_error second built]
  exact ⟨rfl, rfl⟩

theorem bothEnd_of_unresolved (decoded : codec.unmarshal (chunks.flatten ++ last) = .object members none)
    (named : members.get "model" = some (.str model)) {err : Err}
    (resolved : resolveTargetModel backend model = some (.error err)) :
    BothEnd codec hint picked backend chunks last (some .notFound) := by
  refine bothEnd_of_errors ((Server.handleRequestBody_of_unresolved decoded named).2 err resolved)
    ((StreamingServer.handleRequestBody_of_unresolved (field_unmarshalMap decoded named)).2 err resolved) ?_
  rw [buildErrResponse, resolveTargetModel_error_code resolved]

theorem bothEnd_of_unscheduled (decoded : codec.unmarshal (chunks.flatten ++ last) = .object members none)
    (named : members.get "model" = some (.str model))
    (resolved : resolveTargetModel backend model = some (.ok llmReq)) {err : Err}
    (scheduled : backend.schedule llmReq = .error err) :
    BothEnd codec hint picked backend chunks last (some .tooManyRequests) := by
  obtain ⟨_, _, _, _, _, _, _, _, _, first, second⟩ := handled_of_resolved hint decoded named resolved
  rw [scheduled] at first second
  exact bothEnd_of_errors first second rfl

theorem bothEnd_of_scheduled (decoded : codec.unmarshal (chunks.flatten ++ last) = .object members none)
    (named : members.get "model" = some (.str model))
    (resolved : resolveTargetModel backend model = some (.ok llmReq)) {pod : BackendPod} {pool : InferencePool}
    (scheduled : backend.schedule llmReq = .ok pod) (pooled : backend.poolGet = .ok pool)
    (picks : picked (endpointOf pod pool)) : BothEnd codec hint picked backend chunks last none := by
  obtain ⟨_, sent, encoded, map, asked, _, _, _, _, first, second⟩ := handled_of_resolved hint decoded named resolved
  rw [scheduled, pooled] at first second
  obtain ⟨headers, response, waiting, streams⟩ := streamedSent_of_ok second
  cases waiting
  rw [BothEnd, bufferedSent_of_ok first, streams]
  constructor
  · refine ⟨?_, endpointOf pod pool, _, picks, List.mem_cons_of_mem _ List.mem_cons_self, .body List.mem_cons_self⟩
    simp [Server.handleRequestHeaders, Server.routedResponse]
  · refine ⟨?_, endpointOf pod pool, _, picks, List.mem_cons_self, .headers List.mem_cons_self⟩
    simp

end Sent

/-! ## The target models -/

/-- The CRD admits a target model with the empty name. -/
def DrawsUnnamed (m : InferenceModel) (draw : Nat) : Prop :=
  m.spec.targetModels ≠ [] ∧ randomWeightedDraw draw m = some ""

theorem resolved_of_named {backend : Backend} {model : String} {m : InferenceModel}
    (found : backend.modelGet model = some m) (valid : m.spec.Valid) (named : ¬DrawsUnnamed m backend.int31n) :
    ∃ name, resolveTargetModel backend model = some (.ok ⟨model, name, Datastore.isCritical m⟩) := by
  by_cases none : m.spec.targetModels = []
  · exact ⟨model, resolveTargetModel_of_no_targets found none⟩
  · obtain ⟨target, _, drawn⟩ := exists_drawn valid none backend.int31n
    refine ⟨target.name, (resolveTargetModel_of_drawn found none drawn).2 fun empty => ?_⟩
    rw [empty] at drawn
    exact named ⟨none, drawn⟩

namespace Picker
variable {picker : Picker} {frontEnd : Bytes → Except Err String} {codec : Codec} {hint : DestinationHint}
  {chunks : List Bytes} {last : Bytes} {members : Object} {model : String} {m : InferenceModel}

/-! ## How the request phase ends -/

def Endpoint (picker : Picker) (endpoint : String) : Prop :=
  ∃ key pm, picker.ds.pods.lookup key = some pm ∧ endpoint = endpointOf pm.pod picker.pool

def EndsRight (picker : Picker) (codec : Codec) (hint : DestinationHint) (frontEnd : Bytes → Except Err String)
    (draw : Nat) (chunks : List Bytes) (last : Bytes) (model : String) : Prop :=
  ∃ status, picker.Requires model status ∧
    BothEnd codec hint picker.Endpoint (picker.backend frontEnd draw) chunks last status

theorem endsRight_iff {draw : Nat} {status : Option StatusCode}
    (ends : BothEnd codec hint picker.Endpoint (picker.backend frontEnd draw) chunks last status) :
    picker.EndsRight codec hint frontEnd draw chunks last model ↔ picker.Requires model status := by
  constructor
  · rintro ⟨required, requires, ends'⟩
    rw [ends.1.unique ends'.1]
    exact requires
  · intro requires
    exact ⟨status, requires, ends⟩

theorem bothEnd_of_resolved (hint : DestinationHint)
    (decoded : codec.unmarshal (chunks.flatten ++ last) = .object members none)
    (named : members.get "model" = some (.str model)) {draw : Nat} {llmReq : LLMRequest}
    (resolved : resolveTargetModel (picker.backend frontEnd draw) model = some (.ok llmReq)) :
    ((picker.schedule llmReq).isOk = true ∧
      BothEnd codec hint picker.Endpoint (picker.backend frontEnd draw) chunks last none) ∨
    ((picker.schedule llmReq).isOk = false ∧
      BothEnd codec hint picker.Endpoint (picker.backend frontEnd draw) chunks last (some .tooManyRequests)) := by
  have called : (picker.backend frontEnd draw).schedule llmReq = (picker.schedule llmReq).map (·.pod) := rfl
  cases placed : picker.schedule llmReq with
  | ok pm =>
      obtain ⟨key, stored⟩ := (Datastore.mem_podGetAll picker.ranges).mp (schedule_mem picker.config placed)
      rw [placed] at called
      have pooled : (picker.backend frontEnd draw).poolGet = .ok picker.pool := by
        simp only [backend, Backend.ofDatastore, Datastore.poolGet, picker.synced]
      exact .inl ⟨rfl, bothEnd_of_scheduled decoded named resolved called pooled ⟨key, pm, stored, rfl⟩⟩
  | error err =>
      rw [placed] at called
      exact .inr ⟨rfl, bothEnd_of_unscheduled decoded named resolved called⟩

section Finite
variable (finite : ∀ pm ∈ picker.pods, (picker.metrics pm).kvCacheUsagePercent.IsFinite)
include finite

theorem schedule_isOk_iff (model name : String) (m : InferenceModel) :
    (picker.schedule ⟨model, name, Datastore.isCritical m⟩).isOk = true ↔ picker.ds.pods ≠ ∅ ∧ picker.Admits m := by
  rw [ne_eq, ← Datastore.podGetAll_eq_nil_iff picker.ranges]
  refine Iff.trans ?_ (schedule_ok_iff_of_snapshot picker.config picker.metrics picker.float64 picker.intn 0
    ⟨model, name, Datastore.isCritical m⟩ picker.pods finite)
  constructor
  · intro placed
    cases scheduled : picker.schedule ⟨model, name, Datastore.isCritical m⟩ with
    | ok pm => exact ⟨pm, schedule_mem picker.config scheduled, scheduled⟩
    | error err =>
        rw [scheduled] at placed
        cases placed
  · rintro ⟨pm, _, scheduled⟩
    have placed : picker.schedule ⟨model, name, Datastore.isCritical m⟩ = .ok pm := scheduled
    rw [placed]
    rfl

theorem bothEnd_of_named (hint : DestinationHint)
    (decoded : codec.unmarshal (chunks.flatten ++ last) = .object members none)
    (named : members.get "model" = some (.str model)) (stored : picker.ds.modelGet model = some m) {draw : Nat}
    (target : ¬DrawsUnnamed m draw) :
    ((picker.ds.pods ≠ ∅ ∧ picker.Admits m) ∧
      BothEnd codec hint picker.Endpoint (picker.backend frontEnd draw) chunks last none) ∨
    (¬(picker.ds.pods ≠ ∅ ∧ picker.Admits m) ∧
      BothEnd codec hint picker.Endpoint (picker.backend frontEnd draw) chunks last (some .tooManyRequests)) := by
  have found : (picker.backend frontEnd draw).modelGet model = some m := stored
  obtain ⟨name, resolved⟩ := resolved_of_named found (picker.valid model m stored) target
  have placed_iff := picker.schedule_isOk_iff finite model name m
  rcases bothEnd_of_resolved hint decoded named resolved with ⟨placed, ends⟩ | ⟨refused, ends⟩
  · exact .inl ⟨placed_iff.mp placed, ends⟩
  · refine .inr ⟨fun accepted => ?_, ends⟩
    rw [placed_iff.mpr accepted] at refused
    cases refused

end Finite

/-- How both servers end a request for a model. -/
inductive Answers (picker : Picker) (model : String) (draw : Nat) : Option StatusCode → Prop
  | absent (absent : picker.ds.modelGet model = none) : Answers picker model draw (some .notFound)
  | unnamed {m : InferenceModel} (stored : picker.ds.modelGet model = some m) (target : DrawsUnnamed m draw) :
      Answers picker model draw (some .notFound)
  | noPods {m : InferenceModel} (stored : picker.ds.modelGet model = some m) (target : ¬DrawsUnnamed m draw)
      (noPods : picker.ds.pods = ∅) : Answers picker model draw (some .tooManyRequests)
  | shed {m : InferenceModel} (stored : picker.ds.modelGet model = some m) (target : ¬DrawsUnnamed m draw)
      (busy : ¬picker.Admits m) : Answers picker model draw (some .tooManyRequests)
  | pick {m : InferenceModel} (stored : picker.ds.modelGet model = some m) (target : ¬DrawsUnnamed m draw)
      (pods : picker.ds.pods ≠ ∅) (admits : picker.Admits m) : Answers picker model draw none

theorem exists_answers (picker : Picker) (model : String) (draw : Nat) :
    ∃ status, picker.Answers model draw status := by
  cases stored : picker.ds.modelGet model with
  | none => exact ⟨_, .absent stored⟩
  | some m =>
      by_cases target : DrawsUnnamed m draw
      · exact ⟨_, .unnamed stored target⟩
      by_cases noPods : picker.ds.pods = ∅
      · exact ⟨_, .noPods stored target noPods⟩
      by_cases admits : picker.Admits m
      · exact ⟨_, .pick stored target noPods admits⟩
      · exact ⟨_, .shed stored target admits⟩

theorem request_phase_ends (picker : Picker) (codec : Codec) (hint : DestinationHint)
    (frontEnd : Bytes → Except Err String) (draw : Nat)
    (finite : ∀ pm ∈ picker.pods, (picker.metrics pm).kvCacheUsagePercent.IsFinite)
    (decoded : codec.unmarshal (chunks.flatten ++ last) = .object members none)
    (named : members.get "model" = some (.str model)) :
    (∃ status, picker.Answers model draw status) ∧
    ∀ status, picker.Answers model draw status →
      BothEnd codec hint picker.Endpoint (picker.backend frontEnd draw) chunks last status := by
  refine ⟨picker.exists_answers model draw, fun status answers => ?_⟩
  cases answers with
  | absent absent =>
      have missing : (picker.backend frontEnd draw).modelGet model = none := absent
      obtain ⟨err, resolved⟩ := resolveTargetModel_of_absent missing
      exact bothEnd_of_unresolved decoded named resolved
  | unnamed stored target =>
      have found : (picker.backend frontEnd draw).modelGet model = some _ := stored
      obtain ⟨err, resolved⟩ := (resolveTargetModel_of_drawn found target.1 target.2).1 rfl
      exact bothEnd_of_unresolved decoded named resolved
  | noPods stored target noPods =>
      rcases bothEnd_of_named finite hint decoded named stored target with ⟨⟨pods, _⟩, _⟩ | ⟨_, ends⟩
      · exact absurd noPods pods
      · exact ends
  | shed stored target busy =>
      rcases bothEnd_of_named finite hint decoded named stored target with ⟨⟨_, admits⟩, _⟩ | ⟨_, ends⟩
      · exact absurd admits busy
      · exact ends
  | pick stored target pods admits =>
      rcases bothEnd_of_named finite hint decoded named stored target with ⟨_, ends⟩ | ⟨refused, _⟩
      · exact ends
      · exact absurd ⟨pods, admits⟩ refused

end Picker

/-! ## A store with one model -/

theorem chatStore_modelsValid : chatStore.ModelsValid := by
  intro name m stored
  have member : name ∈ chatStore.models := Finmap.mem_of_lookup_eq_some stored
  obtain rfl : name = "m" := (Finmap.mem_singleton ..).mp member
  have only : chatStore.models.lookup "m" = some chatModel := Finmap.lookup_singleton_eq
  cases only.symm.trans stored
  exact ⟨by decide, by decide, nofun, nofun, .inl nofun⟩

def chatPicker (pods : Finmap (fun _ : NamespacedName => PodMetrics)) (order : List NamespacedName)
    (ranges : RangesOver order pods) : Picker where
  ds := { chatStore with pods := pods }
  pool := testPool
  synced := rfl
  valid := chatStore_modelsValid
  order := order
  ranges := ranges
  config := defaultConfig
  metrics _ := {}
  float64 _ := ⟨0, zero_mem_draws⟩
  intn _ := 0

def onePodPicker : Picker := chatPicker chatStore.pods [chatPod.namespacedName] (by decide +kernel)

def noPodsPicker : Picker := chatPicker ∅ [] (by decide +kernel)

theorem one_pod_picked :
    BothEnd jsonCodec testHint onePodPicker.Endpoint (onePodPicker.backend (fun _ => .ok "worker") 0) [] chatBody
      none := by
  have stored : onePodPicker.ds.modelGet "m" = some chatModel := Finmap.lookup_singleton_eq
  have finite : ∀ pm ∈ onePodPicker.pods, (onePodPicker.metrics pm).kvCacheUsagePercent.IsFinite :=
    fun _ _ => Float64.isFinite_of_abs_le_one (by norm_num)
  have decoded : jsonCodec.unmarshal ([].flatten ++ chatBody) = .object [("model", .str "m")] none := chatBody_decoded
  apply (Picker.request_phase_ends onePodPicker jsonCodec testHint _ 0 finite decoded rfl).2
  apply Picker.Answers.pick stored
  · exact fun target => target.1 rfl
  · decide +kernel
  · unfold Picker.Admits HasCapacity
    decide +kernel

theorem no_pods_too_many_requests :
    bufferedSent jsonCodec testHint (noPodsPicker.backend (fun _ => .ok "worker") 0) chatBody =
      [some Server.handleRequestHeaders, some ⟨.immediateResponse .tooManyRequests, none⟩] ∧
    streamedSent jsonCodec testHint (noPodsPicker.backend (fun _ => .ok "worker") 0) [] chatBody =
      [some ⟨.immediateResponse .tooManyRequests, none⟩] ∧
    noPodsPicker.Requires "m" (some .serviceUnavailable) ∧
    ¬ noPodsPicker.EndsRight jsonCodec testHint (fun _ => .ok "worker") 0 [] chatBody "m" := by
  have stored : noPodsPicker.ds.modelGet "m" = some chatModel := Finmap.lookup_singleton_eq
  have buffered : bufferedSent jsonCodec testHint (noPodsPicker.backend (fun _ => .ok "worker") 0) chatBody =
      [some Server.handleRequestHeaders, some ⟨.immediateResponse .tooManyRequests, none⟩] := by decide +kernel
  have streamed : streamedSent jsonCodec testHint (noPodsPicker.backend (fun _ => .ok "worker") 0) [] chatBody =
      [some ⟨.immediateResponse .tooManyRequests, none⟩] := by decide +kernel
  refine ⟨buffered, streamed, .unavailable stored rfl, ?_⟩
  have ends : BothEnd jsonCodec testHint noPodsPicker.Endpoint (noPodsPicker.backend (fun _ => .ok "worker") 0) []
      chatBody (some .tooManyRequests) :=
    ⟨congrArg List.getLast? buffered, congrArg List.getLast? streamed⟩
  intro right
  cases (Picker.endsRight_iff ends).mp right with
  | shed _ pods => exact pods rfl

end InferenceGateway
