import InferenceGateway.Handlers.JsonCodec
import InferenceGateway.Handlers.StreamingServer

/-!
The request that `callFrontEndForWorker` makes of the FrontEnd: the client's body, with the
annotation that asks for a worker.
-/

namespace InferenceGateway.StreamingServer
open Lib

def askFrontEnd (codec : Codec) (backend : Backend) (payload : Object) : Except Err String :=
  match codec.marshal (some payload) with
  | .error err => .error (.wrap "marshal FrontEnd body" (some err))
  | .ok text => backend.frontEnd text

theorem callFrontEndForWorker_asks (codec : Codec) (backend : Backend) (originalBody : Option Object) :
    (callFrontEndForWorker codec backend originalBody).1 =
      askFrontEnd codec backend (frontEndPayload (originalBody.getD [])) := by
  unfold callFrontEndForWorker askFrontEnd
  dsimp only
  cases codec.marshal (some (frontEndPayload (originalBody.getD []))) <;> rfl

/-! ## What is asked -/

theorem annotations_of_strings {nvext : Object} {anns : List String}
    (stored : nvext.get "annotations" = some (.arr (anns.map .str))) : annotations nvext = anns := by
  rw [annotations, stored]
  dsimp only
  rw [List.filterMap_map]
  exact List.filterMap_some

theorem askedAnnotations_of_mem {anns : List String} (asked : "query_instance_id" ∈ anns) :
    askedAnnotations anns = anns := if_pos asked

theorem mem_askedAnnotations (anns : List String) : "query_instance_id" ∈ askedAnnotations anns := by
  unfold askedAnnotations
  split_ifs with asked
  · exact asked
  · simp

theorem exists_askedAnnotations (anns : List String) :
    ∃ added, askedAnnotations anns = anns ++ added ∧ (∀ ann ∈ added, ann = "query_instance_id") ∧
      (askedAnnotations anns).count "query_instance_id" = max 1 (anns.count "query_instance_id") := by
  unfold askedAnnotations
  split_ifs with asked
  · have positive := List.count_pos_iff.mpr asked
    exact ⟨[], (List.append_nil anns).symm, by simp, by omega⟩
  · have absent := List.count_eq_zero.mpr asked
    exact ⟨["query_instance_id"], rfl, by simp, by simp [absent]⟩

theorem get_nvext_frontEndPayload (body : Object) :
    (frontEndPayload body).get "nvext" = some (.obj (frontEndNvext (clientNvext body))) :=
  Object.get_set_self _ _ _

theorem get_stream_frontEndPayload (body : Object) :
    (frontEndPayload body).get "stream" = some ((body.get "stream").getD (.bool true)) := by
  rw [frontEndPayload, Object.get_set_of_ne (by decide)]
  cases given : body.get "stream" with
  | none => simp
  | some stream => simp [given]

theorem get_frontEndPayload_of_ne {body : Object} {key : String} (stream : key ≠ "stream") (nvext : key ≠ "nvext") :
    (frontEndPayload body).get key = body.get key := by
  rw [frontEndPayload, Object.get_set_of_ne nvext]
  split_ifs
  · rfl
  · exact Object.get_set_of_ne stream _ _

theorem frontEndNvext_frontEndNvext (nvext : Object) : frontEndNvext (frontEndNvext nvext) = frontEndNvext nvext := by
  have stored : annotations (frontEndNvext nvext) = askedAnnotations (annotations nvext) :=
    annotations_of_strings (Object.get_set_self _ _ _)
  rw [frontEndNvext, stored, askedAnnotations_of_mem (mem_askedAnnotations _)]
  exact Object.set_set _ _ _ _

theorem frontEndPayload_frontEndPayload (body : Object) :
    frontEndPayload (frontEndPayload body) = frontEndPayload body := by
  have streams : ((frontEndPayload body).get "stream").isSome = true := by
    rw [get_stream_frontEndPayload]
    rfl
  have shared : clientNvext (frontEndPayload body) = frontEndNvext (clientNvext body) := by
    rw [clientNvext, get_nvext_frontEndPayload]
  rw [frontEndPayload, if_pos streams, shared, frontEndNvext_frontEndNvext]
  exact Object.set_set _ _ _ _

structure WellFormedQuery (body payload : Object) : Prop where
  stream : payload.get "stream" = some (.bool true)
  nvext : ∃ (nvext : Object) (anns added : List String), payload.get "nvext" = some (.obj nvext) ∧
    nvext.get "annotations" = some (.arr (anns.map .str)) ∧
    anns = annotations (clientNvext body) ++ added ∧ (∀ ann ∈ added, ann = "query_instance_id") ∧
    anns.count "query_instance_id" = max 1 ((annotations (clientNvext body)).count "query_instance_id") ∧
    ∀ key, key ≠ "annotations" → nvext.get key = (clientNvext body).get key
  others : ∀ key, key ≠ "stream" → key ≠ "nvext" → payload.get key = body.get key

theorem wellFormedQuery_iff (body : Object) :
    WellFormedQuery body (frontEndPayload body) ↔ body.get "stream" = none ∨ body.get "stream" = some (.bool true) := by
  constructor
  · intro formed
    have streams := formed.stream
    rw [get_stream_frontEndPayload] at streams
    cases given : body.get "stream" with
    | none => exact .inl rfl
    | some stream =>
        rw [given] at streams
        exact .inr streams
  · intro streams
    refine ⟨?_, ?_, fun key stream nvext => get_frontEndPayload_of_ne stream nvext⟩
    · rw [get_stream_frontEndPayload]
      cases streams with
      | inl absent => rw [absent]; rfl
      | inr given => rw [given]; rfl
    · obtain ⟨added, split, asked, counted⟩ := exists_askedAnnotations (annotations (clientNvext body))
      refine ⟨_, _, added, get_nvext_frontEndPayload body, Object.get_set_self _ _ _, split, asked, counted, ?_⟩
      intro key other
      exact Object.get_set_of_ne other _ _

/-- The client's own `stream` is kept, whatever it is; the rest of the payload is as it should be. -/
theorem frontEnd_query_well_formed_iff (originalBody : Option Object) :
    let body := originalBody.getD []
    (∀ codec backend, (callFrontEndForWorker codec backend originalBody).1 =
      askFrontEnd codec backend (frontEndPayload body)) ∧
    (WellFormedQuery body (frontEndPayload body) ∧ frontEndPayload (frontEndPayload body) = frontEndPayload body ↔
      body.get "stream" = none ∨ body.get "stream" = some (.bool true)) := by
  intro body
  refine ⟨fun codec backend => callFrontEndForWorker_asks codec backend originalBody, ?_⟩
  rw [← wellFormedQuery_iff]
  exact and_iff_left (frontEndPayload_frontEndPayload body)

theorem unstreamed_query_sent :
    let body : Object := [("model", .str "m"), ("stream", .bool false)]
    jsonCodec.marshal (some (frontEndPayload body)) = .ok (bytes
      "\x7b\"model\":\"m\",\"nvext\":\x7b\"annotations\":[\"query_instance_id\"]\x7d,\"stream\":false\x7d") ∧
    ¬WellFormedQuery body (frontEndPayload body) := by
  intro body
  constructor
  · exact congrArg Except.ok (by decide +kernel)
  · intro formed
    have streams := formed.stream
    rw [get_stream_frontEndPayload] at streams
    cases streams

end InferenceGateway.StreamingServer
