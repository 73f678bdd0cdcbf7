import InferenceGateway.BodyBasedRouting
import InferenceGateway.Handlers.JsonCodec

/-!
What the body-based router makes of a request body that comes in chunks. The streaming server decodes
what came before the last chunk and encodes it again; the bytes of the last chunk, and whether they
could be decoded at all, are lost on the way.
-/

namespace InferenceGateway.BodyBasedRouting
open Lib

/-! ## What the two servers send -/

/-- What is sent for a request, or the error that ends `Process`. -/
def outcome (codec : Codec) (streaming : Bool) (messages : List ProcessingRequest) :
    Except HandlerErr (List Response) :=
  match process codec streaming (fun _ => true) messages with
  | (_, .failedToHandle err) => .error err
  | (s, _) => .ok s.sent

def chunked (chunks : List Bytes) (last : Bytes) : List ProcessingRequest :=
  chunks.map (.requestBody · false) ++ [.requestBody last true]

def buffered (codec : Codec) (text : Bytes) : Except HandlerErr (List Response) :=
  outcome codec false (.requestHeaders false :: chunked [] text)

def streamed (codec : Codec) (chunks : List Bytes) (last : Bytes) : Except HandlerErr (List Response) :=
  outcome codec true (.requestHeaders false :: chunked chunks last)

section Sent
variable {codec : Codec} {streaming : Bool}

theorem sendAll_of_true (responses : List Response) (s : Stream) :
    sendAll (fun _ => true) responses s = .ok { s with sent := s.sent ++ responses } := by
  induction responses generalizing s with
  | nil => rw [sendAll, List.append_nil]
  | cons resp responses ih => rw [sendAll, if_pos rfl, ih, List.append_assoc, List.singleton_append]

theorem steps_chunks (codec : Codec) (n : Nat) (chunks : List Bytes) (s : Stream) :
    Loop.steps (fun _ => step codec true fun _ => true) n (chunks.map (.requestBody · false)) s =
      .ok { s with streamedBody := s.streamedBody ++ chunks.flatten } := by
  induction chunks generalizing n s with
  | nil => simp [Loop.steps]
  | cons chunk chunks ih =>
      have first : step codec true (fun _ => true) s (.requestBody chunk false) =
          .ok { s with streamedBody := s.streamedBody ++ chunk } := by
        simp [step, receive, processRequestBody, Except.mapError, sendAll]
      rw [List.map_cons, Loop.steps_cons_of_ok first, ih]
      simp

theorem streamed_eq (codec : Codec) (chunks : List Bytes) (last : Bytes) :
    streamed codec chunks last = (handleRequestBody codec true (codec.unmarshalMap chunks.flatten none).1).1 := by
  have opened : step codec true (fun _ => true) {} (.requestHeaders false) = .ok {} := rfl
  obtain ⟨n, gathered⟩ : ∃ n, Loop.steps (fun _ => step codec true fun _ => true) 0
      (.requestHeaders false :: chunked chunks last) {} =
        Loop.steps (fun _ => step codec true fun _ => true) n [.requestBody last true]
          { streamedBody := chunks.flatten } := by
    rw [chunked, Loop.steps_cons_of_ok opened, Loop.steps_append_of_ok (steps_chunks codec _ chunks {})]
    exact ⟨_, rfl⟩
  unfold streamed outcome process Loop.run Loop.runFrom
  rw [gathered]
  cases handled : handleRequestBody codec true (codec.unmarshalMap chunks.flatten none).1 with
  | mk result counters =>
      cases result with
      | error err => simp [Loop.steps, step, receive, processRequestBody, handled, Except.mapError]
      | ok responses =>
          simp [Loop.steps, step, receive, processRequestBody, handled, Except.mapError, sendAll_of_true]

theorem buffered_of_invalid {text : Bytes} {map : Option Object} {err : Err}
    (decoded : codec.unmarshalMap text none = (map, some err)) : buffered codec text = .error (.json err) := by
  simp [buffered, outcome, process, Loop.run, Loop.runFrom, chunked, Loop.steps, step, receive, processRequestBody,
    decoded, Except.mapError, sendAll]

theorem buffered_of_decoded {text : Bytes} {map : Option Object}
    (decoded : codec.unmarshalMap text none = (map, none)) :
    buffered codec text = (handleRequestBody codec false map).1.map ([.requestHeaders {}] ++ ·) := by
  cases handled : handleRequestBody codec false map with
  | mk result counters =>
      cases result with
      | error err =>
          simp [buffered, outcome, process, Loop.run, Loop.runFrom, chunked, Loop.steps, step, receive,
            processRequestBody, decoded, handled, Except.mapError, sendAll, Except.map]
      | ok responses =>
          simp [buffered, outcome, process, Loop.run, Loop.runFrom, chunked, Loop.steps, step, receive,
            processRequestBody, decoded, handled, Except.mapError, sendAll_of_true, Except.map]

end Sent

/-! ## The model of a body -/

def Misnamed (data : Option Object) : Prop :=
  ∃ value, (data.getD []).get "model" = some value ∧ ∀ model, value ≠ .str model

def routing (data : Option Object) : CommonResponse :=
  match (data.getD []).get "model" with
  | some (.str model) => { clearRouteCache := true, setHeaders := [⟨modelHeader, bytes model⟩] }
  | _ => {}

section Handled
variable {codec : Codec} {data : Option Object} {encoded : Bytes} (encodes : codec.marshal data = .ok encoded)
include encodes

theorem handled_of_misnamed (streaming : Bool) (misnamed : Misnamed data) :
    ∃ err, (handleRequestBody codec streaming data).1 = .error err := by
  obtain ⟨value, found, notString⟩ := misnamed
  cases value with
  | str model => exact absurd rfl (notString model)
  | _ => simp [handleRequestBody, encodes, found]

theorem handled_of_named (named : ¬ Misnamed data) :
    (handleRequestBody codec false data).1 = .ok [.requestBody (routing data)] ∧
      (handleRequestBody codec true data).1 =
        .ok (addStreamedBodyResponse [.requestHeaders (routing data)] encoded) := by
  cases found : (data.getD []).get "model" with
  | none => simp [handleRequestBody, encodes, found, routing]
  | some value =>
      cases value with
      | str model => simp [handleRequestBody, encodes, found, routing]
      | _ => exact absurd ⟨_, found, by simp⟩ named

end Handled

/-! ## Chunks -/

def DecodesTo (codec : Codec) (text : Bytes) (members : Object) : Prop :=
  ∃ err, codec.unmarshal text = .object members err

section Chunks
variable {codec : Codec} {chunks : List Bytes} {last text : Bytes} {members : Object} {failed : Option Err}

theorem decodesTo_iff : DecodesTo codec text members ↔ (codec.unmarshalMap text none).1 = some members := by
  constructor
  · rintro ⟨err, decoded⟩
    rw [unmarshalMap_of_object decoded]
  · intro found
    cases decoded : codec.unmarshal text with
    | invalid err =>
        simp only [Codec.unmarshalMap, decoded] at found
        cases found
    | null =>
        simp only [Codec.unmarshalMap, decoded] at found
        cases found
    | object members' err =>
        rw [unmarshalMap_of_object decoded] at found
        cases found
        exact ⟨err, decoded⟩

def Encodes (codec : Codec) (encoded : Bytes) : Option Object → Prop
  | some members => codec.unmarshal encoded = .object members none
  | none => encoded = bytes "null"

theorem exists_encoded (codec : Codec) (text : Bytes) :
    ∃ encoded, codec.marshal (codec.unmarshalMap text none).1 = .ok encoded ∧
      Encodes codec encoded (codec.unmarshalMap text none).1 := by
  cases map : (codec.unmarshalMap text none).1 with
  | none => exact ⟨bytes "null", codec.marshal_nil, rfl⟩
  | some members =>
      obtain ⟨err, decoded⟩ := decodesTo_iff.mpr map
      exact codec.unmarshal_marshal decoded

theorem not_misnamed_none : ¬ Misnamed none := by
  rintro ⟨value, found, _⟩
  cases found

theorem misnamed_unmarshalMap_iff : Misnamed (codec.unmarshalMap text none).1 ↔
    ∃ members, DecodesTo codec text members ∧ Misnamed (some members) := by
  constructor
  · intro misnamed
    cases map : (codec.unmarshalMap text none).1 with
    | none =>
        rw [map] at misnamed
        exact absurd misnamed not_misnamed_none
    | some members =>
        rw [map] at misnamed
        exact ⟨members, decodesTo_iff.mpr map, misnamed⟩
  · rintro ⟨members, decodes, misnamed⟩
    rw [decodesTo_iff.mp decodes]
    exact misnamed

def modelHeaders : Response → List Bytes
  | .requestHeaders response | .requestBody response =>
    (response.setHeaders.filter fun header => header.key = modelHeader).map (·.rawValue)
  | .requestTrailers | .responseHeaders | .responseBody => []

/-- Both servers fail, or the streaming server sets the same model header and sends a body that is
decoded to the members. -/
def RoutedAlike (codec : Codec) (chunks : List Bytes) (last : Bytes) (members : Object) : Prop :=
  match buffered codec (chunks.flatten ++ last), streamed codec chunks last with
  | .error _, .error _ => True
  | .ok sent, .ok sent' => ∃ headers body,
      sent' = [.requestHeaders headers, .requestBody { bodyMutation := some (.streamedResponse body true) }] ∧
      modelHeaders (.requestHeaders headers) = sent.flatMap modelHeaders ∧
      codec.unmarshal body = .object members none
  | _, _ => False

/-- The chunks before the last one are decoded to the object that the whole body is decoded to; if the
buffered server refuses the whole body, they need only name a model that is no string. -/
inductive SplitsWell (codec : Codec) (chunks : List Bytes) (members : Object) (failed : Option Err) : Prop
  | same (whole : failed = none) (named : ¬ Misnamed (some members))
      (decodes : DecodesTo codec chunks.flatten members)
  | refused {body : Object} (refused : failed ≠ none ∨ Misnamed (some members))
      (decodes : DecodesTo codec chunks.flatten body) (misnamed : Misnamed (some body))

theorem buffered_of_refused (decoded : codec.unmarshal text = .object members failed)
    (refused : failed ≠ none ∨ Misnamed (some members)) : ∃ err, buffered codec text = .error err := by
  have map := unmarshalMap_of_object decoded
  cases failed with
  | some err => exact ⟨.json err, buffered_of_invalid map⟩
  | none =>
      obtain ⟨encoded, encodes, _⟩ := codec.unmarshal_marshal decoded
      obtain ⟨err, handled⟩ := handled_of_misnamed encodes false (refused.resolve_left fun other => other rfl)
      refine ⟨err, ?_⟩
      rw [buffered_of_decoded map, handled]
      rfl

theorem buffered_of_named (decoded : codec.unmarshal text = .object members none)
    (named : ¬ Misnamed (some members)) :
    buffered codec text = .ok [.requestHeaders {}, .requestBody (routing (some members))] := by
  obtain ⟨encoded, encodes, _⟩ := codec.unmarshal_marshal decoded
  rw [buffered_of_decoded (unmarshalMap_of_object decoded), (handled_of_named encodes named).1]
  rfl

theorem streamed_of_misnamed (last : Bytes) (misnamed : Misnamed (codec.unmarshalMap chunks.flatten none).1) :
    ∃ err, streamed codec chunks last = .error err := by
  obtain ⟨encoded, encodes, _⟩ := exists_encoded codec chunks.flatten
  rw [streamed_eq]
  exact handled_of_misnamed encodes true misnamed

theorem streamed_of_named (last : Bytes) (named : ¬ Misnamed (codec.unmarshalMap chunks.flatten none).1) :
    ∃ encoded, streamed codec chunks last =
        .ok [.requestHeaders (routing (codec.unmarshalMap chunks.flatten none).1),
          .requestBody { bodyMutation := some (.streamedResponse encoded true) }] ∧
      Encodes codec encoded (codec.unmarshalMap chunks.flatten none).1 := by
  obtain ⟨encoded, encodes, back⟩ := exists_encoded codec chunks.flatten
  refine ⟨encoded, ?_, back⟩
  rw [streamed_eq, (handled_of_named encodes named).2]
  rfl

theorem streamed_of_null (map : (codec.unmarshalMap chunks.flatten none).1 = none) :
    streamed codec chunks last = .ok [.requestHeaders {},
      .requestBody { bodyMutation := some (.streamedResponse (bytes "null") true) }] := by
  rw [streamed_eq, map, (handled_of_named codec.marshal_nil not_misnamed_none).2]
  rfl

end Chunks

theorem routed_alike_iff (codec : Codec) (chunks : List Bytes) (last : Bytes) (members : Object)
    (failed : Option Err) (decoded : codec.unmarshal (chunks.flatten ++ last) = .object members failed) :
    RoutedAlike codec chunks last members ↔ SplitsWell codec chunks members failed := by
  unfold RoutedAlike
  by_cases misnamed : Misnamed (codec.unmarshalMap chunks.flatten none).1
  · obtain ⟨err, streams⟩ := streamed_of_misnamed last misnamed
    rw [streams]
    by_cases refused : failed ≠ none ∨ Misnamed (some members)
    · obtain ⟨err', buffers⟩ := buffered_of_refused decoded refused
      rw [buffers]
      obtain ⟨body, decodes, misnamed⟩ := misnamed_unmarshalMap_iff.mp misnamed
      exact iff_of_true trivial (.refused refused decodes misnamed)
    · obtain ⟨whole, named⟩ := not_or.mp refused
      obtain rfl := not_ne_iff.mp whole
      rw [buffered_of_named decoded named]
      apply iff_of_false
      · exact id
      · rintro (⟨_, _, decodes⟩ | ⟨refused', _, _⟩)
        · rw [decodesTo_iff.mp decodes] at misnamed
          exact named misnamed
        · exact refused refused'
  · obtain ⟨encoded, streams, back⟩ := streamed_of_named last misnamed
    rw [streams]
    by_cases refused : failed ≠ none ∨ Misnamed (some members)
    · obtain ⟨err', buffers⟩ := buffered_of_refused decoded refused
      rw [buffers]
      apply iff_of_false
      · exact id
      · rintro (⟨whole, named, _⟩ | ⟨_, decodes, misnamed'⟩)
        · exact refused.elim (fun other => other whole) named
        · exact misnamed (misnamed_unmarshalMap_iff.mpr ⟨_, decodes, misnamed'⟩)
    · obtain ⟨whole, named⟩ := not_or.mp refused
      obtain rfl := not_ne_iff.mp whole
      rw [buffered_of_named decoded named]
      constructor
      · rintro ⟨headers, body, sent, _, decodes⟩
        obtain ⟨_, rfl⟩ : headers = routing (codec.unmarshalMap chunks.flatten none).1 ∧ body = encoded := by
          simpa [eq_comm] using sent
        refine .same rfl named (decodesTo_iff.mpr ?_)
        cases map : (codec.unmarshalMap chunks.flatten none).1 with
        | none =>
            rw [map] at back
            obtain rfl : body = bytes "null" := back
            rw [codec.unmarshal_null] at decodes
            cases decodes
        | some members' =>
            rw [map] at back
            cases decodes.symm.trans back
            rfl
      · rintro (⟨_, _, decodes⟩ | ⟨refused', _, _⟩)
        · rw [decodesTo_iff.mp decodes] at back ⊢
          exact ⟨_, encoded, rfl, by simp [modelHeaders], back⟩
        · exact absurd refused' refused

theorem chatBody_named : ¬ Misnamed (some [("model", .str "m")]) := by
  rintro ⟨value, found, notString⟩
  cases found
  exact notString "m" rfl

theorem empty_last_chunk_routed_alike :
    jsonCodec.unmarshal ([chatBody].flatten ++ []) = .object [("model", .str "m")] none ∧
      RoutedAlike jsonCodec [chatBody] [] [("model", .str "m")] :=
  ⟨chatBody_decoded, (routed_alike_iff jsonCodec [chatBody] [] _ none chatBody_decoded).mpr
    (.same rfl chatBody_named ⟨none, chatBody_decoded⟩)⟩

theorem single_chunk_not_routed_alike :
    buffered jsonCodec chatBody = .ok [.requestHeaders {}, .requestBody (routing (some [("model", .str "m")]))] ∧
      streamed jsonCodec [] chatBody = .ok [.requestHeaders {},
        .requestBody { bodyMutation := some (.streamedResponse (bytes "null") true) }] ∧
      ¬ RoutedAlike jsonCodec [] chatBody [("model", .str "m")] := by
  obtain ⟨err, empty⟩ := jsonCodec.unmarshal_empty
  have map : (jsonCodec.unmarshalMap [].flatten none).1 = none := by
    simp only [Codec.unmarshalMap, List.flatten_nil, empty]
  have streams : streamed jsonCodec [] chatBody = _ := streamed_of_null map
  have buffers := buffered_of_named chatBody_decoded chatBody_named
  refine ⟨buffers, streams, ?_⟩
  unfold RoutedAlike
  rw [List.flatten_nil, List.nil_append, buffers, streams]
  rintro ⟨headers, body, sent, _, decodes⟩
  obtain ⟨_, rfl⟩ : headers = {} ∧ body = bytes "null" := by simpa [eq_comm] using sent
  rw [jsonCodec.unmarshal_null] at decodes
  cases decodes

/-! ## Bodies that cannot be decoded -/

def sentBodies (sent : List Response) : List Bytes :=
  sent.filterMap fun
    | .requestBody { bodyMutation := some (.body body), .. }
    | .requestBody { bodyMutation := some (.streamedResponse body _), .. } => some body
    | _ => none

/-- The streaming server fails, or sends the bytes that it received. -/
def KeepsBody (codec : Codec) (chunks : List Bytes) : Prop :=
  match streamed codec chunks [] with
  | .error _ => True
  | .ok sent => sentBodies sent = [chunks.flatten]

theorem keeps_undecodable_body_iff (codec : Codec) (chunks : List Bytes)
    (undecodable : ∀ members, codec.unmarshal chunks.flatten ≠ .object members none) :
    KeepsBody codec chunks ↔ chunks.flatten = bytes "null" ∨
      ∃ members, DecodesTo codec chunks.flatten members ∧ Misnamed (some members) := by
  unfold KeepsBody
  by_cases misnamed : Misnamed (codec.unmarshalMap chunks.flatten none).1
  · obtain ⟨err, streams⟩ := streamed_of_misnamed [] misnamed
    rw [streams]
    exact iff_of_true trivial (.inr (misnamed_unmarshalMap_iff.mp misnamed))
  · obtain ⟨encoded, streams, back⟩ := streamed_of_named [] misnamed
    rw [streams]
    have sends : sentBodies [.requestHeaders (routing (codec.unmarshalMap chunks.flatten none).1),
        .requestBody { bodyMutation := some (.streamedResponse encoded true) }] = [encoded] := rfl
    dsimp only
    rw [sends, List.singleton_inj]
    constructor
    · rintro rfl
      left
      cases map : (codec.unmarshalMap chunks.flatten none).1 with
      | none =>
          rw [map] at back
          exact back
      | some members =>
          rw [map] at back
          exact absurd back (undecodable members)
    · rintro (null | misnamed')
      · have map : (codec.unmarshalMap chunks.flatten none).1 = none := by
          simp only [Codec.unmarshalMap, null, codec.unmarshal_null]
        rw [map] at back
        rw [null]
        exact back
      · exact absurd (misnamed_unmarshalMap_iff.mpr misnamed') misnamed

theorem null_kept :
    jsonCodec.unmarshal [bytes "null"].flatten = .null ∧ KeepsBody jsonCodec [bytes "null"] := by
  have null : jsonCodec.unmarshal [bytes "null"].flatten = .null := jsonCodec.unmarshal_null
  refine ⟨null, (keeps_undecodable_body_iff jsonCodec [bytes "null"] ?_).mpr (.inl rfl)⟩
  intro members object
  rw [null] at object
  cases object

theorem invalid_body_replaced :
    (∃ err, jsonCodec.unmarshal [bytes "?"].flatten = .invalid err) ∧
      streamed jsonCodec [bytes "?"] [] = .ok [.requestHeaders {},
        .requestBody { bodyMutation := some (.streamedResponse (bytes "null") true) }] ∧
      ¬ KeepsBody jsonCodec [bytes "?"] := by
  have unread : JsonText.parse (JsonText.decodeUtf8 [bytes "?"].flatten) = none := by decide +kernel
  have invalid : jsonCodec.unmarshal [bytes "?"].flatten = .invalid JsonCodec.invalidText := by
    simp only [jsonCodec, JsonCodec.unmarshal, unread]
  have map : (jsonCodec.unmarshalMap [bytes "?"].flatten none).1 = none := by
    simp only [Codec.unmarshalMap, invalid]
  have streams : streamed jsonCodec [bytes "?"] [] = _ := streamed_of_null map
  refine ⟨⟨_, invalid⟩, streams, ?_⟩
  unfold KeepsBody
  rw [streams]
  intro kept
  exact absurd (List.singleton_inj.mp kept) (by decide +kernel)

end InferenceGateway.BodyBasedRouting
