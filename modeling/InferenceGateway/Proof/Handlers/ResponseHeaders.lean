import InferenceGateway.Proof.Handlers.Buffered
import InferenceGateway.Proof.Handlers.Exchange

/-!
What the two servers read from the headers of a response.
-/

namespace InferenceGateway
open Lib StreamingServer

def FailedStatus (headers : List HeaderValue) : Prop :=
  ∃ header ∈ headers, header.key = "status" ∧ header.rawValue ≠ bytes "200"

instance (headers : List HeaderValue) : Decidable (FailedStatus headers) :=
  inferInstanceAs (Decidable (∃ header ∈ headers, header.key = "status" ∧ header.rawValue ≠ bytes "200"))

/-- The status code and the streaming flag after the headers: a failed status and an event stream are
noted, and nothing is forgotten. -/
structure Classified (headers : List HeaderValue) (before after : RequestContext) : Prop where
  status : after.responseStatusCode =
    if FailedStatus headers then some .modelServerError else before.responseStatusCode
  streaming : after.modelServerStreaming = (before.modelServerStreaming || isStreaming headers)

theorem failedStatus_cons {header : HeaderValue} {headers : List HeaderValue} :
    FailedStatus (header :: headers) ↔ FailedStatus [header] ∨ FailedStatus headers := by
  simp [FailedStatus]

theorem isStreaming_cons (header : HeaderValue) (headers : List HeaderValue) :
    isStreaming (header :: headers) = (isStreaming [header] || isStreaming headers) := by
  simp [isStreaming]

/-! ## The streaming server -/

theorem classified_readResponseHeader (ctx : RequestContext) (header : HeaderValue) :
    Classified [header] ctx (StreamingServer.readResponseHeader ctx header) := by
  unfold StreamingServer.readResponseHeader
  split_ifs with status contentType
  · constructor
    · simp [FailedStatus, status]
    · simp [isStreaming, status.1]
  · constructor
    · simp [FailedStatus, contentType.1]
    · simp [isStreaming, contentType.1, contentType.2]
  · constructor
    · have succeeded : ¬ FailedStatus [header] := by simpa [FailedStatus] using status
      rw [if_neg succeeded]
    · have other : isStreaming [header] = false := by simpa [isStreaming] using contentType
      rw [other, Bool.or_false]

theorem Classified.cons {header : HeaderValue} {headers : List HeaderValue} {before between after : RequestContext}
    (first : Classified [header] before between) (rest : Classified headers between after) :
    Classified (header :: headers) before after := by
  constructor
  · rw [rest.status, first.status]
    by_cases failed : FailedStatus headers
    · rw [if_pos failed, if_pos (failedStatus_cons.mpr (.inr failed))]
    · have same : FailedStatus (header :: headers) ↔ FailedStatus [header] := by
        rw [failedStatus_cons, or_iff_left failed]
      rw [if_neg failed, if_congr same rfl rfl]
  · rw [rest.streaming, first.streaming, isStreaming_cons header headers, Bool.or_assoc]

theorem classified_readResponseHeaders (headers : List HeaderValue) (ctx : RequestContext) :
    Classified headers ctx (headers.foldl StreamingServer.readResponseHeader ctx) := by
  induction headers generalizing ctx with
  | nil => exact ⟨by simp [FailedStatus], by simp [isStreaming]⟩
  | cons header headers ih =>
      rw [List.foldl_cons]
      exact (classified_readResponseHeader ctx header).cons (ih _)

/-! ## The server for buffered bodies -/

namespace Server

/-- A first byte is never the whole code, so any status counts as a failure. -/
theorem readStatus_eq (ctx : RequestContext) {header : HeaderValue}
    (nonempty : header.key = "status" → header.rawValue ≠ []) :
    readStatus ctx header = some { ctx with
      responseStatusCode := if header.key = "status" then some .modelServerError else ctx.responseStatusCode } := by
  unfold readStatus
  split_ifs with status
  · obtain ⟨code, rest, value⟩ := List.exists_cons_of_ne_nil (nonempty status)
    have short : String.singleton (Char.ofNat code.toNat) ≠ "200" := by
      intro same
      have length := congrArg String.length same
      rw [String.length_singleton] at length
      exact absurd length (by decide)
    rw [value, List.head?_cons, Option.map_some, if_pos short]
  · rfl

theorem readResponseHeader_eq (ctx : RequestContext) {header : HeaderValue}
    (nonempty : header.key = "status" → header.rawValue ≠ []) :
    readResponseHeader ctx header = some { ctx with
      responseStatusCode := if header.key = "status" then some .modelServerError else ctx.responseStatusCode
      modelServerStreaming := ctx.modelServerStreaming || isStreaming [header] } := by
  rw [readResponseHeader, readStatus_eq ctx nonempty, Option.map_some]
  by_cases contentType : header.key = "content-type" ∧ header.rawValue.contains (bytes "text/event-stream")
  · rw [if_pos contentType]
    simp [isStreaming, contentType]
  · have other : isStreaming [header] = false := by simpa [isStreaming] using contentType
    rw [if_neg contentType, other, Bool.or_false]

theorem foldlM_readResponseHeader_eq (headers : List HeaderValue) (ctx : RequestContext)
    (nonempty : ∀ header ∈ headers, header.key = "status" → header.rawValue ≠ []) :
    headers.foldlM readResponseHeader ctx = some { ctx with
      responseStatusCode := if "status" ∈ headers.map HeaderValue.key then some .modelServerError
        else ctx.responseStatusCode
      modelServerStreaming := ctx.modelServerStreaming || isStreaming headers } := by
  induction headers generalizing ctx with
  | nil => simp [isStreaming]
  | cons header headers ih =>
      obtain ⟨first, rest⟩ := List.forall_mem_cons.mp nonempty
      rw [List.foldlM_cons, readResponseHeader_eq ctx first, Option.bind_eq_bind, Option.bind_some, ih _ rest,
        isStreaming_cons header headers]
      by_cases status : header.key = "status"
      · simp [status, Bool.or_assoc]
      · simp [status, Ne.symm status, Bool.or_assoc]

theorem handleResponseHeaders_eq {headers : List HeaderValue} (ctx : RequestContext)
    (nonempty : ∀ header ∈ headers, header.key = "status" → header.rawValue ≠ []) :
    handleResponseHeaders headers ctx = some (responseHeaders, { ctx with
      responseStatusCode := if "status" ∈ headers.map HeaderValue.key then some .modelServerError
        else ctx.responseStatusCode
      modelServerStreaming := ctx.modelServerStreaming || isStreaming headers }) := by
  rw [handleResponseHeaders, foldlM_readResponseHeader_eq headers ctx nonempty]
  rfl

end Server

/-! ## Both servers -/

def ClassifiedAlike (codec : Codec) (hint : DestinationHint) (backend : Backend) (headers : List HeaderValue)
    (s : StreamingServer.Stream) : Prop :=
  ∃ response after s', Server.handleResponseHeaders headers s.ctx = some (response, after) ∧
    StreamingServer.receive codec hint backend s (.responseHeaders headers) = some s' ∧
    Classified headers s.ctx after ∧ Classified headers s.ctx s'.ctx

theorem headers_classified_alike_iff (codec : Codec) (hint : DestinationHint) (backend : Backend)
    (headers : List HeaderValue) (s : StreamingServer.Stream) (once : (headers.map HeaderValue.key).Nodup)
    (nonempty : ∀ header ∈ headers, header.key = "status" → header.rawValue ≠ []) :
    ClassifiedAlike codec hint backend headers s ↔
      (∀ header ∈ headers, header.key = "status" → header.rawValue ≠ bytes "200") ∨
        s.ctx.responseStatusCode = some .modelServerError := by
  have buffered := Server.handleResponseHeaders_eq s.ctx nonempty
  have streamed := classified_readResponseHeaders headers s.ctx
  constructor
  · rintro ⟨response, after, s', handled, received, classified, _⟩
    rw [buffered] at handled
    cases handled
    by_contra wrong
    obtain ⟨⟨header, member, status, value⟩, fresh⟩ : (∃ header ∈ headers, header.key = "status" ∧
        header.rawValue = bytes "200") ∧ s.ctx.responseStatusCode ≠ some .modelServerError := by
      simpa using wrong
    have succeeded : ¬ FailedStatus headers := by
      rintro ⟨other, member', status', failed⟩
      have same : other = header := List.inj_on_of_nodup_map once member' member (status'.trans status.symm)
      exact failed (same ▸ value)
    have found : "status" ∈ headers.map HeaderValue.key := List.mem_map.mpr ⟨header, member, status⟩
    have code := classified.status
    simp only [if_pos found, if_neg succeeded] at code
    exact fresh code.symm
  · intro condition
    refine ⟨_, _, _, buffered, rfl, ⟨?_, rfl⟩, ⟨streamed.status, streamed.streaming⟩⟩
    by_cases found : "status" ∈ headers.map HeaderValue.key
    · obtain ⟨header, member, status⟩ := List.mem_map.mp found
      rcases condition with other | already
      · have failed : FailedStatus headers := ⟨header, member, status, other header member status⟩
        simp only [if_pos found, if_pos failed]
      · simp only [if_pos found, already, ite_self]
    · have succeeded : ¬ FailedStatus headers := by
        rintro ⟨header, member, status, _⟩
        exact found (List.mem_map.mpr ⟨header, member, status⟩)
      simp only [if_neg found, if_neg succeeded]

def failedHeaders : List HeaderValue := [⟨"content-type", bytes "text/event-stream"⟩, ⟨"status", bytes "503"⟩]

theorem failed_headers_classified :
    (failedHeaders.map HeaderValue.key).Nodup ∧
      (∀ header ∈ failedHeaders, header.key = "status" → header.rawValue ≠ []) ∧
      ClassifiedAlike jsonCodec testHint chatBackend failedHeaders {} := by
  have once : (failedHeaders.map HeaderValue.key).Nodup := by decide +kernel
  have nonempty : ∀ header ∈ failedHeaders, header.key = "status" → header.rawValue ≠ [] := by decide +kernel
  exact ⟨once, nonempty, (headers_classified_alike_iff _ _ _ _ _ once nonempty).mpr (.inl (by decide +kernel))⟩

theorem successful_status_counted_as_error :
    (Server.handleResponseHeaders [⟨"status", bytes "200"⟩] {}).map (·.2.responseStatusCode) =
        some (some .modelServerError) ∧
      (StreamingServer.receive jsonCodec testHint chatBackend {} (.responseHeaders [⟨"status", bytes "200"⟩])).map
        (·.ctx.responseStatusCode) = some none ∧
      ¬ ClassifiedAlike jsonCodec testHint chatBackend [⟨"status", bytes "200"⟩] {} := by
  refine ⟨by decide +kernel, by decide +kernel, ?_⟩
  rintro ⟨response, after, s', handled, received, classified, _⟩
  have code : (Server.handleResponseHeaders [⟨"status", bytes "200"⟩] {}).map (·.2.responseStatusCode) =
      some (some .modelServerError) := by decide +kernel
  have succeeded : ¬ FailedStatus [⟨"status", bytes "200"⟩] := by decide +kernel
  have status := classified.status
  rw [handled, Option.map_some, status, if_neg succeeded] at code
  cases code

end InferenceGateway
