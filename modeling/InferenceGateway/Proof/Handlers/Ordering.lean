import InferenceGateway.Handlers.StreamingServer

/-!
The order of the responses that the streaming server sends. `Phase` is the order that Envoy expects,
as an automaton over the kinds of responses; `RequestState` tracks it.
-/

namespace InferenceGateway.StreamingServer
open Lib

/-! ## The order that Envoy expects -/

inductive Kind
  | requestHeaders
  | requestBody
  | responseHeaders
  | responseBody (endOfStream : Bool)
deriving DecidableEq

/-- The responses have been sent up to the request headers, the request body, the response headers
with parts of the body, or the end of the response body. -/
inductive Phase
  | start
  | requestHeaders
  | requestBody
  | responding
  | ended
deriving DecidableEq

def Phase.next : Phase → Kind → Option Phase
  | .start, .requestHeaders => some .requestHeaders
  | .requestHeaders, .requestBody => some .requestBody
  | _, .responseHeaders => some .responding
  | .responding, .responseBody false => some .responding
  | .responding, .responseBody true => some .ended
  | _, _ => none

structure Ordered (kinds : List Kind) : Prop where
  oneRequestHeaders : kinds.count .requestHeaders ≤ 1
  oneRequestBody : kinds.count .requestBody ≤ 1
  bodyAfterHeaders : ∀ before after, kinds = before ++ .requestBody :: after → .requestHeaders ∈ before
  requestFirst : ∀ before after, kinds = before ++ .responseHeaders :: after →
    .requestHeaders ∉ after ∧ .requestBody ∉ after
  responseHeadersFirst : ∀ before endOfStream after, kinds = before ++ .responseBody endOfStream :: after →
    .responseHeaders ∈ before
  endOfStream : ∀ before between endOfStream after,
    kinds = before ++ .responseBody true :: (between ++ .responseBody endOfStream :: after) →
    .responseHeaders ∈ between

section Phases
variable {p q : Phase} {kinds : List Kind}

theorem Phase.next_cases {kind : Kind} (moved : p.next kind = some q) :
    (p = .start ∧ kind = .requestHeaders ∧ q = .requestHeaders) ∨
    (p = .requestHeaders ∧ kind = .requestBody ∧ q = .requestBody) ∨
    (kind = .responseHeaders ∧ q = .responding) ∨
    (p = .responding ∧ kind = .responseBody false ∧ q = .responding) ∨
    (p = .responding ∧ kind = .responseBody true ∧ q = .ended) := by
  cases kind with
  | responseBody endOfStream => cases p <;> cases endOfStream <;> simp_all [Phase.next]
  | _ => cases p <;> simp_all [Phase.next]

theorem foldlM_split {before after : List Kind} {kind : Kind}
    (moved : (before ++ kind :: after).foldlM Phase.next p = some q) :
    ∃ p₁ p₂, before.foldlM Phase.next p = some p₁ ∧ p₁.next kind = some p₂ ∧
      after.foldlM Phase.next p₂ = some q := by
  rw [List.foldlM_append, Option.bind_eq_bind, Option.bind_eq_some_iff] at moved
  obtain ⟨p₁, first, rest⟩ := moved
  rw [List.foldlM_cons, Option.bind_eq_bind, Option.bind_eq_some_iff] at rest
  obtain ⟨p₂, kind, last⟩ := rest
  exact ⟨p₁, p₂, first, kind, last⟩

theorem foldlM_cons_split {kind : Kind} (moved : (kind :: kinds).foldlM Phase.next p = some q) :
    ∃ r, p.next kind = some r ∧ kinds.foldlM Phase.next r = some q := by
  rw [List.foldlM_cons, Option.bind_eq_bind, Option.bind_eq_some_iff] at moved
  exact moved

/-- A kind that is sent only in phases that it ends, and that do not come back, is sent once. -/
theorem count_le_of_phases {k : Kind} (early : Phase → Prop) [DecidablePred early]
    (ends : ∀ p q, p.next k = some q → early p ∧ ¬early q)
    (past : ∀ p kind q, p.next kind = some q → early q → early p)
    (moved : kinds.foldlM Phase.next p = some q) : kinds.count k ≤ if early p then 1 else 0 := by
  induction kinds generalizing p with
  | nil => simp
  | cons kind kinds ih =>
      obtain ⟨r, first, rest⟩ := foldlM_cons_split moved
      have tail := ih rest
      by_cases same : kind = k
      · subst same
        obtain ⟨before, after⟩ := ends p r first
        rw [if_neg after] at tail
        rw [List.count_cons_self, if_pos before]
        omega
      · rw [List.count_cons_of_ne same]
        by_cases later : early r
        · rw [if_pos later] at tail
          rwa [if_pos (past p kind r first later)]
        · rw [if_neg later] at tail
          omega

theorem count_requestHeaders (moved : kinds.foldlM Phase.next p = some q) :
    kinds.count .requestHeaders ≤ if p = .start then 1 else 0 := by
  refine count_le_of_phases (· = .start) (fun p q first => ?_) (fun p kind q first => ?_) moved
  · rcases Phase.next_cases first with ⟨rfl, _, rfl⟩ | ⟨_, kind, _⟩ | ⟨kind, _⟩ | ⟨_, kind, _⟩ | ⟨_, kind, _⟩
    · decide
    all_goals cases kind
  · rintro rfl
    rcases Phase.next_cases first with ⟨_, _, back⟩ | ⟨_, _, back⟩ | ⟨_, back⟩ | ⟨_, _, back⟩ | ⟨_, _, back⟩ <;>
      cases back

theorem count_requestBody (moved : kinds.foldlM Phase.next p = some q) :
    kinds.count .requestBody ≤ if p = .start ∨ p = .requestHeaders then 1 else 0 := by
  refine count_le_of_phases (fun p => p = .start ∨ p = .requestHeaders) (fun p q first => ?_)
    (fun p kind q first early => ?_) moved
  · rcases Phase.next_cases first with ⟨_, kind, _⟩ | ⟨rfl, _, rfl⟩ | ⟨kind, _⟩ | ⟨_, kind, _⟩ | ⟨_, kind, _⟩
    · cases kind
    · decide
    all_goals cases kind
  · rcases Phase.next_cases first with ⟨rfl, _, _⟩ | ⟨rfl, _, _⟩ | ⟨_, rfl⟩ | ⟨_, _, rfl⟩ | ⟨_, _, rfl⟩
    · exact .inl rfl
    · exact .inr rfl
    all_goals simp at early

theorem reached_by {target : Phase} {k : Kind}
    (only : ∀ p kind, p.next kind = some target → p = target ∨ kind = k)
    (moved : kinds.foldlM Phase.next p = some target) : p = target ∨ k ∈ kinds := by
  induction kinds generalizing p with
  | nil =>
      cases moved
      exact .inl rfl
  | cons kind kinds ih =>
      obtain ⟨r, first, rest⟩ := foldlM_cons_split moved
      rcases ih rest with rfl | member
      · rcases only p kind first with stayed | rfl
        · exact .inl stayed
        · exact .inr List.mem_cons_self
      · exact .inr (List.mem_cons_of_mem _ member)

theorem reached_requestHeaders (moved : kinds.foldlM Phase.next p = some .requestHeaders) :
    p = .requestHeaders ∨ .requestHeaders ∈ kinds := by
  refine reached_by (fun p kind first => ?_) moved
  rcases Phase.next_cases first with ⟨_, sent, _⟩ | ⟨_, _, ended⟩ | ⟨_, ended⟩ | ⟨_, _, ended⟩ | ⟨_, _, ended⟩
  · exact .inr sent
  all_goals cases ended

theorem reached_responding (moved : kinds.foldlM Phase.next p = some .responding) :
    p = .responding ∨ .responseHeaders ∈ kinds := by
  refine reached_by (fun p kind first => ?_) moved
  rcases Phase.next_cases first with ⟨_, _, ended⟩ | ⟨_, _, ended⟩ | ⟨sent, _⟩ | ⟨stayed, _, _⟩ | ⟨_, _, ended⟩
  · cases ended
  · cases ended
  · exact .inr sent
  · exact .inl stayed
  · cases ended

theorem ordered_of_phase (moved : kinds.foldlM Phase.next .start = some q) : Ordered kinds where
  oneRequestHeaders := count_requestHeaders moved
  oneRequestBody := count_requestBody moved
  bodyAfterHeaders before after split := by
    subst split
    obtain ⟨p₁, p₂, first, here, _⟩ := foldlM_split moved
    obtain rfl : p₁ = .requestHeaders := by
      rcases Phase.next_cases here with ⟨_, kind, _⟩ | ⟨same, _⟩ | ⟨kind, _⟩ | ⟨_, kind, _⟩ | ⟨_, kind, _⟩
      · cases kind
      · exact same
      all_goals cases kind
    exact (reached_requestHeaders first).resolve_left nofun
  requestFirst before after split := by
    subst split
    obtain ⟨p₁, p₂, _, here, last⟩ := foldlM_split moved
    obtain rfl : p₂ = .responding := by
      cases p₁ <;> exact (Option.some.inj here).symm
    constructor
    · exact List.count_eq_zero.mp (Nat.le_zero.mp (count_requestHeaders last))
    · exact List.count_eq_zero.mp (Nat.le_zero.mp (count_requestBody last))
  responseHeadersFirst before endOfStream after split := by
    subst split
    obtain ⟨p₁, p₂, first, here, _⟩ := foldlM_split moved
    obtain rfl : p₁ = .responding := by
      rcases Phase.next_cases here with ⟨_, kind, _⟩ | ⟨_, kind, _⟩ | ⟨kind, _⟩ | ⟨same, _⟩ | ⟨same, _⟩
      iterate 3 cases kind
      all_goals exact same
    exact (reached_responding first).resolve_left nofun
  endOfStream before between endOfStream after split := by
    subst split
    obtain ⟨p₁, p₂, _, here, last⟩ := foldlM_split moved
    obtain rfl : p₂ = .ended := by
      rcases Phase.next_cases here with ⟨_, kind, _⟩ | ⟨_, kind, _⟩ | ⟨kind, _⟩ | ⟨_, kind, _⟩ | ⟨_, _, same⟩
      iterate 4 cases kind
      exact same
    obtain ⟨p₃, p₄, first, there, _⟩ := foldlM_split last
    obtain rfl : p₃ = .responding := by
      rcases Phase.next_cases there with ⟨_, kind, _⟩ | ⟨_, kind, _⟩ | ⟨kind, _⟩ | ⟨same, _⟩ | ⟨same, _⟩
      iterate 3 cases kind
      all_goals exact same
    exact (reached_responding first).resolve_left nofun

end Phases

/-! ## The responses of the request context -/

/-- An immediate response has no place in the order. -/
def kindOf (resp : ProcessingResponse) : Option Kind :=
  match resp.response with
  | .requestHeaders _ => some .requestHeaders
  | .requestBody _ => some .requestBody
  | .responseHeaders _ => some .responseHeaders
  | .responseBody _ => some (.responseBody (isEndOfStream (some resp)))
  | .immediateResponse _ => none

def kinds (sent : List (Option ProcessingResponse)) : List Kind := sent.filterMap fun resp => resp.bind kindOf

/-- Every response that waits in the context is of the kind of its field; nothing sets a trailer. -/
structure Slots (ctx : RequestContext) : Prop where
  reqHeader : ∀ resp ∈ ctx.reqHeaderResp, kindOf resp = some .requestHeaders
  reqBody : ∀ resp ∈ ctx.reqBodyResp, kindOf resp = some .requestBody
  reqTrailer : ctx.reqTrailerResp = none
  respHeader : ∀ resp ∈ ctx.respHeaderResp, kindOf resp = some .responseHeaders
  respBody : ∀ resp ∈ ctx.respBodyResp,
    kindOf resp = some (.responseBody (isEndOfStream ctx.respBodyResp))
  respTrailer : ctx.respTrailerResp = none

section Handlers
variable {codec : Codec} {hint : DestinationHint} {backend : Backend} {ctx ctx' : RequestContext}

theorem Slots.populateRequestHeaderResponse (slots : Slots ctx) (endpoint : String) (length : Nat) :
    Slots (populateRequestHeaderResponse hint endpoint length ctx) :=
  { slots with
    reqHeader := by
      rintro _ ⟨⟩
      rfl }

theorem handleRequestHeaders_cases {endOfStream : Bool} {err : Option Err}
    (handled : handleRequestHeaders hint backend endOfStream ctx = some (err, ctx')) :
    ((endOfStream = false ∨ err ≠ none) ∧ ctx' = ctx) ∨
      ∃ endpoint, ctx' = populateRequestHeaderResponse hint endpoint 0 ctx := by
  cases endOfStream with
  | false =>
      cases handled
      exact .inl ⟨.inl rfl, rfl⟩
  | true =>
      simp only [handleRequestHeaders, if_true, Option.bind_eq_bind, Option.bind_eq_some_iff] at handled
      obtain ⟨pod, _, handled⟩ := handled
      split at handled
      · cases handled
        exact .inl ⟨.inr nofun, rfl⟩
      · cases handled
        exact .inr ⟨_, rfl⟩

theorem Slots.setWorkerInstanceID (slots : Slots ctx) (answer : Except Err String) :
    Slots (setWorkerInstanceID answer ctx) ∧
      (setWorkerInstanceID answer ctx).requestState = ctx.requestState := by
  unfold StreamingServer.setWorkerInstanceID
  split
  · exact ⟨slots, rfl⟩
  · split
    · exact ⟨slots, rfl⟩
    · exact ⟨{ slots with }, rfl⟩

theorem Slots.handleRequestBody (slots : Slots ctx) {map map' : Option Object} {err : Option Err}
    (handled : handleRequestBody codec hint backend map ctx = some (err, ctx', map')) :
    Slots ctx' ∧ ctx'.requestState = ctx.requestState := by
  unfold StreamingServer.handleRequestBody at handled
  split at handled
  · rw [Option.bind_eq_bind, Option.bind_eq_some_iff] at handled
    obtain ⟨resolved, _, handled⟩ := handled
    split at handled
    · cases handled
      exact ⟨slots, rfl⟩
    · dsimp only at handled
      split at handled
      · cases handled
        exact ⟨slots, rfl⟩
      · split at handled
        · cases handled
          exact slots.setWorkerInstanceID _
        · split at handled
          · cases handled
            exact slots.setWorkerInstanceID _
          · cases handled
            obtain ⟨asked, same⟩ := slots.setWorkerInstanceID (callFrontEndForWorker codec backend _).1
            refine ⟨{ asked with reqHeader := ?_, reqBody := ?_ }, same⟩
            all_goals
              rintro _ ⟨⟩
              rfl
  · cases handled
    exact ⟨slots, rfl⟩

theorem Slots.handleResponseBody (slots : Slots ctx) {response : Option Object} {err : Option Err}
    (handled : handleResponseBody codec response ctx = some (err, ctx')) :
    Slots ctx' ∧ ctx'.requestState = ctx.requestState := by
  unfold StreamingServer.handleResponseBody at handled
  split at handled
  · cases handled
    exact ⟨slots, rfl⟩
  · rw [Option.bind_eq_bind, Option.bind_eq_some_iff] at handled
    obtain ⟨usage, _, handled⟩ := handled
    cases handled
    refine ⟨{ slots with respBody := ?_ }, rfl⟩
    rintro _ ⟨⟩
    rfl

theorem Slots.readResponseHeaders (slots : Slots ctx) (headers : List HeaderValue) :
    Slots (headers.foldl readResponseHeader ctx) := by
  induction headers generalizing ctx with
  | nil => exact slots
  | cons header headers ih =>
      apply ih
      unfold readResponseHeader
      split
      · exact { slots with }
      · split
        · exact { slots with }
        · exact slots

end Handlers

/-! ## The state tracks the phase -/

/-- The phase in each state. `Process` enters `responseRecieved` whatever has been sent. -/
def Tracks : StreamRequestState → Phase → Prop
  | .requestReceived, p => p = .start
  | .headerRequestResponseComplete, p => p = .requestHeaders
  | .bodyRequestResponsesComplete, p => p = .requestBody
  | .responseRecieved, _ => True
  | .headerResponseResponseComplete, p => p = .responding
  | .bodyResponseResponsesComplete, p => p = .ended
  | .trailerRequestResponsesComplete, _ | .trailerResponseResponsesComplete, _ => False

structure InPhase (sent : List (Option ProcessingResponse)) (p : Phase) : Prop where
  nonNil : none ∉ sent
  phase : (kinds sent).foldlM Phase.next .start = some p

theorem InPhase.send {sent : List (Option ProcessingResponse)} {p q : Phase} {resp : ProcessingResponse}
    {kind : Kind} (before : InPhase sent p) (sends : kindOf resp = some kind) (moves : p.next kind = some q) :
    InPhase (sent ++ [some resp]) q where
  nonNil := by simpa using before.nonNil
  phase := by
    have grown : kinds (sent ++ [some resp]) = kinds sent ++ [kind] := by simp [kinds, sends]
    rw [grown, List.foldlM_append, before.phase]
    simp [moves]

theorem InPhase.sendImmediate {sent : List (Option ProcessingResponse)} {p : Phase}
    {resp : ProcessingResponse} (before : InPhase sent p) (immediate : kindOf resp = none) :
    InPhase (sent ++ [some resp]) p where
  nonNil := by simpa using before.nonNil
  phase := by
    have same : kinds (sent ++ [some resp]) = kinds sent := by simp [kinds, immediate]
    rw [same, before.phase]

structure InOrder (s : Stream) : Prop where
  slots : Slots s.ctx
  sent : ∃ p, InPhase s.sent p ∧ Tracks s.ctx.requestState p

section Stages
variable {canSend : Nat → Bool} {s s' : Stream}

theorem sendIf_cases (canSend : Nat → Bool) (condition : RequestContext → Bool)
    (resp : RequestContext → Option ProcessingResponse) (after : Stream → Stream) (s : Stream) :
    (condition s.ctx = false ∧ sendIf canSend condition resp after s = .ok s) ∨
    (condition s.ctx = true ∧ sendIf canSend condition resp after s = .error s) ∨
    (condition s.ctx = true ∧
      sendIf canSend condition resp after s = .ok (after { s with sent := s.sent ++ [resp s.ctx] })) := by
  unfold sendIf
  cases condition s.ctx <;> cases canSend s.sent.length <;> simp

def settled : Except Stream Stream → Stream
  | .ok s => s
  | .error s => s

def Preserves (I : Stream → Prop) (stage : Stream → Except Stream Stream) : Prop :=
  ∀ s, I s → I (settled (stage s))

theorem Preserves.bind {I : Stream → Prop} {first second : Stream → Except Stream Stream}
    (one : Preserves I first) (two : Preserves I second) : Preserves I fun s => first s >>= second := by
  intro s holds
  have between := one s holds
  dsimp only
  cases done : first s with
  | error failed =>
      rw [done] at between
      exact between
  | ok next =>
      rw [done] at between
      exact two next between

theorem preserves_sendIf {I : Stream → Prop} {condition : RequestContext → Bool}
    {resp : RequestContext → Option ProcessingResponse} {after : Stream → Stream}
    (sends : ∀ s, I s → condition s.ctx = true → I (after { s with sent := s.sent ++ [resp s.ctx] })) :
    Preserves I (sendIf canSend condition resp after) := by
  intro s holds
  rcases sendIf_cases canSend condition resp after s with ⟨_, done⟩ | ⟨_, done⟩ | ⟨meets, done⟩
  · rw [done]
    exact holds
  · rw [done]
    exact holds
  · rw [done]
    exact sends s holds meets

theorem preserves_updateStateAndSendIfNeeded {I : Stream → Prop}
    (requestHeaders : Preserves I (sendRequestHeaders canSend))
    (requestBody : Preserves I (sendRequestBody canSend))
    (requestTrailers : Preserves I (sendRequestTrailers canSend))
    (responseHeaders : Preserves I (sendResponseHeaders canSend))
    (responseBody : Preserves I (sendResponseBody canSend))
    (responseTrailers : Preserves I (sendResponseTrailers canSend)) :
    Preserves I (updateStateAndSendIfNeeded canSend) :=
  requestHeaders.bind <| requestBody.bind <| requestTrailers.bind <| responseHeaders.bind <|
    responseBody.bind responseTrailers

theorem inOrder_sendIf_slot {state : StreamRequestState} (slot : RequestContext → Option ProcessingResponse)
    {after : Stream → Stream}
    (sends : ∀ (s : Stream) p resp, Slots s.ctx → InPhase s.sent p → s.ctx.requestState = state → Tracks state p →
      slot s.ctx = some resp → InOrder (after { s with sent := s.sent ++ [some resp] })) :
    Preserves InOrder (sendIf canSend (fun r => r.requestState = state ∧ (slot r).isSome) slot after) := by
  apply preserves_sendIf
  rintro s ⟨slots, p, before, tracks⟩ holds
  obtain ⟨reached, waiting⟩ := of_decide_eq_true holds
  obtain ⟨resp, found⟩ := Option.isSome_iff_exists.mp waiting
  rw [reached] at tracks
  rw [found]
  exact sends s p resp slots before reached tracks found

theorem inOrder_sendRequestHeaders : Preserves InOrder (sendRequestHeaders canSend) := by
  apply inOrder_sendIf_slot (·.reqHeaderResp)
  intro s p resp slots before _ tracks slot
  obtain rfl : p = .start := tracks
  exact ⟨{ slots with }, .requestHeaders, before.send (slots.reqHeader resp slot) rfl, rfl⟩

theorem inOrder_sendRequestBody : Preserves InOrder (sendRequestBody canSend) := by
  apply inOrder_sendIf_slot (·.reqBodyResp)
  intro s p resp slots before _ tracks slot
  obtain rfl : p = .requestHeaders := tracks
  exact ⟨{ slots with reqBody := fun _ waiting => absurd waiting (Option.not_mem_none _) }, .requestBody,
    before.send (slots.reqBody resp slot) rfl, rfl⟩

theorem inOrder_sendRequestTrailers : Preserves InOrder (sendRequestTrailers canSend) := by
  apply preserves_sendIf
  rintro s ⟨slots, _⟩ holds
  obtain ⟨_, waiting⟩ := of_decide_eq_true holds
  rw [slots.reqTrailer] at waiting
  cases waiting

theorem inOrder_sendResponseHeaders : Preserves InOrder (sendResponseHeaders canSend) := by
  apply inOrder_sendIf_slot (·.respHeaderResp)
  intro s p resp slots before _ _ slot
  have moves : p.next .responseHeaders = some .responding := by cases p <;> rfl
  exact ⟨{ slots with }, .responding, before.send (slots.respHeader resp slot) moves, rfl⟩

theorem inOrder_sendResponseBody : Preserves InOrder (sendResponseBody canSend) := by
  apply inOrder_sendIf_slot (·.respBodyResp)
  intro s p resp slots before state tracks slot
  obtain rfl : p = .responding := tracks
  have kind := slots.respBody resp slot
  have emptied (state : StreamRequestState) : Slots { s.ctx with requestState := state, respBodyResp := none } :=
    { slots with respBody := fun _ waiting => absurd waiting (Option.not_mem_none _) }
  cases ends : isEndOfStream s.ctx.respBodyResp with
  | true =>
      rw [ends] at kind
      refine ⟨emptied _, .ended, before.send kind rfl, ?_⟩
      simp [Tracks]
  | false =>
      rw [ends] at kind
      refine ⟨emptied _, .responding, before.send kind rfl, ?_⟩
      simp [state, Tracks]

theorem inOrder_sendResponseTrailers : Preserves InOrder (sendResponseTrailers canSend) := by
  apply preserves_sendIf
  rintro s ⟨slots, _⟩ holds
  obtain ⟨_, waiting⟩ := of_decide_eq_true holds
  rw [slots.respTrailer] at waiting
  cases waiting

theorem inOrder_updateStateAndSendIfNeeded (canSend : Nat → Bool) :
    Preserves InOrder (updateStateAndSendIfNeeded canSend) :=
  preserves_updateStateAndSendIfNeeded inOrder_sendRequestHeaders inOrder_sendRequestBody inOrder_sendRequestTrailers
    inOrder_sendResponseHeaders inOrder_sendResponseBody inOrder_sendResponseTrailers

end Stages

/-! ## Every run -/

section Runs
variable {codec : Codec} {hint : DestinationHint} {canSend : Nat → Bool} {backend : Backend}
  {s s' : Stream} {message : ProcessingRequest}

def streamedChunk (chunk : Bytes) (endOfStream : Bool) : ProcessingResponse :=
  ⟨.responseBody { bodyMutation := some (.streamedResponse chunk endOfStream) }, none⟩

theorem receive_responseBody_of_streaming (codec : Codec) (hint : DestinationHint) (backend : Backend)
    (streaming : s.ctx.modelServerStreaming = true) (chunk : Bytes) (endOfStream : Bool) :
    ∃ metrics, StreamingServer.receive codec hint backend s (.responseBody chunk endOfStream) =
      some { s.record metrics with
        ctx := { s.ctx with respBodyResp := some (streamedChunk chunk endOfStream) } } := by
  cases endOfStream with
  | false =>
      refine ⟨handleResponseBodyModelStreaming codec s.ctx chunk, ?_⟩
      simp [StreamingServer.receive, streaming, Stream.record, streamedChunk]
  | true =>
      refine ⟨handleResponseBodyModelStreaming codec s.ctx chunk ++
        [.requestLatencies s.ctx.model s.ctx.resolvedTargetModel,
          .responseSizes s.ctx.model s.ctx.resolvedTargetModel s.ctx.responseSize], ?_⟩
      simp [StreamingServer.receive, streaming, Stream.record, streamedChunk]

theorem InOrder.receive (order : InOrder s) (received : receive codec hint backend s message = some s') :
    InOrder s' := by
  obtain ⟨slots, p, before, tracks⟩ := order
  cases message with
  | requestHeaders endOfStream =>
      simp only [StreamingServer.receive, Option.bind_eq_bind, Option.bind_eq_some_iff] at received
      obtain ⟨⟨err, ctx⟩, handled, received⟩ := received
      cases received
      rcases handleRequestHeaders_cases handled with ⟨_, rfl⟩ | ⟨endpoint, rfl⟩
      · exact ⟨slots, p, before, tracks⟩
      · exact ⟨slots.populateRequestHeaderResponse endpoint 0, p, before, tracks⟩
  | requestBody chunk endOfStream =>
      cases endOfStream with
      | false =>
          cases received
          exact ⟨slots, p, before, tracks⟩
      | true =>
          simp only [StreamingServer.receive, if_true, Option.bind_eq_bind, Option.bind_eq_some_iff] at received
          obtain ⟨⟨err, ctx, map⟩, handled, received⟩ := received
          obtain ⟨after, same⟩ := slots.handleRequestBody handled
          rw [← same] at tracks
          cases err with
          | none =>
              cases received
              exact ⟨after, p, before, tracks⟩
          | some err =>
              cases received
              exact ⟨after, p, before, tracks⟩
  | responseHeaders headers =>
      cases received
      refine ⟨{ slots.readResponseHeaders headers with respHeader := ?_ }, p, before, trivial⟩
      rintro _ ⟨⟩
      rfl
  | responseBody chunk endOfStream =>
      cases streaming : s.ctx.modelServerStreaming with
      | true =>
          obtain ⟨metrics, done⟩ :=
            receive_responseBody_of_streaming codec hint backend streaming chunk endOfStream
          rw [done] at received
          cases received
          refine ⟨{ slots with respBody := ?_ }, p, before, tracks⟩
          rintro _ ⟨⟩
          rfl
      | false =>
          cases endOfStream with
          | false =>
              simp only [StreamingServer.receive, streaming, Bool.false_eq_true, if_false] at received
              cases received
              exact ⟨slots, p, before, tracks⟩
          | true =>
              simp only [StreamingServer.receive, streaming, Bool.false_eq_true, if_false, if_true,
                Option.bind_eq_bind, Option.bind_eq_some_iff] at received
              obtain ⟨⟨err, ctx⟩, handled, received⟩ := received
              obtain ⟨after, same⟩ := slots.handleResponseBody handled
              rw [← same] at tracks
              split at received
              · cases received
                exact ⟨after, p, before, tracks⟩
              · cases received
                exact ⟨after, p, before, tracks⟩
  | requestTrailers | responseTrailers | unset =>
      cases received
      exact ⟨slots, p, before, tracks⟩

theorem kindOf_buildErrResponse {err : Err} {resp : ProcessingResponse}
    (built : buildErrResponse err = .ok resp) : kindOf resp = none := by
  unfold buildErrResponse at built
  split at built <;> cases built <;> rfl

/-- What a step can do: it panics, sends an immediate response or fails to, or sends what waits. -/
theorem step_cases (codec : Codec) (hint : DestinationHint) (canSend : Nat → Bool) (backend : Backend)
    (s : Stream) (message : ProcessingRequest) :
    (receive codec hint backend s message = none ∧
      step codec hint canSend backend s message = .error (s, .panicked)) ∨
    ∃ next, receive codec hint backend s message = some next ∧
      ((∃ exit, step codec hint canSend backend s message = .error (next, exit)) ∨
        (∃ err resp, buildErrResponse err = .ok resp ∧ step codec hint canSend backend s message =
          .error ({ next with sent := next.sent ++ [some resp] }, .returned none)) ∨
        (∃ failed, updateStateAndSendIfNeeded canSend next = .error failed ∧
          step codec hint canSend backend s message = .error (failed, .returned (some sendFailed))) ∨
        (∃ after, next.err = none ∧ updateStateAndSendIfNeeded canSend next = .ok after ∧
          step codec hint canSend backend s message = .ok after)) := by
  unfold step
  cases received : receive codec hint backend s message with
  | none => exact .inl ⟨rfl, rfl⟩
  | some next =>
      refine .inr ⟨next, rfl, ?_⟩
      dsimp only
      cases failed : next.err with
      | some err =>
          dsimp only
          cases built : buildErrResponse err with
          | error unknown => exact .inl ⟨_, rfl⟩
          | ok resp =>
              cases sends : canSend next.sent.length with
              | true => exact .inr (.inl ⟨err, resp, built, by simp⟩)
              | false => exact .inl ⟨.returned (some sendFailed), by simp⟩
      | none =>
          dsimp only
          cases done : updateStateAndSendIfNeeded canSend next with
          | error after => exact .inr (.inr (.inl ⟨after, rfl, rfl⟩))
          | ok after => exact .inr (.inr (.inr ⟨after, rfl, rfl, rfl⟩))

theorem receive_of_step (moved : StreamingServer.step codec hint canSend backend s message = .ok s') :
    ∃ next, receive codec hint backend s message = some next ∧ next.err = none ∧
      updateStateAndSendIfNeeded canSend next = .ok s' := by
  rcases step_cases codec hint canSend backend s message with ⟨_, done⟩ | ⟨next, received, done⟩
  · rw [done] at moved
    cases moved
  · rcases done with ⟨exit, done⟩ | ⟨err, resp, _, done⟩ | ⟨failed, _, done⟩ | ⟨after, fine, sent, done⟩
    · rw [done] at moved
      cases moved
    · rw [done] at moved
      cases moved
    · rw [done] at moved
      cases moved
    · rw [done] at moved
      cases moved
      exact ⟨next, received, fine, sent⟩

theorem InOrder.step (order : InOrder s)
    (moved : StreamingServer.step codec hint canSend backend s message = .ok s') : InOrder s' := by
  obtain ⟨next, received, _, sent⟩ := receive_of_step moved
  have kept := inOrder_updateStateAndSendIfNeeded canSend next (order.receive received)
  rw [sent] at kept
  exact kept

theorem InOrder.inPhase (order : InOrder s) : ∃ p, InPhase s.sent p := by
  obtain ⟨p, before, _⟩ := order.sent
  exact ⟨p, before⟩

theorem InOrder.step_ends {ended : Stream × Exit} (order : InOrder s)
    (moved : StreamingServer.step codec hint canSend backend s message = .error ended) :
    ∃ p, InPhase ended.1.sent p := by
  rcases step_cases codec hint canSend backend s message with ⟨_, done⟩ | ⟨next, received, done⟩
  · rw [done] at moved
    cases moved
    exact order.inPhase
  · have between := order.receive received
    rcases done with ⟨exit, done⟩ | ⟨err, resp, built, done⟩ | ⟨failed, sent, done⟩ | ⟨after, _, _, done⟩
    · rw [done] at moved
      cases moved
      exact between.inPhase
    · rw [done] at moved
      cases moved
      obtain ⟨p, before⟩ := between.inPhase
      exact ⟨p, before.sendImmediate (kindOf_buildErrResponse built)⟩
    · rw [done] at moved
      cases moved
      have kept := inOrder_updateStateAndSendIfNeeded canSend next between
      rw [sent] at kept
      exact kept.inPhase
    · rw [done] at moved
      cases moved

theorem inOrder_start : InOrder {} where
  slots :=
    { reqHeader := fun _ waiting => absurd waiting (Option.not_mem_none _)
      reqBody := fun _ waiting => absurd waiting (Option.not_mem_none _)
      reqTrailer := rfl
      respHeader := fun _ waiting => absurd waiting (Option.not_mem_none _)
      respBody := fun _ waiting => absurd waiting (Option.not_mem_none _)
      respTrailer := rfl }
  sent := ⟨.start, ⟨List.not_mem_nil, rfl⟩, rfl⟩

theorem finish_sent (s : Stream) : (finish s).sent = s.sent := by
  unfold finish
  dsimp only
  split <;> rfl

end Runs

theorem responses_in_order (codec : Codec) (hint : DestinationHint) (canSend : Nat → Bool)
    (backends : Nat → Backend) (messages : List ProcessingRequest) :
    none ∉ (process codec hint canSend backends messages).1.sent ∧
      Ordered (kinds (process codec hint canSend backends messages).1.sent) := by
  have ends : ∃ p, InPhase (process codec hint canSend backends messages).1.sent p := by
    unfold process
    dsimp only
    rw [finish_sent]
    exact Loop.runFrom_rule (I := fun _ _ => InOrder) (J := fun ended : Stream × Exit => ∃ p, InPhase ended.1.sent p)
      InOrder.step InOrder.step_ends InOrder.inPhase inOrder_start
  obtain ⟨p, nonNil, phase⟩ := ends
  exact ⟨nonNil, ordered_of_phase phase⟩

end InferenceGateway.StreamingServer
