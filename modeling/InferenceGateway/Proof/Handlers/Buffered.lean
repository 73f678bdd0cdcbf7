import InferenceGateway.Handlers.JsonCodec
import InferenceGateway.Proof.Handlers.RequestBody

/-!
What the buffered server answers to each message.
-/

namespace InferenceGateway.Server
open Lib

inductive Answers : ProcessingRequest → Option ProcessingResponse → Prop
  | requestHeaders {endOfStream response metadata} :
      Answers (.requestHeaders endOfStream) (some ⟨.requestHeaders response, metadata⟩)
  | requestBody {body endOfStream response metadata} :
      Answers (.requestBody body endOfStream) (some ⟨.requestBody response, metadata⟩)
  | responseHeaders {headers response metadata} :
      Answers (.responseHeaders headers) (some ⟨.responseHeaders response, metadata⟩)
  | responseBody {body endOfStream response metadata} :
      Answers (.responseBody body endOfStream) (some ⟨.responseBody response, metadata⟩)
  | immediate {message status metadata} : Answers message (some ⟨.immediateResponse status, metadata⟩)

/-- Every message up to the one on which `Process` returns has one response. -/
def AnswersEach (messages : List ProcessingRequest) (sent : List (Option ProcessingResponse)) (exit : Exit) : Prop :=
  ∃ handled rest, messages = handled ++ rest ∧ List.Forall₂ Answers handled sent ∧
    ((rest = [] ∧ exit = .returned none) ∨ (rest ≠ [] ∧ ∃ err, exit = .returned (some err)))

/-- What a message must meet to be answered: its model can be drawn from, no status is empty, and a
body that is not streamed decodes, unless nothing can be sent anyway. -/
def Answerable (codec : Codec) (canSend : Nat → Bool) (backend : Backend) (s : Stream) : ProcessingRequest → Prop
  | .requestBody body _ => ¬ Undrawable codec backend body
  | .responseHeaders headers => ∀ header ∈ headers, header.key = "status" → header.rawValue ≠ []
  | .responseBody body _ => canSend s.sent.length = true →
      s.ctx.modelServerStreaming = true ∨ (codec.unmarshalResponse body {}).2 = none
  | .requestHeaders _ | .requestTrailers | .responseTrailers | .unset => True

theorem canonicalCode_of_buildErrResponse {err failed : Err} (built : buildErrResponse err = .error failed) :
    failed.canonicalCode = .unknown := by
  unfold buildErrResponse at built
  split at built <;> cases built
  all_goals rfl

section Steps
variable {codec : Codec} {hint : DestinationHint} {canSend : Nat → Bool} {backend : Backend} {s : Stream}
  {message : ProcessingRequest}

theorem readResponseHeader_eq_none_iff (ctx : RequestContext) {header : HeaderValue} :
    readResponseHeader ctx header = none ↔ header.key = "status" ∧ header.rawValue = [] := by
  rw [readResponseHeader, Option.map_eq_none_iff, readStatus]
  split
  · simp [‹header.key = "status"›]
  · simp [‹¬ header.key = "status"›]

theorem foldlM_readResponseHeader_eq_none_iff {headers : List HeaderValue} (ctx : RequestContext) :
    headers.foldlM readResponseHeader ctx = none ↔
      ∃ header ∈ headers, header.key = "status" ∧ header.rawValue = [] := by
  induction headers generalizing ctx with
  | nil => simp
  | cons header headers ih =>
      rw [List.foldlM_cons]
      simp only [List.mem_cons, exists_eq_or_imp]
      cases read : readResponseHeader ctx header with
      | none =>
          have empty := (readResponseHeader_eq_none_iff ctx).mp read
          exact iff_of_true rfl (.inl empty)
      | some next =>
          have filled : ¬ (header.key = "status" ∧ header.rawValue = []) := by
            rw [← readResponseHeader_eq_none_iff ctx, read]
            nofun
          rw [or_iff_right filled]
          exact ih next

theorem handleResponseHeaders_eq_none_iff {headers : List HeaderValue} {ctx : RequestContext} :
    handleResponseHeaders headers ctx = none ↔ ∃ header ∈ headers, header.key = "status" ∧ header.rawValue = [] := by
  rw [← foldlM_readResponseHeader_eq_none_iff ctx]
  unfold handleResponseHeaders
  cases headers.foldlM readResponseHeader ctx <;> simp

/-- A step that does what is expected of it: it answers the message, or `Process` returns. -/
def Good (s : Stream) (message : ProcessingRequest) : Except (Stream × Exit) Stream → Prop
  | .error (s', exit) => s'.sent = s.sent ∧ ∃ err, exit = .returned (some err)
  | .ok s' => s'.err = none ∧ ∃ resp, s'.sent = s.sent ++ [resp] ∧ Answers message resp

theorem good_send {resp : Option ProcessingResponse} {s' : Stream}
    (received : receive codec hint backend s message = some (.ok (resp, s'))) (succeeded : s'.err = none)
    (same : s'.sent = s.sent) :
    Good s message (step codec hint canSend backend s message) ↔
      (canSend s.sent.length = true → Answers message resp) := by
  simp only [step, received, succeeded, same]
  cases canSend s.sent.length with
  | false => simp [Good, same]
  | true => simp [Good]

theorem good_fail {resp : Option ProcessingResponse} {s' : Stream} {err : Err}
    (received : receive codec hint backend s message = some (.ok (resp, s'))) (failed : s'.err = some err)
    (same : s'.sent = s.sent) : Good s message (step codec hint canSend backend s message) := by
  simp only [step, received, failed]
  cases built : buildErrResponse err with
  | error unknown => exact ⟨same, unknown, rfl⟩
  | ok resp =>
      have immediate : Answers message (some resp) := by
        unfold buildErrResponse at built
        split at built <;> cases built <;> exact .immediate
      cases sends : canSend s'.sent.length with
      | false => exact ⟨same, sendFailed, rfl⟩
      | true => exact ⟨rfl, some resp, by rw [same], immediate⟩

theorem not_good_panic (crashed : receive codec hint backend s message = none) :
    ¬ Good s message (step codec hint canSend backend s message) := by
  simp [step, crashed, Good]

theorem answers_responseBody_iff {body : Bytes} {endOfStream : Bool} {ctx ctx' : RequestContext}
    {resp : Option ProcessingResponse} {err : Option Err}
    (handled : handleResponseBody codec body endOfStream ctx = (resp, err, ctx')) :
    Answers (.responseBody body endOfStream) resp ↔
      ctx.modelServerStreaming = true ∨ (codec.unmarshalResponse body {}).2 = none := by
  cases streaming : ctx.modelServerStreaming with
  | true =>
      simp only [handleResponseBody, streaming, if_true] at handled
      cases handled
      exact iff_of_true .responseBody (.inl rfl)
  | false =>
      cases decoded : codec.unmarshalResponse body {} with
      | mk res failed =>
          cases failed with
          | some failed =>
              simp only [handleResponseBody, streaming, Bool.false_eq_true, if_false, handleNonStreaming,
                decoded] at handled
              cases handled
              exact iff_of_false nofun (by simp)
          | none =>
              simp only [handleResponseBody, streaming, Bool.false_eq_true, if_false, handleNonStreaming,
                decoded] at handled
              cases handled
              exact iff_of_true .responseBody (.inr rfl)

theorem good_iff (codec : Codec) (hint : DestinationHint) (canSend : Nat → Bool) (backend : Backend)
    (message : ProcessingRequest) (fresh : s.err = none) :
    Good s message (step codec hint canSend backend s message) ↔ Answerable codec canSend backend s message := by
  cases message with
  | requestHeaders endOfStream =>
      rw [good_send rfl fresh rfl]
      exact iff_of_true (fun _ => .requestHeaders) trivial
  | requestBody body endOfStream =>
      rcases handleRequestBody_cases codec hint backend body s.ctx with ⟨stuck, crashed⟩ | ⟨drawn, handled⟩
      · apply iff_of_false
        · apply not_good_panic
          simp [receive, crashed]
        · exact fun drawn => drawn stuck
      · apply iff_of_true
        · rcases handled with ⟨err, failed⟩ | ⟨response, metadata, ctx, routed⟩
          · have received : receive codec hint backend s (.requestBody body endOfStream) =
                some (.ok (none, { s with err := some err })) := by
              simp only [receive, failed, Option.bind_eq_bind, Option.bind_some]
              rfl
            exact good_fail received rfl rfl
          · have received : receive codec hint backend s (.requestBody body endOfStream) =
                some (.ok (some ⟨.requestBody response, metadata⟩, { s with ctx := ctx, err := none }.record
                  [.requestCounter ctx.model ctx.resolvedTargetModel,
                    .requestSizes ctx.model ctx.resolvedTargetModel ctx.requestSize])) := by
              simp only [receive, routed, Option.bind_eq_bind, Option.bind_some]
              rfl
            exact (good_send received rfl rfl).mpr fun _ => .requestBody
        · exact drawn
  | responseHeaders headers =>
      cases handled : handleResponseHeaders headers s.ctx with
      | none =>
          obtain ⟨header, member, status, empty⟩ := handleResponseHeaders_eq_none_iff.mp handled
          apply iff_of_false
          · apply not_good_panic
            simp [receive, handled]
          · exact fun filled => filled header member status empty
      | some result =>
          obtain ⟨resp, ctx⟩ := result
          have received : receive codec hint backend s (.responseHeaders headers) =
              some (.ok (some resp, { s with ctx := ctx, err := none })) := by
            simp only [receive, handled, Option.bind_eq_bind, Option.bind_some]
            rfl
          rw [good_send received rfl rfl]
          apply iff_of_true
          · intro _
            simp only [handleResponseHeaders, Option.bind_eq_bind, Option.bind_eq_some_iff] at handled
            obtain ⟨_, _, same⟩ := handled
            cases same
            exact .responseHeaders
          · intro header member status empty
            rw [handleResponseHeaders_eq_none_iff.mpr ⟨header, member, status, empty⟩] at handled
            cases handled
  | responseBody body endOfStream =>
      cases handled : handleResponseBody codec body endOfStream s.ctx with
      | mk resp result =>
          obtain ⟨responseErr, ctx⟩ := result
          obtain ⟨s', received, err, sent⟩ : ∃ s', receive codec hint backend s (.responseBody body endOfStream) =
              some (.ok (resp, s')) ∧ s'.err = s.err ∧ s'.sent = s.sent := by
            simp only [receive, handled]
            split
            · exact ⟨_, rfl, rfl, rfl⟩
            · exact ⟨_, rfl, rfl, rfl⟩
          rw [good_send received (err.trans fresh) sent]
          exact imp_congr_right fun _ => answers_responseBody_iff handled
  | requestTrailers | responseTrailers | unset => exact iff_of_true ⟨rfl, _, rfl⟩ trivial

theorem receive_sent {resp : Option ProcessingResponse} {s' : Stream}
    (received : receive codec hint backend s message = some (.ok (resp, s'))) : s'.sent = s.sent := by
  cases message with
  | requestHeaders endOfStream =>
      cases received
      rfl
  | requestBody body endOfStream =>
      simp only [receive, Option.bind_eq_bind, Option.bind_eq_some_iff] at received
      obtain ⟨⟨result, ctx⟩, _, received⟩ := received
      dsimp only at received
      split at received <;> cases received <;> rfl
  | responseHeaders headers =>
      simp only [receive, Option.bind_eq_bind, Option.bind_eq_some_iff] at received
      obtain ⟨_, _, received⟩ := received
      cases received
      rfl
  | responseBody body endOfStream =>
      simp only [receive] at received
      split at received <;> cases received <;> rfl
  | requestTrailers | responseTrailers | unset => cases received

/-- How a message is handled: it ends the stream at once, or what handling it makes of the stream is
kept but for the error, which is answered. -/
inductive Moves (codec : Codec) (hint : DestinationHint) (backend : Backend) (s : Stream)
    (message : ProcessingRequest) : Except (Stream × Exit) Stream → Prop
  | refuses {exit : Exit} (ends : exit ≠ .returned none) : Moves codec hint backend s message (.error (s, exit))
  | goesOn {resp resp' : Option ProcessingResponse} {next s' : Stream}
      (received : receive codec hint backend s message = some (.ok (resp, next))) (err : s'.err = none)
      (sent : s'.sent = next.sent ++ [resp']) (recorded : s'.recorded = next.recorded) (ctx : s'.ctx = next.ctx) :
      Moves codec hint backend s message (.ok s')
  | ends {resp : Option ProcessingResponse} {next s' : Stream} {exit : Exit}
      (received : receive codec hint backend s message = some (.ok (resp, next))) (ends : exit ≠ .returned none)
      (err : ∀ err ∈ s'.err, err.canonicalCode = .unknown) (sent : s'.sent = next.sent)
      (recorded : s'.recorded = next.recorded) (ctx : s'.ctx = next.ctx) :
      Moves codec hint backend s message (.error (s', exit))

theorem moves (codec : Codec) (hint : DestinationHint) (canSend : Nat → Bool) (backend : Backend) (s : Stream)
    (message : ProcessingRequest) :
    Moves codec hint backend s message (step codec hint canSend backend s message) := by
  have settled {next : Stream} (fine : next.err = none) (err : Err) (member : err ∈ next.err) :
      err.canonicalCode = .unknown := by
    rw [fine] at member
    cases member
  unfold step
  dsimp only
  split
  · exact .refuses nofun
  · exact .refuses nofun
  · rename_i resp next received
    split
    · rename_i fine
      split
      · exact .goesOn received fine rfl rfl rfl
      · exact .ends received nofun (settled fine) rfl rfl rfl
    · split
      · rename_i failed built
        refine .ends received nofun ?_ rfl rfl rfl
        rintro _ ⟨⟩
        exact canonicalCode_of_buildErrResponse built
      · split
        · exact .goesOn received rfl rfl rfl rfl
        · exact .ends received nofun (settled rfl) rfl rfl rfl

theorem step_sent (codec : Codec) (hint : DestinationHint) (canSend : Nat → Bool) (backend : Backend) (s : Stream)
    (message : ProcessingRequest) :
    (∃ s' resp, step codec hint canSend backend s message = .ok s' ∧ s'.err = none ∧
      s'.sent = s.sent ++ [resp]) ∨
    ∃ s' exit, step codec hint canSend backend s message = .error (s', exit) ∧ exit ≠ .returned none ∧
      s'.sent = s.sent := by
  have moves := moves codec hint canSend backend s message
  generalize step codec hint canSend backend s message = result at moves ⊢
  cases moves with
  | refuses ends => exact .inr ⟨s, _, rfl, ends, rfl⟩
  | goesOn received err sent => exact .inl ⟨_, _, rfl, err, by rw [sent, receive_sent received]⟩
  | ends received ends err sent => exact .inr ⟨_, _, rfl, ends, by rw [sent, receive_sent received]⟩

end Steps

/-! ## Every run -/

section Runs
variable {codec : Codec} {hint : DestinationHint} {canSend : Nat → Bool} {backends : Nat → Backend}

def runFrom (codec : Codec) (hint : DestinationHint) (canSend : Nat → Bool) (backends : Nat → Backend) :
    Nat → List ProcessingRequest → Stream → Stream × Exit :=
  Loop.runFrom (fun n => step codec hint canSend (backends n)) (.returned none)

def AllAnswerable (codec : Codec) (hint : DestinationHint) (canSend : Nat → Bool) (backends : Nat → Backend) :
    Nat → List ProcessingRequest → Stream → Prop :=
  Loop.Always (fun n => Answerable codec canSend (backends n)) fun n => step codec hint canSend (backends n)

theorem sent_prefix_runFrom (codec : Codec) (hint : DestinationHint) (canSend : Nat → Bool)
    (backends : Nat → Backend) (n : Nat) (messages : List ProcessingRequest) (s : Stream) :
    s.sent <+: (runFrom codec hint canSend backends n messages s).1.sent := by
  refine Loop.runFrom_rule (I := fun _ _ s' => s.sent <+: s'.sent)
    (J := fun ended : Stream × Exit => s.sent <+: ended.1.sent) ?_ ?_ (fun kept => kept) List.prefix_rfl
  · intro n s₁ message rest s₂ kept moved
    rcases step_sent codec hint canSend (backends n) s₁ message with ⟨s', resp, done, _, sent⟩ | ⟨_, _, done, _⟩
    · rw [done] at moved
      cases moved
      rw [sent]
      exact kept.trans (List.prefix_append _ _)
    · rw [done] at moved
      cases moved
  · intro n s₁ message rest ended kept moved
    rcases step_sent codec hint canSend (backends n) s₁ message with ⟨_, _, done, _⟩ | ⟨s', exit, done, _, sent⟩
    · rw [done] at moved
      cases moved
    · rw [done] at moved
      cases moved
      rw [sent]
      exact kept

theorem answersEach_cons_iff {message : ProcessingRequest} {messages : List ProcessingRequest}
    {resp : Option ProcessingResponse} {answers : List (Option ProcessingResponse)} {exit : Exit} :
    AnswersEach (message :: messages) (resp :: answers) exit ↔
      Answers message resp ∧ AnswersEach messages answers exit := by
  constructor
  · rintro ⟨handled, rest, split, answered, ends⟩
    cases answered with
    | cons first others =>
        obtain ⟨rfl, tail⟩ := List.cons.inj split
        exact ⟨first, _, rest, tail, others, ends⟩
  · rintro ⟨first, handled, rest, rfl, answered, ends⟩
    exact ⟨message :: handled, rest, rfl, .cons first answered, ends⟩

theorem runFrom_answers_iff (messages : List ProcessingRequest) (n : Nat) (s : Stream) (fresh : s.err = none) :
    (∃ answers, (runFrom codec hint canSend backends n messages s).1.sent = s.sent ++ answers ∧
      AnswersEach messages answers (runFrom codec hint canSend backends n messages s).2) ↔
    AllAnswerable codec hint canSend backends n messages s := by
  induction messages generalizing n s with
  | nil => exact iff_of_true ⟨[], (List.append_nil _).symm, [], [], rfl, .nil, .inl ⟨rfl, rfl⟩⟩ trivial
  | cons message messages ih =>
      have good := good_iff codec hint canSend (backends n) message fresh
      rcases step_sent codec hint canSend (backends n) s message with
        ⟨s', resp, done, fresh', sent⟩ | ⟨s', exit, done, notEnd, sent⟩
      · have next : runFrom codec hint canSend backends n (message :: messages) s =
            runFrom codec hint canSend backends (n + 1) messages s' := Loop.runFrom_cons_of_ok done
        have guard : AllAnswerable codec hint canSend backends n (message :: messages) s ↔
            Answers message resp ∧ AllAnswerable codec hint canSend backends (n + 1) messages s' := by
          have answered : Good s message (.ok s') ↔ Answers message resp := by
            simp [Good, fresh', sent]
          rw [done, answered] at good
          rw [good]
          exact Loop.always_cons_of_ok done
        rw [next, guard, ← ih (n + 1) s' fresh']
        constructor
        · rintro ⟨answers, total, each⟩
          obtain ⟨more, grown⟩ := sent_prefix_runFrom codec hint canSend backends (n + 1) messages s'
          have split : answers = resp :: more := by
            rw [← grown, sent, List.append_assoc] at total
            exact (List.append_cancel_left total).symm
          rw [split, answersEach_cons_iff] at each
          exact ⟨each.1, more, grown.symm, each.2⟩
        · rintro ⟨first, answers, total, each⟩
          refine ⟨resp :: answers, ?_, answersEach_cons_iff.mpr ⟨first, each⟩⟩
          rw [total, sent, List.append_assoc]
          rfl
      · have ended : runFrom codec hint canSend backends n (message :: messages) s = (s', exit) :=
          Loop.runFrom_cons_of_error done
        have guard : AllAnswerable codec hint canSend backends n (message :: messages) s ↔
            ∃ err, exit = .returned (some err) := by
          have answered : Good s message (.error (s', exit)) ↔ ∃ err, exit = .returned (some err) := by
            simp [Good, sent]
          rw [done, answered] at good
          rw [good]
          exact Loop.always_cons_of_error done
        rw [ended, guard]
        constructor
        · rintro ⟨_, _, _, _, _, _, ⟨_, normal⟩ | ⟨_, returned⟩⟩
          · exact absurd normal notEnd
          · exact returned
        · intro returned
          exact ⟨[], by rw [sent, List.append_nil], [], _, rfl, .nil, .inr ⟨List.cons_ne_nil _ _, returned⟩⟩

end Runs

theorem each_message_answered_iff (codec : Codec) (hint : DestinationHint) (canSend : Nat → Bool)
    (backends : Nat → Backend) (messages : List ProcessingRequest) :
    AnswersEach messages (process codec hint canSend backends messages).1.sent
        (process codec hint canSend backends messages).2 ↔
      AllAnswerable codec hint canSend backends 0 messages {} := by
  rw [← runFrom_answers_iff messages 0 {} rfl]
  constructor
  · intro each
    exact ⟨_, rfl, each⟩
  · rintro ⟨answers, total, each⟩
    rw [← List.nil_append answers, ← total] at each
    exact each

theorem AnswersEach.none_notMem {messages : List ProcessingRequest} {sent : List (Option ProcessingResponse)}
    {exit : Exit} (each : AnswersEach messages sent exit) : none ∉ sent := by
  obtain ⟨handled, _, -, answered, -⟩ := each
  induction answered with
  | nil => exact List.not_mem_nil
  | cons first _ ih =>
      rintro (_ | ⟨_, later⟩)
      · cases first
      · exact ih later

def errorPage : List ProcessingRequest :=
  [.responseHeaders [⟨"content-type", bytes "text/plain"⟩], .responseBody (bytes "Internal Server Error") true]

-- HandleResponseBody fails, its error stays in a variable of the branch, and resp is nil.
theorem errorPage_answered_with_nil :
    none ∈ (process jsonCodec testHint (fun _ => true) (fun _ => chatBackend) errorPage).1.sent ∧
    ¬ AnswersEach errorPage (process jsonCodec testHint (fun _ => true) (fun _ => chatBackend) errorPage).1.sent
      (process jsonCodec testHint (fun _ => true) (fun _ => chatBackend) errorPage).2 := by
  have unanswered : none ∈ (process jsonCodec testHint (fun _ => true) (fun _ => chatBackend) errorPage).1.sent := by
    decide +kernel
  exact ⟨unanswered, fun each => each.none_notMem unanswered⟩

end InferenceGateway.Server
