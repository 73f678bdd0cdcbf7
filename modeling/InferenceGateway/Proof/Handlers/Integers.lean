import InferenceGateway.Handlers.TextCodec
import InferenceGateway.Proof.Handlers.Exchange

/-!
The integers of a request, which the streaming server decodes into float64 and encodes again.
-/

namespace InferenceGateway
open Lib JsonText

/-- The digits that are written for the float64 nearest to an integer are its own. -/
def KeepsDigits (n : ℤ) : Prop :=
  |nearestFloat64 n| < 2 ^ 1024 ∧ ShortestDecimal.IsShortest nearestFloat64 (nearestFloat64 n) n

theorem keepsDigits_of_lt {n : ℤ} (small : |n| < 2 ^ 53) : KeepsDigits n := by
  have exact {i : ℤ} (inside : |i| ≤ 2 ^ 53) : nearestFloat64 i = i := by
    refine Rounding.nearest_of_representable ((Rounding.representable_intCast_iff (by decide) i).mpr ?_)
    rcases inside.lt_or_eq with less | limit
    · exact ⟨i, 0, less, by ring⟩
    · rcases (abs_eq (by positivity)).mp limit with rfl | rfl
      · exact ⟨1, 53, by decide, by decide⟩
      · exact ⟨-1, 53, by decide, by decide⟩
  refine ⟨?_, ?_⟩
  · rw [exact small.le]
    exact ((decodeFloat64_eq_self_iff n).mp (decodeFloat64_intCast_of_lt small)).1
  · rw [exact small.le]
    exact ShortestDecimal.isShortest_intCast (Rounding.monotone_nearest (by decide)) (fun _ inside => exact inside)
      small

theorem encode_decode_iff (n arrived : ℤ) :
    interpret encodeFloat64 (interpret decodeFloat64 (.num n)) = .num arrived ↔
      |nearestFloat64 n| < 2 ^ 1024 ∧ ShortestDecimal.IsShortest nearestFloat64 (nearestFloat64 n) arrived := by
  have float := nearestFloat64_nearestFloat64 n
  rw [← shortest_eq_iff float, interpret, decodeFloat64]
  split_ifs with range
  · have decoded : decodeFloat64 (nearestFloat64 n) = some (nearestFloat64 n) := by
      rw [decodeFloat64, float, if_pos range]
    simp [interpret, encodeFloat64, decoded, range]
  · simp [interpret, range]

theorem clean_rewritten {members body : Object} (clean : Clean accepts64 (.obj members)) {llmReq : LLMRequest}
    (rewrites : rewritten llmReq (some members) = some body) : Clean accepts64 (.obj body) := by
  have target : Clean accepts64 (.str llmReq.resolvedTargetModel) := trivial
  unfold rewritten at rewrites
  split at rewrites
  · cases rewrites
    exact clean.set target _
  · cases rewrites
    exact clean

/-- A place outside the model holds what was decoded there. -/
theorem follow_rewritten {members : List (String × Json)} {body : Object} (sorted : Object.Sorted body)
    (kept : ∀ key, key ≠ "model" →
      body.get key = (Object.merge [] (interpretMembers decodeFloat64 members)).get key)
    {path : List Place} (outside : path.head? ≠ some (.name "model")) {value : Json}
    (leaf : ∀ object, value ≠ .obj object)
    (found : (Json.obj members).follow path = some value) :
    (Json.obj body).follow path = some (interpret decodeFloat64 value) := by
  cases path with
  | nil =>
      cases found
      exact absurd rfl (leaf members)
  | cons place path =>
      cases place with
      | index i => cases found
      | name key =>
          have other : key ≠ "model" := by
            rintro rfl
            exact outside rfl
          have decoded := @follow_interpret decodeFloat64 (.name key :: path) (.obj members)
          rw [found, interpret] at decoded
          have child : (Json.obj body).child (.name key) =
              (Json.obj (Object.merge [] (interpretMembers decodeFloat64 members))).child (.name key) := by
            have sorted' : Object.Sorted (Object.merge [] (interpretMembers decodeFloat64 members)) :=
              Object.Sorted.merge List.Pairwise.nil _
            rw [Json.child, Json.child, Object.last_of_sorted sorted, Object.last_of_sorted sorted', kept key other]
          rw [Json.follow] at decoded ⊢
          rw [child, decoded, Option.map_some]

namespace StreamingServer

def Forwards (codec : Codec) (hint : DestinationHint) (backends : Nat → Backend) (chunks : List Bytes) (last : Bytes)
    (encoded : Bytes) : Prop :=
  ∃ headers, (process codec hint (fun _ => true) backends (Request.withBody chunks last).messages).1.sent =
    [some headers, some ⟨.requestBody { bodyMutation := some (.streamedResponse encoded true) }, none⟩]

/-- The text that is sent on has the number `n` at the place. -/
def KeepsInteger (codec : Codec) (hint : DestinationHint) (backends : Nat → Backend) (chunks : List Bytes)
    (last : Bytes) (path : List Place) (n : ℤ) : Prop :=
  ∃ encoded value, Forwards codec hint backends chunks last encoded ∧ parse (decodeUtf8 encoded) = some value ∧
    value.follow path = some (.num n)

theorem exists_forwarded {codec : Codec} {hint : DestinationHint} {backends : Nat → Backend} {chunks : List Bytes}
    {last : Bytes} {ctx : RequestContext} {members : Object} {err : Option Err}
    (succeeds : (Request.withBody chunks last).outcome codec hint backends = some (none, ctx))
    (decoded : codec.unmarshal (chunks.flatten ++ last) = .object members err) :
    ∃ (llmReq : LLMRequest) (body : Object) (encoded : Bytes), rewritten llmReq (some members) = some body ∧
      codec.marshal (some body) = .ok encoded ∧
      (∀ key, key ≠ "model" → body.get key = members.get key) ∧
      ∀ encoded', Forwards codec hint backends chunks last encoded' ↔ encoded' = encoded := by
  obtain ⟨headers, responses, s, _, _, answers, ran, requested⟩ := run_request succeeds
  obtain ⟨model, llmReq, encoded, named, resolved, marshalled, rfl⟩ := answers
  have map : (codec.unmarshalMap (chunks.flatten ++ last) none).1 = some members := by
    rw [unmarshalMap_of_object decoded]
  obtain ⟨members', _, decoded', named'⟩ := decoded_of_field named
  rw [decoded] at decoded'
  cases decoded'
  rw [← resolveTargetModel_ok_model resolved] at named'
  obtain ⟨body, encoded', rewrites, marshalled', _, _, kept⟩ := exists_rewritten decoded named'
  rw [map, rewrites, marshalled'] at marshalled
  cases marshalled
  refine ⟨llmReq, body, encoded, rewrites, marshalled', kept, fun encoded' => ?_⟩
  rw [Forwards, process_of_ok ran, finish_sent, requested.sent]
  simp [eq_comm]

section Forwarding
variable {codec : TextCodec} {hint : DestinationHint} {backends : Nat → Backend} {chunks : List Bytes} {last : Bytes}
  {members : List (String × Json)} {ctx : RequestContext}

theorem keepsInteger_iff (read : parse (decodeUtf8 (chunks.flatten ++ last)) = some (.obj members))
    (succeeds : (Request.withBody chunks last).outcome codec.toCodec hint backends = some (none, ctx))
    {path : List Place} (outside : path.head? ≠ some (.name "model")) {n : ℤ}
    (occurs : (Json.obj members).follow path = some (.num n)) (arrived : ℤ) :
    KeepsInteger codec.toCodec hint backends chunks last path arrived ↔
      |nearestFloat64 n| < 2 ^ 1024 ∧ ShortestDecimal.IsShortest nearestFloat64 (nearestFloat64 n) arrived := by
  obtain ⟨err, decoded, _⟩ := codec.unmarshal_text read
  obtain ⟨llmReq, body, encoded, rewrites, marshalled, kept, forwards⟩ := exists_forwarded succeeds decoded
  have clean := clean_rewritten (clean_decoded read) rewrites
  have written := codec.marshal_text clean marshalled
  have found := follow_rewritten clean.1 kept outside (by simp) occurs
  have place : (interpret encodeFloat64 (.obj body)).follow path =
      some (interpret encodeFloat64 (interpret decodeFloat64 (.num n))) := by
    rw [follow_interpret, found, Option.map_some]
  rw [← encode_decode_iff]
  constructor
  · intro keeps
    obtain ⟨encoded', value, forwarded, written', there⟩ := keeps
    obtain rfl := (forwards encoded').mp forwarded
    rw [written] at written'
    cases written'
    rw [place] at there
    exact Option.some.inj there
  · intro same
    rw [same] at place
    exact ⟨encoded, _, (forwards encoded).mpr rfl, written, place⟩

end Forwarding

theorem integer_forwarded_iff (codec : TextCodec) (hint : DestinationHint) (backends : Nat → Backend)
    (chunks : List Bytes) (last : Bytes) (members : List (String × Json)) (ctx : RequestContext)
    (read : parse (decodeUtf8 (chunks.flatten ++ last)) = some (.obj members))
    (succeeds : (Request.withBody chunks last).outcome codec.toCodec hint backends = some (none, ctx))
    (path : List Place) (outside : path.head? ≠ some (.name "model")) (n : ℤ)
    (occurs : (Json.obj members).follow path = some (.num n)) :
    KeepsInteger codec.toCodec hint backends chunks last path n ↔ KeepsDigits n :=
  keepsInteger_iff read succeeds outside occurs n

def seededRequest (seed : String) : Bytes :=
  bytes ("\x7b\"model\":\"m\",\"options\":[\x7b\"seed\":" ++ seed ++ "\x7d]\x7d")

def seededMembers (seed : ℤ) : List (String × Json) :=
  [("model", .str "m"), ("options", .arr [.obj [("seed", .num seed)]])]

def seedPath : List Place := [.name "options", .index 0, .name "seed"]

theorem seededRequest_succeeds {seed : String}
    (handled : ((Request.withBody [] (seededRequest seed)).outcome float64Codec.toCodec testHint
      (fun _ => chatBackend)).map (·.1.isNone) = some true) :
    ∃ ctx, (Request.withBody [] (seededRequest seed)).outcome float64Codec.toCodec testHint (fun _ => chatBackend) =
      some (none, ctx) := by
  obtain ⟨⟨err, ctx⟩, outcome, succeeded⟩ := Option.map_eq_some_iff.mp handled
  obtain rfl : err = none := Option.isNone_iff_eq_none.mp succeeded
  exact ⟨ctx, outcome⟩

theorem small_seed_forwarded :
    parse (decodeUtf8 (seededRequest "42")) = some (.obj (seededMembers 42)) ∧
      (Json.obj (seededMembers 42)).follow seedPath = some (.num (42 : ℤ)) ∧
      KeepsInteger float64Codec.toCodec testHint (fun _ => chatBackend) [] (seededRequest "42") seedPath 42 := by
  have read : parse (decodeUtf8 (seededRequest "42")) = some (.obj (seededMembers 42)) := by decide +kernel
  have occurs : (Json.obj (seededMembers 42)).follow seedPath = some (.num (42 : ℤ)) := by decide +kernel
  obtain ⟨ctx, succeeds⟩ := @seededRequest_succeeds "42" (by decide +kernel)
  refine ⟨read, occurs, ?_⟩
  apply (integer_forwarded_iff float64Codec testHint (fun _ => chatBackend) [] (seededRequest "42") (seededMembers 42)
    ctx read succeeds seedPath (by decide) 42 occurs).mpr
  exact keepsDigits_of_lt (by decide)

/-- The seed is no float64, and the power of two, which is one, has a shorter decimal. -/
theorem large_seed_changed :
    parse (decodeUtf8 (seededRequest "9007199254740993")) = some (.obj (seededMembers 9007199254740993)) ∧
      (Json.obj (seededMembers 9007199254740993)).follow seedPath = some (.num (9007199254740993 : ℤ)) ∧
      KeepsInteger float64Codec.toCodec testHint (fun _ => chatBackend) [] (seededRequest "9007199254740993") seedPath
        9007199254740992 ∧
      ¬ KeepsInteger float64Codec.toCodec testHint (fun _ => chatBackend) [] (seededRequest "9007199254740993")
        seedPath 9007199254740993 ∧
      KeepsInteger float64Codec.toCodec testHint (fun _ => chatBackend) [] (seededRequest "1152921504606846976")
        seedPath 1152921504606847000 := by
  have arrives (seed : String) (n arrived : ℤ)
      (read : parse (decodeUtf8 (seededRequest seed)) = some (.obj (seededMembers n)))
      (handled : ((Request.withBody [] (seededRequest seed)).outcome float64Codec.toCodec testHint
        (fun _ => chatBackend)).map (·.1.isNone) = some true) :
      KeepsInteger float64Codec.toCodec testHint (fun _ => chatBackend) [] (seededRequest seed) seedPath arrived ↔
        |nearestFloat64 n| < 2 ^ 1024 ∧ ShortestDecimal.shortest nearestFloat64 (nearestFloat64 n) = arrived := by
    obtain ⟨ctx, succeeds⟩ := seededRequest_succeeds handled
    rw [shortest_eq_iff (nearestFloat64_nearestFloat64 n)]
    exact keepsInteger_iff read succeeds (by decide) rfl arrived
  have read : parse (decodeUtf8 (seededRequest "9007199254740993")) =
      some (.obj (seededMembers 9007199254740993)) := by decide +kernel
  have arrives' (arrived : ℤ) := arrives "9007199254740993" _ arrived read (by decide +kernel)
  refine ⟨read, rfl, ?_, ?_, ?_⟩
  · rw [arrives']
    decide +kernel
  · rw [arrives']
    decide +kernel
  · rw [arrives "1152921504606846976" 1152921504606846976 _ (by decide +kernel) (by decide +kernel)]
    decide +kernel

end StreamingServer

end InferenceGateway
