import InferenceGateway.Handlers.TextCodec
import InferenceGateway.Lib.Latest
import InferenceGateway.Proof.Handlers.RequestBody
import InferenceGateway.Handlers.Server
import InferenceGateway.Handlers.StreamingServer

/-!
The token usage of a response that is not streamed. One server decodes it into a struct, the other
looks it up in a map.
-/

namespace InferenceGateway
open Lib JsonText

/-! ## What a body states -/

def statedCounter (members : List (String × Tree)) (counter : Counter) : Int :=
  match Object.last "usage" members with
  | some (.obj usg) =>
    match Object.last counter.name usg with
    | some (.num _ q) => q.num
    | _ => 0
  | _ => 0

def statedUsage (members : List (String × Tree)) : Usage where
  promptTokens := statedCounter members .promptTokens
  completionTokens := statedCounter members .completionTokens
  totalTokens := statedCounter members .totalTokens

def IsCount (value : Tree) : Prop :=
  ∃ (numeral : List Char) (n : Nat), isPlain numeral = true ∧ n < 2 ^ 53 ∧ value = .num numeral n

/-- The usage is null or an object whose counters are integers, as far as they are there. -/
def UsageOfCounts (members : List (String × Tree)) : Prop :=
  ∀ usage, Object.last "usage" members = some usage → usage = .null ∨
    ∃ usg, usage = .obj usg ∧ ∀ (counter : Counter) value, Object.last counter.name usg = some value → IsCount value

def CountersPresent (members : List (String × Tree)) : Prop :=
  ∀ usg, Object.last "usage" members = some (.obj usg) → ∀ counter : Counter, Object.last counter.name usg ≠ none

/-- The members whose names are those of the usage and of its counters, if the case of letters does not
count, are null, objects and integers of 64 bits, and the last integer for a counter is the one that is
stated under the names themselves. -/
structure NamesAgree (members : List (String × Tree)) : Prop where
  usages : ∀ usage ∈ fieldValues "usage" members, usage = .null ∨ ∃ usg, usage = .obj usg
  integers : ∀ (counter : Counter), ∀ value ∈ counterValues counter members,
    value = .null ∨ ∃ n, decodeInt value = some n
  last : ∀ (counter : Counter) before value after n, counterValues counter members = before ++ value :: after →
    decodeInt value = some n → (∀ later ∈ after, later = .null) → statedCounter members counter = n

theorem decodeFloat64_count {n : Nat} (small : n < 2 ^ 53) : decodeFloat64 n = some (n : ℚ) := by
  have size : |(n : ℤ)| < 2 ^ 53 := by
    rw [Nat.abs_cast]
    exact_mod_cast small
  exact_mod_cast decodeFloat64_intCast_of_lt size

/-! ## The map -/

namespace StreamingServer

theorem truncate_natCast {n : Nat} (small : n < 2 ^ 53) : truncate n = n := by
  have nonneg : (0 : ℚ) ≤ n := Nat.cast_nonneg n
  have whole : (n : ℚ).floor = n := by exact_mod_cast Rat.floor_intCast (n : ℤ)
  simp only [truncate, if_pos nonneg, whole]
  exact if_pos (by omega)

theorem usageOf_of_nums {usg : Object} {prompt completion total : ℚ}
    (first : usg.get "prompt_tokens" = some (.num prompt))
    (second : usg.get "completion_tokens" = some (.num completion))
    (third : usg.get "total_tokens" = some (.num total)) :
    usageOf (.obj usg) = some ⟨truncate prompt, truncate completion, truncate total⟩ := by
  simp only [usageOf, first, second, third]
  rfl

theorem usageOf_of_absent {usg : Object} {counter : Counter} (absent : usg.get counter.name = none) :
    usageOf (.obj usg) = none := by
  cases counter with
  | promptTokens => simp [usageOf, show usg.get "prompt_tokens" = none from absent]
  | completionTokens => simp [usageOf, show usg.get "completion_tokens" = none from absent]
  | totalTokens => simp [usageOf, show usg.get "total_tokens" = none from absent]

end StreamingServer

section Bodies
variable {members : List (String × Tree)}

theorem statedCounter_of_count {usg : List (String × Tree)} (found : Object.last "usage" members = some (.obj usg))
    {counter : Counter} {numeral : List Char} {n : Nat} (count : Object.last counter.name usg = some (.num numeral n)) :
    statedCounter members counter = n := by
  simp only [statedCounter, found, count]
  rfl

theorem UsageOfCounts.cases (counts : UsageOfCounts members) :
    (field (some (decodedBody members)) "usage" = .null ∧ statedUsage members = {} ∧
      ∀ usg, Object.last "usage" members ≠ some (.obj usg)) ∨
    ∃ usg, Object.last "usage" members = some (.obj usg) ∧
      field (some (decodedBody members)) "usage" = .obj (decodedBody usg) ∧
      ∀ counter : Counter, ∀ value, Object.last counter.name usg = some value → IsCount value := by
  cases found : Object.last "usage" members with
  | none =>
      refine .inl ⟨?_, ?_, fun usg => by simp⟩
      · simp [field, get_decodedBody, found]
      · simp [statedUsage, statedCounter, found]
  | some usage =>
      rcases counts usage found with null | ⟨usg, object, numbers⟩
      · subst null
        refine .inl ⟨?_, ?_, fun usg => by simp⟩
        · simp [field, get_decodedBody, found, interpret, Tree.toJson]
        · simp [statedUsage, statedCounter, found]
      · subst object
        refine .inr ⟨usg, rfl, ?_, numbers⟩
        simp [field, get_decodedBody, found, interpret, Tree.toJson]
        rfl

theorem get_count {usg : List (String × Tree)}
    (numbers : ∀ counter : Counter, ∀ value, Object.last counter.name usg = some value → IsCount value)
    {counter : Counter} (present : Object.last counter.name usg ≠ none) :
    ∃ (numeral : List Char) (n : Nat), n < 2 ^ 53 ∧ Object.last counter.name usg = some (.num numeral n) ∧
      (decodedBody usg).get counter.name = some (.num n) := by
  obtain ⟨value, last⟩ := Option.ne_none_iff_exists'.mp present
  obtain ⟨numeral, n, _, small, num⟩ := numbers counter value last
  subst num
  refine ⟨numeral, n, small, last, ?_⟩
  rw [get_decodedBody, last, Option.map_some, Tree.toJson, interpret, decodeFloat64_count small]
  rfl

/-- The map gives the stated usage if there is one with all its counters, and otherwise what the context
has already, or a panic. -/
theorem readUsage_iff (counts : UsageOfCounts members) (ctx : RequestContext) :
    StreamingServer.readUsage (some (decodedBody members)) ctx = some (statedUsage members) ↔
      CountersPresent members ∧ ((∀ usg, Object.last "usage" members ≠ some (.obj usg)) → ctx.usage = {}) := by
  rcases counts.cases with ⟨null, none, absent⟩ | ⟨usg, found, object, numbers⟩
  · have read : StreamingServer.readUsage (some (decodedBody members)) ctx = some ctx.usage := by
      rw [StreamingServer.readUsage, if_pos null]
    rw [read, none, Option.some_inj]
    constructor
    · intro same
      exact ⟨fun usg found => absurd found (absent usg), fun _ => same⟩
    · intro condition
      exact condition.2 absent
  · have read : StreamingServer.readUsage (some (decodedBody members)) ctx =
        StreamingServer.usageOf (.obj (decodedBody usg)) := by
      rw [StreamingServer.readUsage, object, if_neg (by simp)]
    rw [read]
    constructor
    · intro same
      refine ⟨fun usg' found' counter absent => ?_, fun none => absurd found (none usg)⟩
      rw [found] at found'
      cases found'
      have missing : (decodedBody usg).get counter.name = none := by
        rw [get_decodedBody, absent, Option.map_none]
      rw [StreamingServer.usageOf_of_absent missing] at same
      cases same
    · intro condition
      have present := condition.1 usg found
      obtain ⟨_, prompt, small₁, first, getPrompt⟩ := get_count numbers (present .promptTokens)
      obtain ⟨_, completion, small₂, second, getCompletion⟩ := get_count numbers (present .completionTokens)
      obtain ⟨_, total, small₃, third, getTotal⟩ := get_count numbers (present .totalTokens)
      rw [StreamingServer.usageOf_of_nums getPrompt getCompletion getTotal, StreamingServer.truncate_natCast small₁,
        StreamingServer.truncate_natCast small₂, StreamingServer.truncate_natCast small₃]
      simp only [statedUsage, statedCounter_of_count found first, statedCounter_of_count found second,
        statedCounter_of_count found third]

end Bodies

/-! ## The struct -/

section Names
variable {members : List (String × Tree)}

theorem mem_fieldValues {name : String} {value : Tree} (listed : (name, value) ∈ members) :
    value ∈ fieldValues name members :=
  List.mem_map.mpr ⟨(name, value), List.mem_filter.mpr ⟨listed, by simp⟩, rfl⟩

theorem mem_counterValues {usg : List (String × Tree)} {counter : Counter} {value : Tree}
    (found : Object.last "usage" members = some (.obj usg)) (last : Object.last counter.name usg = some value) :
    value ∈ counterValues counter members :=
  List.mem_flatMap.mpr ⟨_, mem_fieldValues (Object.last_eq_some found), mem_fieldValues (Object.last_eq_some last)⟩

theorem decodeInt_count {numeral : List Char} {n : Nat} (plain : isPlain numeral = true) (small : n < 2 ^ 53) :
    decodeInt (.num numeral n) = some (n : Int) := by
  have range : -2 ^ 63 ≤ (n : ℚ).num ∧ (n : ℚ).num < 2 ^ 63 := by
    rw [Rat.num_natCast]
    omega
  rw [decodeInt, if_pos ⟨plain, range⟩, Rat.num_natCast]

/-- Without an integer for a counter the body states none. -/
theorem UsageOfCounts.statedCounter_eq_zero (counts : UsageOfCounts members) {counter : Counter}
    (none : countersOf members counter = none) : statedCounter members counter = 0 := by
  unfold statedCounter
  split
  · rename_i usg found
    split
    · rename_i numeral q last
      obtain null | ⟨usg', object, numbers⟩ := counts _ found
      · cases null
      · cases object
        obtain ⟨numeral', n, plain, small, num⟩ := numbers counter _ last
        cases num
        rw [countersOf, List.getLast?_eq_none_iff, List.filterMap_eq_nil_iff] at none
        have silent := none _ (mem_counterValues found last)
        rw [decodeInt_count plain small] at silent
        cases silent
    · rfl
  · rfl

theorem readable_iff : readable members = true ↔
    (∀ usage ∈ fieldValues "usage" members, usage = .null ∨ ∃ usg, usage = .obj usg) ∧
      ∀ counter : Counter, ∀ value ∈ counterValues counter members, value = .null ∨ ∃ n, decodeInt value = some n := by
  have null_iff (tree : Tree) : isNull tree = true ↔ tree = .null := by cases tree <;> simp [isNull]
  have object_iff (tree : Tree) : isObject tree = true ↔ ∃ usg, tree = .obj usg := by cases tree <;> simp [isObject]
  have each (p : Counter → Prop) : (∀ counter, p counter) ↔
      ∀ counter ∈ [Counter.promptTokens, .completionTokens, .totalTokens], p counter := by
    constructor
    · exact fun all counter _ => all counter
    · intro listed counter
      apply listed
      cases counter <;> simp
  rw [each]
  simp only [readable, Bool.and_eq_true, List.all_eq_true, Bool.or_eq_true, null_iff, object_iff,
    Option.isSome_iff_exists]

theorem UsageOfCounts.namesAgree_iff (counts : UsageOfCounts members) :
    (readable members = true ∧ ∀ counter, (countersOf members counter).getD 0 = statedCounter members counter) ↔
      NamesAgree members := by
  rw [readable_iff]
  constructor
  · rintro ⟨⟨usages, integers⟩, stated⟩
    refine ⟨usages, integers, fun counter before value after n split decoded nulls => ?_⟩
    have last : countersOf members counter = some n := by
      refine Latest.getLast?_filterMap_eq_some_iff.mpr ⟨before, value, after, split, decoded, fun later listed => ?_⟩
      rw [nulls later listed]
      rfl
    rw [← stated counter, last, Option.getD_some]
  · rintro ⟨usages, integers, stated⟩
    refine ⟨⟨usages, integers⟩, fun counter => ?_⟩
    cases last : countersOf members counter with
    | none => exact (counts.statedCounter_eq_zero last).symm
    | some n =>
        obtain ⟨before, value, after, split, decoded, silent⟩ := Latest.getLast?_filterMap_eq_some_iff.mp last
        refine (stated counter before value after n split decoded fun later listed => ?_).symm
        rcases integers counter later (by rw [split]; simp [listed]) with null | ⟨m, integer⟩
        · exact null
        · rw [silent later listed] at integer
          cases integer

end Names

/-! ## Both servers -/

section Servers
variable {codec : TextCodec} {body : Bytes} {members : List (String × Tree)} {ctx : RequestContext}

def StreamingStores (codec : Codec) (body : Bytes) (ctx : RequestContext) (usage : Usage) : Prop :=
  ∃ after, StreamingServer.handleResponseBody codec (codec.unmarshalMap body none).1 ctx = some (none, after) ∧
    after.usage = usage

def BufferedStores (codec : Codec) (body : Bytes) (ctx : RequestContext) (usage : Usage) : Prop :=
  ∃ after, Server.handleNonStreaming codec body ctx = (none, after) ∧ after.usage = usage

theorem streamingStores_iff (read : parseTree (decodeUtf8 body) = some (.obj members)) (usage : Usage) :
    StreamingStores codec.toCodec body ctx usage ↔
      StreamingServer.readUsage (some (decodedBody members)) ctx = some usage := by
  have parsed : parse (decodeUtf8 body) = some (.obj (Tree.membersToJson members)) := by
    rw [parse_eq_parseTree, read, Option.map_some, Tree.toJson]
  obtain ⟨err, decoded, _⟩ := codec.unmarshal_text parsed
  obtain ⟨encoded, marshalled, _⟩ := codec.unmarshal_marshal decoded
  have map : (codec.unmarshalMap body none).1 = some (decodedBody members) := by
    rw [unmarshalMap_of_object decoded]
    rfl
  have handled : StreamingServer.handleResponseBody codec.toCodec (some (decodedBody members)) ctx =
      (StreamingServer.readUsage (some (decodedBody members)) ctx).map fun usage => (none, { ctx with
        usage := usage
        responseSize := encoded.length
        responseComplete := true
        respBodyResp := some ⟨.responseBody { bodyMutation := some (.streamedResponse encoded true) }, none⟩ }) := by
    unfold StreamingServer.handleResponseBody
    rw [show codec.marshal (some (decodedBody members)) = .ok encoded from marshalled]
    dsimp only
    cases StreamingServer.readUsage (some (decodedBody members)) ctx <;> rfl
  rw [StreamingStores, map, handled]
  cases StreamingServer.readUsage (some (decodedBody members)) ctx <;> simp

theorem bufferedStores_iff (read : parseTree (decodeUtf8 body) = some (.obj members)) (usage : Usage) :
    BufferedStores codec.toCodec body ctx usage ↔
      readable members = true ∧ ({} : Usage).fill (countersOf members) = usage := by
  have filled := codec.unmarshalResponse_usage body {}
  have failed := codec.unmarshalResponse_err {} read
  have counters : textCounters body = countersOf members := by
    funext counter
    rw [textCounters, read]
  rw [counters] at filled
  unfold BufferedStores Server.handleNonStreaming
  cases result : codec.unmarshalResponse body {} with
  | mk response err =>
      rw [result] at filled failed
      cases err with
      | none => simp [← filled, ← failed]
      | some err => simp [← failed]

theorem fill_eq_statedUsage_iff :
    ({} : Usage).fill (countersOf members) = statedUsage members ↔
      ∀ counter, (countersOf members counter).getD 0 = statedCounter members counter := by
  constructor
  · intro same counter
    cases counter with
    | promptTokens => exact congrArg Usage.promptTokens same
    | completionTokens => exact congrArg Usage.completionTokens same
    | totalTokens => exact congrArg Usage.totalTokens same
  · intro each
    simp only [Usage.fill, statedUsage, each]

end Servers

/-- Both servers store the usage that the body states, and neither panics. -/
theorem usage_read_alike_iff (codec : TextCodec) (body : Bytes) (members : List (String × Tree)) (ctx : RequestContext)
    (read : parseTree (decodeUtf8 body) = some (.obj members)) (counts : UsageOfCounts members) :
    (StreamingStores codec.toCodec body ctx (statedUsage members) ∧
        BufferedStores codec.toCodec body ctx (statedUsage members)) ↔
      CountersPresent members ∧ ((∀ usg, Object.last "usage" members ≠ some (.obj usg)) → ctx.usage = {}) ∧
        NamesAgree members := by
  rw [streamingStores_iff read, bufferedStores_iff read, readUsage_iff counts, fill_eq_statedUsage_iff,
    counts.namesAgree_iff, and_assoc]

def usageBody (counters : String) : Bytes := bytes ("\x7b\"usage\":\x7b" ++ counters ++ "\x7d\x7d")

def count (n : Nat) : Tree := .num (toString n).toList n

def completionBody : Bytes := usageBody "\"prompt_tokens\":11,\"total_tokens\":111,\"completion_tokens\":100"

def completionMembers : List (String × Tree) :=
  [("usage", .obj [("prompt_tokens", count 11), ("total_tokens", count 111), ("completion_tokens", count 100)])]

theorem isCount_count {n : Nat} (plain : isPlain (toString n).toList = true) (small : n < 2 ^ 53) :
    IsCount (count n) := ⟨_, n, plain, small, rfl⟩

theorem completionMembers_counts : UsageOfCounts completionMembers := by
  intro usage found
  obtain rfl := Option.some.inj found
  refine .inr ⟨_, rfl, fun counter value last => ?_⟩
  cases counter with
  | promptTokens =>
      obtain rfl : count 11 = value := Option.some.inj last
      exact isCount_count (by decide +kernel) (by decide)
  | completionTokens =>
      obtain rfl : count 100 = value := Option.some.inj last
      exact isCount_count (by decide +kernel) (by decide)
  | totalTokens =>
      obtain rfl : count 111 = value := Option.some.inj last
      exact isCount_count (by decide +kernel) (by decide)

theorem completion_usage_read_alike :
    parseTree (decodeUtf8 completionBody) = some (.obj completionMembers) ∧ UsageOfCounts completionMembers ∧
      StreamingStores float64Codec.toCodec completionBody {} ⟨11, 100, 111⟩ ∧
      BufferedStores float64Codec.toCodec completionBody {} ⟨11, 100, 111⟩ := by
  have read : parseTree (decodeUtf8 completionBody) = some (.obj completionMembers) := rfl
  have stated : statedUsage completionMembers = ⟨11, 100, 111⟩ := by decide +kernel
  have alike := usage_read_alike_iff float64Codec completionBody completionMembers {} read completionMembers_counts
  rw [stated] at alike
  refine ⟨read, completionMembers_counts, alike.mpr ⟨?_, fun _ => rfl, ?_⟩⟩
  · intro usg found counter
    obtain rfl := Tree.obj.inj (Option.some.inj found)
    cases counter <;> exact Option.some_ne_none _
  · apply completionMembers_counts.namesAgree_iff.mp
    refine ⟨by decide +kernel, fun counter => ?_⟩
    cases counter <;> decide +kernel

def embeddingBody : Bytes := usageBody "\"prompt_tokens\":5,\"total_tokens\":5"

def embeddingMembers : List (String × Tree) := [("usage", .obj [("prompt_tokens", count 5), ("total_tokens", count 5)])]

theorem embedding_usage_panics :
    parseTree (decodeUtf8 embeddingBody) = some (.obj embeddingMembers) ∧ UsageOfCounts embeddingMembers ∧
      statedUsage embeddingMembers = ⟨5, 0, 5⟩ ∧
      (StreamingServer.handleResponseBody float64Codec.toCodec (float64Codec.unmarshalMap embeddingBody none).1
        {}).isNone = true ∧
      BufferedStores float64Codec.toCodec embeddingBody {} ⟨5, 0, 5⟩ ∧
      ¬ (StreamingStores float64Codec.toCodec embeddingBody {} (statedUsage embeddingMembers) ∧
        BufferedStores float64Codec.toCodec embeddingBody {} (statedUsage embeddingMembers)) := by
  have read : parseTree (decodeUtf8 embeddingBody) = some (.obj embeddingMembers) := rfl
  have panics : (StreamingServer.handleResponseBody float64Codec.toCodec
      (float64Codec.unmarshalMap embeddingBody none).1 {}).isNone = true := by decide +kernel
  refine ⟨read, ?_, by decide +kernel, panics, ?_, ?_⟩
  · intro usage found
    obtain rfl := Option.some.inj found
    refine .inr ⟨_, rfl, fun counter value last => ?_⟩
    have five : IsCount (count 5) := isCount_count (by decide +kernel) (by decide)
    cases counter with
    | completionTokens => cases last
    | promptTokens | totalTokens =>
        obtain rfl : count 5 = value := Option.some.inj last
        exact five
  · exact (bufferedStores_iff read _).mpr ⟨by decide +kernel, by decide +kernel⟩
  · rintro ⟨⟨after, handled, _⟩, _⟩
    rw [handled] at panics
    cases panics

end InferenceGateway
