import InferenceGateway.Handlers.JsonCodec
import InferenceGateway.Lib.JsonDecode
import InferenceGateway.Lib.JsonTree
import InferenceGateway.Numbers

/-!
# JSON texts and what is decoded from them

How `encoding/json` decodes the numbers of a text into `interface{}` and encodes them again, and how
it decodes token counters into a `Response`.
-/

namespace InferenceGateway
open Lib JsonText

/-! ## Numbers -/

theorem decimal_mul_zpow {base : ℕ} (divides : base ∣ 10) (m e : ℤ) : Decimal (m * (base : ℚ) ^ e) := by
  rcases le_or_gt 0 e with whole | fraction
  · obtain ⟨k, rfl⟩ := Int.eq_ofNat_of_zero_le whole
    refine ⟨0, ?_⟩
    have integer : (m * (base : ℚ) ^ (k : ℤ) : ℚ) = ((m * base ^ k : ℤ) : ℚ) := by push_cast; rw [zpow_natCast]
    rw [integer, Rat.den_intCast]
    exact one_dvd _
  · obtain ⟨k, rfl⟩ : ∃ k : ℕ, e = -k := ⟨e.natAbs, by omega⟩
    refine ⟨k, ?_⟩
    have quotient : (m * (base : ℚ) ^ (-(k : ℤ)) : ℚ) = Rat.divInt m ((base ^ k : Nat) : ℤ) := by
      rw [zpow_neg, zpow_natCast, Rat.divInt_eq_div, div_eq_mul_inv]
      push_cast
      rfl
    have denominator : (Rat.divInt m ((base ^ k : Nat) : ℤ)).den ∣ base ^ k := by
      exact_mod_cast Rat.den_dvd m ((base ^ k : Nat) : ℤ)
    rw [quotient]
    exact denominator.trans (pow_dvd_pow_of_dvd divides k)

theorem decimal_nearestFloat64 (q : ℚ) : Decimal (nearestFloat64 q) := by
  obtain ⟨m, e, _, _, value⟩ := @Rounding.representable_nearest 53 (-1074) (by decide) q
  rw [nearestFloat64, value]
  exact decimal_mul_zpow (by decide : 2 ∣ 10) m e

theorem decimal_shortest {q : ℚ} (decimal : Decimal q) : Decimal (ShortestDecimal.shortest nearestFloat64 q) := by
  rcases @ShortestDecimal.shortest_cases nearestFloat64 q with same | ⟨e, m, value⟩
  · rw [same]
    exact decimal
  · rw [value]
    exact decimal_mul_zpow (dvd_refl 10) m e

theorem nearestFloat64_of_decoded {q : ℚ} (decoded : decodeFloat64 q = some q) : nearestFloat64 q = q :=
  (Rounding.nearest_eq_self_iff (by decide)).mpr ((decodeFloat64_eq_self_iff q).mp decoded).2

theorem shortest_eq_iff {q d : ℚ} (float : nearestFloat64 q = q) :
    ShortestDecimal.shortest nearestFloat64 q = d ↔ ShortestDecimal.IsShortest nearestFloat64 q d := by
  obtain ⟨k, divides⟩ : Decimal q := float ▸ decimal_nearestFloat64 q
  exact (keeps_nearestFloat64 float).shortest_eq_iff (dvd_ten_pow_self divides)

/-- A float64 that is written and read again is the same. -/
theorem decodeFloat64_encodeFloat64 {q : ℚ} (decoded : decodeFloat64 q = some q) :
    ∃ d, encodeFloat64 q = some d ∧ decodeFloat64 d = some q := by
  have float := nearestFloat64_of_decoded decoded
  have rounds : nearestFloat64 (ShortestDecimal.shortest nearestFloat64 q) = q :=
    ((shortest_eq_iff float).mp rfl).rounds (keeps_nearestFloat64 float)
  refine ⟨_, if_pos decoded, ?_⟩
  rw [decodeFloat64, rounds, if_pos ((decodeFloat64_eq_self_iff q).mp decoded).1]

/-! ## Token counters -/

inductive Counter
  | promptTokens
  | completionTokens
  | totalTokens
deriving DecidableEq, Repr

def Counter.name : Counter → String
  | .promptTokens => "prompt_tokens"
  | .completionTokens => "completion_tokens"
  | .totalTokens => "total_tokens"

def Usage.get (usage : Usage) : Counter → Int
  | .promptTokens => usage.promptTokens
  | .completionTokens => usage.completionTokens
  | .totalTokens => usage.totalTokens

def Usage.fill (usage : Usage) (counters : Counter → Option Int) : Usage where
  promptTokens := (counters .promptTokens).getD usage.promptTokens
  completionTokens := (counters .completionTokens).getD usage.completionTokens
  totalTokens := (counters .totalTokens).getD usage.totalTokens

-- the least rune that is equal without regard to case; beside ASCII, two runes are equal to a letter
def foldRune (c : Char) : Char := if c = '\u017f' then 'S' else if c = '\u212a' then 'K' else c.toUpper

def foldName (name : String) : List Char := name.toList.map foldRune

/-- The values of the members whose name is `name` without regard to case, in the order of the text. -/
def fieldValues (name : String) (members : List (String × Tree)) : List Tree :=
  (members.filter fun member => foldName member.1 = foldName name).map Prod.snd

def counterValues (counter : Counter) (members : List (String × Tree)) : List Tree :=
  (fieldValues "usage" members).flatMap fun
    | .obj usg => fieldValues counter.name usg
    | _ => []

/-- A number without fraction and exponent. -/
def isPlain (numeral : List Char) : Bool := numeral.all fun c => c.isDigit || c = '-'

def decodeInt : Tree → Option Int
  | .num numeral q => if isPlain numeral ∧ -2 ^ 63 ≤ q.num ∧ q.num < 2 ^ 63 then some q.num else none
  | _ => none

def countersOf (members : List (String × Tree)) (counter : Counter) : Option Int :=
  ((counterValues counter members).filterMap decodeInt).getLast?

/-- The counters that a text has integers for; another text than an object has none. -/
def textCounters (text : Bytes) (counter : Counter) : Option Int :=
  match parseTree (decodeUtf8 text) with
  | some (.obj members) => countersOf members counter
  | _ => none

def isNull : Tree → Bool
  | .null => true
  | _ => false

def isObject : Tree → Bool
  | .obj _ => true
  | _ => false

/-- Whether a text with these members is decoded without an error: null is no error anywhere. -/
def readable (members : List (String × Tree)) : Bool :=
  (fieldValues "usage" members).all (fun value => isNull value || isObject value) &&
    [Counter.promptTokens, .completionTokens, .totalTokens].all fun counter =>
      (counterValues counter members).all fun value => isNull value || (decodeInt value).isSome

/-! ## The codec -/

def accepts64 (q : ℚ) : Bool := decodeFloat64 q = some q

/-- `encoding/json` on texts of the grammar. A number in an `interface{}` is the nearest float64, and is
written with the shortest digits for it. A member is decoded into the field of a struct whose name is
equal without regard to case, a counter must be an integer that is written without fraction and
exponent, and the counters that a text has no such integer for are kept. That texts nested more than
10000 levels deep are refused is left out. -/
structure TextCodec extends EventCodec where
  unmarshal_text : ∀ {text members}, parse (decodeUtf8 text) = some (.obj members) →
    ∃ err, unmarshal text = .object (Object.merge [] (interpretMembers decodeFloat64 members)) err ∧
      (err = none ↔ acceptedMembers (fun q => (decodeFloat64 q).isSome) members = true)
  unmarshal_object : ∀ {text object err}, unmarshal text = .object object err →
    ∃ members, parse (decodeUtf8 text) = some (.obj members)
  unmarshalString_text : ∀ {text s}, s ≠ "" →
    (unmarshalString text = some s ↔ parse (decodeUtf8 text) = some (.str s))
  unmarshalResponse_usage : ∀ text response,
    (unmarshalResponse text response).1.usage = response.usage.fill (textCounters text)
  unmarshalResponse_err : ∀ {text members} response, parseTree (decodeUtf8 text) = some (.obj members) →
    ((unmarshalResponse text response).2 = none ↔ readable members = true)
  marshal_text : ∀ {object encoded}, Clean accepts64 (.obj object) → marshal (some object) = .ok encoded →
    parse (decodeUtf8 encoded) = some (interpret encodeFloat64 (.obj object))

def decodedBody (members : List (String × Tree)) : Object :=
  Object.merge [] (interpretMembers decodeFloat64 (Tree.membersToJson members))

theorem get_decodedBody (key : String) (members : List (String × Tree)) :
    (decodedBody members).get key = (Object.last key members).map fun tree => interpret decodeFloat64 tree.toJson := by
  rw [decodedBody, get_interpretMembers, Tree.last_membersToJson, Option.map_map]
  rfl

/-- What is decoded holds float64 only. -/
theorem clean_decoded {text : Bytes} {members : List (String × Json)}
    (read : parse (decodeUtf8 text) = some (.obj members)) :
    Clean accepts64 (.obj (Object.merge [] (interpretMembers decodeFloat64 members))) := by
  refine clean_interpret (fun q r _ float => ⟨decide_eq_true (decodeFloat64_of_decoded float), ?_⟩) _
    (decimals_of_parse read)
  obtain ⟨_, same⟩ := Option.ite_none_right_eq_some.mp float
  cases same
  exact decimal_nearestFloat64 q

/-! ## An instance -/

namespace Float64Codec

def unmarshal (text : Bytes) : Decoded :=
  match parse (decodeUtf8 text) with
  | none => .invalid JsonCodec.invalidText
  | some .null => .null
  | some (.obj members) =>
    .object (Object.merge [] (interpretMembers decodeFloat64 members))
      (if acceptedMembers (fun q => (decodeFloat64 q).isSome) members then none else some JsonCodec.wrongType)
  | some _ => .invalid JsonCodec.wrongType

def marshal : Option Object → Except Err Bytes
  | none => .ok (bytes "null")
  | some object => .ok (encodeUtf8 (render (interpret encodeFloat64 (.obj object))))

def unmarshalResponse (text : Bytes) (response : Response) : Response × Option Err :=
  let usage := response.usage.fill (textCounters text)
  match parseTree (decodeUtf8 text) with
  | none => (⟨usage⟩, some JsonCodec.invalidText)
  | some .null => (⟨usage⟩, none)
  | some (.obj members) => (⟨usage⟩, if readable members then none else some JsonCodec.wrongType)
  | some _ => (⟨usage⟩, some JsonCodec.wrongType)

theorem unmarshal_of_parse {text : Bytes} {members : List (String × Json)}
    (read : parse (decodeUtf8 text) = some (.obj members)) :
    unmarshal text = .object (Object.merge [] (interpretMembers decodeFloat64 members))
      (if acceptedMembers (fun q => (decodeFloat64 q).isSome) members then none else some JsonCodec.wrongType) := by
  rw [unmarshal, read]

theorem unmarshal_accepted {text : Bytes} {members : List (String × Json)}
    (read : parse (decodeUtf8 text) = some (.obj members)) :
    ∃ err, unmarshal text = .object (Object.merge [] (interpretMembers decodeFloat64 members)) err ∧
      (err = none ↔ acceptedMembers (fun q => (decodeFloat64 q).isSome) members = true) :=
  ⟨_, unmarshal_of_parse read, by simp⟩

theorem exists_of_unmarshal {text : Bytes} {object : Object} {err : Option Err}
    (decoded : unmarshal text = .object object err) :
    ∃ members, parse (decodeUtf8 text) = some (.obj members) ∧
      object = Object.merge [] (interpretMembers decodeFloat64 members) := by
  unfold unmarshal at decoded
  split at decoded
  · cases decoded
  · cases decoded
  · rename_i members read
    cases decoded
    exact ⟨members, read, rfl⟩
  · cases decoded

theorem clean_of_unmarshal {text : Bytes} {object : Object} {err : Option Err}
    (decoded : unmarshal text = .object object err) : Clean accepts64 (.obj object) := by
  obtain ⟨members, read, rfl⟩ := exists_of_unmarshal decoded
  exact clean_decoded read

theorem decimals_encoded {v : Json} (clean : Clean accepts64 v) :
    Clean (fun d => (decodeFloat64 d).isSome) (interpret encodeFloat64 v) := by
  refine clean_interpret (fun q d decimal encoded => ?_) v (decimals_of_clean v clean)
  obtain ⟨float, same⟩ := Option.ite_none_right_eq_some.mp encoded
  obtain ⟨d', encoded', decoded⟩ := decodeFloat64_encodeFloat64 float
  rw [encoded] at encoded'
  cases encoded'
  cases same
  exact ⟨by rw [decoded]; rfl, decimal_shortest decimal⟩

theorem parse_marshalled {object : Object} (clean : Clean accepts64 (.obj object)) :
    parse (decodeUtf8 (encodeUtf8 (render (interpret encodeFloat64 (.obj object))))) =
      some (interpret encodeFloat64 (.obj object)) := by
  rw [decodeUtf8_encodeUtf8]
  exact parse_render (decimals_of_clean _ (decimals_encoded clean))

theorem parse_of_marshal {object : Object} {encoded : Bytes} (clean : Clean accepts64 (.obj object))
    (marshalled : marshal (some object) = .ok encoded) :
    parse (decodeUtf8 encoded) = some (interpret encodeFloat64 (.obj object)) := by
  cases marshalled
  exact parse_marshalled clean

theorem unmarshal_marshalled {object : Object} (clean : Clean accepts64 (.obj object)) :
    unmarshal (encodeUtf8 (render (interpret encodeFloat64 (.obj object)))) = .object object none := by
  have read := parse_marshalled clean
  have encoded := @interpret_sorted encodeFloat64 object clean.1
  have back := interpret_interpret (fun q float => decodeFloat64_encodeFloat64 (of_decide_eq_true float)) _ clean
  have all := accepted_of_clean (fun _ => id) _ (decimals_encoded clean)
  rw [encoded] at read back all
  rw [accepted] at all
  rw [encoded, unmarshal_of_parse read, Json.obj.inj back, if_pos all]

theorem unmarshalResponse_usage_eq (text : Bytes) (response : Response) :
    (unmarshalResponse text response).1.usage = response.usage.fill (textCounters text) := by
  unfold unmarshalResponse
  split <;> rfl

theorem unmarshalResponse_err_iff {text : Bytes} {members : List (String × Tree)} (response : Response)
    (read : parseTree (decodeUtf8 text) = some (.obj members)) :
    (unmarshalResponse text response).2 = none ↔ readable members = true := by
  rw [unmarshalResponse, read]
  simp

theorem unmarshalString_eq_iff {text : Bytes} {s : String} (nonempty : s ≠ "") :
    JsonCodec.unmarshalString text = some s ↔ parse (decodeUtf8 text) = some (.str s) := by
  unfold JsonCodec.unmarshalString
  split
  · rename_i read
    rw [read]
    simp
  · rename_i read
    rw [read]
    simp [Ne.symm nonempty]
  · rename_i others _
    simp only [reduceCtorEq, false_iff]
    exact others s

theorem unmarshal_null : unmarshal (bytes "null") = .null := by
  have read : parse (decodeUtf8 (bytes "null")) = some .null := by decide +kernel
  rw [unmarshal, read]

theorem unmarshal_set {text : Bytes} {object : Object} {err : Option Err} (key new : String)
    (decoded : unmarshal text = .object object err) :
    ∃ encoded, unmarshal encoded = .object (object.set key (.str new)) none := by
  have clean : Clean accepts64 (.str new) := trivial
  exact ⟨_, unmarshal_marshalled ((clean_of_unmarshal decoded).set clean key)⟩

theorem unmarshal_done : ∃ err, unmarshal (bytes "[DONE]") = .invalid err := by
  refine ⟨JsonCodec.invalidText, ?_⟩
  rw [unmarshal, JsonCodec.parse_done]

end Float64Codec

/-- Errors and the spelling of numbers are not those of `encoding/json`. -/
def float64Codec : TextCodec where
  unmarshal := Float64Codec.unmarshal
  marshal := Float64Codec.marshal
  unmarshalResponse := Float64Codec.unmarshalResponse
  unmarshal_empty := ⟨_, rfl⟩
  unmarshal_null := Float64Codec.unmarshal_null
  marshal_nil := rfl
  unmarshal_marshal decoded :=
    ⟨_, rfl, Float64Codec.unmarshal_marshalled (Float64Codec.clean_of_unmarshal decoded)⟩
  unmarshal_set {_ _ _ key _} new decoded _ := Float64Codec.unmarshal_set key new decoded
  unmarshalString := JsonCodec.unmarshalString
  marshalString s := encodeUtf8 (renderString s)
  unmarshalString_marshalString := JsonCodec.unmarshalString_renderString
  marshalString_quoted := encodeUtf8_renderString
  unmarshal_done := Float64Codec.unmarshal_done
  unmarshal_text read := Float64Codec.unmarshal_accepted read
  unmarshal_object decoded := (Float64Codec.exists_of_unmarshal decoded).imp fun _ read => read.1
  unmarshalString_text nonempty := Float64Codec.unmarshalString_eq_iff nonempty
  unmarshalResponse_usage := Float64Codec.unmarshalResponse_usage_eq
  unmarshalResponse_err response read := Float64Codec.unmarshalResponse_err_iff response read
  marshal_text clean marshalled := Float64Codec.parse_of_marshal clean marshalled

end InferenceGateway
