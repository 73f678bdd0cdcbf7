import InferenceGateway.Handlers.FrontEnd
import InferenceGateway.Lib.JsonText

/-!
A codec for JSON texts. Numbers are not rounded, a number that is an integer is taken for one
however it is written, and the texts of the errors are not those of `encoding/json`.
-/

namespace InferenceGateway
open Lib JsonText

/-- The numbers that round to a finite float64. -/
def inFloat64Range (q : ℚ) : Bool :=
  let limit : ℚ := ((2 ^ 1024 - 2 ^ 970 : Nat) : ℚ)
  decide (-limit < q) && decide (q < limit)

namespace JsonCodec

def invalidText : Err := .new "invalid JSON text"

def wrongType : Err := .new "json: cannot unmarshal value of another type"

def unmarshal (text : Bytes) : Decoded :=
  match parse (decodeUtf8 text) with
  | none => .invalid invalidText
  | some .null => .null
  | some (.obj members) =>
    .object (Object.merge [] (normalizeMembers inFloat64Range members))
      (if acceptedMembers inFloat64Range members then none else some wrongType)
  | some _ => .invalid wrongType

def marshal : Option Object → Except Err Bytes
  | none => .ok (bytes "null")
  | some members => .ok (encodeUtf8 (render (.obj members)))

def unmarshalInt (old : Int) : Json → Int × Option Err
  | .null => (old, none)
  | .num q =>
    if q.den = 1 ∧ -2 ^ 63 ≤ q.num ∧ q.num < 2 ^ 63 then (q.num, none) else (old, some wrongType)
  | _ => (old, some wrongType)

-- the names of fields are compared without regard to case
def unmarshalUsage (usage : Usage) (members : List (String × Json)) : Usage × Option Err :=
  members.foldl (fun (usage, err) (key, value) =>
    if key.toLower = "prompt_tokens" then
      let (tokens, failed) := unmarshalInt usage.promptTokens value
      ({ usage with promptTokens := tokens }, err.or failed)
    else if key.toLower = "completion_tokens" then
      let (tokens, failed) := unmarshalInt usage.completionTokens value
      ({ usage with completionTokens := tokens }, err.or failed)
    else if key.toLower = "total_tokens" then
      let (tokens, failed) := unmarshalInt usage.totalTokens value
      ({ usage with totalTokens := tokens }, err.or failed)
    else (usage, err)) (usage, none)

def unmarshalResponse (text : Bytes) (response : Response) : Response × Option Err :=
  match parse (decodeUtf8 text) with
  | none => (response, some invalidText)
  | some .null => (response, none)
  | some (.obj members) =>
    members.foldl (fun (response, err) (key, value) =>
      if key.toLower = "usage" then
        match value with
        | .null => (response, err)
        | .obj usg =>
          let (usage, failed) := unmarshalUsage response.usage usg
          (⟨usage⟩, err.or failed)
        | _ => (response, err.or (some wrongType))
      else (response, err)) (response, none)
  | some _ => (response, some wrongType)

def unmarshalString (text : Bytes) : Option String :=
  match parse (decodeUtf8 text) with
  | some (.str s) => some s
  | some .null => some ""
  | _ => none

theorem unmarshal_render {members : Object} (clean : Clean inFloat64Range (.obj members)) :
    unmarshal (encodeUtf8 (render (.obj members))) = .object members none := by
  have read : parse (decodeUtf8 (encodeUtf8 (render (.obj members)))) = some (.obj members) := by
    rw [decodeUtf8_encodeUtf8]
    exact parse_render (decimals_of_clean _ clean)
  have same : Object.merge [] (normalizeMembers inFloat64Range members) = members :=
    Json.obj.inj (normalize_of_clean _ clean)
  have all : acceptedMembers inFloat64Range members = true := accepted_of_clean (fun _ => id) _ clean
  rw [unmarshal, read]
  dsimp only
  rw [same, if_pos all]

theorem clean_of_unmarshal {text : Bytes} {members : Object} {err : Option Err}
    (decoded : unmarshal text = .object members err) : Clean inFloat64Range (.obj members) := by
  unfold unmarshal at decoded
  split at decoded
  · cases decoded
  · cases decoded
  · rename_i read
    cases decoded
    exact clean_normalize _ (decimals_of_parse read)
  · cases decoded

theorem unmarshal_of_parse {text : Bytes} {members : List (String × Json)}
    (read : parse (decodeUtf8 text) = some (.obj members))
    (all : acceptedMembers inFloat64Range members = true) :
    unmarshal text = .object (Object.merge [] (normalizeMembers inFloat64Range members)) none := by
  rw [unmarshal, read]
  dsimp only
  rw [if_pos all]

theorem unmarshalString_renderString (s : String) : unmarshalString (encodeUtf8 (renderString s)) = some s := by
  have read : parse (decodeUtf8 (encodeUtf8 (renderString s))) = some (.str s) := by
    rw [decodeUtf8_encodeUtf8]
    exact parse_render (v := .str s) trivial
  rw [unmarshalString, read]

theorem parse_done : parse (decodeUtf8 (bytes "[DONE]")) = none := by decide +kernel

end JsonCodec

def jsonCodec : Codec where
  unmarshal := JsonCodec.unmarshal
  marshal := JsonCodec.marshal
  unmarshalResponse := JsonCodec.unmarshalResponse
  unmarshal_empty := ⟨_, rfl⟩
  unmarshal_null := by
    have read : parse (decodeUtf8 (bytes "null")) = some .null := by decide +kernel
    rw [JsonCodec.unmarshal, read]
  marshal_nil := rfl
  unmarshal_marshal decoded :=
    ⟨_, rfl, JsonCodec.unmarshal_render (JsonCodec.clean_of_unmarshal decoded)⟩
  unmarshal_set {_ _ _ key _} new decoded _ := by
    have clean : Clean inFloat64Range (.str new) := trivial
    exact ⟨_, JsonCodec.unmarshal_render ((JsonCodec.clean_of_unmarshal decoded).set clean key)⟩

def chatBody : Bytes := bytes "\x7b\"model\":\"m\"\x7d"

theorem chatBody_decoded : jsonCodec.unmarshal chatBody = .object [("model", .str "m")] none := by
  have read : parse (decodeUtf8 chatBody) = some (.obj [("model", .str "m")]) := by decide +kernel
  exact JsonCodec.unmarshal_of_parse read (by decide +kernel)

def jsonEventCodec : EventCodec where
  toCodec := jsonCodec
  unmarshalString := JsonCodec.unmarshalString
  marshalString s := encodeUtf8 (renderString s)
  unmarshalString_marshalString := JsonCodec.unmarshalString_renderString
  marshalString_quoted := encodeUtf8_renderString
  unmarshal_done := by
    refine ⟨JsonCodec.invalidText, ?_⟩
    change JsonCodec.unmarshal (bytes "[DONE]") = _
    rw [JsonCodec.unmarshal, JsonCodec.parse_done]

end InferenceGateway
