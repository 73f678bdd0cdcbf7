import InferenceGateway.Basic
import InferenceGateway.Lib.Json

/-!
What the handlers use of `encoding/json` and `strings`.
-/

namespace InferenceGateway
open Lib

abbrev Bytes := List UInt8

def bytes (s : String) : Bytes := s.toUTF8.data.toList

namespace Bytes

def contains (text part : Bytes) : Bool := text.tails.any fun tail => part.isPrefixOf tail

/-- `strings.Split(text, "\n")`. -/
def lines : Bytes → List Bytes
  | [] => [[]]
  | byte :: rest =>
    if byte = 10 then [] :: lines rest
    else match lines rest with
      | [] => [[byte]]
      | line :: more => (byte :: line) :: more

theorem lines_ne_nil (text : Bytes) : lines text ≠ [] := by
  cases text with
  | nil => exact List.cons_ne_nil _ _
  | cons byte text =>
      rw [lines]
      split
      · exact List.cons_ne_nil _ _
      · split <;> exact List.cons_ne_nil _ _

theorem lines_append_newline (front rest : Bytes) : lines (front ++ 10 :: rest) = lines front ++ lines rest := by
  induction front with
  | nil => rfl
  | cons byte front ih =>
      rw [List.cons_append, lines, lines, ih]
      split_ifs
      · rfl
      · cases split : lines front with
        | nil => exact absurd split (lines_ne_nil front)
        | cons line more => rfl

theorem lines_of_not_mem {last : Bytes} (one : 10 ∉ last) : lines last = [last] := by
  induction last with
  | nil => rfl
  | cons byte last ih =>
      have other := List.ne_of_not_mem_cons one
      rw [lines, if_neg (Ne.symm other), ih (List.not_mem_of_not_mem_cons one)]

end Bytes

/-! ## `encoding/json` -/

/-- What `json.Unmarshal` into a `map[string]interface{}` finds. A text that is not JSON, or a value
of another kind, is an error that leaves the map alone; `null` makes the map nil. An object whose
numbers are not all in the range of float64 is decoded to its end, with nil in the place of those
numbers, and then reported as an error. -/
inductive Decoded
  | invalid (err : Err)
  | null
  | object (members : Object) (err : Option Err)

structure Usage where
  promptTokens : Int := 0
  completionTokens : Int := 0
  totalTokens : Int := 0
deriving DecidableEq, Repr

structure Response where
  usage : Usage := {}
deriving DecidableEq, Repr

/-- `encoding/json`, as far as it is assumed to behave: an empty text is not JSON, encoding a decoded
value and decoding the result gives the value back, and a decoded object with another string in the
place of one of its strings could have been decoded as well. -/
structure Codec where
  unmarshal : Bytes → Decoded
  -- `none` is a nil map
  marshal : Option Object → Except Err Bytes
  -- into a Response, which may be filled in part when there is an error
  unmarshalResponse : Bytes → Response → Response × Option Err
  unmarshal_empty : ∃ err, unmarshal [] = .invalid err
  unmarshal_null : unmarshal (bytes "null") = .null
  marshal_nil : marshal none = .ok (bytes "null")
  unmarshal_marshal : ∀ {text members err}, unmarshal text = .object members err →
    ∃ encoded, marshal (some members) = .ok encoded ∧ unmarshal encoded = .object members none
  unmarshal_set : ∀ {text members err key old} (new : String), unmarshal text = .object members err →
    members.get key = some (.str old) → ∃ text', unmarshal text' = .object (members.set key (.str new)) none

def Codec.unmarshalMap (codec : Codec) (text : Bytes) (map : Option Object) : Option Object × Option Err :=
  match codec.unmarshal text with
  | .invalid err => (map, some err)
  | .null => (none, none)
  | .object members err =>
    match map with
    | none => (some members, err)
    | some old => (some (old.merge members), err)

theorem unmarshalMap_of_object {codec : Codec} {text : Bytes} {members : Object} {err : Option Err}
    (decoded : codec.unmarshal text = .object members err) : codec.unmarshalMap text none = (some members, err) := by
  simp only [Codec.unmarshalMap, decoded]

/-- A read of a map, which is nil if it has no entry. -/
def field (map : Option Object) (key : String) : Json := ((map.getD []).get key).getD .null

def streamingRespPrefix : Bytes := bytes "data: "

def streamingEndMsg : Bytes := bytes "data: [DONE]"

def readLine (codec : Codec) (response : Response) (line : Bytes) : Response :=
  if !streamingRespPrefix.isPrefixOf line then response
  else
    let content := line.drop streamingRespPrefix.length
    if content = bytes "[DONE]" then response
    -- an error is logged, and what was decoded before it stays
    else (codec.unmarshalResponse content response).1

def parseRespForUsage (codec : Codec) (responseText : Bytes) : Response :=
  responseText.lines.foldl (readLine codec) {}

end InferenceGateway
