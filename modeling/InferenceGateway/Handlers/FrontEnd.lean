import Mathlib.Data.List.DropRight
import InferenceGateway.Handlers.Encoding
import InferenceGateway.Lib.Trim

/-!
# The events of the FrontEnd

How `callFrontEndForWorker` of `pkg/epp/handlers/streamingserver.go` reads the body of an answer of
type `text/event-stream`: some bytes, and then the end of the stream or an error of the reader.
-/

namespace InferenceGateway
open Lib

namespace Bytes

-- unicode.IsSpace
def spaces : List Bytes :=
  ['\t', '\n', '\x0b', '\x0c', '\r', ' ', '\u0085', '\u00a0', '\u1680',
    '\u2000', '\u2001', '\u2002', '\u2003', '\u2004', '\u2005', '\u2006', '\u2007', '\u2008',
    '\u2009', '\u200a', '\u2028', '\u2029', '\u202f', '\u205f', '\u3000'].map
    String.utf8EncodeChar

def trimSpace (text : Bytes) : Bytes := Trim.trim spaces text

/-- `strings.TrimRight(line, "\r\n")`. -/
def trimLine (line : Bytes) : Bytes := line.rdropWhile fun byte => byte = 13 || byte = 10

/-- `strings.Trim(text, "\"")`. -/
def trimQuotes (text : Bytes) : Bytes := (text.dropWhile (· = 34)).rdropWhile (· = 34)

end Bytes

/-- `encoding/json` with its strings: decoding what was encoded gives the string back, and what is
encoded is one line between quotes. -/
structure EventCodec extends Codec where
  -- into a string, which null leaves empty
  unmarshalString : Bytes → Option String
  marshalString : String → Bytes
  unmarshalString_marshalString : ∀ s, unmarshalString (marshalString s) = some s
  marshalString_quoted : ∀ s, ∃ inner, marshalString s = 34 :: (inner ++ [34]) ∧ 10 ∉ inner
  unmarshal_done : ∃ err, unmarshal (bytes "[DONE]") = .invalid err

namespace FrontEnd

inductive Line
  | comment (commentLine : Bytes)
  | event (name : Bytes)
  | data (val : Bytes)
  | ignored
deriving DecidableEq, Repr

def Line.of (l : Bytes) : Line :=
  if l.head? = some 58 then .comment (Bytes.trimSpace l.tail)
  else if 58 ∈ l then
    let field := l.takeWhile (· ≠ 58)
    let val := Bytes.trimSpace (l.dropWhile (· ≠ 58)).tail
    if field = bytes "event" then .event val
    else if field = bytes "data" then .data val
    else .ignored
  else .ignored

structure Event where
  eventName : Bytes := []
  dataBuf : Bytes := []
  commentBuf : Bytes := []
deriving DecidableEq, Repr

def writeLine (buf line : Bytes) : Bytes := if buf = [] then line else buf ++ 10 :: line

def Event.add (event : Event) : Line → Event
  | .comment commentLine => { event with commentBuf := writeLine event.commentBuf commentLine }
  | .event name => { event with eventName := name }
  | .data val => { event with dataBuf := writeLine event.dataBuf val }
  | .ignored => event

inductive Flushed
  | found (wid : Bytes)
  | done
  | nothing
deriving DecidableEq, Repr

def done : Bytes := bytes "[DONE]"

def nonEmpty : Json → Option Bytes
  | .str wid => if wid = "" then none else some (bytes wid)
  | _ => none

section Codec
variable (codec : EventCodec)

def namedID (candidate : Bytes) : Option Bytes :=
  match (codec.unmarshalString candidate).filter (· ≠ "") with
  | some s => some (bytes s)
  | none =>
    let clean := candidate.trimQuotes
    if clean ≠ [] ∧ clean ≠ done then some clean else none

def payloadID (data : Bytes) : Option Bytes :=
  match codec.unmarshal data with
  | .object msg none =>
    match nonEmpty (field (some msg) "worker_instance_id") with
    | some wid => some wid
    | none =>
      match field (some msg) "annotations" with
      | .obj ann => nonEmpty (field (some ann) "worker_instance_id")
      | _ => none
  | _ => none

def flushEvent (event : Event) : Flushed :=
  let data := event.dataBuf.trimSpace
  let comment := event.commentBuf.trimSpace
  if data = done ∨ comment = done then .done
  else
    let candidate := if data = [] then comment else data
    let named :=
      if event.eventName = bytes "worker_instance_id" ∧ candidate ≠ [] then namedID codec candidate else none
    match named.or (if data = [] then none else payloadID codec data) with
    | some wid => .found wid
    | none => .nothing

def beforeDone : Err := .new "Dynamo worker_instance_id not found before DONE"

def notFound : Err := .new "worker_instance_id not found in SSE stream (EOF)"

def Flushed.answer : Flushed → Option (Except Err Bytes)
  | .found wid => some (.ok wid)
  | .done => some (.error beforeDone)
  | .nothing => none

/-- The lines come without their newlines. -/
def readLoop (readErr : Option Err) : Event → List Bytes → Except Err Bytes
  | event, [] =>
    match readErr with
    | some err => .error (.wrap "sse read error" (some err))
    | none => (flushEvent codec event).answer.getD (.error notFound)
  | event, line :: rest =>
    let l := line.trimLine
    if l = [] then
      match (flushEvent codec event).answer with
      | some answer => answer
      | none => readLoop readErr {} rest
    else readLoop readErr (event.add (.of l)) rest

/-- `ReadString` returns what follows the last newline together with the error that ends the loop,
and nothing reads it. -/
def readEvents (body : Bytes) (readErr : Option Err) : Except Err Bytes :=
  readLoop codec readErr {} body.lines.dropLast

end Codec

end FrontEnd

end InferenceGateway
