import InferenceGateway.Handlers.Context
import InferenceGateway.Lib.Loop

/-!
# `pkg/body-based-routing/handlers`

`canSend n` says whether `Send` succeeds after `n` responses have been sent.
-/

namespace InferenceGateway.BodyBasedRouting
open Lib

def modelHeader : String := "X-Gateway-Model-Name"

inductive Response
  | requestHeaders (response : CommonResponse)
  | requestBody (response : CommonResponse)
  | requestTrailers
  | responseHeaders
  | responseBody
deriving DecidableEq, Repr

inductive Counter
  | success
  | modelNotInBody
  | modelNotParsed
deriving DecidableEq, Repr

inductive HandlerErr
  | json (err : Err)
  -- "the model parameter value %v is not a string"
  | modelNotString (value : Json)

def addStreamedBodyResponse (responses : List Response) (requestBodyBytes : Bytes) : List Response :=
  responses ++ [.requestBody { bodyMutation := some (.streamedResponse requestBodyBytes true) }]

def handleRequestBody (codec : Codec) (streaming : Bool) (data : Option Object) :
    Except HandlerErr (List Response) × List Counter :=
  match codec.marshal data with
  | .error err => (.error (.json err), [])
  | .ok requestBodyBytes =>
    match (data.getD []).get "model" with
    | none =>
      (.ok (if streaming then addStreamedBodyResponse [.requestHeaders {}] requestBodyBytes
        else [.requestBody {}]), [.modelNotInBody])
    | some (.str modelStr) =>
      let response : CommonResponse := { clearRouteCache := true, setHeaders := [⟨modelHeader, bytes modelStr⟩] }
      (.ok (if streaming then addStreamedBodyResponse [.requestHeaders response] requestBodyBytes
        else [.requestBody response]), [.success])
    | some modelVal => (.error (.modelNotString modelVal), [.modelNotParsed])

/-- The responses, what is counted, and the bytes of the streamed body. -/
def processRequestBody (codec : Codec) (streaming : Bool) (body : Bytes) (endOfStream : Bool)
    (streamedBody : Bytes) : (Except HandlerErr (List Response) × List Counter) × Bytes :=
  if streaming then
    if endOfStream then
      -- the bytes of this last chunk are not read, and the error of Unmarshal is only logged
      (handleRequestBody codec streaming (codec.unmarshalMap streamedBody none).1, streamedBody)
    else ((.ok [], []), streamedBody ++ body)
  else
    match codec.unmarshalMap body none with
    | (_, some err) => ((.error (.json err), []), streamedBody)
    | (requestBody, none) => (handleRequestBody codec streaming requestBody, streamedBody)

/-! ## Process -/

structure Stream where
  streamedBody : Bytes := []
  sent : List Response := []
  counted : List Counter := []

inductive Exit
  | eof
  | unknownRequestType
  | failedToHandle (err : HandlerErr)
  | failedToSend

/-- The `switch` on the message. -/
def receive (codec : Codec) (streaming : Bool) (s : Stream) :
    ProcessingRequest → Except Exit (List Response) × Stream
  | .requestHeaders endOfStream => (.ok (if streaming && !endOfStream then [] else [.requestHeaders {}]), s)
  | .requestBody body endOfStream =>
    let ((result, counters), streamedBody) := processRequestBody codec streaming body endOfStream s.streamedBody
    (result.mapError .failedToHandle, { s with streamedBody := streamedBody, counted := s.counted ++ counters })
  | .requestTrailers => (.ok [.requestTrailers], s)
  | .responseHeaders _ => (.ok [.responseHeaders], s)
  | .responseBody _ _ => (.ok [.responseBody], s)
  | .responseTrailers | .unset => (.error .unknownRequestType, s)

def sendAll (canSend : Nat → Bool) : List Response → Stream → Except (Stream × Exit) Stream
  | [], s => .ok s
  | resp :: responses, s =>
    if canSend s.sent.length then sendAll canSend responses { s with sent := s.sent ++ [resp] }
    else .error (s, .failedToSend)

def step (codec : Codec) (streaming : Bool) (canSend : Nat → Bool) (s : Stream) (message : ProcessingRequest) :
    Except (Stream × Exit) Stream :=
  match receive codec streaming s message with
  | (.error exit, s) => .error (s, exit)
  | (.ok responses, s) => sendAll canSend responses s

def process (codec : Codec) (streaming : Bool) (canSend : Nat → Bool) (messages : List ProcessingRequest) :
    Stream × Exit :=
  Loop.run (fun _ => step codec streaming canSend) .eof messages {}

end InferenceGateway.BodyBasedRouting
