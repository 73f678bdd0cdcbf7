import InferenceGateway.Handlers.JsonCodec
import InferenceGateway.Handlers.StreamingServer

/-!
# What the FrontEnd's events say

The read loop of `callFrontEndForWorker` takes the lines of a stream for a list of events, and
answers with the first of them that holds an id or `[DONE]`.
-/

namespace InferenceGateway
open Lib

/-! ## Texts -/

namespace Bytes

theorem separate_spaces : Trim.Separate spaces := ⟨by decide, by decide⟩

theorem separate_spaces_reverse : Trim.Separate (spaces.map List.reverse) := ⟨by decide, by decide⟩

theorem solitary_newline : Trim.Solitary spaces 10 := ⟨by decide, by decide⟩

theorem trimSpace_trimSpace (text : Bytes) : trimSpace (trimSpace text) = trimSpace text :=
  (Trim.trimmed_trim separate_spaces.nonempty text).trim_eq

theorem trimSpace_append_newline (text : Bytes) : trimSpace (text ++ [10]) = trimSpace text :=
  Trim.trim_append_solitary separate_spaces separate_spaces_reverse solitary_newline text

theorem trimSpace_quoted (inner : Bytes) : trimSpace (34 :: (inner ++ [34])) = 34 :: (inner ++ [34]) := by
  apply Trim.Trimmed.trim_eq
  constructor
  · exact Trim.bare_of_head separate_spaces.nonempty (by decide) _
  · rw [List.reverse_cons, List.reverse_append]
    exact Trim.bare_of_head separate_spaces_reverse.nonempty (by decide) _

def ended (text : Bytes) : List Bytes := text.lines.dropLast

theorem ended_append_newline (front rest : Bytes) : ended (front ++ 10 :: rest) = lines front ++ ended rest := by
  rw [ended, lines_append_newline, List.dropLast_append_of_ne_nil (lines_ne_nil rest)]
  rfl

theorem ended_of_not_mem {last : Bytes} (one : 10 ∉ last) : ended last = [] := by
  rw [ended, lines_of_not_mem one]
  rfl

theorem mem_dropWhile_iff {byte : UInt8} {drops : UInt8 → Bool} (kept : drops byte = false) (text : Bytes) :
    byte ∈ text.dropWhile drops ↔ byte ∈ text := by
  induction text with
  | nil => rfl
  | cons first text ih =>
      by_cases dropped : drops first = true
      · have other : byte ≠ first := by
          rintro rfl
          rw [kept] at dropped
          cases dropped
        rw [List.dropWhile_cons_of_pos dropped, ih, List.mem_cons, or_iff_right other]
      · rw [List.dropWhile_cons_of_neg dropped]

theorem mem_trimQuotes_iff {byte : UInt8} (other : byte ≠ 34) (text : Bytes) :
    byte ∈ trimQuotes text ↔ byte ∈ text := by
  have kept : decide (byte = 34) = false := decide_eq_false other
  rw [trimQuotes, List.rdropWhile, List.mem_reverse, mem_dropWhile_iff kept, List.mem_reverse, mem_dropWhile_iff kept]

end Bytes

namespace FrontEnd

/-! ## The values on the lines -/

def Line.value : Line → Bytes
  | .comment commentLine => commentLine
  | .event name => name
  | .data val => val
  | .ignored => []

theorem trimSpace_value (l : Bytes) : (Line.of l).value.trimSpace = (Line.of l).value := by
  unfold Line.of
  dsimp only
  split_ifs
  · exact Bytes.trimSpace_trimSpace _
  · exact Bytes.trimSpace_trimSpace _
  · exact Bytes.trimSpace_trimSpace _
  · rfl
  · rfl

def Line.name? : Line → Option Bytes
  | .event name => some name
  | _ => none

def Line.data? : Line → Option Bytes
  | .data val => some val
  | _ => none

def Line.comment? : Line → Option Bytes
  | .comment commentLine => some commentLine
  | _ => none

theorem trimSpace_writeLine_nil (buf : Bytes) : (writeLine buf []).trimSpace = buf.trimSpace := by
  unfold writeLine
  split_ifs with empty
  · rw [empty]
  · exact Bytes.trimSpace_append_newline buf

def gather {α : Type} (read : α → Line) (event : Event) (lines : List α) : Event :=
  lines.foldl (fun event line => event.add (read line)) event

/-- A part of an event that every line adds its value to. -/
theorem field_gather {α : Type} (read : α → Line) (part : Event → Bytes) (pick : Line → Option Bytes)
    (write : Bytes → Bytes → Bytes)
    (adds : ∀ event line, part (event.add line) = (pick line).elim (part event) (write (part event)))
    (event : Event) (lines : List α) :
    part (gather read event lines) = (lines.filterMap fun line => pick (read line)).foldl write (part event) := by
  induction lines generalizing event with
  | nil => rfl
  | cons line lines ih =>
      rw [gather, List.foldl_cons, List.filterMap_cons]
      refine (ih _).trans ?_
      rw [adds]
      cases pick (read line) <;> rfl

theorem dataBuf_gather {α : Type} (read : α → Line) (lines : List α) :
    (gather read {} lines).dataBuf = (lines.filterMap fun line => (read line).data?).foldl writeLine [] := by
  refine field_gather read Event.dataBuf Line.data? writeLine (fun event line => ?_) {} lines
  cases line <;> rfl

theorem commentBuf_gather {α : Type} (read : α → Line) (lines : List α) :
    (gather read {} lines).commentBuf = (lines.filterMap fun line => (read line).comment?).foldl writeLine [] := by
  refine field_gather read Event.commentBuf Line.comment? writeLine (fun event line => ?_) {} lines
  cases line <;> rfl

/-! ## The events of a stream -/

/-- The events that are flushed, the last one at the end of the stream. -/
def events (readErr : Option Err) : Event → List Bytes → List Event
  | event, [] => if readErr.isSome then [] else [event]
  | event, line :: rest =>
    if line.trimLine = [] then event :: events readErr {} rest
    else events readErr (event.add (.of line.trimLine)) rest

def eventsOf (body : Bytes) (readErr : Option Err) : List Event := events readErr {} body.ended

/-- The lines between the blank lines, the last ones up to the end of the stream. -/
def runs (lines : List Bytes) : List (List Bytes) := lines.splitOnP fun line => line.trimLine = []

def eventOf (run : List Bytes) : Event := gather (fun line => .of line.trimLine) {} run

theorem events_eq_runs (event : Event) (lines : List Bytes) :
    ∃ run more, runs lines = run :: more ∧
      events none event lines = gather (fun line => .of line.trimLine) event run :: more.map eventOf := by
  induction lines generalizing event with
  | nil => exact ⟨[], [], rfl, rfl⟩
  | cons line lines ih =>
      rw [runs, List.splitOnP_cons_eq_if_modifyHead, events]
      by_cases blank : line.trimLine = []
      · obtain ⟨run, more, split, same⟩ := ih {}
        rw [if_pos (decide_eq_true blank), if_pos blank, same]
        exact ⟨[], run :: more, congrArg _ split, rfl⟩
      · obtain ⟨run, more, split, same⟩ := ih (event.add (.of line.trimLine))
        rw [if_neg (by simpa using blank), if_neg blank, same, show List.splitOnP _ lines = run :: more from split]
        exact ⟨line :: run, more, rfl, rfl⟩

theorem events_eq_dropLast (err : Err) (event : Event) (lines : List Bytes) :
    events (some err) event lines = (events none event lines).dropLast := by
  induction lines generalizing event with
  | nil => rfl
  | cons line lines ih =>
      rw [events, events]
      split_ifs
      · rw [ih, List.dropLast_cons_of_ne_nil]
        obtain ⟨run, more, _, same⟩ := events_eq_runs {} lines
        rw [same]
        exact List.cons_ne_nil _ _
      · exact ih _

/-- The lines of the events that are flushed: with an error of the reader, the last lines are not. -/
def flushedRuns (body : Bytes) (readErr : Option Err) : List (List Bytes) :=
  if readErr.isSome then (runs body.ended).dropLast else runs body.ended

theorem eventsOf_eq (body : Bytes) (readErr : Option Err) :
    eventsOf body readErr = (flushedRuns body readErr).map eventOf := by
  obtain ⟨run, more, split, same⟩ := events_eq_runs {} body.ended
  have whole : events none {} body.ended = (runs body.ended).map eventOf := by
    rw [same, split]
    rfl
  cases readErr with
  | none => exact whole
  | some err =>
      rw [eventsOf, events_eq_dropLast, whole]
      exact List.map_dropLast.symm

def endOf : Option Err → Except Err Bytes
  | some err => .error (.wrap "sse read error" (some err))
  | none => .error notFound

section Codec
variable (codec : EventCodec)

def firstAnswer (events : List Event) : Option (Except Err Bytes) :=
  events.findSome? fun event => (flushEvent codec event).answer

theorem readLoop_eq (readErr : Option Err) (event : Event) (lines : List Bytes) :
    readLoop codec readErr event lines = (firstAnswer codec (events readErr event lines)).getD (endOf readErr) := by
  induction lines generalizing event with
  | nil =>
      cases readErr with
      | some err => rfl
      | none => simp [readLoop, events, firstAnswer, endOf]
  | cons line rest ih =>
      rw [readLoop, events]
      by_cases blank : line.trimLine = []
      · rw [if_pos blank, if_pos blank, firstAnswer, List.findSome?_cons]
        cases (flushEvent codec event).answer with
        | none => exact ih {}
        | some answer => rfl
      · rw [if_neg blank, if_neg blank]
        exact ih _

theorem readEvents_eq (body : Bytes) (readErr : Option Err) :
    readEvents codec body readErr = (firstAnswer codec (eventsOf body readErr)).getD (endOf readErr) :=
  readLoop_eq codec readErr {} body.ended

theorem firstAnswer_cons (event : Event) (more : List Event) :
    firstAnswer codec (event :: more) = (flushEvent codec event).answer.or (firstAnswer codec more) := by
  rw [firstAnswer, List.findSome?_cons]
  cases (flushEvent codec event).answer <;> rfl

theorem firstAnswer_append (before more : List Event) :
    firstAnswer codec (before ++ more) = (firstAnswer codec before).or (firstAnswer codec more) :=
  List.findSome?_append

end Codec

/-! ## What an event says -/

def Event.data (event : Event) : Bytes := event.dataBuf.trimSpace

def Event.comment (event : Event) : Bytes := event.commentBuf.trimSpace

def Event.payload (event : Event) : Bytes := if event.data = [] then event.comment else event.data

def Event.Done (event : Event) : Prop := event.data = done ∨ event.comment = done

/-- How the payload of an event named `worker_instance_id` spells an id. -/
inductive NamedSpelling (codec : EventCodec) (payload : Bytes) : Bytes → Prop
  | json {s : String} (decoded : codec.unmarshalString payload = some s) (nonempty : s ≠ "") :
      NamedSpelling codec payload (bytes s)
  | raw (undecoded : ∀ s, codec.unmarshalString payload = some s → s = "") (nonempty : payload.trimQuotes ≠ [])
      (other : payload.trimQuotes ≠ done) : NamedSpelling codec payload payload.trimQuotes

inductive ObjectSpelling (codec : EventCodec) (data : Bytes) : Bytes → Prop
  | root {msg : Object} {wid : String} (decoded : codec.unmarshal data = .object msg none)
      (given : msg.get "worker_instance_id" = some (.str wid)) (nonempty : wid ≠ "") :
      ObjectSpelling codec data (bytes wid)
  | annotations {msg ann : Object} {wid : String} (decoded : codec.unmarshal data = .object msg none)
      (unset : ∀ other, msg.get "worker_instance_id" = some (.str other) → other = "")
      (nested : msg.get "annotations" = some (.obj ann)) (given : ann.get "worker_instance_id" = some (.str wid))
      (nonempty : wid ≠ "") : ObjectSpelling codec data (bytes wid)

inductive Spells (codec : EventCodec) (event : Event) : Bytes → Prop
  | named {wid : Bytes} (name : event.eventName = bytes "worker_instance_id") (carries : event.payload ≠ [])
      (spelled : NamedSpelling codec event.payload wid) : Spells codec event wid
  | object {wid : Bytes} (unnamed : event.eventName = bytes "worker_instance_id" → event.payload ≠ [] →
        ∀ wid, ¬NamedSpelling codec event.payload wid)
      (carries : event.data ≠ []) (spelled : ObjectSpelling codec event.data wid) : Spells codec event wid

section Codec
variable {codec : EventCodec} {event : Event} {wid : Bytes}

theorem namedID_eq_some_iff {payload : Bytes} :
    namedID codec payload = some wid ↔ NamedSpelling codec payload wid := by
  unfold namedID
  cases read : (codec.unmarshalString payload).filter (· ≠ "") with
  | some s =>
      obtain ⟨decoded, visible⟩ := Option.filter_eq_some_iff.mp read
      have nonempty : s ≠ "" := of_decide_eq_true visible
      constructor
      · intro same
        cases same
        exact .json decoded nonempty
      · intro spelled
        cases spelled with
        | json other _ =>
            rw [decoded] at other
            cases other
            rfl
        | raw undecoded _ _ => exact absurd (undecoded s decoded) nonempty
  | none =>
      have undecoded : ∀ s, codec.unmarshalString payload = some s → s = "" := by
        intro s decoded
        by_contra nonempty
        rw [decoded, Option.filter_some, if_pos (decide_eq_true nonempty)] at read
        cases read
      dsimp only
      constructor
      · intro same
        obtain ⟨⟨nonempty, other⟩, clean⟩ := Option.ite_none_right_eq_some.mp same
        cases clean
        exact .raw undecoded nonempty other
      · intro spelled
        cases spelled with
        | json decoded nonempty => exact absurd (undecoded _ decoded) nonempty
        | raw _ nonempty other => exact if_pos ⟨nonempty, other⟩

theorem nonEmpty_field_eq_some_iff {msg : Object} {key : String} :
    nonEmpty (field (some msg) key) = some wid ↔ ∃ s, msg.get key = some (.str s) ∧ s ≠ "" ∧ wid = bytes s := by
  rw [field, Option.getD_some]
  cases msg.get key with
  | none => simp [nonEmpty]
  | some value => cases value <;> simp [nonEmpty, eq_comm]

theorem nonEmpty_field_eq_none_iff {msg : Object} {key : String} :
    nonEmpty (field (some msg) key) = none ↔ ∀ s, msg.get key = some (.str s) → s = "" := by
  rw [field, Option.getD_some]
  cases msg.get key with
  | none => simp [nonEmpty]
  | some value => cases value <;> simp [nonEmpty]

theorem field_eq_obj_iff {msg ann : Object} {key : String} :
    field (some msg) key = .obj ann ↔ msg.get key = some (.obj ann) := by
  rw [field, Option.getD_some]
  cases msg.get key <;> simp

theorem payloadID_eq_some_iff {data : Bytes} : payloadID codec data = some wid ↔ ObjectSpelling codec data wid := by
  constructor
  · intro said
    unfold payloadID at said
    split at said
    · rename_i msg decoded
      cases top : nonEmpty (field (some msg) "worker_instance_id") with
      | some first =>
          rw [top] at said
          cases said
          obtain ⟨s, given, nonempty, rfl⟩ := nonEmpty_field_eq_some_iff.mp top
          exact .root decoded given nonempty
      | none =>
          rw [top] at said
          dsimp only at said
          split at said
          · rename_i ann nested
            obtain ⟨s, given, nonempty, rfl⟩ := nonEmpty_field_eq_some_iff.mp said
            exact .annotations decoded (nonEmpty_field_eq_none_iff.mp top) (field_eq_obj_iff.mp nested) given nonempty
          · cases said
    · cases said
  · intro spelled
    cases spelled with
    | root decoded given nonempty =>
        have top := nonEmpty_field_eq_some_iff.mpr ⟨_, given, nonempty, rfl⟩
        simp only [payloadID, decoded, top]
    | annotations decoded unset nested given nonempty =>
        have top := nonEmpty_field_eq_none_iff.mpr unset
        have below := nonEmpty_field_eq_some_iff.mpr ⟨_, given, nonempty, rfl⟩
        simp only [payloadID, decoded, top, field_eq_obj_iff.mpr nested, below]

def idOf (codec : EventCodec) (event : Event) : Option Bytes :=
  (if event.eventName = bytes "worker_instance_id" ∧ event.payload ≠ [] then namedID codec event.payload else none).or
    (if event.data = [] then none else payloadID codec event.data)

theorem idOf_eq_some_iff : idOf codec event = some wid ↔ Spells codec event wid := by
  rw [idOf, Option.or_eq_some_iff, Option.ite_none_right_eq_some, Option.ite_none_left_eq_some, namedID_eq_some_iff,
    payloadID_eq_some_iff]
  constructor
  · rintro (⟨⟨name, carries⟩, spelled⟩ | ⟨unsaid, carries, spelled⟩)
    · exact .named name carries spelled
    · refine .object (fun name carries other spelled => ?_) carries spelled
      rw [if_pos ⟨name, carries⟩, namedID_eq_some_iff.mpr spelled] at unsaid
      cases unsaid
  · intro spells
    cases spells with
    | named name carries spelled => exact .inl ⟨⟨name, carries⟩, spelled⟩
    | object unnamed carries spelled =>
        refine .inr ⟨?_, carries, spelled⟩
        rw [Option.eq_none_iff_forall_ne_some]
        intro other said
        obtain ⟨⟨name, some⟩, said⟩ := Option.ite_none_right_eq_some.mp said
        exact unnamed name some other (namedID_eq_some_iff.mp said)

theorem answer_of_done (done : event.Done) : (flushEvent codec event).answer = some (.error beforeDone) :=
  congrArg Flushed.answer (if_pos done)

theorem answer_of_not_done (notDone : ¬event.Done) : (flushEvent codec event).answer = (idOf codec event).map .ok := by
  unfold Event.Done Event.data Event.comment at notDone
  unfold flushEvent idOf Event.payload Event.data Event.comment
  dsimp only
  rw [if_neg notDone]
  split
  · rename_i said
    rw [said]
    rfl
  · rename_i said
    rw [said]
    rfl

def Silent (codec : EventCodec) (event : Event) : Prop := ¬event.Done ∧ ∀ wid, ¬Spells codec event wid

theorem answer_eq_none_iff_silent : (flushEvent codec event).answer = none ↔ Silent codec event := by
  by_cases done : event.Done
  · rw [answer_of_done done]
    constructor
    · intro answered
      cases answered
    · exact fun silent => absurd done silent.1
  · rw [answer_of_not_done done, Option.map_eq_none_iff, Option.eq_none_iff_forall_ne_some]
    constructor
    · exact fun unsaid => ⟨done, fun wid spells => unsaid wid (idOf_eq_some_iff.mpr spells)⟩
    · exact fun silent wid said => silent.2 wid (idOf_eq_some_iff.mp said)

theorem answer_eq_ok_iff :
    (flushEvent codec event).answer = some (.ok wid) ↔ ¬event.Done ∧ Spells codec event wid := by
  by_cases done : event.Done
  · rw [answer_of_done done]
    constructor
    · intro answered
      cases answered
    · exact fun said => absurd done said.1
  · rw [answer_of_not_done done, Option.map_eq_some_iff, and_iff_right done, ← idOf_eq_some_iff]
    constructor
    · rintro ⟨other, said, same⟩
      cases same
      exact said
    · exact fun said => ⟨wid, said, rfl⟩

theorem bytes_ne_nil {s : String} (nonempty : s ≠ "") : bytes s ≠ [] := by
  intro empty
  have size : s.utf8ByteSize = 0 := congrArg List.length empty
  exact nonempty (String.utf8ByteSize_eq_zero_iff.mp size)

theorem Spells.ne_nil (spells : Spells codec event wid) : wid ≠ [] := by
  cases spells with
  | named _ _ spelled =>
      cases spelled with
      | json _ nonempty => exact bytes_ne_nil nonempty
      | raw _ nonempty _ => exact nonempty
  | object _ _ spelled =>
      cases spelled with
      | root _ _ nonempty => exact bytes_ne_nil nonempty
      | annotations _ _ _ _ nonempty => exact bytes_ne_nil nonempty

end Codec

end FrontEnd

end InferenceGateway
