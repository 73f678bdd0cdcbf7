import InferenceGateway.Proof.Handlers.FrontEndEvents

/-!
# Streams of FrontEnd events

Events that are sent one after the other, and what becomes of a last line that the end of the
stream cuts off.
-/

namespace InferenceGateway.FrontEnd
open Lib

/-! ## Events as they are sent -/

/-- A line that is not blank, and whether a carriage return comes before its newline. -/
structure TextLine where
  text : Bytes
  crlf : Bool
  oneLine : 10 ∉ text
  nonblank : text.trimLine ≠ []

structure TextEvent where
  lines : List TextLine
  crlf : Bool

def carriageReturn (crlf : Bool) : Bytes := if crlf then [13] else []

def TextLine.encode (line : TextLine) : Bytes := line.text ++ carriageReturn line.crlf ++ [10]

def TextLine.read (line : TextLine) : Line := .of line.text.trimLine

def encodeLines (lines : List TextLine) : Bytes := lines.flatMap TextLine.encode

def TextEvent.encode (event : TextEvent) : Bytes := encodeLines event.lines ++ carriageReturn event.crlf ++ [10]

def encodeEvents (events : List TextEvent) : Bytes := events.flatMap TextEvent.encode

def collect (event : Event) (lines : List TextLine) : Event :=
  lines.foldl (fun event line => event.add line.read) event

def TextEvent.collected (event : TextEvent) : Event := collect {} event.lines

theorem trimLine_append_carriageReturn (text : Bytes) (crlf : Bool) :
    Bytes.trimLine (text ++ carriageReturn crlf) = text.trimLine := by
  cases crlf with
  | false => exact congrArg Bytes.trimLine (List.append_nil text)
  | true => exact List.rdropWhile_concat_pos _ _ _ rfl

theorem newline_not_mem_append_carriageReturn {text : Bytes} (one : 10 ∉ text) (crlf : Bool) :
    10 ∉ text ++ carriageReturn crlf := by
  cases crlf <;> simp [carriageReturn, one]

variable {readErr : Option Err} {event : Event}

theorem events_line (line : TextLine) (rest : Bytes) :
    events readErr event (Bytes.ended (line.encode ++ rest)) = events readErr (event.add line.read) rest.ended := by
  have split : Bytes.ended (line.encode ++ rest) = (line.text ++ carriageReturn line.crlf) :: rest.ended := by
    rw [TextLine.encode, List.append_assoc, List.singleton_append, Bytes.ended_append_newline,
      Bytes.lines_of_not_mem (newline_not_mem_append_carriageReturn line.oneLine line.crlf)]
    rfl
  rw [split, events, trimLine_append_carriageReturn, if_neg line.nonblank]
  rfl

theorem events_lines (lines : List TextLine) (rest : Bytes) :
    events readErr event (Bytes.ended (encodeLines lines ++ rest)) =
      events readErr (collect event lines) rest.ended := by
  induction lines generalizing event with
  | nil => rfl
  | cons line lines ih =>
      rw [encodeLines, List.flatMap_cons, List.append_assoc, events_line]
      exact ih

theorem events_blank (crlf : Bool) (rest : Bytes) :
    events readErr event (Bytes.ended (carriageReturn crlf ++ 10 :: rest)) = event :: eventsOf rest readErr := by
  have blank : Bytes.trimLine (carriageReturn crlf) = [] := trimLine_append_carriageReturn [] crlf
  have one : 10 ∉ carriageReturn crlf := newline_not_mem_append_carriageReturn List.not_mem_nil crlf
  rw [Bytes.ended_append_newline, Bytes.lines_of_not_mem one, List.singleton_append, events, if_pos blank]
  rfl

theorem eventsOf_event (event : TextEvent) (rest : Bytes) :
    eventsOf (event.encode ++ rest) readErr = event.collected :: eventsOf rest readErr := by
  rw [TextEvent.encode, List.append_assoc, List.append_assoc, List.singleton_append]
  exact (events_lines event.lines _).trans (events_blank event.crlf rest)

theorem eventsOf_events (events : List TextEvent) (rest : Bytes) :
    eventsOf (encodeEvents events ++ rest) readErr = events.map TextEvent.collected ++ eventsOf rest readErr := by
  induction events with
  | nil => rfl
  | cons event events ih =>
      rw [encodeEvents, List.flatMap_cons, List.append_assoc, eventsOf_event, List.map_cons, List.cons_append]
      exact congrArg _ ih

/-! ## Streams of events -/

theorem answer_empty (codec : EventCodec) : (flushEvent codec {}).answer = none := rfl

theorem notFound_ne_beforeDone : notFound ≠ beforeDone := fun same => absurd (Err.new.inj same) (by decide)

def outcome (codec : EventCodec) (event : Event) : Except Err Bytes :=
  (flushEvent codec event).answer.getD (.error notFound)

section Streams
variable {codec : EventCodec}

theorem outcome_of_done {event : Event} (done : event.Done) : outcome codec event = .error beforeDone := by
  rw [outcome, answer_of_done done]
  rfl

theorem outcome_of_silent {event : Event} (silent : Silent codec event) : outcome codec event = .error notFound := by
  rw [outcome, answer_eq_none_iff_silent.mpr silent]
  rfl

theorem outcome_of_spells {event : Event} {id : Bytes} (notDone : ¬event.Done) (spells : Spells codec event id) :
    outcome codec event = .ok id := by
  rw [outcome, answer_eq_ok_iff.mpr ⟨notDone, spells⟩]
  rfl

theorem outcome_cases (codec : EventCodec) (event : Event) :
    Silent codec event ∧ outcome codec event = .error notFound ∨
    event.Done ∧ outcome codec event = .error beforeDone ∨
    ∃ id, ¬event.Done ∧ Spells codec event id ∧ outcome codec event = .ok id := by
  by_cases done : event.Done
  · exact .inr (.inl ⟨done, outcome_of_done done⟩)
  · by_cases said : ∃ id, Spells codec event id
    · obtain ⟨id, spells⟩ := said
      exact .inr (.inr ⟨id, done, spells, outcome_of_spells done spells⟩)
    · have silent : Silent codec event := ⟨done, fun id spells => said ⟨id, spells⟩⟩
      exact .inl ⟨silent, outcome_of_silent silent⟩

theorem silent_of_outcome {event : Event} (unfound : outcome codec event = .error notFound) : Silent codec event := by
  rcases outcome_cases codec event with ⟨silent, _⟩ | ⟨_, ended⟩ | ⟨_, _, _, found⟩
  · exact silent
  · rw [unfound] at ended
    exact absurd (Except.error.inj ended) notFound_ne_beforeDone
  · rw [unfound] at found
    cases found

theorem outcome_eq_beforeDone_iff {event : Event} : outcome codec event = .error beforeDone ↔ event.Done := by
  constructor
  · intro ended
    rcases outcome_cases codec event with ⟨_, unfound⟩ | ⟨done, _⟩ | ⟨_, _, _, found⟩
    · rw [ended] at unfound
      exact absurd (Except.error.inj unfound).symm notFound_ne_beforeDone
    · exact done
    · rw [ended] at found
      cases found
  · exact outcome_of_done

theorem outcome_eq_ok_iff {event : Event} {id : Bytes} :
    outcome codec event = .ok id ↔ ¬event.Done ∧ Spells codec event id := by
  rw [← answer_eq_ok_iff, outcome]
  cases (flushEvent codec event).answer <;> simp

theorem readEvents_alone (codec : EventCodec) (event : TextEvent) :
    readEvents codec event.encode none = outcome codec event.collected := by
  have only : eventsOf event.encode none = [event.collected, {}] := by
    rw [← List.append_nil event.encode, eventsOf_event]
    rfl
  rw [readEvents_eq, only, firstAnswer_cons, firstAnswer_cons, answer_empty, outcome]
  cases (flushEvent codec event.collected).answer <;> rfl

theorem readEvents_of_silent {before : List TextEvent}
    (silent : ∀ event ∈ before, readEvents codec event.encode none = .error notFound) (rest : Bytes)
    (readErr : Option Err) :
    readEvents codec (encodeEvents before ++ rest) readErr = readEvents codec rest readErr := by
  have unanswered : firstAnswer codec (before.map TextEvent.collected) = none := by
    rw [firstAnswer, List.findSome?_eq_none_iff]
    intro event member
    obtain ⟨sent, listed, rfl⟩ := List.mem_map.mp member
    have unfound := silent sent listed
    rw [readEvents_alone] at unfound
    exact answer_eq_none_iff_silent.mpr (silent_of_outcome unfound)
  rw [readEvents_eq, readEvents_eq, eventsOf_events, firstAnswer_append, unanswered, Option.none_or]

theorem readEvents_of_answered {event : TextEvent} (answers : readEvents codec event.encode none ≠ .error notFound)
    (rest : Bytes) (readErr : Option Err) :
    readEvents codec (event.encode ++ rest) readErr = readEvents codec event.encode none := by
  rw [readEvents_alone] at answers ⊢
  rw [readEvents_eq, eventsOf_event, firstAnswer_cons]
  cases answered : (flushEvent codec event.collected).answer with
  | none => exact absurd (outcome_of_silent (answer_eq_none_iff_silent.mp answered)) answers
  | some answer =>
      rw [outcome, answered]
      rfl

end Streams

/-! ## The values on the lines of an event -/

def names (lines : List TextLine) : List Bytes := lines.filterMap (·.read.name?)

def dataValues (lines : List TextLine) : List Bytes := lines.filterMap (·.read.data?)

def comments (lines : List TextLine) : List Bytes := lines.filterMap (·.read.comment?)

section Values
variable {lines : List TextLine}

theorem collect_dataBuf (lines : List TextLine) :
    (collect {} lines).dataBuf = (dataValues lines).foldl writeLine [] :=
  dataBuf_gather TextLine.read lines

theorem collect_commentBuf (lines : List TextLine) :
    (collect {} lines).commentBuf = (comments lines).foldl writeLine [] :=
  commentBuf_gather TextLine.read lines

theorem collect_eventName (lines : List TextLine) : (collect {} lines).eventName = (names lines).getLast?.getD [] := by
  have last : (collect {} lines).eventName = (names lines).foldl (fun _ name => name) [] := by
    refine field_gather TextLine.read Event.eventName Line.name? (fun _ name => name) (fun event line => ?_) {} lines
    cases line <;> rfl
  rw [last]
  cases names lines using List.reverseRecOn <;> simp

theorem trimSpace_of_mem {val : Bytes} (pick : Line → Option Bytes)
    (picks : ∀ line, pick line = some val → line.value = val) (member : val ∈ lines.filterMap (pick ·.read)) :
    val.trimSpace = val := by
  obtain ⟨line, _, picked⟩ := List.mem_filterMap.mp member
  rw [← picks line.read picked]
  exact trimSpace_value _

theorem data_of_one {text : Bytes} (one : dataValues lines = [text]) : (collect {} lines).data = text := by
  have member : text ∈ dataValues lines := one ▸ List.mem_singleton_self text
  rw [Event.data, collect_dataBuf, one]
  refine trimSpace_of_mem Line.data? (fun line picked => ?_) member
  cases line <;> cases picked
  rfl

theorem comment_of_one {text : Bytes} (one : comments lines = [text]) : (collect {} lines).comment = text := by
  have member : text ∈ comments lines := one ▸ List.mem_singleton_self text
  rw [Event.comment, collect_commentBuf, one]
  refine trimSpace_of_mem Line.comment? (fun line picked => ?_) member
  cases line <;> cases picked
  rfl

theorem data_of_none (none : dataValues lines = []) : (collect {} lines).data = [] := by
  rw [Event.data, collect_dataBuf, none]
  rfl

theorem named_iff (lines : List TextLine) : (collect {} lines).eventName = bytes "worker_instance_id" ↔
    (names lines).getLast? = some (bytes "worker_instance_id") := by
  rw [collect_eventName]
  cases (names lines).getLast? with
  | none => decide
  | some name => exact (Option.some_inj).symm

end Values

section Marshal
variable (codec : EventCodec) (w : String)

theorem trimSpace_marshalString : (codec.marshalString w).trimSpace = codec.marshalString w := by
  obtain ⟨inner, quoted, _⟩ := codec.marshalString_quoted w
  rw [quoted, Bytes.trimSpace_quoted]

theorem marshalString_ne_nil : codec.marshalString w ≠ [] := by
  obtain ⟨inner, quoted, _⟩ := codec.marshalString_quoted w
  rw [quoted]
  exact List.cons_ne_nil _ _

theorem marshalString_ne_done : codec.marshalString w ≠ done := by
  obtain ⟨inner, quoted, _⟩ := codec.marshalString_quoted w
  intro same
  rw [quoted] at same
  have first : some 34 = done.head? := congrArg List.head? same
  exact absurd first (by decide)

theorem exists_line_marshalString (front : Bytes) (one : 10 ∉ front) :
    ∃ line : TextLine, line.read = .of (front ++ codec.marshalString w) := by
  obtain ⟨inner, quoted, single⟩ := codec.marshalString_quoted w
  have last : front ++ codec.marshalString w = front ++ 34 :: inner ++ [34] := by
    rw [quoted, List.append_assoc]
    rfl
  have whole : Bytes.trimLine (front ++ codec.marshalString w) = front ++ codec.marshalString w := by
    rw [last]
    exact List.rdropWhile_concat_neg _ _ _ (by decide)
  have oneLine : 10 ∉ front ++ codec.marshalString w := by
    rw [last]
    simp [one, single]
  have nonblank : Bytes.trimLine (front ++ codec.marshalString w) ≠ [] := by
    rw [whole, last]
    simp
  exact ⟨⟨_, false, oneLine, nonblank⟩, congrArg Line.of whole⟩

end Marshal

/-- The ways in which an event carries the id `w`. -/
inductive Carries (codec : EventCodec) (lines : List TextLine) (w : String) : Prop
  | data (named : (names lines).getLast? = some (bytes "worker_instance_id"))
      (one : dataValues lines = [codec.marshalString w]) (other : (collect {} lines).comment ≠ done)
  | comment (named : (names lines).getLast? = some (bytes "worker_instance_id")) (none : dataValues lines = [])
      (one : comments lines = [codec.marshalString w])
  | root {text : Bytes} {msg : Object} (unnamed : (names lines).getLast? ≠ some (bytes "worker_instance_id"))
      (one : dataValues lines = [text]) (other : (collect {} lines).comment ≠ done)
      (decoded : codec.unmarshal text = .object msg none) (given : msg.get "worker_instance_id" = some (.str w))
  | annotations {text : Bytes} {msg ann : Object}
      (unnamed : (names lines).getLast? ≠ some (bytes "worker_instance_id"))
      (one : dataValues lines = [text]) (other : (collect {} lines).comment ≠ done)
      (decoded : codec.unmarshal text = .object msg none)
      (unset : ∀ top, msg.get "worker_instance_id" = some (.str top) → top = "")
      (nested : msg.get "annotations" = some (.obj ann)) (given : ann.get "worker_instance_id" = some (.str w))

section Decoding
variable {codec : EventCodec} {lines : List TextLine} {w : String}

theorem spells_of_payload (nonempty : w ≠ "") (named : (names lines).getLast? = some (bytes "worker_instance_id"))
    (carried : (collect {} lines).payload = codec.marshalString w) :
    Spells codec (collect {} lines) (bytes w) := by
  refine .named ((named_iff lines).mpr named) ?_ ?_
  · rw [carried]
    exact marshalString_ne_nil codec w
  · rw [carried]
    exact .json (codec.unmarshalString_marshalString w) nonempty

theorem ObjectSpelling.decodes {text id : Bytes} (spelled : ObjectSpelling codec text id) :
    ∃ msg, codec.unmarshal text = .object msg none := by
  cases spelled with
  | root decoded _ _ => exact ⟨_, decoded⟩
  | annotations decoded _ _ _ _ => exact ⟨_, decoded⟩

theorem spells_of_object {text id : Bytes} (unnamed : (names lines).getLast? ≠ some (bytes "worker_instance_id"))
    (one : dataValues lines = [text]) (other : (collect {} lines).comment ≠ done)
    (spelled : ObjectSpelling codec text id) :
    ¬(collect {} lines).Done ∧ Spells codec (collect {} lines) id := by
  have data := data_of_one one
  obtain ⟨msg, decoded⟩ := spelled.decodes
  have nonempty : text ≠ [] := by
    rintro rfl
    obtain ⟨failed, invalid⟩ := codec.unmarshal_empty
    rw [invalid] at decoded
    cases decoded
  have notDone : text ≠ done := by
    rintro rfl
    obtain ⟨failed, invalid⟩ := codec.unmarshal_done
    rw [done, invalid] at decoded
    cases decoded
  constructor
  · rintro (ended | ended)
    · exact notDone (data.symm.trans ended)
    · exact other ended
  · refine .object (fun name => absurd ((named_iff lines).mp name) unnamed) ?_ ?_
    · rwa [data]
    · rwa [data]

theorem Carries.spells (nonempty : w ≠ "") (carries : Carries codec lines w) :
    ¬(collect {} lines).Done ∧ Spells codec (collect {} lines) (bytes w) := by
  cases carries with
  | data named one other =>
      have data := data_of_one one
      have filled : (collect {} lines).data ≠ [] := by
        rw [data]
        exact marshalString_ne_nil codec w
      constructor
      · rintro (ended | ended)
        · exact marshalString_ne_done codec w (data.symm.trans ended)
        · exact other ended
      · exact spells_of_payload nonempty named ((if_neg filled).trans data)
  | comment named none one =>
      have empty := data_of_none none
      have comment := comment_of_one one
      constructor
      · rintro (ended | ended)
        · rw [empty] at ended
          exact absurd ended (by decide)
        · exact marshalString_ne_done codec w (comment.symm.trans ended)
      · exact spells_of_payload nonempty named ((if_pos empty).trans comment)
  | root unnamed one other decoded given =>
      exact spells_of_object unnamed one other (.root decoded given nonempty)
  | annotations unnamed one other decoded unset nested given =>
      exact spells_of_object unnamed one other (.annotations decoded unset nested given nonempty)

end Decoding

/-- Every event is read as if it came alone, and an event that carries an id gives that id. -/
theorem frontEnd_events_independent (codec : EventCodec) :
    (∀ before event after readErr, (∀ earlier ∈ before, readEvents codec earlier.encode none = .error notFound) →
      readEvents codec event.encode none ≠ .error notFound →
      readEvents codec (encodeEvents (before ++ event :: after)) readErr = readEvents codec event.encode none) ∧
    (∀ events, (∀ event ∈ events, readEvents codec event.encode none = .error notFound) →
      readEvents codec (encodeEvents events) none = .error notFound) ∧
    (∀ event : TextEvent, readEvents codec event.encode none = .error notFound ∨
      event.collected.Done ∧ readEvents codec event.encode none = .error beforeDone ∨
      ∃ id, id ≠ [] ∧ readEvents codec event.encode none = .ok id) ∧
    ∀ w, w ≠ "" →
      (∃ line : TextLine, line.read = .data (codec.marshalString w)) ∧
      (∃ line : TextLine, line.read = .comment (codec.marshalString w)) ∧
      ∀ event : TextEvent, Carries codec event.lines w → readEvents codec event.encode none = .ok (bytes w) := by
  refine ⟨fun before event after readErr silent answers => ?_, fun events silent => ?_, fun event => ?_,
    fun w nonempty => ⟨?_, ?_, fun event carries => ?_⟩⟩
  · have split : encodeEvents (before ++ event :: after) =
        encodeEvents before ++ (event.encode ++ encodeEvents after) := by
      rw [encodeEvents, List.flatMap_append, List.flatMap_cons]
      rfl
    rw [split, readEvents_of_silent silent, readEvents_of_answered answers]
  · rw [← List.append_nil (encodeEvents events), readEvents_of_silent silent]
    rfl
  · rw [readEvents_alone]
    rcases outcome_cases codec event.collected with ⟨_, unfound⟩ | ended | ⟨id, _, spells, found⟩
    · exact .inl unfound
    · exact .inr (.inl ended)
    · exact .inr (.inr ⟨id, spells.ne_nil, found⟩)
  · obtain ⟨line, read⟩ := exists_line_marshalString codec w (bytes "data:") (by decide)
    exact ⟨line, read.trans (congrArg Line.data (trimSpace_marshalString codec w))⟩
  · obtain ⟨line, read⟩ := exists_line_marshalString codec w (bytes ":") (by decide)
    exact ⟨line, read.trans (congrArg Line.comment (trimSpace_marshalString codec w))⟩
  · obtain ⟨notDone, spells⟩ := carries.spells nonempty
    rw [readEvents_alone]
    exact outcome_of_spells notDone spells

theorem dynamo_stream_read :
    readEvents jsonEventCodec
      (bytes "event: worker_instance_id\n: \"8303679623149182543\"\n\ndata: [DONE]\n\n") none =
      .ok (bytes "8303679623149182543") := by
  let worker : TextEvent :=
    ⟨[⟨bytes "event: worker_instance_id", false, by decide +kernel, by decide +kernel⟩,
      ⟨bytes ": \"8303679623149182543\"", false, by decide +kernel, by decide +kernel⟩], false⟩
  let last : TextEvent := ⟨[⟨bytes "data: [DONE]", false, by decide +kernel, by decide +kernel⟩], false⟩
  have sent : encodeEvents ([] ++ worker :: [last]) =
      bytes "event: worker_instance_id\n: \"8303679623149182543\"\n\ndata: [DONE]\n\n" := by decide +kernel
  obtain ⟨first, _, _, decoded⟩ := frontEnd_events_independent jsonEventCodec
  have read : readEvents jsonEventCodec worker.encode none = .ok (bytes "8303679623149182543") :=
    (decoded _ (by decide)).2.2 worker (.comment (by decide +kernel) (by decide +kernel) (by decide +kernel))
  have answers : readEvents jsonEventCodec worker.encode none ≠ .error notFound := by
    intro unfound
    rw [read] at unfound
    cases unfound
  rw [← sent, first [] worker [last] none (fun earlier none => absurd none List.not_mem_nil) answers, read]

/-! ## A last line without its newline -/

/-- Both events end the stream, or neither does and both spell the same id, or none. -/
def SaysAlike (codec : EventCodec) (event event' : Event) : Prop :=
  (event.Done ↔ event'.Done) ∧ (¬event.Done → ∀ id, Spells codec event id ↔ Spells codec event' id)

theorem outcome_eq_iff_saysAlike {codec : EventCodec} {event event' : Event} :
    outcome codec event = outcome codec event' ↔ SaysAlike codec event event' := by
  constructor
  · intro same
    have ends : event.Done ↔ event'.Done := by
      rw [← @outcome_eq_beforeDone_iff codec, same, outcome_eq_beforeDone_iff]
    refine ⟨ends, fun notDone id => ?_⟩
    have ids : outcome codec event = .ok id ↔ outcome codec event' = .ok id := by rw [same]
    rwa [outcome_eq_ok_iff, outcome_eq_ok_iff, and_iff_right notDone, and_iff_right (mt ends.mpr notDone)] at ids
  · rintro ⟨ends, ids⟩
    rcases outcome_cases codec event with ⟨silent, unfound⟩ | ⟨done, ended⟩ | ⟨id, notDone, spells, found⟩
    · have silent' : Silent codec event' :=
        ⟨mt ends.mpr silent.1, fun id spells => silent.2 id ((ids silent.1 id).mpr spells)⟩
      rw [unfound, outcome_of_silent silent']
    · rw [ended, outcome_of_done (ends.mp done)]
    · rw [found, outcome_of_spells (mt ends.mpr notDone) ((ids notDone id).mp spells)]

theorem events_append (event : Event) (lines more : List Bytes) :
    events none event (lines ++ more) =
      (events none event lines).dropLast ++ events none ((events none event lines).getLast?.getD {}) more := by
  induction lines generalizing event with
  | nil => rfl
  | cons line lines ih =>
      rw [List.cons_append, events, events]
      split_ifs
      · obtain ⟨run, rest, _, same⟩ := events_eq_runs {} lines
        rw [ih, same, List.dropLast_cons_cons, List.getLast?_cons_cons, List.cons_append]
      · exact ih _

def Complete (body : Bytes) : Prop := body = [] ∨ ∃ front, body = front ++ [10]

theorem Complete.ended_append {body last : Bytes} (complete : Complete body) (one : 10 ∉ last) :
    (body ++ last).ended = body.ended ∧ (body ++ last ++ [10]).ended = body.ended ++ [last] := by
  have line : Bytes.ended (last ++ [10]) = [last] := by
    rw [Bytes.ended_append_newline, Bytes.lines_of_not_mem one]
    rfl
  rcases complete with rfl | ⟨front, rfl⟩
  · exact ⟨Bytes.ended_of_not_mem one, line⟩
  · have lines : Bytes.ended (front ++ [10]) = Bytes.lines front := by
      rw [Bytes.ended_append_newline]
      exact List.append_nil _
    constructor
    · rw [lines, List.append_assoc, List.singleton_append, Bytes.ended_append_newline, Bytes.ended_of_not_mem one,
        List.append_nil]
    · rw [lines, List.append_assoc, List.append_assoc, List.singleton_append, Bytes.ended_append_newline, line]

/-- The lines of the events that a blank line closes. -/
def closedRuns (body : Bytes) : List (List Bytes) := (runs body.ended).dropLast

/-- The lines after the last blank line. -/
def pendingRun (body : Bytes) : List Bytes := (runs body.ended).getLastD []

section LastLine
variable {codec : EventCodec} {body last : Bytes}

theorem firstAnswer_last (codec : EventCodec) (run : List Bytes) (last : Bytes) :
    firstAnswer codec (events none (eventOf run) [last]) = firstAnswer codec [eventOf (run ++ [last])] := by
  have grown : eventOf (run ++ [last]) = (eventOf run).add (.of last.trimLine) := List.foldl_concat ..
  rw [grown, events]
  split_ifs with blank
  · have ignored : Line.of last.trimLine = .ignored := by
      rw [blank]
      rfl
    have nothing : events none {} [] = [{}] := rfl
    rw [ignored, nothing, firstAnswer_cons, firstAnswer_cons, firstAnswer_cons, answer_empty]
    rfl
  · rfl

theorem Complete.eventsOf_append (complete : Complete body) (one : 10 ∉ last) :
    eventsOf (body ++ last) none = (closedRuns body).map eventOf ++ [eventOf (pendingRun body)] ∧
      eventsOf (body ++ last ++ [10]) none =
        (closedRuns body).map eventOf ++ events none (eventOf (pendingRun body)) [last] := by
  obtain ⟨cut, whole⟩ := complete.ended_append one
  have all : events none {} body.ended = (runs body.ended).map eventOf := eventsOf_eq body none
  have pending : ((runs body.ended).map eventOf).getLast?.getD {} = eventOf (pendingRun body) := by
    rw [List.getLast?_map, pendingRun, List.getLastD_eq_getLast?]
    cases (runs body.ended).getLast? <;> rfl
  have split (more : List Bytes) : events none {} (body.ended ++ more) =
      (closedRuns body).map eventOf ++ events none (eventOf (pendingRun body)) more := by
    rw [events_append, all, pending, ← List.map_dropLast, closedRuns]
  constructor
  · rw [eventsOf, cut, ← List.append_nil body.ended, split]
    rfl
  · rw [eventsOf, whole, split]

theorem firstAnswer_eq_none_iff {runs : List (List Bytes)} :
    firstAnswer codec (runs.map eventOf) = none ↔ ∀ run ∈ runs, Silent codec (eventOf run) := by
  simp only [firstAnswer, List.findSome?_eq_none_iff, List.forall_mem_map, answer_eq_none_iff_silent]

end LastLine

/-- The line that the end of the stream cuts off is not read. That makes no difference if the stream is
answered before, or if the events without and with the line say the same. -/
theorem unterminated_line_iff (codec : EventCodec) (body last : Bytes) (complete : Complete body) (one : 10 ∉ last) :
    readEvents codec (body ++ last) none = readEvents codec (body ++ last ++ [10]) none ↔
      (∃ run ∈ closedRuns body, ¬Silent codec (eventOf run)) ∨
        SaysAlike codec (eventOf (pendingRun body)) (eventOf (pendingRun body ++ [last])) := by
  obtain ⟨cut, whole⟩ := complete.eventsOf_append one
  rw [readEvents_eq, readEvents_eq, cut, whole, firstAnswer_append, firstAnswer_append, firstAnswer_last]
  by_cases silent : ∀ run ∈ closedRuns body, Silent codec (eventOf run)
  · have unanswered (event : Event) : ((none : Option (Except Err Bytes)).or (firstAnswer codec [event])).getD
        (endOf none) = outcome codec event := by
      rw [firstAnswer_cons, outcome]
      cases (flushEvent codec event).answer <;> rfl
    have none : ¬∃ run ∈ closedRuns body, ¬Silent codec (eventOf run) := by
      rintro ⟨run, listed, answers⟩
      exact answers (silent run listed)
    rw [firstAnswer_eq_none_iff.mpr silent, unanswered, unanswered, outcome_eq_iff_saysAlike, or_iff_right none]
  · obtain ⟨answer, answered⟩ := Option.ne_none_iff_exists'.mp (mt firstAnswer_eq_none_iff.mp silent)
    rw [answered]
    refine iff_of_true rfl (.inl ?_)
    push Not at silent
    exact silent

/-! ## Lines that say nothing -/

/-- A line that leaves what an event says as it is. -/
def AddsNothing (line : Bytes) : Prop :=
  line.trimLine = [] ∨ Line.of line.trimLine = .ignored ∨ Line.of line.trimLine = .comment [] ∨
    Line.of line.trimLine = .data []

theorem saysAlike_of_eq (codec : EventCodec) {event event' : Event} (name : event.eventName = event'.eventName)
    (data : event.data = event'.data) (comment : event.comment = event'.comment) : SaysAlike codec event event' := by
  have ids : idOf codec event = idOf codec event' := by
    unfold idOf Event.payload
    rw [name, data, comment]
  refine ⟨by rw [Event.Done, Event.Done, data, comment], fun _ id => ?_⟩
  rw [← idOf_eq_some_iff, ids, idOf_eq_some_iff]

theorem AddsNothing.saysAlike {last : Bytes} (nothing : AddsNothing last) (codec : EventCodec) (run : List Bytes) :
    SaysAlike codec (eventOf run) (eventOf (run ++ [last])) := by
  have grown : eventOf (run ++ [last]) = (eventOf run).add (.of last.trimLine) := List.foldl_concat ..
  rw [grown]
  rcases nothing with blank | ignored | comment | data
  · rw [blank]
    exact saysAlike_of_eq codec rfl rfl rfl
  · rw [ignored]
    exact saysAlike_of_eq codec rfl rfl rfl
  · rw [comment]
    exact saysAlike_of_eq codec rfl rfl (trimSpace_writeLine_nil _).symm
  · rw [data]
    exact saysAlike_of_eq codec rfl (trimSpace_writeLine_nil _).symm rfl

theorem cut_off_field_unread :
    readEvents jsonEventCodec (bytes "data: x\nid: 7") none =
      readEvents jsonEventCodec (bytes "data: x\nid: 7\n") none := by
  have complete : Complete (bytes "data: x\n") := .inr ⟨bytes "data: x", by decide⟩
  have ignored : AddsNothing (bytes "id: 7") := .inr (.inl (by decide))
  have same := (unterminated_line_iff jsonEventCodec (bytes "data: x\n") (bytes "id: 7") complete (by decide)).mpr
    (.inr (ignored.saysAlike _ _))
  have cut : bytes "data: x\n" ++ bytes "id: 7" = bytes "data: x\nid: 7" := by decide
  have whole : bytes "data: x\n" ++ bytes "id: 7" ++ [10] = bytes "data: x\nid: 7\n" := by decide
  rwa [whole, cut] at same

theorem cut_off_id_lost :
    readEvents jsonEventCodec (bytes "event: worker_instance_id\ndata: \"1\"") none = .error notFound ∧
      readEvents jsonEventCodec (bytes "event: worker_instance_id\ndata: \"1\"\n") none = .ok (bytes "1") := by
  constructor
  · rfl
  · rfl

end InferenceGateway.FrontEnd
