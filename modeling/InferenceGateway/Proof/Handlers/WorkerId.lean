import InferenceGateway.Handlers.TextCodec
import InferenceGateway.Proof.Handlers.FrontEndEvents

/-!
# Where a worker id comes from

The id that is read from a stream is a JSON string, or what stands on the lines of an event. Line
breaks get into it by the escapes of the string, and by a second line or a carriage return in one.
-/

namespace InferenceGateway.FrontEnd
open Lib JsonText

def LineFree (text : Bytes) : Prop := 13 ∉ text ∧ 10 ∉ text

theorem lineFree_trimQuotes_iff (text : Bytes) : LineFree text.trimQuotes ↔ LineFree text := by
  rw [LineFree, LineFree, Bytes.mem_trimQuotes_iff (by decide), Bytes.mem_trimQuotes_iff (by decide)]

/-! ## Lines that are joined -/

def joined (values : List Bytes) : Bytes := values.foldl writeLine []

def SingleLine (values : List Bytes) : Prop := (values.filter (· ≠ [])).length ≤ 1 ∧ ∀ value ∈ values, LineFree value

section Joined
variable {values : List Bytes}

theorem joined_concat (values : List Bytes) (value : Bytes) :
    joined (values ++ [value]) = writeLine (joined values) value := List.foldl_concat ..

theorem joined_eq_nil_iff : joined values = [] ↔ ∀ value ∈ values, value = [] := by
  induction values using List.reverseRecOn with
  | nil => simp [joined]
  | append_singleton values value ih =>
      rw [joined_concat, writeLine, List.forall_mem_append, List.forall_mem_singleton, ← ih]
      split_ifs with empty
      · exact (and_iff_right empty).symm
      · simp [empty]

theorem bare_joined (trimmed : ∀ value ∈ values, value.trimSpace = value) : Trim.Bare Bytes.spaces (joined values) := by
  have bare (value : Bytes) (same : value.trimSpace = value) : Trim.Bare Bytes.spaces value := by
    rw [← same]
    exact (Trim.trimmed_trim Bytes.separate_spaces.nonempty value).left
  induction values using List.reverseRecOn with
  | nil => exact bare [] rfl
  | append_singleton values value ih =>
      obtain ⟨before, last⟩ := List.forall_mem_append.mp trimmed
      rw [joined_concat, writeLine]
      split_ifs with empty
      · exact bare value (last value (List.mem_singleton_self value))
      · exact (ih before).append_solitary empty Bytes.solitary_newline value

theorem trimSpace_joined_concat (trimmed : ∀ value ∈ values, value.trimSpace = value) {value : Bytes}
    (same : value.trimSpace = value) (nonempty : value ≠ []) :
    (joined (values ++ [value])).trimSpace = joined (values ++ [value]) := by
  apply Trim.Trimmed.trim_eq
  refine ⟨bare_joined (List.forall_mem_append.mpr ⟨trimmed, List.forall_mem_singleton.mpr same⟩), ?_⟩
  have right : Trim.Bare (Bytes.spaces.map List.reverse) value.reverse := by
    rw [← same]
    exact (Trim.trimmed_trim Bytes.separate_spaces.nonempty value).right
  rw [joined_concat, writeLine]
  split_ifs
  · exact right
  · rw [List.reverse_append, List.reverse_cons, List.append_assoc]
    exact right.append_solitary (List.reverse_eq_nil_iff.not.mpr nonempty) Bytes.solitary_newline.reverse _

/-- What is left of the joined lines: nothing, the only line with a value, or several of them. -/
theorem trimSpace_joined_cases (trimmed : ∀ value ∈ values, value.trimSpace = value) :
    (values.filter (· ≠ []) = [] ∧ (joined values).trimSpace = []) ∨
    (∃ value, values.filter (· ≠ []) = [value] ∧ (joined values).trimSpace = value) ∨
    1 < (values.filter (· ≠ [])).length ∧ 10 ∈ (joined values).trimSpace := by
  induction values using List.reverseRecOn with
  | nil => exact .inl ⟨rfl, rfl⟩
  | append_singleton values value ih =>
      obtain ⟨before, last⟩ := List.forall_mem_append.mp trimmed
      by_cases empty : value = []
      · subst empty
        have same : (joined (values ++ [[]])).trimSpace = (joined values).trimSpace := by
          rw [joined_concat, trimSpace_writeLine_nil]
        have kept : (values ++ [[]]).filter (· ≠ []) = values.filter (· ≠ []) := by simp
        rw [same, kept]
        exact ih before
      · have whole := trimSpace_joined_concat before (last value (List.mem_singleton_self value)) empty
        have kept : (values ++ [value]).filter (· ≠ []) = values.filter (· ≠ []) ++ [value] := by simp [empty]
        rw [whole, kept, joined_concat, writeLine]
        split_ifs with first
        · have none : values.filter (· ≠ []) = [] := by
            rw [List.filter_eq_nil_iff]
            intro other listed
            simp [joined_eq_nil_iff.mp first other listed]
          exact .inr (.inl ⟨value, by rw [none, List.nil_append], rfl⟩)
        · have some : values.filter (· ≠ []) ≠ [] := by
            intro none
            rw [List.filter_eq_nil_iff] at none
            exact first (joined_eq_nil_iff.mpr fun other listed => by simpa using none other listed)
          have positive := List.length_pos_iff.mpr some
          refine .inr (.inr ⟨?_, by simp⟩)
          rw [List.length_append, List.length_singleton]
          omega

theorem lineFree_joined_iff (trimmed : ∀ value ∈ values, value.trimSpace = value) :
    LineFree (joined values).trimSpace ↔ SingleLine values := by
  have free : LineFree [] := ⟨List.not_mem_nil, List.not_mem_nil⟩
  have filtered (nonempty : ∀ value ∈ values.filter (· ≠ []), LineFree value) : ∀ value ∈ values, LineFree value := by
    intro value listed
    by_cases empty : value = []
    · rw [empty]
      exact free
    · exact nonempty value (List.mem_filter.mpr ⟨listed, by simpa using empty⟩)
  rw [SingleLine]
  rcases trimSpace_joined_cases trimmed with ⟨none, same⟩ | ⟨value, one, same⟩ | ⟨several, broken⟩
  · rw [same]
    refine iff_of_true free ⟨by rw [none]; decide, filtered ?_⟩
    rw [none]
    exact List.forall_mem_nil _
  · rw [same]
    constructor
    · intro line
      refine ⟨by rw [one]; rfl, filtered ?_⟩
      rw [one]
      exact List.forall_mem_singleton.mpr line
    · intro single
      apply single.2
      have listed : value ∈ values.filter (· ≠ []) := one ▸ List.mem_singleton_self value
      exact (List.mem_filter.mp listed).1
  · exact iff_of_false (fun line => line.2 broken) fun single => absurd single.1 (not_le.mpr several)

end Joined

/-! ## The text of an id -/

/-- A JSON string as it is written, or the values of some lines. -/
inductive IdSource
  | literal (chars : List Char)
  | lines (values : List Bytes)

def IdSource.OneLine : IdSource → Prop
  | .literal chars => breaks chars = false
  | .lines values => SingleLine values

def runData (run : List Bytes) : List Bytes := run.filterMap fun line => (Line.of line.trimLine).data?

def runComments (run : List Bytes) : List Bytes := run.filterMap fun line => (Line.of line.trimLine).comment?

def runPayload (run : List Bytes) : List Bytes := if (eventOf run).data = [] then runComments run else runData run

inductive NamedSource (run : List Bytes) : IdSource → Prop
  | json {chars : List Char} {s : String}
      (read : parseTree (decodeUtf8 (eventOf run).payload) = some (.str chars s)) (nonempty : s ≠ "") :
      NamedSource run (.literal chars)
  | raw (unread : ∀ chars s, parseTree (decodeUtf8 (eventOf run).payload) = some (.str chars s) → s = "")
      (nonempty : (eventOf run).payload.trimQuotes ≠ []) (other : (eventOf run).payload.trimQuotes ≠ done) :
      NamedSource run (.lines (runPayload run))

/-- The members of an object whose numbers are all float64. -/
def ReadsObject (text : Bytes) (members : List (String × Tree)) : Prop :=
  parseTree (decodeUtf8 text) = some (.obj members) ∧
    acceptedMembers (fun q => (decodeFloat64 q).isSome) (Tree.membersToJson members) = true

inductive ObjectSource (run : List Bytes) : IdSource → Prop
  | root {members : List (String × Tree)} {chars : List Char} {wid : String}
      (read : ReadsObject (eventOf run).data members)
      (given : Object.last "worker_instance_id" members = some (.str chars wid)) (nonempty : wid ≠ "") :
      ObjectSource run (.literal chars)
  | annotations {members ann : List (String × Tree)} {chars : List Char} {wid : String}
      (read : ReadsObject (eventOf run).data members)
      (unset : ∀ chars other, Object.last "worker_instance_id" members = some (.str chars other) → other = "")
      (nested : Object.last "annotations" members = some (.obj ann))
      (given : Object.last "worker_instance_id" ann = some (.str chars wid)) (nonempty : wid ≠ "") :
      ObjectSource run (.literal chars)

/-- Where the lines of an event have an id. -/
inductive Source (run : List Bytes) : IdSource → Prop
  | named {source : IdSource} (name : (eventOf run).eventName = bytes "worker_instance_id")
      (carries : (eventOf run).payload ≠ []) (spelled : NamedSource run source) : Source run source
  | object {source : IdSource} (unnamed : (eventOf run).eventName = bytes "worker_instance_id" →
        (eventOf run).payload ≠ [] → ∀ source, ¬NamedSource run source)
      (carries : (eventOf run).data ≠ []) (spelled : ObjectSource run source) : Source run source

section Sources
variable {codec : TextCodec} {run : List Bytes} {id : Bytes} {source : IdSource}

theorem bytes_eq_encodeUtf8 (s : String) : bytes s = encodeUtf8 s.toList := by
  unfold bytes encodeUtf8
  rw [String.toUTF8, ← String.utf8Encode_toList]
  simp [List.utf8Encode]

theorem lineFree_bytes_iff {chars : List Char} {s : String} (faithful : (Tree.str chars s).Faithful) :
    LineFree (bytes s) ↔ (IdSource.literal chars).OneLine := by
  have isBreak_iff (c : Char) : isBreak c = true ↔ c.val.toNat = 13 ∨ c.val.toNat = 10 := by
    rw [isBreak, Bool.or_eq_true, decide_eq_true_iff, decide_eq_true_iff, or_comm, Char.ext_iff, Char.ext_iff,
      ← UInt32.toNat_inj, ← UInt32.toNat_inj]
    rfl
  rw [IdSource.OneLine, faithful.breaks_eq, List.any_eq_false, LineFree, bytes_eq_encodeUtf8,
    mem_encodeUtf8_iff (by decide), mem_encodeUtf8_iff (by decide)]
  simp only [isBreak_iff]
  constructor
  · rintro ⟨carriage, newline⟩ c listed (same | same)
    · exact carriage ⟨c, listed, same⟩
    · exact newline ⟨c, listed, same⟩
  · intro free
    constructor
    · rintro ⟨c, listed, same⟩
      exact free c listed (.inl same)
    · rintro ⟨c, listed, same⟩
      exact free c listed (.inr same)

theorem parse_str_iff {cs : List Char} {s : String} :
    parse cs = some (.str s) ↔ ∃ chars, parseTree cs = some (.str chars s) := by
  rw [parse_eq_parseTree, Option.map_eq_some_iff]
  constructor
  · rintro ⟨tree, read, same⟩
    cases tree with
    | str chars s' =>
        cases same
        exact ⟨chars, read⟩
    | _ => cases same
  · rintro ⟨chars, read⟩
    exact ⟨_, read, rfl⟩

theorem unmarshalString_iff (codec : TextCodec) {text : Bytes} {s : String} (nonempty : s ≠ "") :
    codec.unmarshalString text = some s ↔ ∃ chars, parseTree (decodeUtf8 text) = some (.str chars s) := by
  rw [codec.unmarshalString_text nonempty, parse_str_iff]

theorem lineFree_payload_iff : LineFree (eventOf run).payload ↔ SingleLine (runPayload run) := by
  have trimmed {pick : Line → Option Bytes} (picks : ∀ line value, pick line = some value → line.value = value) :
      ∀ value ∈ run.filterMap fun line => pick (.of line.trimLine), value.trimSpace = value := by
    intro value listed
    obtain ⟨line, _, picked⟩ := List.mem_filterMap.mp listed
    rw [← picks _ value picked]
    exact trimSpace_value _
  rw [runPayload, Event.payload]
  split_ifs
  · have buffer : (eventOf run).comment = (joined (runComments run)).trimSpace :=
      congrArg Bytes.trimSpace (commentBuf_gather _ run)
    rw [buffer]
    refine lineFree_joined_iff (trimmed fun line value picked => ?_)
    cases line <;> cases picked
    rfl
  · have buffer : (eventOf run).data = (joined (runData run)).trimSpace :=
      congrArg Bytes.trimSpace (dataBuf_gather _ run)
    rw [buffer]
    refine lineFree_joined_iff (trimmed fun line value picked => ?_)
    cases line <;> cases picked
    rfl

theorem NamedSpelling.exists_source (spelled : NamedSpelling codec.toEventCodec (eventOf run).payload id) :
    ∃ source, NamedSource run source ∧ (LineFree id ↔ source.OneLine) := by
  cases spelled with
  | json decoded nonempty =>
      obtain ⟨chars, read⟩ := (unmarshalString_iff codec nonempty).mp decoded
      exact ⟨_, .json read nonempty, lineFree_bytes_iff (faithful_of_parseTree read)⟩
  | raw undecoded nonempty other =>
      refine ⟨_, .raw (fun chars s read => ?_) nonempty other, ?_⟩
      · by_contra some
        exact some (undecoded s ((unmarshalString_iff codec some).mpr ⟨chars, read⟩))
      · rw [lineFree_trimQuotes_iff]
        exact lineFree_payload_iff

theorem NamedSource.exists_spelling (codec : TextCodec) (spelled : NamedSource run source) :
    ∃ id, NamedSpelling codec.toEventCodec (eventOf run).payload id ∧ (LineFree id ↔ source.OneLine) := by
  cases spelled with
  | json read nonempty =>
      have decoded := (unmarshalString_iff codec nonempty).mpr ⟨_, read⟩
      exact ⟨_, .json decoded nonempty, lineFree_bytes_iff (faithful_of_parseTree read)⟩
  | raw unread nonempty other =>
      refine ⟨_, .raw (fun s decoded => ?_) nonempty other, ?_⟩
      · by_contra some
        obtain ⟨chars, read⟩ := (unmarshalString_iff codec some).mp decoded
        exact some (unread chars s read)
      · rw [lineFree_trimQuotes_iff]
        exact lineFree_payload_iff

theorem unmarshal_iff (codec : TextCodec) {text : Bytes} {msg : Object} :
    codec.unmarshal text = .object msg none ↔ ∃ members, ReadsObject text members ∧ msg = decodedBody members := by
  constructor
  · intro decoded
    obtain ⟨values, parsed⟩ := codec.unmarshal_object decoded
    obtain ⟨err, same, whole⟩ := codec.unmarshal_text parsed
    rw [decoded] at same
    cases same
    rw [parse_eq_parseTree, Option.map_eq_some_iff] at parsed
    obtain ⟨tree, read, value⟩ := parsed
    cases tree with
    | obj members =>
        cases value
        exact ⟨members, ⟨read, whole.mp rfl⟩, rfl⟩
    | _ => cases value
  · rintro ⟨members, ⟨read, all⟩, rfl⟩
    have parsed : parse (decodeUtf8 text) = some (.obj (Tree.membersToJson members)) := by
      rw [parse_eq_parseTree, read, Option.map_some, Tree.toJson]
    obtain ⟨err, same, whole⟩ := codec.unmarshal_text parsed
    rw [whole.mpr all] at same
    exact same

theorem get_str_iff {members : List (String × Tree)} {key wid : String} :
    (decodedBody members).get key = some (.str wid) ↔ ∃ chars, Object.last key members = some (.str chars wid) := by
  rw [get_decodedBody, Option.map_eq_some_iff]
  constructor
  · rintro ⟨tree, last, same⟩
    cases tree with
    | str chars s =>
        cases same
        exact ⟨chars, last⟩
    | num numeral q =>
        rw [Tree.toJson, interpret] at same
        cases decoded : decodeFloat64 q <;> simp [decoded] at same
    | _ => simp [Tree.toJson, interpret] at same
  · rintro ⟨chars, last⟩
    exact ⟨_, last, rfl⟩

theorem get_obj_iff {members : List (String × Tree)} {key : String} {ann : Object} :
    (decodedBody members).get key = some (.obj ann) ↔
      ∃ inner, Object.last key members = some (.obj inner) ∧ ann = decodedBody inner := by
  rw [get_decodedBody, Option.map_eq_some_iff]
  constructor
  · rintro ⟨tree, last, same⟩
    cases tree with
    | obj inner =>
        rw [Tree.toJson, interpret] at same
        cases same
        exact ⟨inner, last, rfl⟩
    | num numeral q =>
        rw [Tree.toJson, interpret] at same
        cases decoded : decodeFloat64 q <;> simp [decoded] at same
    | _ => simp [Tree.toJson, interpret] at same
  · rintro ⟨inner, last, rfl⟩
    exact ⟨_, last, by rw [Tree.toJson, interpret]; rfl⟩

/-- A string in an object is as it is written. -/
theorem ReadsObject.faithful {text : Bytes} {members : List (String × Tree)} (read : ReadsObject text members)
    {key : String} {tree : Tree} (last : Object.last key members = some tree) : tree.Faithful := by
  have whole : Tree.FaithfulMembers members := faithful_of_parseTree read.1
  exact whole.of_mem (Object.last_eq_some last)

theorem ObjectSpelling.exists_source (spelled : ObjectSpelling codec.toEventCodec (eventOf run).data id) :
    ∃ source, ObjectSource run source ∧ (LineFree id ↔ source.OneLine) := by
  cases spelled with
  | root decoded given nonempty =>
      obtain ⟨members, read, rfl⟩ := (unmarshal_iff codec).mp decoded
      obtain ⟨chars, last⟩ := get_str_iff.mp given
      exact ⟨_, .root read last nonempty, lineFree_bytes_iff (read.faithful last)⟩
  | annotations decoded unset nested given nonempty =>
      obtain ⟨members, read, rfl⟩ := (unmarshal_iff codec).mp decoded
      obtain ⟨inner, outer, rfl⟩ := get_obj_iff.mp nested
      obtain ⟨chars, last⟩ := get_str_iff.mp given
      have inside : Tree.FaithfulMembers inner := read.faithful outer
      refine ⟨_, .annotations read (fun chars other top => ?_) outer last nonempty,
        lineFree_bytes_iff (inside.of_mem (Object.last_eq_some last))⟩
      exact unset other (get_str_iff.mpr ⟨chars, top⟩)

theorem ObjectSource.exists_spelling (codec : TextCodec) (spelled : ObjectSource run source) :
    ∃ id, ObjectSpelling codec.toEventCodec (eventOf run).data id ∧ (LineFree id ↔ source.OneLine) := by
  cases spelled with
  | root read given nonempty =>
      have decoded := (unmarshal_iff codec).mpr ⟨_, read, rfl⟩
      exact ⟨_, .root decoded (get_str_iff.mpr ⟨_, given⟩) nonempty, lineFree_bytes_iff (read.faithful given)⟩
  | annotations read unset nested given nonempty =>
      have decoded := (unmarshal_iff codec).mpr ⟨_, read, rfl⟩
      have inside : Tree.FaithfulMembers _ := read.faithful nested
      refine ⟨_, .annotations decoded (fun other top => ?_) (get_obj_iff.mpr ⟨_, nested, rfl⟩)
        (get_str_iff.mpr ⟨_, given⟩) nonempty, lineFree_bytes_iff (inside.of_mem (Object.last_eq_some given))⟩
      obtain ⟨chars, last⟩ := get_str_iff.mp top
      exact unset chars other last

theorem Spells.exists_source (spells : Spells codec.toEventCodec (eventOf run) id) :
    ∃ source, Source run source ∧ (LineFree id ↔ source.OneLine) := by
  cases spells with
  | named name carries spelled =>
      obtain ⟨source, found, free⟩ := spelled.exists_source
      exact ⟨source, .named name carries found, free⟩
  | object unnamed carries spelled =>
      obtain ⟨source, found, free⟩ := spelled.exists_source
      refine ⟨source, .object (fun name some other named => ?_) carries found, free⟩
      obtain ⟨id, spelled, _⟩ := named.exists_spelling codec
      exact unnamed name some id spelled

theorem Source.exists_spells (codec : TextCodec) (has : Source run source) :
    ∃ id, Spells codec.toEventCodec (eventOf run) id ∧ (LineFree id ↔ source.OneLine) := by
  cases has with
  | named name carries spelled =>
      obtain ⟨id, found, free⟩ := spelled.exists_spelling codec
      exact ⟨id, .named name carries found, free⟩
  | object unnamed carries spelled =>
      obtain ⟨id, found, free⟩ := spelled.exists_spelling codec
      refine ⟨id, .object (fun name some other named => ?_) carries found, free⟩
      obtain ⟨source, spelled, _⟩ := named.exists_source
      exact unnamed name some source spelled

end Sources

/-! ## The first event that has an id -/

/-- The run has an id or the end marker, and none of the earlier runs has. -/
def FirstRun (body : Bytes) (readErr : Option Err) (run : List Bytes) : Prop :=
  ∃ earlier later, flushedRuns body readErr = earlier ++ run :: later ∧
    ∀ other ∈ earlier, ¬(eventOf other).Done ∧ ∀ source, ¬Source other source

section First
variable {codec : TextCodec} {body : Bytes} {readErr : Option Err} {id : Bytes}

theorem silent_iff {run : List Bytes} :
    Silent codec.toEventCodec (eventOf run) ↔ ¬(eventOf run).Done ∧ ∀ source, ¬Source run source := by
  refine and_congr_right fun _ => ⟨fun unsaid source has => ?_, fun none id spells => ?_⟩
  · obtain ⟨id, spells, _⟩ := has.exists_spells codec
    exact unsaid id spells
  · obtain ⟨source, has, _⟩ := spells.exists_source
    exact none source has

theorem readEvents_eq_ok_iff : readEvents codec.toEventCodec body readErr = .ok id ↔
    ∃ run, FirstRun body readErr run ∧ ¬(eventOf run).Done ∧ Spells codec.toEventCodec (eventOf run) id := by
  have found : readEvents codec.toEventCodec body readErr = .ok id ↔
      firstAnswer codec.toEventCodec (eventsOf body readErr) = some (.ok id) := by
    rw [readEvents_eq]
    cases firstAnswer codec.toEventCodec (eventsOf body readErr) with
    | none => cases readErr <;> simp [endOf]
    | some answer => simp
  rw [found, firstAnswer, eventsOf_eq, List.findSome?_map, List.findSome?_eq_some_iff]
  constructor
  · rintro ⟨earlier, run, later, split, answered, before⟩
    refine ⟨run, ⟨earlier, later, split, fun other listed => ?_⟩, answer_eq_ok_iff.mp answered⟩
    exact silent_iff.mp (answer_eq_none_iff_silent.mp (before other listed))
  · rintro ⟨run, ⟨earlier, later, split, before⟩, spells⟩
    refine ⟨earlier, run, later, split, answer_eq_ok_iff.mpr spells, fun other listed => ?_⟩
    exact answer_eq_none_iff_silent.mpr (silent_iff.mpr (before other listed))

end First

theorem worker_header_of_id {wid : String} (nonempty : wid ≠ "") (hint : DestinationHint) (endpoint : String)
    (length : Nat) (ctx : RequestContext) :
    ∃ others, (StreamingServer.populateRequestHeaderResponse hint endpoint length
      (StreamingServer.setWorkerInstanceID (.ok wid) ctx)).reqHeaderResp =
      some ⟨.requestHeaders { clearRouteCache := true, setHeaders := others ++ [⟨"x-worker-instance-id", bytes wid⟩] },
        some (hint.dynamicMetadata endpoint)⟩ := by
  have set : StreamingServer.setWorkerInstanceID (.ok wid) ctx = { ctx with workerInstanceID := wid } := if_neg nonempty
  rw [set, StreamingServer.populateRequestHeaderResponse]
  dsimp only
  rw [if_neg nonempty]
  exact ⟨_, rfl⟩

/-- The id that is returned, and set as the value of the header, has a line break unless it is written on
one line and without an escape for one. -/
theorem worker_id_one_line_iff (codec : TextCodec) (body : Bytes) (readErr : Option Err) :
    (∀ id, readEvents codec.toEventCodec body readErr = .ok id → id ≠ [] ∧ LineFree id ∧
      ∀ wid hint endpoint length ctx, bytes wid = id →
        ∃ others, (StreamingServer.populateRequestHeaderResponse hint endpoint length
          (StreamingServer.setWorkerInstanceID (.ok wid) ctx)).reqHeaderResp =
            some ⟨.requestHeaders { clearRouteCache := true, setHeaders := others ++ [⟨"x-worker-instance-id", id⟩] },
              some (hint.dynamicMetadata endpoint)⟩) ↔
    ∀ run, FirstRun body readErr run → ¬(eventOf run).Done → ∀ source, Source run source → source.OneLine := by
  constructor
  · intro valid run first notDone source has
    obtain ⟨id, spells, free⟩ := has.exists_spells codec
    obtain ⟨_, line, _⟩ := valid id (readEvents_eq_ok_iff.mpr ⟨run, first, notDone, spells⟩)
    exact free.mp line
  · intro lines id read
    obtain ⟨run, first, notDone, spells⟩ := readEvents_eq_ok_iff.mp read
    obtain ⟨source, has, free⟩ := spells.exists_source
    refine ⟨spells.ne_nil, free.mpr (lines run first notDone source has), ?_⟩
    rintro wid hint endpoint length ctx rfl
    have nonempty : wid ≠ "" := by
      rintro rfl
      exact spells.ne_nil rfl
    exact worker_header_of_id nonempty hint endpoint length ctx

theorem escaped_newline_in_header :
    readEvents float64Codec.toEventCodec (bytes "event: worker_instance_id\ndata: \"a\\nb\"\n\n") none =
        .ok (bytes "a\nb") ∧
      10 ∈ bytes "a\nb" ∧
      (StreamingServer.populateRequestHeaderResponse ⟨"x-gateway-destination-endpoint", ""⟩ "10.0.0.1:8000" 0
        (StreamingServer.setWorkerInstanceID (.ok "a\nb") {})).reqHeaderResp =
          some ⟨.requestHeaders { clearRouteCache := true, setHeaders :=
            [⟨"x-gateway-destination-endpoint", bytes "10.0.0.1:8000"⟩, ⟨"x-worker-instance-id", bytes "a\nb"⟩] },
            some ⟨none, "x-gateway-destination-endpoint", "10.0.0.1:8000"⟩⟩ := by
  refine ⟨?_, ?_, ?_⟩
  · rfl
  · decide
  · rfl

end InferenceGateway.FrontEnd
