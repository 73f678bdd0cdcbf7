import InferenceGateway.Lib.Latest
import InferenceGateway.Proof.Handlers.StreamedResponses

/-!
The token usage of a streamed response, which the streaming server reads chunk by chunk.
-/

namespace InferenceGateway
open Lib JsonText

/-! ## Lines -/

namespace Bytes

theorem contains_iff {text part : Bytes} : text.contains part = true ↔ part <:+: text := by
  rw [contains, List.any_eq_true, List.infix_iff_prefix_suffix]
  simp only [List.mem_tails, List.isPrefixOf_iff_prefix]
  exact exists_congr fun _ => and_comm

/-- The lines of a tail are tails of the lines. -/
theorem exists_suffix_of_mem_lines {tail text : Bytes} (suffix : tail <:+ text) {piece : Bytes}
    (listed : piece ∈ tail.lines) : ∃ line ∈ text.lines, piece <:+ line := by
  induction text with
  | nil =>
      obtain rfl := List.suffix_nil.mp suffix
      exact ⟨piece, listed, List.suffix_rfl⟩
  | cons byte text ih =>
      rcases List.suffix_cons_iff.mp suffix with rfl | later
      · exact ⟨piece, listed, List.suffix_rfl⟩
      · obtain ⟨line, member, ends⟩ := ih later
        obtain ⟨first, more, split⟩ := List.exists_cons_of_ne_nil (lines_ne_nil text)
        rw [split] at member
        rw [lines, split]
        split_ifs
        · exact ⟨line, List.mem_cons_of_mem _ member, ends⟩
        · rcases List.mem_cons.mp member with rfl | other
          · exact ⟨byte :: line, List.mem_cons_self, ends.trans (List.suffix_cons byte line)⟩
          · exact ⟨line, List.mem_cons_of_mem _ other, ends⟩

/-- A text that ends with a newline, if it has any bytes. -/
def Closed (text : Bytes) : Prop := text = [] ∨ ∃ front, text = front ++ [10]

theorem Closed.of_suffix {text tail : Bytes} (closed : Closed text) (suffix : tail <:+ text) : Closed tail := by
  rcases List.eq_nil_or_concat tail with rfl | ⟨front, byte, rfl⟩
  · exact .inl rfl
  · rcases closed with rfl | ⟨before, rfl⟩
    · exact absurd (List.suffix_nil.mp suffix) (by simp)
    · obtain ⟨rest, split⟩ := suffix
      rw [List.concat_eq_append, ← List.append_assoc] at split
      have last := List.append_inj_right' split rfl
      exact .inr ⟨front, by rw [List.concat_eq_append, last]⟩

theorem eq_nil_of_mem_lines {blank line : Bytes} (newlines : ∀ byte ∈ blank, byte = 10) (listed : line ∈ blank.lines) :
    line = [] := by
  induction blank with
  | nil => exact List.mem_singleton.mp listed
  | cons byte blank ih =>
      obtain ⟨rfl, rest⟩ := List.forall_mem_cons.mp newlines
      rw [lines, if_pos rfl] at listed
      rcases List.mem_cons.mp listed with rfl | later
      · rfl
      · exact ih rest later

end Bytes

/-! ## What lines state -/

theorem Usage.get_fill (usage : Usage) (counters : Counter → Option Int) (counter : Counter) :
    (usage.fill counters).get counter = (counters counter).getD (usage.get counter) := by
  cases counter <;> rfl

/-- The counter that a line states: the prefix of the data lines, and then a JSON object with it. -/
def lineCounters (line : Bytes) (counter : Counter) : Option Int :=
  if streamingRespPrefix.isPrefixOf line then textCounters (line.drop streamingRespPrefix.length) counter else none

def stated (counter : Counter) (text : Bytes) : Option Int :=
  (text.lines.filterMap fun line => lineCounters line counter).getLast?

section Stated
variable {counter : Counter}

theorem stated_newline (front rest : Bytes) :
    stated counter (front ++ 10 :: rest) = (stated counter rest).or (stated counter front) := by
  rw [stated, Bytes.lines_append_newline, List.filterMap_append, List.getLast?_append, stated, stated]

theorem stated_line {line : Bytes} (one : 10 ∉ line) : stated counter line = lineCounters line counter := by
  rw [stated, Bytes.lines_of_not_mem one]
  cases states : lineCounters line counter <;> simp [states]

theorem stated_of_none {text : Bytes} (silent : ∀ line ∈ text.lines, lineCounters line counter = none) :
    stated counter text = none := by
  rw [stated, List.filterMap_eq_nil_iff.mpr silent, List.getLast?_nil]

theorem stated_nil : stated counter [] = none := stated_line List.not_mem_nil

theorem Bytes.Closed.stated_append {front : Bytes} (closed : front.Closed) (rest : Bytes) :
    stated counter (front ++ rest) = (stated counter rest).or (stated counter front) := by
  rcases closed with rfl | ⟨lines, rfl⟩
  · rw [stated_nil, Option.or_none, List.nil_append]
  · rw [List.append_assoc, List.singleton_append, stated_newline, stated_newline, stated_nil, Option.none_or]

theorem textCounters_done (counter : Counter) : textCounters (bytes "[DONE]") counter = none := by
  cases counter <;> decide +kernel

theorem stated_endMsg {blank : Bytes} (newlines : ∀ byte ∈ blank, byte = 10) :
    stated counter (streamingEndMsg ++ blank) = none := by
  have marker : stated counter streamingEndMsg = none := by
    rw [stated_line (by decide +kernel)]
    exact textCounters_done counter
  cases blank with
  | nil => rw [List.append_nil, marker]
  | cons byte blank =>
      obtain ⟨rfl, rest⟩ := List.forall_mem_cons.mp newlines
      rw [stated_newline, marker, Option.or_none]
      apply stated_of_none
      intro line listed
      rw [Bytes.eq_nil_of_mem_lines rest listed]
      rfl

end Stated

theorem get_readLine (codec : TextCodec) (response : Response) (line : Bytes) (counter : Counter) :
    (readLine codec.toCodec response line).usage.get counter =
      (lineCounters line counter).getD (response.usage.get counter) := by
  unfold readLine lineCounters
  cases data : streamingRespPrefix.isPrefixOf line with
  | false => simp
  | true =>
      by_cases marker : line.drop streamingRespPrefix.length = bytes "[DONE]"
      · simp [marker, textCounters_done]
      · simp [marker, codec.unmarshalResponse_usage, Usage.get_fill]

theorem get_parseRespForUsage (codec : TextCodec) (text : Bytes) (counter : Counter) :
    (parseRespForUsage codec.toCodec text).usage.get counter = (stated counter text).getD 0 := by
  have start : ({} : Response).usage.get counter = 0 := by cases counter <;> rfl
  rw [← start]
  exact @Latest.foldl_written _ _ _ _ (fun response : Response => response.usage.get counter) _
    (fun response line => get_readLine codec response line counter) text.lines {}

/-! ## Chunks -/

/-- A chunk with the end marker in it has a line that states a positive count, and no later one. -/
def Reports (counter : Counter) (chunk : Bytes) (n : Int) : Prop :=
  streamingEndMsg <:+: chunk ∧ 0 < n ∧ ∃ before line after, chunk.lines = before ++ line :: after ∧
    lineCounters line counter = some n ∧ ∀ later ∈ after, lineCounters later counter = none

/-- One chunk reports the count and no other chunk reports any; of a count that is not positive there is
no report. -/
def ReportedOnce (counter : Counter) (chunks : List Bytes) (n : Int) : Prop :=
  if 0 < n then
    ∃ before chunk after, chunks = before ++ chunk :: after ∧ Reports counter chunk n ∧
      ∀ other ∈ before ++ after, ∀ m, ¬ Reports counter other m
  else ∀ chunk ∈ chunks, ∀ m, ¬ Reports counter chunk m

theorem reports_iff {counter : Counter} {chunk : Bytes} {n : Int} :
    Reports counter chunk n ↔ streamingEndMsg <:+: chunk ∧ 0 < n ∧ stated counter chunk = some n := by
  rw [Reports, stated, Latest.getLast?_filterMap_eq_some_iff]

namespace StreamingServer
variable {codec : TextCodec} {counter : Counter}

theorem chunkTokens_cases (codec : TextCodec) (counter : Counter) (chunk : Bytes) :
    (∃ n, Reports counter chunk n ∧ chunkTokens codec.toCodec counter chunk = [n]) ∨
      (∀ n, ¬ Reports counter chunk n) ∧ chunkTokens codec.toCodec counter chunk = [] := by
  simp only [chunkTokens, reports_iff, get_parseRespForUsage, Bytes.contains_iff]
  by_cases marked : streamingEndMsg <:+: chunk
  · cases states : stated counter chunk with
    | none => simp [marked, tokenCount]
    | some n =>
        by_cases positive : 0 < n
        · simp [marked, tokenCount, positive]
        · simp [marked, tokenCount, positive]
          exact fun m above same => positive (same ▸ above)
  · simp [marked]

theorem chunkTokens_eq_nil_iff {chunk : Bytes} :
    chunkTokens codec.toCodec counter chunk = [] ↔ ∀ n, ¬ Reports counter chunk n := by
  rcases chunkTokens_cases codec counter chunk with ⟨n, reports, tokens⟩ | ⟨silent, tokens⟩
  · rw [tokens]
    exact iff_of_false (List.cons_ne_nil _ _) fun silent => silent n reports
  · exact iff_of_true tokens silent

theorem chunkTokens_eq_singleton_iff {chunk : Bytes} {n : Int} :
    chunkTokens codec.toCodec counter chunk = [n] ↔ Reports counter chunk n := by
  rcases chunkTokens_cases codec counter chunk with ⟨m, reports, tokens⟩ | ⟨silent, tokens⟩
  · rw [tokens]
    constructor
    · intro same
      cases same
      exact reports
    · intro again
      have states := (reports_iff.mp reports).2.2
      rw [(reports_iff.mp again).2.2] at states
      rw [Option.some.inj states]
  · rw [tokens]
    exact iff_of_false nofun (silent n)

theorem flatMap_chunkTokens_eq_iff {chunks : List Bytes} {n : Int} :
    chunks.flatMap (chunkTokens codec.toCodec counter) = tokenCount n ↔ ReportedOnce counter chunks n := by
  unfold tokenCount ReportedOnce
  split_ifs with positive
  · constructor
    · intro once
      rw [List.flatMap_def, List.flatten_eq_singleton_iff] at once
      obtain ⟨_, _, split, first, last⟩ := once
      obtain ⟨before, rest, rfl, rfl, later⟩ := List.map_eq_append_iff.mp split
      obtain ⟨chunk, after, rfl, reports, rfl⟩ := List.map_eq_cons_iff.mp later
      refine ⟨before, chunk, after, rfl, chunkTokens_eq_singleton_iff.mp reports, ?_⟩
      intro other member
      rw [← chunkTokens_eq_nil_iff]
      rcases List.mem_append.mp member with early | late
      · exact first _ (List.mem_map_of_mem early)
      · exact last _ (List.mem_map_of_mem late)
    · rintro ⟨before, chunk, after, rfl, reports, silent⟩
      obtain ⟨first, last⟩ := List.forall_mem_append.mp silent
      rw [List.flatMap_append, List.flatMap_cons, List.flatMap_eq_nil_iff.mpr fun other member =>
        chunkTokens_eq_nil_iff.mpr (first other member), List.flatMap_eq_nil_iff.mpr fun other member =>
        chunkTokens_eq_nil_iff.mpr (last other member), chunkTokens_eq_singleton_iff.mpr reports]
      rfl
  · rw [List.flatMap_eq_nil_iff]
    exact forall₂_congr fun chunk member => chunkTokens_eq_nil_iff

end StreamingServer

/-! ## Texts with one usage -/

/-- An event stream that ends with the end marker, and of whose lines only `line` states counters:
the lines before it, the lines between it and the end marker, and the empty lines after that. -/
structure UsageText where
  front : Bytes
  line : Bytes
  middle : Bytes
  blank : Bytes
  closed_front : front.Closed
  one_line : 10 ∉ line
  closed_middle : middle.Closed
  newlines : ∀ byte ∈ blank, byte = 10
  silent : ∀ other ∈ front.lines ++ middle.lines, ∀ counter, lineCounters other counter = none

namespace UsageText

def beforeMarker (text : UsageText) : Bytes := text.front ++ (text.line ++ 10 :: text.middle)

def whole (text : UsageText) : Bytes := text.beforeMarker ++ (streamingEndMsg ++ text.blank)

/-- The end marker is nowhere else in the text, and no part of a line up to its end is a data line with
counters but the usage line. -/
structure Plain (text : UsageText) : Prop where
  marker : ∀ before after, before ++ (streamingEndMsg ++ after) = text.whole → ∀ byte ∈ after, byte = 10
  tails : ∀ other ∈ text.front.lines ++ text.middle.lines, ∀ tail, tail <:+ other →
    ∀ counter, lineCounters tail counter = none
  tail : ∀ tail, tail <:+ text.line → tail ≠ text.line → ∀ counter, lineCounters tail counter = none

/-- No split lies between the beginning of the usage line and the end of the end marker. -/
def Together (text : UsageText) (chunks : List Bytes) : Prop :=
  ∃ before chunk after, chunks = before ++ chunk :: after ∧ before.flatten <+: text.front ∧
    text.beforeMarker ++ streamingEndMsg <+: before.flatten ++ chunk

def count (text : UsageText) (counter : Counter) : Int := (lineCounters text.line counter).getD 0

variable {text : UsageText} {counter : Counter}

/-- A chunk that begins at a line before the usage line, or at the usage line. -/
theorem stated_of_front {start after : Bytes} (closed : start.Closed) (silent : stated counter start = none)
    (newlines : ∀ byte ∈ after, byte = 10) :
    stated counter (start ++ (text.line ++ 10 :: text.middle) ++ (streamingEndMsg ++ after)) =
      lineCounters text.line counter := by
  have between : stated counter text.middle = none := stated_of_none fun other listed =>
    text.silent other (List.mem_append_right _ listed) counter
  rw [List.append_assoc, closed.stated_append, silent, List.append_assoc, List.cons_append, stated_newline,
    stated_line text.one_line, text.closed_middle.stated_append, stated_endMsg newlines, between, Option.none_or,
    Option.none_or, Option.or_none]

theorem reportedOnce_whole (text : UsageText) (counter : Counter) :
    ReportedOnce counter [text.whole] (text.count counter) := by
  have before : stated counter text.front = none := stated_of_none fun other listed =>
    text.silent other (List.mem_append_left _ listed) counter
  have whole : stated counter text.whole = lineCounters text.line counter :=
    stated_of_front text.closed_front before text.newlines
  have marked : streamingEndMsg <:+: text.whole := ⟨text.beforeMarker, text.blank, by simp [UsageText.whole]⟩
  rw [← @StreamingServer.flatMap_chunkTokens_eq_iff float64Codec, List.flatMap_singleton, StreamingServer.chunkTokens,
    if_pos (Bytes.contains_iff.mpr marked), get_parseRespForUsage, whole, count]

theorem eq_nil_of_marker {before before' tail : Bytes}
    (same : before ++ streamingEndMsg = before' ++ streamingEndMsg ++ tail) (newlines : ∀ byte ∈ tail, byte = 10) :
    tail = [] := by
  rcases List.eq_nil_or_concat tail with none | ⟨rest, byte, rfl⟩
  · exact none
  · obtain rfl : byte = 10 := newlines byte (by simp)
    have last := congrArg List.getLast? same
    rw [List.concat_eq_append, ← List.append_assoc, List.getLast?_concat,
      List.getLast?_append_of_ne_nil _ (by decide +kernel)] at last
    exact absurd last (by decide +kernel)

/-- What precedes the end marker, however the text is split. -/
theorem Plain.beforeMarker_eq (plain : text.Plain) {before after : Bytes}
    (split : before ++ (streamingEndMsg ++ after) = text.whole) :
    before = text.beforeMarker ∧ ∀ byte ∈ after, byte = 10 := by
  have rest := plain.marker before after split
  refine ⟨?_, rest⟩
  rw [UsageText.whole, ← List.append_assoc, ← List.append_assoc] at split
  rcases List.append_eq_append_iff.mp split with ⟨tail, same, tails⟩ | ⟨tail, same, tails⟩
  · have none := eq_nil_of_marker same fun byte listed => rest byte (by rw [tails]; exact List.mem_append_left _ listed)
    rw [none, List.append_nil] at same
    exact (List.append_cancel_right same).symm
  · have none := eq_nil_of_marker same fun byte listed =>
      text.newlines byte (by rw [tails]; exact List.mem_append_left _ listed)
    rw [none, List.append_nil] at same
    exact List.append_cancel_right same

theorem Plain.stated_suffix (plain : text.Plain) {start other : Bytes} (suffix : start <:+ other)
    (which : other = text.front ∨ other = text.middle) : stated counter start = none := by
  apply stated_of_none
  intro piece listed
  obtain ⟨whole, member, ends⟩ := Bytes.exists_suffix_of_mem_lines suffix listed
  refine plain.tails whole ?_ piece ends counter
  rcases which with rfl | rfl
  · exact List.mem_append_left _ member
  · exact List.mem_append_right _ member

/-- A chunk that begins behind the beginning of the usage line. -/
theorem Plain.stated_behind (plain : text.Plain) {cut start after : Bytes} (some : cut ≠ [])
    (split : cut ++ start = text.line ++ 10 :: text.middle) (newlines : ∀ byte ∈ after, byte = 10) :
    stated counter (start ++ (streamingEndMsg ++ after)) = none := by
  have within {tail : Bytes} (suffix : tail <:+ text.middle) :
      stated counter (tail ++ (streamingEndMsg ++ after)) = none := by
    rw [(text.closed_middle.of_suffix suffix).stated_append, stated_endMsg newlines,
      plain.stated_suffix suffix (.inr rfl), Option.or_none]
  rcases List.append_eq_append_iff.mp split with ⟨tail, line, rfl⟩ | ⟨more, rfl, rest⟩
  · have proper : tail ≠ text.line := by
      intro same
      rw [same] at line
      exact some (List.append_left_eq_self.mp line.symm)
    have ends : tail <:+ text.line := ⟨cut, line.symm⟩
    have one : 10 ∉ tail := fun listed => text.one_line (ends.subset listed)
    rw [List.append_assoc, List.cons_append, stated_newline, within List.suffix_rfl, stated_line one,
      plain.tail tail ends proper counter, Option.or_none]
  · cases more with
    | nil =>
        rw [List.nil_append] at rest
        rw [← rest, List.cons_append, ← List.nil_append (10 :: _), stated_newline, within List.suffix_rfl, stated_nil,
          Option.or_none]
    | cons byte more => exact within ⟨more, (List.cons.inj rest).2.symm⟩

/-- A chunk with the end marker in it states the counters of the usage line if it begins before that, and
otherwise none. -/
theorem Plain.stated_cases (plain : text.Plain) {chunks before after : List Bytes} {chunk : Bytes}
    (whole : chunks.flatten = text.whole) (split : chunks = before ++ chunk :: after)
    (marked : streamingEndMsg <:+: chunk) (counter : Counter) :
    (before.flatten <+: text.front ∧ text.beforeMarker ++ streamingEndMsg <+: before.flatten ++ chunk ∧
      stated counter chunk = lineCounters text.line counter) ∨
    ¬ before.flatten <+: text.front ∧ stated counter chunk = none := by
  obtain ⟨start, rest, rfl⟩ := marked
  have placed : (before.flatten ++ start) ++ (streamingEndMsg ++ (rest ++ after.flatten)) = text.whole := by
    rw [← whole, split]
    simp
  obtain ⟨position, newlines⟩ := plain.beforeMarker_eq placed
  have blank : ∀ byte ∈ rest, byte = 10 := fun byte listed => newlines byte (List.mem_append_left _ listed)
  have joined : text.beforeMarker ++ streamingEndMsg <+: before.flatten ++ (start ++ streamingEndMsg ++ rest) :=
    ⟨rest, by rw [← position]; simp⟩
  rw [List.append_assoc start]
  rcases List.append_eq_append_iff.mp position with ⟨lines, front, rfl⟩ | ⟨cut, front, behind⟩
  · have suffix : lines <:+ text.front := ⟨before.flatten, front.symm⟩
    refine .inl ⟨⟨lines, front.symm⟩, by simpa using joined, ?_⟩
    exact stated_of_front (text.closed_front.of_suffix suffix) (plain.stated_suffix suffix (.inl rfl)) blank
  · by_cases none : cut = []
    · subst none
      rw [List.append_nil] at front
      rw [List.nil_append] at behind
      refine .inl ⟨by rw [front], by simpa using joined, ?_⟩
      rw [← behind, ← List.nil_append (text.line ++ _)]
      exact stated_of_front (.inl rfl) stated_nil blank
    · refine .inr ⟨?_, plain.stated_behind none behind.symm blank⟩
      intro starts
      rw [front] at starts
      exact none (List.append_right_eq_self.mp (starts.eq_of_length_le (by simp)))

theorem Plain.not_marked (plain : text.Plain) {chunks before after : List Bytes} {chunk : Bytes}
    (whole : chunks.flatten = text.whole) (split : chunks = before ++ chunk :: after)
    (marked : streamingEndMsg <:+: chunk) : ∀ other ∈ before ++ after, ¬ streamingEndMsg <:+: other := by
  have position (front back : List Bytes) {part : Bytes} (place : chunks = front ++ part :: back)
      (inside : streamingEndMsg <:+: part) : front.flatten.length + streamingEndMsg.length ≤
        (text.beforeMarker ++ streamingEndMsg).length ∧
        (text.beforeMarker ++ streamingEndMsg).length ≤ (front.flatten ++ part).length := by
    obtain ⟨start, rest, rfl⟩ := inside
    have placed : (front.flatten ++ start) ++ (streamingEndMsg ++ (rest ++ back.flatten)) = text.whole := by
      rw [← whole, place]
      simp
    have same := (plain.beforeMarker_eq placed).1
    rw [← same]
    simp only [List.length_append]
    omega
  have some : 0 < streamingEndMsg.length := by decide +kernel
  have here := position before after split marked
  intro other listed inside
  rcases List.mem_append.mp listed with early | late
  · obtain ⟨first, second, rfl⟩ := List.append_of_mem early
    have there := position first (second ++ chunk :: after) (by rw [split, List.append_assoc, List.cons_append]) inside
    simp only [List.flatten_append, List.flatten_cons, List.length_append] at here there
    omega
  · obtain ⟨first, second, rfl⟩ := List.append_of_mem late
    have there := position (before ++ chunk :: first) second (by rw [split, List.append_assoc, List.cons_append]) inside
    simp only [List.flatten_append, List.flatten_cons, List.length_append] at here there
    omega

theorem Plain.reportedOnce_iff (plain : text.Plain) {chunks : List Bytes} (whole : chunks.flatten = text.whole)
    (counter : Counter) :
    ReportedOnce counter chunks (text.count counter) ↔ text.count counter ≤ 0 ∨ text.Together chunks := by
  unfold ReportedOnce
  split_ifs with positive
  · rw [or_iff_right (not_le.mpr positive)]
    constructor
    · rintro ⟨before, chunk, after, split, reports, _⟩
      obtain ⟨marked, _, states⟩ := reports_iff.mp reports
      rcases plain.stated_cases whole split marked counter with ⟨starts, ends, _⟩ | ⟨_, none⟩
      · exact ⟨before, chunk, after, split, starts, ends⟩
      · rw [states] at none
        cases none
    · rintro ⟨before, chunk, after, split, starts, ends⟩
      have marked : streamingEndMsg <:+: chunk := by
        obtain ⟨lines, front⟩ := starts
        rw [beforeMarker, ← front, List.append_assoc, List.append_assoc, List.prefix_append_right_inj] at ends
        exact (List.suffix_append _ _).isInfix.trans ((List.suffix_append _ _).isInfix.trans ends.isInfix)
      refine ⟨before, chunk, after, split, reports_iff.mpr ⟨marked, positive, ?_⟩, ?_⟩
      · rcases plain.stated_cases whole split marked counter with ⟨_, _, states⟩ | ⟨behind, _⟩
        · rw [states]
          unfold count at positive ⊢
          cases line : lineCounters text.line counter with
          | none =>
              rw [line] at positive
              exact absurd positive (lt_irrefl _)
          | some n => rfl
        · exact absurd starts behind
      · intro other listed n reports
        exact plain.not_marked whole split marked other listed (reports_iff.mp reports).1
  · rw [or_iff_left_of_imp fun _ => not_lt.mp positive]
    refine iff_of_true ?_ (not_lt.mp positive)
    intro chunk listed n reports
    obtain ⟨before, after, split⟩ := List.append_of_mem listed
    obtain ⟨marked, above, states⟩ := reports_iff.mp reports
    rcases plain.stated_cases whole split marked counter with ⟨_, _, same⟩ | ⟨_, none⟩
    · rw [states] at same
      rw [count, ← same] at positive
      exact positive above
    · rw [states] at none
      cases none

end UsageText

def UsageRecorded (text : UsageText) (recorded : List Metric) : Prop :=
  (observed recorded).inputs = tokenCount (text.count .promptTokens) ∧
    (observed recorded).outputs = tokenCount (text.count .completionTokens)

theorem streamed_usage_recorded_iff (codec : TextCodec) (hint : DestinationHint) (canSend : Nat → Bool)
    (backends : Nat → Backend) (requests : List ProcessingRequest)
    (only : ∀ message ∈ requests, message.isResponse = false) (headers : List HeaderValue)
    (eventStream : StreamingServer.isStreaming headers = true) (chunks : List Bytes) (last : Bytes) (text : UsageText)
    (split : (chunks ++ [last]).flatten = text.whole)
    (reaches : StreamingServer.Reaches codec.toCodec hint canSend backends (opening requests headers chunks)) :
    let recorded := (StreamingServer.process codec.toCodec hint canSend backends
      (streamedRun requests headers chunks last)).1.recorded
    (UsageRecorded text recorded ↔
      ReportedOnce .promptTokens (chunks ++ [last]) (text.count .promptTokens) ∧
        ReportedOnce .completionTokens (chunks ++ [last]) (text.count .completionTokens)) ∧
    (text.Plain → (UsageRecorded text recorded ↔
      (text.count .promptTokens ≤ 0 ∧ text.count .completionTokens ≤ 0) ∨ text.Together (chunks ++ [last]))) ∧
    (chunks = [] → UsageRecorded text recorded) := by
  intro recorded
  have each : UsageRecorded text recorded ↔
      ReportedOnce .promptTokens (chunks ++ [last]) (text.count .promptTokens) ∧
        ReportedOnce .completionTokens (chunks ++ [last]) (text.count .completionTokens) := by
    rw [UsageRecorded, StreamingServer.observed_streamedRun only eventStream reaches,
      StreamingServer.flatMap_chunkTokens_eq_iff, StreamingServer.flatMap_chunkTokens_eq_iff]
  refine ⟨each, ?_, ?_⟩
  · intro plain
    rw [each, plain.reportedOnce_iff split, plain.reportedOnce_iff split, and_or_right]
  · rintro rfl
    rw [List.nil_append, List.flatten_singleton] at split
    rw [each, List.nil_append, split]
    exact ⟨text.reportedOnce_whole .promptTokens, text.reportedOnce_whole .completionTokens⟩

def usageLine : Bytes :=
  bytes "data: \x7b\"usage\":\x7b\"prompt_tokens\":7,\"total_tokens\":17,\"completion_tokens\":10\x7d\x7d"

def completionLine : Bytes := bytes "data: \x7b\"choices\":[]\x7d"

theorem silent_of_list {pieces : List Bytes} (silent : ∀ piece ∈ pieces, lineCounters piece .promptTokens = none ∧
    lineCounters piece .completionTokens = none ∧ lineCounters piece .totalTokens = none) :
    ∀ piece ∈ pieces, ∀ counter, lineCounters piece counter = none := by
  intro piece listed counter
  obtain ⟨prompt, completion, total⟩ := silent piece listed
  cases counter <;> assumption

theorem completionLine_closed : Bytes.Closed (completionLine ++ [10, 10]) := .inr ⟨completionLine ++ [10], by simp⟩

theorem usageLine_one_line : 10 ∉ usageLine := by decide +kernel

theorem completionLine_silent :
    ∀ other ∈ Bytes.lines (completionLine ++ [10, 10]) ++ Bytes.lines [10], ∀ counter,
      lineCounters other counter = none :=
  silent_of_list (by decide +kernel)

def completionText : UsageText where
  front := completionLine ++ [10, 10]
  line := usageLine
  middle := [10]
  blank := [10]
  closed_front := completionLine_closed
  one_line := usageLine_one_line
  closed_middle := .inr ⟨[], rfl⟩
  newlines _ := List.mem_singleton.mp
  silent := completionLine_silent

theorem completionText_plain : completionText.Plain where
  marker before after split := by
    have tails : ∀ tail ∈ completionText.whole.tails, streamingEndMsg.isPrefixOf tail = true →
        ∀ byte ∈ tail.drop streamingEndMsg.length, byte = 10 := by decide +kernel
    have found := tails (streamingEndMsg ++ after) ((List.mem_tails _ _).mpr ⟨before, split⟩)
      (List.isPrefixOf_iff_prefix.mpr (List.prefix_append _ _))
    rwa [List.drop_left] at found
  tails other listed tail suffix := by
    have all : ∀ tail ∈ (completionText.front.lines ++ completionText.middle.lines).flatMap List.tails,
        ∀ counter, lineCounters tail counter = none := silent_of_list (by decide +kernel)
    exact all tail (List.mem_flatMap.mpr ⟨other, listed, (List.mem_tails _ _).mpr suffix⟩)
  tail tail suffix proper := by
    have all : ∀ tail ∈ completionText.line.tails.filter (· ≠ completionText.line),
        ∀ counter, lineCounters tail counter = none := silent_of_list (by decide +kernel)
    exact all tail (List.mem_filter.mpr ⟨(List.mem_tails _ _).mpr suffix, by simpa using proper⟩)

def markedChunk : Bytes := usageLine ++ bytes "\n\ndata: [DONE]\n"

theorem usage_with_marker_recorded :
    ([completionText.front] ++ [markedChunk]).flatten = completionText.whole ∧
    completionText.Plain ∧ completionText.count .promptTokens = 7 ∧ completionText.count .completionTokens = 10 ∧
    UsageRecorded completionText (StreamingServer.process float64Codec.toCodec testHint (fun _ => true)
      (fun _ => chatBackend) (streamedRun generateRequest eventStreamHeaders [completionText.front]
        markedChunk)).1.recorded := by
  have reaches : StreamingServer.Reaches float64Codec.toCodec testHint (fun _ => true) (fun _ => chatBackend)
      (opening generateRequest eventStreamHeaders [completionText.front]) := passes_of_ok (by decide +kernel)
  have split : ([completionText.front] ++ [markedChunk]).flatten = completionText.whole := by decide +kernel
  have recorded := (streamed_usage_recorded_iff float64Codec testHint (fun _ => true) (fun _ => chatBackend)
    generateRequest (by decide +kernel) eventStreamHeaders (by decide +kernel) [completionText.front] markedChunk
    completionText split reaches).2.1 completionText_plain
  refine ⟨split, completionText_plain, by decide +kernel, by decide +kernel, recorded.mpr (.inr ?_)⟩
  refine ⟨[completionText.front], markedChunk, [], rfl, ?_, ⟨[10], by decide +kernel⟩⟩
  rw [List.flatten_singleton]

theorem split_usage_not_recorded :
    ([completionText.front, usageLine ++ [10, 10]] ++ [bytes "data: [DONE]\n"]).flatten = completionText.whole ∧
    completionText.Plain ∧ completionText.count .promptTokens = 7 ∧ completionText.count .completionTokens = 10 ∧
    observed (StreamingServer.process float64Codec.toCodec testHint (fun _ => true) (fun _ => chatBackend)
      (streamedRun generateRequest eventStreamHeaders [completionText.front, usageLine ++ [10, 10]]
        (bytes "data: [DONE]\n"))).1.recorded = ⟨[0], [], []⟩ :=
  ⟨by decide +kernel, completionText_plain, by decide +kernel, by decide +kernel, by decide +kernel⟩

end InferenceGateway
