import InferenceGateway.BackendMetrics.Spec
import InferenceGateway.Lib.Latest

/-!
The strings that are metric specs, and what they are read as.
-/

namespace InferenceGateway.BackendMetrics
open Lib

/-! ## The grammar -/

structure Pair (piece left right : List Char) : Prop where
  text : piece = left ++ '=' :: right
  once : '=' ∉ left ∧ '=' ∉ right
  nonempty : trimSpace left ≠ [] ∧ trimSpace right ≠ []

structure Labelled (text name block : List Char) : Prop where
  text : text = name ++ '{' :: (block ++ ['}'])
  nameFree : '{' ∉ name ∧ '}' ∉ name
  named : trimSpace name ≠ []
  blockFree : '}' ∉ block
  nonempty : block ≠ []
  pairs : ∀ piece ∈ block.splitOn ',', ∃ left right, Pair piece left right

def pieceLabel (piece : List Char) : String × String :=
  (.ofList (trimSpace (piece.takeWhile (· ≠ '='))), .ofList (trimSpace (piece.dropWhile (· ≠ '=')).tail))

/-- The value of a label in a block. The last one counts. -/
def lastValue (pieces : List (List Char)) (name : String) : Option String :=
  (pieces.filterMap fun piece => if (pieceLabel piece).1 = name then some (pieceLabel piece).2 else none).getLast?

inductive Denotes (text : List Char) : MetricSpec → Prop
  | plain (nonempty : text ≠ []) (free : '{' ∉ text ∧ '}' ∉ text) : Denotes text ⟨.ofList text, some ∅⟩
  | labelled {name block : List Char} {labels : Labels} (labelled : Labelled text name block)
      (values : ∀ label, labels.lookup label = lastValue (block.splitOn ',') label) :
      Denotes text ⟨.ofList (trimSpace name), some labels⟩

/-! ## Positions -/

section Positions
variable {text before : List Char} {c : Char}

theorem trimSpace_append_cons (separator : c ∉ spaces) (left right : List Char) :
    trimSpace (left ++ c :: right) = left.dropWhile (· ∈ spaces) ++ c :: right.rdropWhile (· ∈ spaces) := by
  apply Strip.strip_append_cons
  exact decide_eq_false separator

theorem rdropWhile_append_cons (separator : c ∉ spaces) (left right : List Char) :
    (left ++ c :: right).rdropWhile (· ∈ spaces) = left ++ c :: right.rdropWhile (· ∈ spaces) := by
  apply Strip.rdropWhile_append_cons
  exact decide_eq_false separator

theorem trimSpace_dropWhile (text : List Char) : trimSpace (text.dropWhile (· ∈ spaces)) = trimSpace text :=
  Strip.strip_dropWhile text

theorem trimSpace_rdropWhile (text : List Char) : trimSpace (text.rdropWhile (· ∈ spaces)) = trimSpace text :=
  Strip.strip_rdropWhile text

theorem index_of_notMem (absent : c ∉ text) : index text c = -1 := if_neg absent

theorem index_append_cons (absent : c ∉ before) (after : List Char) :
    index (before ++ c :: after) c = before.length := by
  rw [index, if_pos (by simp), List.idxOf_append_of_notMem absent]
  simp

theorem slice_middle (before middle after : List Char) :
    slice (before ++ middle ++ after) before.length (before.length + middle.length) = some middle := by
  rw [slice, if_pos (by simp)]
  have upTo : ((before.length : Int) + middle.length).toNat = (before ++ middle).length := by simp; omega
  rw [upTo, List.take_left, Int.toNat_natCast, List.drop_left]

end Positions

/-! ## The three shapes of a string -/

inductive Shape (text : List Char) : Prop
  | plain (free : '{' ∉ text ∧ '}' ∉ text)
  | malformed (braces : '{' ∈ text ∨ '}' ∈ text)
      (apart : index text '{' = -1 ∨ index text '}' = -1 ∨ index text '}' ≤ index text '{' + 1)
  | block (name block after : List Char) (nameFree : '{' ∉ name ∧ '}' ∉ name) (blockFree : '}' ∉ block)
      (nonempty : block ≠ []) (shape : text = name ++ '{' :: (block ++ '}' :: after))

section Shapes
variable {text name block after : List Char}

theorem index_closing (nameFree : '{' ∉ name ∧ '}' ∉ name) (blockFree : '}' ∉ block) (after : List Char) :
    index (name ++ '{' :: (block ++ '}' :: after)) '}' = name.length + 1 + block.length := by
  have clear : '}' ∉ name ++ '{' :: block := by simp [nameFree.2, blockFree]
  rw [← List.cons_append, ← List.append_assoc, index_append_cons clear]
  simp
  omega

theorem shape (text : List Char) : Shape text := by
  by_cases free : '{' ∉ text ∧ '}' ∉ text
  · exact .plain free
  by_cases apart : index text '{' = -1 ∨ index text '}' = -1 ∨ index text '}' ≤ index text '{' + 1
  · exact .malformed (by tauto) apart
  obtain ⟨noOpening, noClosing, order⟩ := by simpa only [not_or] using apart
  have opens : '{' ∈ text := Decidable.not_not.mp fun absent => noOpening (index_of_notMem absent)
  have closes : '}' ∈ text := Decidable.not_not.mp fun absent => noClosing (index_of_notMem absent)
  obtain ⟨name, tail, rfl, nameOpen⟩ := List.eq_append_cons_of_mem opens
  rw [index_append_cons nameOpen] at order
  -- a closing brace in the name would be the first one
  have nameClosed : '}' ∉ name := by
    intro member
    obtain ⟨left, right, rfl, clear⟩ := List.eq_append_cons_of_mem member
    rw [List.append_assoc, List.cons_append, index_append_cons clear] at order
    simp at order
    omega
  have tailCloses : '}' ∈ tail := by simpa [nameClosed] using closes
  obtain ⟨block, after, rfl, blockFree⟩ := List.eq_append_cons_of_mem tailCloses
  rw [index_closing ⟨nameOpen, nameClosed⟩ blockFree] at order
  refine .block name block after ⟨nameOpen, nameClosed⟩ blockFree ?_ rfl
  rintro rfl
  simp at order

theorem parseSpec_of_plain (free : '{' ∉ text ∧ '}' ∉ text) : parseSpec text = some (namedSpec text text ∅) := by
  simp [parseSpec, index_of_notMem free.1, index_of_notMem free.2]

theorem parseSpec_of_malformed (braces : '{' ∈ text ∨ '}' ∈ text)
    (apart : index text '{' = -1 ∨ index text '}' = -1 ∨ index text '}' ≤ index text '{' + 1) :
    parseSpec text = some (.error (.malformedBlock text)) := by
  have present : index text '{' ≠ -1 ∨ index text '}' ≠ -1 := by
    apply braces.imp
    · intro member
      rw [index, if_pos member]
      omega
    · intro member
      rw [index, if_pos member]
      omega
  rw [parseSpec, if_pos present, if_pos apart]

theorem parseSpec_of_block (nameFree : '{' ∉ name ∧ '}' ∉ name) (blockFree : '}' ∉ block) (nonempty : block ≠ [])
    (shape : text = name ++ '{' :: (block ++ '}' :: after)) :
    parseSpec text = some (do
      let labels ← (block.splitOn ',').foldlM (addLabel text) ∅
      if after ≠ [] then throw (.trailing text)
      namedSpec text (trimSpace name) labels) := by
  have start : index text '{' = name.length := by rw [shape, index_append_cons nameFree.1]
  have stop : index text '}' = name.length + 1 + block.length := by rw [shape, index_closing nameFree blockFree]
  have first : slice text 0 name.length = some name := by
    have cut := slice_middle [] name ('{' :: (block ++ '}' :: after))
    rw [List.nil_append, List.length_nil, Nat.cast_zero, zero_add] at cut
    rw [shape, cut]
  have second : slice text (name.length + 1) (name.length + 1 + block.length) = some block := by
    have cut := slice_middle (name ++ ['{']) block ('}' :: after)
    rw [shape]
    simpa using cut
  have long : 0 < block.length := List.length_pos_iff.mpr nonempty
  have last : (index text '}' ≠ text.length - 1) ↔ after ≠ [] := by
    rw [stop, shape, ← List.length_pos_iff]
    simp only [List.length_append, List.length_cons]
    omega
  simp only [parseSpec, last]
  rw [if_pos (.inl (by rw [start]; omega)), if_neg (by rw [start, stop]; omega), start, stop, first, second]
  rfl

end Shapes

/-! ## Labels -/

section Pieces
variable {piece left right specStr : List Char} {labels labels' : Labels}

theorem Pair.label (pair : Pair piece left right) :
    pieceLabel piece = (.ofList (trimSpace left), .ofList (trimSpace right)) := by
  have clear : ∀ c ∈ left, (decide (c ≠ '=')) = true := by
    intro c member
    exact decide_eq_true fun same => pair.once.1 (same ▸ member)
  rw [pieceLabel, pair.text, List.takeWhile_append_of_pos clear, List.dropWhile_append_of_pos clear]
  simp

theorem splitOn_pair (absent : '=' ∉ left) (right : List Char) :
    (trimSpace (left ++ '=' :: right)).splitOn '=' =
      left.dropWhile (· ∈ spaces) :: (right.rdropWhile (· ∈ spaces)).splitOn '=' := by
  have clear : '=' ∉ left.dropWhile (· ∈ spaces) := fun member => absent ((List.dropWhile_suffix _).subset member)
  rw [trimSpace_append_cons (by decide), List.splitOn_append_cons_of_beq _ _ (by simp), List.splitOn_eq_singleton clear,
    List.singleton_append]

theorem addLabel_of_once (once : '=' ∉ left ∧ '=' ∉ right) :
    addLabel specStr labels (left ++ '=' :: right) =
      if trimSpace left = [] ∨ trimSpace right = [] then
        .error (.emptyLabel (trimSpace (left ++ '=' :: right)) specStr)
      else .ok (labels.insert (.ofList (trimSpace left)) (.ofList (trimSpace right))) := by
  have clear : '=' ∉ right.rdropWhile (· ∈ spaces) :=
    fun member => once.2 ((List.rdropWhile_prefix _ _).subset member)
  simp only [addLabel, splitOn_pair once.1, List.splitOn_eq_singleton clear, trimSpace_dropWhile,
    trimSpace_rdropWhile]

theorem addLabel_of_absent (absent : '=' ∉ piece) :
    addLabel specStr labels piece = .error (.invalidPair (trimSpace piece) specStr) := by
  have clear : '=' ∉ trimSpace piece := fun member => absent (Strip.mem_strip member)
  simp only [addLabel, List.splitOn_eq_singleton clear]

theorem addLabel_of_twice (absent : '=' ∉ left) (again : '=' ∈ right) :
    addLabel specStr labels (left ++ '=' :: right) =
      .error (.invalidPair (trimSpace (left ++ '=' :: right)) specStr) := by
  obtain ⟨first, rest, rfl, -⟩ := List.eq_append_cons_of_mem again
  have third := List.splitOn_ne_nil '=' (rest.rdropWhile (· ∈ spaces))
  have parts : ((first ++ '=' :: rest).rdropWhile (· ∈ spaces)).splitOn '=' =
      first.splitOn '=' ++ (rest.rdropWhile (· ∈ spaces)).splitOn '=' := by
    rw [rdropWhile_append_cons (by decide), List.splitOn_append_cons_of_beq _ _ (by simp)]
  have second := List.splitOn_ne_nil '=' first
  obtain ⟨a, as, secondShape⟩ := List.exists_cons_of_ne_nil second
  obtain ⟨b, bs, thirdShape⟩ := List.exists_cons_of_ne_nil third
  simp only [addLabel, splitOn_pair absent, parts, secondShape, thirdShape]
  cases as <;> rfl

theorem addLabel_of_pair (pair : Pair piece left right) :
    addLabel specStr labels piece = .ok (labels.insert (pieceLabel piece).1 (pieceLabel piece).2) := by
  rw [pair.label, pair.text, addLabel_of_once pair.once, if_neg (not_or.mpr pair.nonempty)]

theorem exists_pair_of_addLabel (added : addLabel specStr labels piece = .ok labels') :
    ∃ left right, Pair piece left right := by
  by_cases absent : '=' ∉ piece
  · rw [addLabel_of_absent absent] at added
    cases added
  obtain ⟨left, right, rfl, before⟩ := List.eq_append_cons_of_mem (Decidable.not_not.mp absent)
  by_cases again : '=' ∈ right
  · rw [addLabel_of_twice before again] at added
    cases added
  rw [addLabel_of_once ⟨before, again⟩] at added
  split at added
  · cases added
  · rename_i nonempty
    exact ⟨left, right, rfl, ⟨before, again⟩, not_or.mp nonempty⟩

def insertPiece (labels : Labels) (piece : List Char) : Labels :=
  labels.insert (pieceLabel piece).1 (pieceLabel piece).2

theorem foldlM_addLabel {pieces : List (List Char)} (pairs : ∀ piece ∈ pieces, ∃ left right, Pair piece left right)
    (labels : Labels) : pieces.foldlM (addLabel specStr) labels = .ok (pieces.foldl insertPiece labels) := by
  induction pieces generalizing labels with
  | nil => rfl
  | cons piece pieces ih =>
      obtain ⟨⟨left, right, pair⟩, others⟩ := List.forall_mem_cons.mp pairs
      rw [List.foldlM_cons, addLabel_of_pair pair]
      exact ih others _

theorem pairs_of_foldlM {pieces : List (List Char)} (added : pieces.foldlM (addLabel specStr) labels = .ok labels') :
    ∀ piece ∈ pieces, ∃ left right, Pair piece left right := by
  induction pieces generalizing labels with
  | nil => exact List.forall_mem_nil _
  | cons piece pieces ih =>
      rw [List.foldlM_cons] at added
      cases first : addLabel specStr labels piece with
      | error err =>
          rw [first] at added
          cases added
      | ok next =>
          rw [first] at added
          exact List.forall_mem_cons.mpr ⟨exists_pair_of_addLabel first, ih added⟩

theorem lookup_insertPiece (labels : Labels) (piece : List Char) (name : String) :
    (insertPiece labels piece).lookup name =
      (if (pieceLabel piece).1 = name then some (some (pieceLabel piece).2) else none).getD (labels.lookup name) := by
  split
  · rename_i same
    rw [← same, insertPiece, Finmap.lookup_insert, Option.getD_some]
  · rename_i other
    rw [insertPiece, Finmap.lookup_insert_of_ne _ (Ne.symm other), Option.getD_none]

theorem lookup_foldl_insertPiece (pieces : List (List Char)) (name : String) :
    (pieces.foldl insertPiece ∅).lookup name = lastValue pieces name := by
  have written := @Latest.foldl_written _ _ _ _ (fun labels : Labels => labels.lookup name) _
    (fun labels piece => lookup_insertPiece labels piece name) pieces ∅
  have wrapped : pieces.filterMap (fun piece =>
      if (pieceLabel piece).1 = name then some (some (pieceLabel piece).2) else none) =
        (pieces.filterMap fun piece =>
          if (pieceLabel piece).1 = name then some (pieceLabel piece).2 else none).map some := by
    rw [List.map_filterMap]
    congr
    funext piece
    split <;> rfl
  rw [written, wrapped, List.getLast?_map, lastValue, Finmap.lookup_empty]
  cases List.getLast? _ <;> rfl

end Pieces

/-! ## Reading a string -/

section Reading
variable {text : List Char} {result : Option MetricSpec} {spec : MetricSpec}

theorem namedSpec_of_nonempty {metricName : List Char} (nonempty : metricName ≠ []) (labels : Labels) :
    namedSpec text metricName labels = .ok (some ⟨.ofList metricName, some labels⟩) := if_neg nonempty

theorem nonempty_of_namedSpec {metricName : List Char} {labels : Labels}
    (named : namedSpec text metricName labels = .ok result) :
    metricName ≠ [] ∧ result = some ⟨.ofList metricName, some labels⟩ := by
  rw [namedSpec] at named
  split at named
  · cases named
  · rename_i nonempty
    cases named
    exact ⟨nonempty, rfl⟩

theorem parseSpec_of_denotes (denotes : Denotes text spec) : parseSpec text = some (.ok (some spec)) := by
  cases denotes with
  | plain nonempty free => rw [parseSpec_of_plain free, namedSpec_of_nonempty nonempty]
  | @labelled name block labels labelled values =>
      have same : labels = (block.splitOn ',').foldl insertPiece ∅ := by
        apply Finmap.ext_lookup
        intro label
        rw [values, lookup_foldl_insertPiece]
      rw [parseSpec_of_block labelled.nameFree labelled.blockFree labelled.nonempty labelled.text,
        foldlM_addLabel labelled.pairs, same]
      exact congrArg some (namedSpec_of_nonempty labelled.named _)

theorem denotes_of_parseSpec (parsed : parseSpec text = some (.ok result)) :
    ∃ spec, result = some spec ∧ Denotes text spec := by
  cases shape text with
  | plain free =>
      rw [parseSpec_of_plain free] at parsed
      obtain ⟨nonempty, rfl⟩ := nonempty_of_namedSpec (Option.some.inj parsed)
      exact ⟨_, rfl, .plain nonempty free⟩
  | malformed braces apart =>
      rw [parseSpec_of_malformed braces apart] at parsed
      cases parsed
  | block name block after nameFree blockFree nonempty shape =>
      rw [parseSpec_of_block nameFree blockFree nonempty shape] at parsed
      have done := Option.some.inj parsed
      cases added : (block.splitOn ',').foldlM (addLabel text) ∅ with
      | error err =>
          rw [added] at done
          cases done
      | ok labels =>
          have pairs := pairs_of_foldlM added
          rw [added] at done
          cases after with
          | cons c rest => cases done
          | nil =>
              obtain ⟨named, rfl⟩ := nonempty_of_namedSpec done
              refine ⟨_, rfl, .labelled ⟨shape, nameFree, named, blockFree, nonempty, pairs⟩ fun label => ?_⟩
              rw [foldlM_addLabel pairs] at added
              cases added
              exact lookup_foldl_insertPiece _ label

/-- What a flag stands for: a spec that is read from it, or none if it is left empty. -/
def Configures (s : String) : Option MetricSpec → Prop
  | none => s = ""
  | some spec => s ≠ "" ∧ Denotes (trimSpace s.toList) spec

theorem stringToMetricSpec_ok_iff {s : String} :
    stringToMetricSpec s = some (.ok result) ↔ Configures s result := by
  rw [stringToMetricSpec]
  split
  · rename_i empty
    cases result with
    | none => exact iff_of_true rfl empty
    | some spec => exact iff_of_false (by simp) fun configured => configured.1 empty
  · rename_i nonempty
    constructor
    · intro parsed
      obtain ⟨spec, rfl, denotes⟩ := denotes_of_parseSpec parsed
      exact ⟨nonempty, denotes⟩
    · intro configured
      cases result with
      | none => exact absurd configured nonempty
      | some spec => exact parseSpec_of_denotes configured.2

theorem parseSpec_ne_none (text : List Char) : parseSpec text ≠ none := by
  cases shape text with
  | plain free => simp [parseSpec_of_plain free]
  | malformed braces apart => simp [parseSpec_of_malformed braces apart]
  | block name block after nameFree blockFree nonempty shape =>
      simp [parseSpec_of_block nameFree blockFree nonempty shape]

end Reading

/-! ## Printing -/

def Blank (text : List Char) : Prop := Strip.Blank (· ∈ spaces) text

structure Token (token : String) : Prop where
  nonempty : token ≠ ""
  trimmed : trimSpace token.toList = token.toList
  free : ∀ c ∈ ['{', '}', ',', '='], c ∉ token.toList

def Padded (token : String) (text : List Char) : Prop :=
  ∃ left right, Blank left ∧ Blank right ∧ text = left ++ token.toList ++ right

def PrintedLabel (label : String × String) (piece : List Char) : Prop :=
  ∃ left right, Padded label.1 left ∧ Padded label.2 right ∧ piece = left ++ '=' :: right

/-- The labels are printed in the order of the list. Without labels there is no block. -/
inductive Printed (name : String) : List (String × String) → List Char → Prop
  | plain {text : List Char} (padded : Padded name text) : Printed name [] text
  | labelled {order : List (String × String)} {pieces : List (List Char)} {front after : List Char}
      (nonempty : order ≠ []) (padded : Padded name front) (printed : List.Forall₂ PrintedLabel order pieces)
      (blank : Blank after) : Printed name order (front ++ '{' :: ([','].intercalate pieces ++ '}' :: after))

/-- The labels of a map, each of them once, in some order. -/
structure Listing (labels : Labels) (order : List (String × String)) : Prop where
  nodup : (order.map Prod.fst).Nodup
  listed : ∀ name value, labels.lookup name = some value ↔ (name, value) ∈ order

structure Printable (spec : MetricSpec) : Prop where
  name : Token spec.metricName
  labels : ∀ name value, (spec.labels.getD ∅).lookup name = some value → Token name ∧ Token value

section Printing
variable {token : String} {text piece : List Char} {label : String × String} {c : Char}

theorem trimSpace_of_padded (plain : Token token) (padded : Padded token text) :
    trimSpace text = token.toList := by
  obtain ⟨left, right, blankLeft, blankRight, rfl⟩ := padded
  rw [trimSpace, Strip.strip_pad blankLeft blankRight]
  exact plain.trimmed

theorem toList_ne_nil (plain : Token token) : token.toList ≠ [] := by
  intro empty
  exact plain.nonempty (String.toList_eq_nil_iff.mp empty)

theorem notMem_of_padded (plain : Token token) (padded : Padded token text) (separator : c ∈ ['{', '}', ',', '=']) :
    c ∉ text := by
  obtain ⟨left, right, blankLeft, blankRight, rfl⟩ := padded
  have solid : c ∉ spaces := by
    simp only [List.mem_cons, List.not_mem_nil, or_false] at separator
    rcases separator with rfl | rfl | rfl | rfl <;> decide
  have clearLeft : c ∉ left := fun member => solid (of_decide_eq_true (blankLeft c member))
  have clearRight : c ∉ right := fun member => solid (of_decide_eq_true (blankRight c member))
  simp [clearLeft, clearRight, plain.free c separator]

theorem pair_of_printed (plain : Token label.1 ∧ Token label.2) (printed : PrintedLabel label piece) :
    (∃ left right, Pair piece left right) ∧ pieceLabel piece = label ∧ ',' ∉ piece ∧ '}' ∉ piece := by
  obtain ⟨left, right, name, value, rfl⟩ := printed
  have trimName := trimSpace_of_padded plain.1 name
  have trimValue := trimSpace_of_padded plain.2 value
  have pair : Pair (left ++ '=' :: right) left right := by
    constructor
    · rfl
    · exact ⟨notMem_of_padded plain.1 name (by simp), notMem_of_padded plain.2 value (by simp)⟩
    · rw [trimName, trimValue]
      exact ⟨toList_ne_nil plain.1, toList_ne_nil plain.2⟩
  refine ⟨⟨left, right, pair⟩, ?_, ?_, ?_⟩
  · rw [pair.label, trimName, trimValue, String.ofList_toList, String.ofList_toList]
  · simp [notMem_of_padded plain.1 name, notMem_of_padded plain.2 value]
  · simp [notMem_of_padded plain.1 name, notMem_of_padded plain.2 value]

theorem notMem_intercalate {pieces : List (List Char)} (separator : c ≠ ',') (clear : ∀ piece ∈ pieces, c ∉ piece) :
    c ∉ [','].intercalate pieces := by
  induction pieces with
  | nil => simp
  | cons piece pieces ih =>
      obtain ⟨first, others⟩ := List.forall_mem_cons.mp clear
      cases pieces with
      | nil => simpa using first
      | cons next pieces =>
          rw [List.intercalate_cons_cons]
          simp [first, separator, ih others]

/-- Where no label is repeated, the last value of a label is its value. -/
theorem lastValue_of_nodup {pieces : List (List Char)} (nodup : ((pieces.map pieceLabel).map Prod.fst).Nodup)
    (name value : String) : lastValue pieces name = some value ↔ (name, value) ∈ pieces.map pieceLabel := by
  have found : ∀ value, value ∈ (pieces.filterMap fun piece =>
      if (pieceLabel piece).1 = name then some (pieceLabel piece).2 else none) ↔
        (name, value) ∈ pieces.map pieceLabel := by
    intro value
    simp only [List.mem_filterMap, List.mem_map, Option.ite_none_right_eq_some, Option.some.injEq, Prod.ext_iff]
  constructor
  · intro last
    exact (found value).mp (List.mem_of_getLast? last)
  · intro listed
    have member := (found value).mpr listed
    have isLast := List.getLast?_eq_some_getLast (List.ne_nil_of_mem member)
    have other := (found _).mp (List.mem_of_getLast? isLast)
    have same := List.inj_on_of_nodup_map nodup other listed rfl
    rw [lastValue, isLast, (Prod.mk.inj same).2]

theorem pairs_of_printed {order : List (String × String)} {pieces : List (List Char)}
    (plain : ∀ label ∈ order, Token label.1 ∧ Token label.2) (printed : List.Forall₂ PrintedLabel order pieces) :
    pieces.map pieceLabel = order ∧
      ∀ piece ∈ pieces, (∃ left right, Pair piece left right) ∧ ',' ∉ piece ∧ '}' ∉ piece := by
  induction printed with
  | nil => simp
  | @cons label piece order pieces first _ ih =>
      obtain ⟨plainFirst, plainOthers⟩ := List.forall_mem_cons.mp plain
      obtain ⟨pair, labels, clear⟩ := pair_of_printed plainFirst first
      obtain ⟨others, pairs⟩ := ih plainOthers
      exact ⟨by rw [List.map_cons, labels, others], List.forall_mem_cons.mpr ⟨⟨pair, clear⟩, pairs⟩⟩

theorem labelled_of_printed {front after : List Char} {pieces : List (List Char)} (plain : Token token)
    (padded : Padded token front) (nonempty : pieces ≠ [])
    (pairs : ∀ piece ∈ pieces, (∃ left right, Pair piece left right) ∧ ',' ∉ piece ∧ '}' ∉ piece)
    (blank : Blank after) :
    Labelled (trimSpace (front ++ '{' :: ([','].intercalate pieces ++ '}' :: after)))
      (front.dropWhile (· ∈ spaces)) ([','].intercalate pieces) := by
  have split := List.splitOn_intercalate ',' (fun piece member => (pairs piece member).2.1) nonempty
  have inside {c : Char} (separator : c ∈ ['{', '}', ',', '=']) : c ∉ front.dropWhile (· ∈ spaces) :=
    fun member => notMem_of_padded plain padded separator ((List.dropWhile_suffix _).subset member)
  constructor
  · rw [trimSpace_append_cons (by decide), rdropWhile_append_cons (by decide),
      List.rdropWhile_eq_nil_iff.mpr blank]
  · exact ⟨inside (by simp), inside (by simp)⟩
  · rw [trimSpace_dropWhile, trimSpace_of_padded plain padded]
    exact toList_ne_nil plain
  · exact notMem_intercalate (by decide) fun piece member => (pairs piece member).2.2
  · intro empty
    rw [empty] at split
    -- the piece of an empty block is empty, and no label is
    obtain ⟨left, right, pair⟩ := (pairs [] (by simp [← split])).1
    exact List.append_ne_nil_of_right_ne_nil _ (List.cons_ne_nil _ _) pair.text.symm
  · rw [split]
    exact fun piece member => (pairs piece member).1

theorem denotes_of_printed {spec : MetricSpec} {order : List (String × String)} (printable : Printable spec)
    (listing : Listing (spec.labels.getD ∅) order) (printed : Printed spec.metricName order text) :
    Denotes (trimSpace text) ⟨spec.metricName, some (spec.labels.getD ∅)⟩ := by
  cases printed with
  | plain padded =>
      have empty : spec.labels.getD ∅ = ∅ := by
        apply Finmap.ext_lookup
        intro name
        apply Option.eq_none_iff_forall_not_mem.mpr
        intro value found
        exact List.not_mem_nil ((listing.listed name value).mp found)
      have denotes := Denotes.plain (toList_ne_nil printable.name)
        ⟨printable.name.free '{' (by simp), printable.name.free '}' (by simp)⟩
      rw [String.ofList_toList] at denotes
      rw [trimSpace_of_padded printable.name padded, empty]
      exact denotes
  | @labelled _ pieces front after nonempty padded printed blank =>
      have plain : ∀ label ∈ order, Token label.1 ∧ Token label.2 :=
        fun label member => printable.labels _ _ ((listing.listed _ _).mpr member)
      obtain ⟨rfl, pairs⟩ := pairs_of_printed plain printed
      have some : pieces ≠ [] := by simpa using nonempty
      have labelled := labelled_of_printed printable.name padded some pairs blank
      have denotes := @Denotes.labelled _ _ _ (spec.labels.getD ∅) labelled ?_
      · rw [trimSpace_dropWhile, trimSpace_of_padded printable.name padded, String.ofList_toList] at denotes
        exact denotes
      · intro name
        apply Option.ext
        intro value
        rw [List.splitOn_intercalate ',' (fun piece member => (pairs piece member).2.1) some,
          lastValue_of_nodup listing.nodup, listing.listed]

end Printing

/-- The strings that are read as specs are those of the grammar, every printed spec is read back,
and no string leads to a slice out of range. -/
theorem spec_strings_read_exactly :
    (∀ s : String, s ≠ "" → ∀ result, stringToMetricSpec s = some (.ok result) ↔
      ∃ spec, result = some spec ∧ Denotes (trimSpace s.toList) spec) ∧
    (∀ spec : MetricSpec, Printable spec → ∀ order, Listing (spec.labels.getD ∅) order →
      ∀ text, Printed spec.metricName order text →
        stringToMetricSpec (.ofList text) = some (.ok (some ⟨spec.metricName, some (spec.labels.getD ∅)⟩))) ∧
    ∀ s, stringToMetricSpec s ≠ none := by
  refine ⟨?_, ?_, ?_⟩
  · intro s nonempty result
    rw [stringToMetricSpec_ok_iff]
    cases result with
    | none => simp [Configures, nonempty]
    | some spec => simp [Configures, nonempty]
  · intro spec printable order listing text printed
    have denotes := denotes_of_printed printable listing printed
    have nonempty : String.ofList text ≠ "" := by
      intro empty
      rw [String.ofList_eq_empty_iff.mp empty] at denotes
      cases parseSpec_of_denotes denotes
    rw [← String.toList_ofList (l := text)] at denotes
    exact stringToMetricSpec_ok_iff.mpr ⟨nonempty, denotes⟩
  · intro s
    rw [stringToMetricSpec]
    split
    · simp
    · exact parseSpec_ne_none _

theorem free_iff (text : List Char) :
    (∀ c ∈ ['{', '}', ',', '='], c ∉ text) ↔ '{' ∉ text ∧ '}' ∉ text ∧ ',' ∉ text ∧ '=' ∉ text := by
  simp

theorem queue_spec_read_back :
    stringToMetricSpec (.ofList (" queue".toList ++ '{' :: ([','].intercalate ["state = waiting".toList] ++
      '}' :: " ".toList))) = some (.ok (some ⟨"queue", some (Finmap.singleton "state" "waiting")⟩)) := by
  have queue : Token "queue" := ⟨by decide, by decide, (free_iff _).mpr (by decide)⟩
  have state : Token "state" := ⟨by decide, by decide, (free_iff _).mpr (by decide)⟩
  have waiting : Token "waiting" := ⟨by decide, by decide, (free_iff _).mpr (by decide)⟩
  have blank : Blank [' '] := by simp [Blank, Strip.Blank, spaces]
  have empty : Blank [] := List.forall_mem_nil _
  have listing : Listing (Finmap.singleton "state" "waiting") [("state", "waiting")] := by
    constructor
    · simp
    · intro name value
      rw [Finmap.lookup_eq_some_iff]
      simp [Finmap.singleton]
  apply spec_strings_read_exactly.2.1 ⟨"queue", some (Finmap.singleton "state" "waiting")⟩ ⟨queue, ?_⟩
    [("state", "waiting")] listing
  · apply Printed.labelled (List.cons_ne_nil _ _) ⟨[' '], [], blank, empty, rfl⟩ _ blank
    apply List.Forall₂.cons _ .nil
    exact ⟨"state ".toList, " waiting".toList, ⟨[], [' '], empty, blank, rfl⟩, ⟨[' '], [], blank, empty, rfl⟩, rfl⟩
  · intro name value found
    obtain ⟨rfl, rfl⟩ := by simpa using (listing.listed name value).mp found
    exact ⟨state, waiting⟩

end InferenceGateway.BackendMetrics
