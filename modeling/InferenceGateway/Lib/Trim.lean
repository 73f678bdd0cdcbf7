import Mathlib.Data.List.Infix

/-!
# Trimming

Words are taken off the two ends of a text for as long as one is there. If no word begins another,
what is left does not depend on the words that were found.
-/

namespace InferenceGateway.Lib.Trim

variable {α : Type*} {words : List (List α)} {text : List α}

/-! ## Words in front of a text -/

structure Separate (words : List (List α)) : Prop where
  nonempty : ∀ word ∈ words, word ≠ []
  distinct : ∀ word ∈ words, ∀ other ∈ words, word <+: other → word = other

def Bare (words : List (List α)) (text : List α) : Prop := ∀ word ∈ words, ¬ word <+: text

theorem Bare.of_append {more : List α} (bare : Bare words (text ++ more)) : Bare words text :=
  fun word member starts => bare word member (starts.trans (List.prefix_append text more))

theorem bare_of_head {first : α} (nonempty : ∀ word ∈ words, word ≠ [])
    (begins : ∀ word ∈ words, word.head? ≠ some first) (rest : List α) : Bare words (first :: rest) := by
  intro word member starts
  cases word with
  | nil => exact nonempty [] member rfl
  | cons letter word =>
      obtain ⟨rfl, _⟩ := List.cons_prefix_cons.mp starts
      exact begins _ member rfl

/-- A one-letter word whose letter is in no other. -/
structure Solitary (words : List (List α)) (letter : α) : Prop where
  listed : [letter] ∈ words
  alone : ∀ word ∈ words, letter ∈ word → word = [letter]

theorem Solitary.reverse {letter : α} (solitary : Solitary words letter) :
    Solitary (words.map List.reverse) letter := by
  constructor
  · exact List.mem_map.mpr ⟨[letter], solitary.listed, rfl⟩
  · intro word member has
    obtain ⟨original, listed, rfl⟩ := List.mem_map.mp member
    rw [solitary.alone original listed (List.mem_reverse.mp has)]
    rfl

theorem Bare.append_solitary {letter : α} (bare : Bare words text) (nonempty : text ≠ [])
    (solitary : Solitary words letter) (rest : List α) : Bare words (text ++ letter :: rest) := by
  intro word member starts
  rcases List.prefix_or_prefix_of_prefix starts (List.prefix_append text _) with inside | ⟨more, rfl⟩
  · exact bare word member inside
  · -- a word that reaches past the text holds the letter, and so has nothing before it
    rw [List.prefix_append_right_inj] at starts
    cases more with
    | nil => exact bare _ member (by rw [List.append_nil])
    | cons first more =>
        obtain ⟨rfl, _⟩ := List.cons_prefix_cons.mp starts
        have one := solitary.alone _ member (by simp)
        have length := congrArg List.length one
        have long := List.length_pos_iff.mpr nonempty
        simp only [List.length_append, List.length_cons, List.length_nil] at length
        omega

/-! ## Dropping them -/

variable [DecidableEq α]

def dropWords (words : List (List α)) : Nat → List α → List α
  | 0, text => text
  | fuel + 1, text =>
    match words.find? (·.isPrefixOf text) with
    | none => text
    | some word => dropWords words fuel (text.drop word.length)

theorem find?_eq_none_iff_bare : words.find? (·.isPrefixOf text) = none ↔ Bare words text := by
  simp [List.find?_eq_none, Bare]

theorem prefix_of_find? {word : List α} (found : words.find? (·.isPrefixOf text) = some word) :
    word ∈ words ∧ word <+: text := by
  have starts : word.isPrefixOf text = true := List.find?_some (p := fun word : List α => word.isPrefixOf text) found
  exact ⟨List.mem_of_find?_eq_some found, List.isPrefixOf_iff_prefix.mp starts⟩

theorem dropWords_of_bare (bare : Bare words text) (fuel : Nat) : dropWords words fuel text = text := by
  cases fuel with
  | zero => rfl
  | succ fuel => rw [dropWords, find?_eq_none_iff_bare.mpr bare]

theorem dropWords_split (words : List (List α)) (fuel : Nat) (text : List α) :
    ∃ front : List (List α), (∀ word ∈ front, word ∈ words) ∧ text = front.flatten ++ dropWords words fuel text := by
  induction fuel generalizing text with
  | zero => exact ⟨[], by simp, rfl⟩
  | succ fuel ih =>
      rw [dropWords]
      cases found : words.find? (·.isPrefixOf text) with
      | none => exact ⟨[], by simp, rfl⟩
      | some word =>
          obtain ⟨member, rest, rfl⟩ := prefix_of_find? found
          obtain ⟨front, taken, split⟩ := ih rest
          refine ⟨word :: front, List.forall_mem_cons.mpr ⟨member, taken⟩, ?_⟩
          dsimp only
          rw [List.drop_left, List.flatten_cons, List.append_assoc, ← split]

theorem dropWords_bare (nonempty : ∀ word ∈ words, word ≠ []) {fuel : Nat} (enough : text.length ≤ fuel) :
    Bare words (dropWords words fuel text) := by
  induction fuel generalizing text with
  | zero =>
      obtain rfl := List.length_eq_zero_iff.mp (Nat.le_zero.mp enough)
      exact fun word member starts => nonempty word member (List.prefix_nil.mp starts)
  | succ fuel ih =>
      rw [dropWords]
      cases found : words.find? (·.isPrefixOf text) with
      | none => exact find?_eq_none_iff_bare.mp found
      | some word =>
          have long := List.length_pos_iff.mpr (nonempty word (List.mem_of_find?_eq_some found))
          apply ih
          rw [List.length_drop]
          omega

theorem dropWords_append (separate : Separate words) {word : List α} (member : word ∈ words) (fuel : Nat) :
    dropWords words (fuel + 1) (word ++ text) = dropWords words fuel text := by
  -- the word that is found is the one in front
  have found : words.find? (·.isPrefixOf (word ++ text)) = some word := by
    cases other : words.find? (·.isPrefixOf (word ++ text)) with
    | none => exact absurd (List.prefix_append word _) (find?_eq_none_iff_bare.mp other word member)
    | some first =>
        obtain ⟨listed, starts⟩ := prefix_of_find? other
        rcases List.prefix_or_prefix_of_prefix starts (List.prefix_append word _) with below | above
        · rw [separate.distinct first listed word member below]
        · rw [separate.distinct word member first listed above]
  rw [dropWords, found]
  dsimp only
  rw [List.drop_left]

theorem dropWords_flatten (separate : Separate words) {front : List (List α)} (taken : ∀ word ∈ front, word ∈ words)
    (bare : Bare words text) {fuel : Nat} (enough : (front.flatten ++ text).length ≤ fuel) :
    dropWords words fuel (front.flatten ++ text) = text := by
  induction front generalizing fuel with
  | nil => exact dropWords_of_bare bare fuel
  | cons word front ih =>
      obtain ⟨first, others⟩ := List.forall_mem_cons.mp taken
      have long := List.length_pos_iff.mpr (separate.nonempty word first)
      rw [List.flatten_cons, List.append_assoc] at enough ⊢
      rw [List.length_append] at enough
      obtain ⟨fuel, rfl⟩ : ∃ n, fuel = n + 1 := Nat.exists_eq_add_one.mpr (by omega)
      rw [dropWords_append separate first]
      exact ih others (by omega)

/-! ## Both ends -/

def trim (words : List (List α)) (text : List α) : List α :=
  let left := dropWords words text.length text
  (dropWords (words.map List.reverse) left.length left.reverse).reverse

structure Trimmed (words : List (List α)) (text : List α) : Prop where
  left : Bare words text
  right : Bare (words.map List.reverse) text.reverse

omit [DecidableEq α] in
theorem reverse_ne_nil (nonempty : ∀ word ∈ words, word ≠ []) : ∀ word ∈ words.map List.reverse, word ≠ [] := by
  intro word member empty
  obtain ⟨original, listed, rfl⟩ := List.mem_map.mp member
  exact nonempty original listed (List.reverse_eq_nil_iff.mp empty)

theorem Trimmed.trim_eq (trimmed : Trimmed words text) : trim words text = text := by
  rw [trim, dropWords_of_bare trimmed.left, dropWords_of_bare trimmed.right, List.reverse_reverse]

theorem trimmed_trim (nonempty : ∀ word ∈ words, word ≠ []) (text : List α) : Trimmed words (trim words text) := by
  constructor
  · have bare := dropWords_bare nonempty (le_refl text.length)
    obtain ⟨front, _, split⟩ := dropWords_split (words.map List.reverse)
      (dropWords words text.length text).length (dropWords words text.length text).reverse
    have whole : dropWords words text.length text = trim words text ++ front.flatten.reverse := by
      rw [trim, ← List.reverse_append, ← split, List.reverse_reverse]
    rw [whole] at bare
    exact bare.of_append
  · rw [trim, List.reverse_reverse]
    exact dropWords_bare (reverse_ne_nil nonempty) (by rw [List.length_reverse])

theorem trim_append_solitary (separate : Separate words) (reversed : Separate (words.map List.reverse)) {letter : α}
    (solitary : Solitary words letter) (text : List α) : trim words (text ++ [letter]) = trim words text := by
  obtain ⟨front, taken, split⟩ := dropWords_split words text.length text
  have bare := dropWords_bare separate.nonempty (le_refl text.length)
  by_cases empty : dropWords words text.length text = []
  · have all : dropWords words (text ++ [letter]).length (text ++ [letter]) = [] := by
      have whole : text ++ [letter] = (front ++ [[letter]]).flatten ++ [] := by
        rw [empty, List.append_nil] at split
        simp [← split]
      rw [whole]
      refine dropWords_flatten separate ?_ (empty ▸ bare) (le_refl _)
      exact List.forall_mem_append.mpr ⟨taken, List.forall_mem_singleton.mpr solitary.listed⟩
    rw [trim, trim, all, empty]
  · have left : dropWords words (text ++ [letter]).length (text ++ [letter]) =
        dropWords words text.length text ++ [letter] := by
      have whole : text ++ [letter] = front.flatten ++ (dropWords words text.length text ++ [letter]) := by
        rw [← List.append_assoc, ← split]
      have kept := dropWords_flatten separate taken (bare.append_solitary empty solitary []) (le_refl _)
      rwa [← whole] at kept
    rw [trim, trim, left, List.length_append, List.reverse_append, List.reverse_singleton]
    exact congrArg List.reverse (dropWords_append reversed solitary.reverse.listed _)

end InferenceGateway.Lib.Trim
