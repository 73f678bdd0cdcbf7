import Mathlib.Data.List.DropRight

/-!
# Stripping letters off both ends

The blank letters, those that meet `p`, are taken off the two ends of a text.
-/

namespace InferenceGateway.Lib.Strip

variable {α : Type*} (p : α → Bool)

def strip (text : List α) : List α := (text.dropWhile p).rdropWhile p

def Blank (text : List α) : Prop := ∀ letter ∈ text, p letter = true

variable {p} {left right : List α} {letter : α}

theorem dropWhile_append_cons (solid : p letter = false) (left right : List α) :
    (left ++ letter :: right).dropWhile p = left.dropWhile p ++ letter :: right := by
  induction left with
  | nil => simp [solid]
  | cons first left ih => cases blank : p first <;> simp [blank, ih]

theorem rdropWhile_append_cons (solid : p letter = false) (left right : List α) :
    (left ++ letter :: right).rdropWhile p = left ++ letter :: right.rdropWhile p := by
  simp [List.rdropWhile, dropWhile_append_cons solid]

/-- A letter that is not blank keeps the two sides apart. -/
theorem strip_append_cons (solid : p letter = false) (left right : List α) :
    strip p (left ++ letter :: right) = left.dropWhile p ++ letter :: right.rdropWhile p := by
  rw [strip, dropWhile_append_cons solid, rdropWhile_append_cons solid]

theorem blank_takeWhile (text : List α) : Blank p (text.takeWhile p) := fun _ => List.mem_takeWhile_imp

theorem rdropWhile_append_of_blank (blank : Blank p right) (text : List α) :
    (text ++ right).rdropWhile p = text.rdropWhile p := by
  rw [List.rdropWhile, List.reverse_append, List.dropWhile_append_of_pos, List.rdropWhile]
  exact fun letter member => blank letter (List.mem_reverse.mp member)

theorem exists_rdropWhile_append (text : List α) : ∃ right, Blank p right ∧ text = text.rdropWhile p ++ right := by
  refine ⟨(text.reverse.takeWhile p).reverse, ?_, ?_⟩
  · exact fun letter member => blank_takeWhile _ letter (List.mem_reverse.mp member)
  · rw [List.rdropWhile, ← List.reverse_append, List.takeWhile_append_dropWhile, List.reverse_reverse]

theorem strip_append_of_blank (blank : Blank p right) (text : List α) : strip p (text ++ right) = strip p text := by
  rw [strip, List.dropWhile_append]
  split
  · rename_i empty
    rw [strip, List.isEmpty_iff.mp empty, List.dropWhile_eq_nil_iff.mpr blank]
  · rw [rdropWhile_append_of_blank blank, strip]

theorem strip_pad (blankLeft : Blank p left) (blankRight : Blank p right) (text : List α) :
    strip p (left ++ text ++ right) = strip p text := by
  rw [strip_append_of_blank blankRight, strip, List.dropWhile_append_of_pos blankLeft, strip]

theorem strip_dropWhile (text : List α) : strip p (text.dropWhile p) = strip p text := by
  conv_rhs => rw [← @List.takeWhile_append_dropWhile _ p text]
  rw [← List.append_nil (_ ++ _)]
  exact (strip_pad (blank_takeWhile text) (List.forall_mem_nil _) _).symm

theorem strip_rdropWhile (text : List α) : strip p (text.rdropWhile p) = strip p text := by
  obtain ⟨right, blank, split⟩ := @exists_rdropWhile_append α p text
  conv_rhs => rw [split]
  exact (strip_append_of_blank blank _).symm

theorem mem_strip {text : List α} (member : letter ∈ strip p text) : letter ∈ text :=
  (List.dropWhile_suffix p).subset ((List.rdropWhile_prefix p _).subset member)

end InferenceGateway.Lib.Strip
