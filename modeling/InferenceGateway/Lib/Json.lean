import Mathlib.Data.Rat.Defs
import Mathlib.Data.String.Basic
import Mathlib.Tactic.SplitIfs

/-!
JSON values. An object is the list of its members; the operations keep the keys sorted, so that
objects with the same members are equal.
-/

namespace InferenceGateway.Lib

inductive Json
  | null
  | bool (b : Bool)
  | num (q : ℚ)
  | str (s : String)
  | arr (items : List Json)
  | obj (members : List (String × Json))

namespace Json

mutual

def same : Json → Json → Bool
  | .null, .null => true
  | .bool a, .bool b => a = b
  | .num a, .num b => a = b
  | .str a, .str b => a = b
  | .arr a, .arr b => sameItems a b
  | .obj a, .obj b => sameMembers a b
  | _, _ => false

def sameItems : List Json → List Json → Bool
  | [], [] => true
  | a :: as, b :: bs => same a b && sameItems as bs
  | _, _ => false

def sameMembers : List (String × Json) → List (String × Json) → Bool
  | [], [] => true
  | (k, a) :: as, (l, b) :: bs => decide (k = l) && same a b && sameMembers as bs
  | _, _ => false

end

mutual

theorem same_iff : ∀ a b : Json, same a b = true ↔ a = b
  | .arr a, .arr b => by simp [same, sameItems_iff a b]
  | .obj a, .obj b => by simp [same, sameMembers_iff a b]
  | .null, b => by cases b <;> simp [same]
  | .bool _, b => by cases b <;> simp [same]
  | .num _, b => by cases b <;> simp [same]
  | .str _, b => by cases b <;> simp [same]
  | .arr _, .null | .arr _, .bool _ | .arr _, .num _ | .arr _, .str _ | .arr _, .obj _ => by simp [same]
  | .obj _, .null | .obj _, .bool _ | .obj _, .num _ | .obj _, .str _ | .obj _, .arr _ => by simp [same]

theorem sameItems_iff : ∀ a b : List Json, sameItems a b = true ↔ a = b
  | [], b => by cases b <;> simp [sameItems]
  | a :: as, [] => by simp [sameItems]
  | a :: as, b :: bs => by simp [sameItems, same_iff a b, sameItems_iff as bs]

theorem sameMembers_iff : ∀ a b : List (String × Json), sameMembers a b = true ↔ a = b
  | [], b => by cases b <;> simp [sameMembers]
  | a :: as, [] => by simp [sameMembers]
  | (k, a) :: as, (l, b) :: bs => by simp [sameMembers, same_iff a b, sameMembers_iff as bs, and_assoc]

end

instance : DecidableEq Json := fun a b => decidable_of_iff _ (same_iff a b)

end Json

/-! ## Objects -/

abbrev Object := List (String × Json)

namespace Object

def get (key : String) : Object → Option Json
  | [] => none
  | (k, value) :: rest => if key = k then some value else get key rest

/-- The members stay sorted by their keys. -/
def set (key : String) (value : Json) : Object → Object
  | [] => [(key, value)]
  | (k, other) :: rest =>
    if key = k then (key, value) :: rest
    else if key < k then (key, value) :: (k, other) :: rest
    else (k, other) :: set key value rest

def merge (object : Object) (members : List (String × Json)) : Object :=
  members.foldl (fun object member => object.set member.1 member.2) object

@[simp] theorem get_set_self (key : String) (value : Json) (object : Object) :
    (object.set key value).get key = some value := by
  induction object with
  | nil => simp [set, get]
  | cons member rest ih =>
      obtain ⟨k, other⟩ := member
      unfold set
      split_ifs with same less
      · simp [get]
      · simp [get]
      · rw [get, if_neg same, ih]

theorem get_set_of_ne {key other : String} (different : other ≠ key) (value : Json) (object : Object) :
    (object.set key value).get other = object.get other := by
  induction object with
  | nil => simp [set, get, different]
  | cons member rest ih =>
      obtain ⟨k, former⟩ := member
      unfold set
      split_ifs with same less
      · subst same
        simp [get, different]
      · simp [get, different]
      · simp only [get, ih]

theorem set_set (key : String) (value former : Json) (object : Object) :
    (object.set key former).set key value = object.set key value := by
  induction object with
  | nil => simp [set]
  | cons member rest ih =>
      obtain ⟨k, other⟩ := member
      by_cases same : key = k
      · simp [set, same]
      · by_cases less : key < k
        · simp [set, same, less]
        · simp [set, same, less, ih]

def Sorted (object : Object) : Prop := object.Pairwise fun a b => a.1 < b.1

theorem mem_set {key : String} {value : Json} {object : Object} {member : String × Json}
    (mem : member ∈ object.set key value) : member = (key, value) ∨ member ∈ object := by
  induction object with
  | nil => exact .inl (List.mem_singleton.mp mem)
  | cons first rest ih =>
      obtain ⟨k, other⟩ := first
      unfold set at mem
      split_ifs at mem with same less
      · rcases List.mem_cons.mp mem with new | old
        · exact .inl new
        · exact .inr (List.mem_cons_of_mem _ old)
      · rcases List.mem_cons.mp mem with new | old
        · exact .inl new
        · exact .inr old
      · rcases List.mem_cons.mp mem with rfl | later
        · exact .inr List.mem_cons_self
        · exact (ih later).imp_right (List.mem_cons_of_mem _)

theorem Sorted.set {object : Object} (sorted : Sorted object) (key : String) (value : Json) :
    Sorted (object.set key value) := by
  induction object with
  | nil => exact List.pairwise_singleton _ _
  | cons first rest ih =>
      obtain ⟨k, other⟩ := first
      obtain ⟨below, tail⟩ := List.pairwise_cons.mp sorted
      unfold Object.set
      split_ifs with same less
      · subst same
        exact List.pairwise_cons.mpr ⟨below, tail⟩
      · refine List.pairwise_cons.mpr ⟨?_, List.pairwise_cons.mpr ⟨below, tail⟩⟩
        intro member mem
        rcases List.mem_cons.mp mem with rfl | later
        · exact less
        · exact less.trans (below member later)
      · refine List.pairwise_cons.mpr ⟨?_, ih tail⟩
        intro member mem
        rcases mem_set mem with rfl | later
        · exact lt_of_le_of_ne (not_lt.mp less) (Ne.symm same)
        · exact below member later

theorem Sorted.merge {object : Object} (sorted : Sorted object) (members : List (String × Json)) :
    Sorted (object.merge members) := by
  induction members generalizing object with
  | nil => exact sorted
  | cons member members ih => exact ih (sorted.set member.1 member.2)

theorem mem_merge {object : Object} {members : List (String × Json)} {member : String × Json}
    (mem : member ∈ object.merge members) : member ∈ members ∨ member ∈ object := by
  induction members generalizing object with
  | nil => exact .inr mem
  | cons first members ih =>
      rcases ih mem with later | earlier
      · exact .inl (List.mem_cons_of_mem _ later)
      · rcases mem_set earlier with rfl | old
        · exact .inl List.mem_cons_self
        · exact .inr old

theorem set_of_all_lt {object : Object} {key : String} (above : ∀ member ∈ object, member.1 < key)
    (value : Json) : object.set key value = object ++ [(key, value)] := by
  induction object with
  | nil => rfl
  | cons first rest ih =>
      obtain ⟨k, other⟩ := first
      have less : k < key := above (k, other) List.mem_cons_self
      rw [set, if_neg less.ne', if_neg less.not_gt, ih fun member later => above member (List.mem_cons_of_mem _ later)]
      rfl

theorem merge_of_sorted {object : Object} {members : List (String × Json)} (sorted : Sorted (object ++ members)) :
    object.merge members = object ++ members := by
  induction members generalizing object with
  | nil => exact (List.append_nil _).symm
  | cons first members ih =>
      have above : ∀ member ∈ object, member.1 < first.1 := fun member mem =>
        (List.pairwise_append.mp sorted).2.2 member mem first List.mem_cons_self
      have moved : object ++ first :: members = object.set first.1 first.2 ++ members := by
        rw [set_of_all_lt above, List.append_assoc]
        rfl
      rw [moved] at sorted ⊢
      exact ih sorted

end Object

end InferenceGateway.Lib
