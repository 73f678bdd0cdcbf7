import InferenceGateway.Lib.JsonText

/-!
# Decoding JSON into plain values

Every number is decoded on its own, and nothing stands in the place of a number that cannot be
decoded. Of the members with one name the last counts.
-/

namespace InferenceGateway.Lib

/-! ## The last member with a name -/

namespace Object

def last {α : Type} (key : String) : List (String × α) → Option α
  | [] => none
  | (k, value) :: rest => (last key rest).or (if key = k then some value else none)

theorem get_set (key k : String) (value : Json) (object : Object) :
    (object.set k value).get key = (if key = k then some value else none).or (object.get key) := by
  by_cases same : key = k
  · subst same
    rw [get_set_self, if_pos rfl, Option.some_or]
  · rw [get_set_of_ne same, if_neg same, Option.none_or]

theorem get_merge (key : String) (members : List (String × Json)) (object : Object) :
    (object.merge members).get key = (last key members).or (object.get key) := by
  induction members generalizing object with
  | nil => rfl
  | cons member members ih =>
      obtain ⟨k, value⟩ := member
      have moved : object.merge ((k, value) :: members) = (object.set k value).merge members := rfl
      rw [moved, ih, get_set, last, Option.or_assoc]

theorem last_eq_some {α : Type} {key : String} {value : α} {members : List (String × α)}
    (found : last key members = some value) : (key, value) ∈ members := by
  induction members with
  | nil => cases found
  | cons member members ih =>
      obtain ⟨k, other⟩ := member
      rw [last, Option.or_eq_some_iff] at found
      rcases found with later | ⟨_, here⟩
      · exact List.mem_cons_of_mem _ (ih later)
      · obtain ⟨rfl, same⟩ := Option.ite_none_right_eq_some.mp here
        cases same
        exact List.mem_cons_self

theorem last_of_sorted {object : Object} (sorted : Sorted object) (key : String) :
    last key object = object.get key := by
  have merged : Object.merge [] object = object := @merge_of_sorted [] object sorted
  have read := get_merge key object []
  rw [merged] at read
  rw [read, get, Option.or_none]

end Object

/-! ## Places in a value -/

inductive Place
  | name (key : String)
  | index (i : Nat)
deriving DecidableEq, Repr

namespace Json

def child : Place → Json → Option Json
  | .name key, .obj members => Object.last key members
  | .index i, .arr items => items[i]?
  | _, _ => none

def follow : List Place → Json → Option Json
  | [], value => some value
  | place :: path, value => (child place value).bind (follow path)

end Json

namespace JsonText

/-! ## Decoding -/

section Interpretation
variable (decode : ℚ → Option ℚ)

mutual

def interpret : Json → Json
  | .num q => ((decode q).map Json.num).getD .null
  | .arr items => .arr (interpretItems items)
  | .obj members => .obj (Object.merge [] (interpretMembers members))
  | .null => .null
  | .bool b => .bool b
  | .str s => .str s

def interpretItems : List Json → List Json
  | [] => []
  | item :: more => interpret item :: interpretItems more

def interpretMembers : List (String × Json) → List (String × Json)
  | [] => []
  | (key, member) :: more => (key, interpret member) :: interpretMembers more

end

variable {decode}

theorem getElem?_interpretItems (items : List Json) (i : Nat) :
    (interpretItems decode items)[i]? = items[i]?.map (interpret decode) := by
  induction items generalizing i with
  | nil => rfl
  | cons item more ih =>
      cases i with
      | zero => rfl
      | succ i => exact ih i

theorem last_interpretMembers (key : String) (members : List (String × Json)) :
    Object.last key (interpretMembers decode members) = (Object.last key members).map (interpret decode) := by
  induction members with
  | nil => rfl
  | cons member more ih =>
      obtain ⟨k, value⟩ := member
      rw [interpretMembers, Object.last, Object.last, ih]
      by_cases same : key = k
      · rw [if_pos same, if_pos same]
        cases Object.last key more <;> rfl
      · rw [if_neg same, if_neg same, Option.or_none, Option.or_none]

theorem mem_interpretMembers {members : List (String × Json)} {member : String × Json}
    (listed : member ∈ interpretMembers decode members) : ∃ value, (member.1, value) ∈ members := by
  induction members with
  | nil => cases listed
  | cons first more ih =>
      obtain ⟨key, value⟩ := first
      rcases List.mem_cons.mp listed with rfl | later
      · exact ⟨value, List.mem_cons_self⟩
      · obtain ⟨value', original⟩ := ih later
        exact ⟨value', List.mem_cons_of_mem _ original⟩

theorem get_interpretMembers (key : String) (members : List (String × Json)) :
    (Object.merge [] (interpretMembers decode members)).get key =
      (Object.last key members).map (interpret decode) := by
  rw [Object.get_merge, last_interpretMembers, Object.get, Option.or_none]

theorem child_interpret (place : Place) (value : Json) :
    (interpret decode value).child place = (value.child place).map (interpret decode) := by
  cases value with
  | num q =>
      rw [interpret]
      cases decode q <;> cases place <;> rfl
  | arr items =>
      cases place with
      | name key => rfl
      | index i => exact getElem?_interpretItems items i
  | obj members =>
      cases place with
      | name key =>
          have sorted : Object.Sorted (Object.merge [] (interpretMembers decode members)) :=
            Object.Sorted.merge List.Pairwise.nil _
          rw [interpret, Json.child, Json.child, Object.last_of_sorted sorted, get_interpretMembers]
      | index i => rfl
  | null | bool _ | str _ => cases place <;> rfl

theorem follow_interpret (path : List Place) (value : Json) :
    (interpret decode value).follow path = (value.follow path).map (interpret decode) := by
  induction path generalizing value with
  | nil => rfl
  | cons place path ih =>
      rw [Json.follow, Json.follow, child_interpret]
      cases value.child place with
      | none => rfl
      | some child => exact ih child

/-! ## Values that decoding leaves alone -/

variable {accepts : ℚ → Bool}

mutual

theorem clean_interpret (decodes : ∀ q r, Decimal q → decode q = some r → accepts r = true ∧ Decimal r) :
    ∀ v : Json, Decimals v → Clean accepts (interpret decode v)
  | .null, _ => trivial
  | .bool _, _ => trivial
  | .str _, _ => trivial
  | .num q, decimal => by
      unfold interpret
      cases decoded : decode q with
      | none => trivial
      | some r => exact decodes q r decimal decoded
  | .arr items, decimals => clean_interpretItems decodes items decimals
  | .obj members, decimals => clean_merge (clean_interpretMembers decodes members decimals)

theorem clean_interpretItems (decodes : ∀ q r, Decimal q → decode q = some r → accepts r = true ∧ Decimal r) :
    ∀ items : List Json, DecimalItems items → CleanItems accepts (interpretItems decode items)
  | [], _ => trivial
  | item :: more, decimals =>
      ⟨clean_interpret decodes item decimals.1, clean_interpretItems decodes more decimals.2⟩

theorem clean_interpretMembers (decodes : ∀ q r, Decimal q → decode q = some r → accepts r = true ∧ Decimal r) :
    ∀ members : List (String × Json), DecimalMembers members →
      CleanMembers accepts (interpretMembers decode members)
  | [], _ => trivial
  | (_, member) :: more, decimals =>
      ⟨clean_interpret decodes member decimals.1, clean_interpretMembers decodes more decimals.2⟩

end

theorem sorted_interpretMembers (members : List (String × Json)) (sorted : Object.Sorted members) :
    Object.Sorted (interpretMembers decode members) := by
  induction members with
  | nil => exact List.Pairwise.nil
  | cons first more ih =>
      obtain ⟨below, later⟩ := List.pairwise_cons.mp sorted
      refine List.pairwise_cons.mpr ⟨fun member listed => ?_, ih later⟩
      obtain ⟨value, original⟩ := mem_interpretMembers listed
      exact below (member.1, value) original

theorem interpret_sorted {members : Object} (sorted : Object.Sorted members) :
    interpret decode (.obj members) = .obj (interpretMembers decode members) := by
  have merged := @Object.merge_of_sorted [] _ (@sorted_interpretMembers decode members sorted)
  rw [interpret, merged, List.nil_append]

variable {encode : ℚ → Option ℚ}

mutual

/-- Decoding gives back what was encoded, number by number. -/
theorem interpret_interpret (inverse : ∀ q, accepts q = true → ∃ r, encode q = some r ∧ decode r = some q) :
    ∀ v : Json, Clean accepts v → interpret decode (interpret encode v) = v
  | .null, _ => rfl
  | .bool _, _ => rfl
  | .str _, _ => rfl
  | .num q, clean => by
      obtain ⟨r, encoded, decoded⟩ := inverse q clean.1
      simp [interpret, encoded, decoded]
  | .arr items, clean => by
      rw [interpret, interpret, interpretItems_interpretItems inverse items clean]
  | .obj members, clean => by
      have merged := @Object.merge_of_sorted [] members clean.1
      rw [interpret_sorted clean.1, interpret, interpretMembers_interpretMembers inverse members clean.2, merged,
        List.nil_append]

theorem interpretItems_interpretItems
    (inverse : ∀ q, accepts q = true → ∃ r, encode q = some r ∧ decode r = some q) :
    ∀ items : List Json, CleanItems accepts items → interpretItems decode (interpretItems encode items) = items
  | [], _ => rfl
  | item :: more, clean => by
      rw [interpretItems, interpretItems, interpret_interpret inverse item clean.1,
        interpretItems_interpretItems inverse more clean.2]

theorem interpretMembers_interpretMembers
    (inverse : ∀ q, accepts q = true → ∃ r, encode q = some r ∧ decode r = some q) :
    ∀ members : List (String × Json), CleanMembers accepts members →
      interpretMembers decode (interpretMembers encode members) = members
  | [], _ => rfl
  | (_, member) :: more, clean => by
      rw [interpretMembers, interpretMembers, interpret_interpret inverse member clean.1,
        interpretMembers_interpretMembers inverse more clean.2]

end

end Interpretation

end JsonText

end InferenceGateway.Lib
