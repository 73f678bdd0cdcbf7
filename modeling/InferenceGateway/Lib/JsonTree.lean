import InferenceGateway.Lib.JsonDecode

/-!
# JSON texts as they are written

The tree of a text keeps the characters of its strings and numbers beside their values, which are those
that `JsonText.parse` reads (`parse_eq_parseTree`).
-/

namespace InferenceGateway.Lib.JsonText

inductive Tree
  | null
  | bool (b : Bool)
  | num (numeral : List Char) (q : ℚ)
  | str (literal : List Char) (s : String)
  | arr (items : List Tree)
  | obj (members : List (String × Tree))

namespace Tree

mutual

def toJson : Tree → Json
  | .null => .null
  | .bool b => .bool b
  | .num _ q => .num q
  | .str _ s => .str s
  | .arr items => .arr (itemsToJson items)
  | .obj members => .obj (membersToJson members)

def itemsToJson : List Tree → List Json
  | [] => []
  | item :: more => toJson item :: itemsToJson more

def membersToJson : List (String × Tree) → List (String × Json)
  | [] => []
  | (key, member) :: more => (key, toJson member) :: membersToJson more

end

mutual

/-- The values of the strings and numbers have been read from their characters. -/
def Faithful : Tree → Prop
  | .num numeral q => number numeral = some q
  | .str literal s => ∃ cs rest, quoted cs = some (s.toList, rest) ∧ written cs = literal
  | .arr items => FaithfulItems items
  | .obj members => FaithfulMembers members
  | .null | .bool _ => True

def FaithfulItems : List Tree → Prop
  | [] => True
  | item :: more => Faithful item ∧ FaithfulItems more

def FaithfulMembers : List (String × Tree) → Prop
  | [] => True
  | (_, member) :: more => Faithful member ∧ FaithfulMembers more

end

theorem FaithfulMembers.of_mem {members : List (String × Tree)} (faithful : FaithfulMembers members)
    {key : String} {member : Tree} (listed : (key, member) ∈ members) : Faithful member := by
  induction members with
  | nil => cases listed
  | cons first members ih =>
      rcases List.mem_cons.mp listed with rfl | later
      · exact faithful.1
      · exact ih faithful.2 later

theorem last_membersToJson (key : String) (members : List (String × Tree)) :
    Object.last key (membersToJson members) = (Object.last key members).map toJson := by
  induction members with
  | nil => rfl
  | cons member members ih =>
      obtain ⟨k, value⟩ := member
      rw [membersToJson, Object.last, Object.last, ih]
      by_cases same : key = k
      · rw [if_pos same, if_pos same]
        cases Object.last key members <;> rfl
      · rw [if_neg same, if_neg same, Option.or_none, Option.or_none]

end Tree

def treeBuilder : Builder Tree where
  null := .null
  bool := .bool
  num := .num
  str := .str
  arr := .arr
  obj := .obj

def parseTree (cs : List Char) : Option Tree := parseWith treeBuilder cs

theorem treeBuilder_related : treeBuilder.Related (fun tree v => tree.Faithful ∧ tree.toJson = v) plain where
  null := ⟨trivial, rfl⟩
  bool _ := ⟨trivial, rfl⟩
  num read := ⟨read, rfl⟩
  str read := ⟨⟨_, _, by rw [read, String.toList_ofList], rfl⟩, rfl⟩
  arr related := by
    change Tree.FaithfulItems _ ∧ Json.arr (Tree.itemsToJson _) = Json.arr _
    induction related with
    | nil => exact ⟨trivial, rfl⟩
    | cons item _ more =>
        obtain ⟨faithful, values⟩ := more
        rw [Tree.itemsToJson, item.2, Json.arr.inj values]
        exact ⟨⟨item.1, faithful⟩, rfl⟩
  obj related := by
    change Tree.FaithfulMembers _ ∧ Json.obj (Tree.membersToJson _) = Json.obj _
    induction related with
    | nil => exact ⟨trivial, rfl⟩
    | @cons member member' _ _ both _ more =>
        obtain ⟨key, tree⟩ := member
        obtain ⟨key', v⟩ := member'
        obtain ⟨rfl, faithful, rfl⟩ : key = key' ∧ tree.Faithful ∧ tree.toJson = v := both
        obtain ⟨others, values⟩ := more
        rw [Tree.membersToJson, Json.obj.inj values]
        exact ⟨⟨faithful, others⟩, rfl⟩

theorem parse_eq_parseTree (cs : List Char) : parse cs = (parseTree cs).map Tree.toJson := by
  have related := parseWith_related treeBuilder_related cs
  unfold parse parseTree
  revert related
  generalize parseWith treeBuilder cs = result
  generalize parseWith plain cs = result'
  intro related
  cases related with
  | none => rfl
  | some both => exact congrArg some both.2.symm

theorem faithful_of_parseTree {cs : List Char} {tree : Tree} (read : parseTree cs = some tree) : tree.Faithful := by
  have related := parseWith_related treeBuilder_related cs
  rw [show parseWith treeBuilder cs = some tree from read] at related
  generalize parseWith plain cs = result at related
  cases related with
  | some both => exact both.1

/-! ## Line breaks in strings -/

def isBreak (c : Char) : Bool := c = '\n' || c = '\r'

def isBreakCode (code : Nat) : Bool := code = 10 || code = 13

/-- Whether a string as it is written has an escape for a line break: `\n`, `\r`, or the code of one. -/
def breaks : List Char → Bool
  | [] => false
  | c :: rest =>
    if c = '\\' then
      match rest with
      | [] => false
      | d :: rest =>
        d = 'n' || d = 'r' || (d = 'u' && (hex4 rest).any fun read => isBreakCode read.1) || breaks rest
    else breaks rest

section Ordinary
variable {c : Char} (quotation : c ≠ '"') (backslash : c ≠ '\\') (rest : List Char)
include backslash

theorem breaks_ordinary : breaks (c :: rest) = breaks rest := by
  cases rest <;> simp [breaks, backslash]

include quotation

theorem written_ordinary : written (c :: rest) = c :: written rest := by
  cases rest <;> simp [written, quotation, backslash]

end Ordinary

theorem ne_of_hexValue {c : Char} {v : Nat} (hex : hexValue c = some v) : c ≠ '"' ∧ c ≠ '\\' := by
  constructor
  · rintro rfl
    have none : hexValue '"' = none := by decide
    rw [none] at hex
    cases hex
  · rintro rfl
    have none : hexValue '\\' = none := by decide
    rw [none] at hex
    cases hex

theorem written_of_hexValue {c : Char} {v : Nat} (hex : hexValue c = some v) (rest : List Char) :
    written (c :: rest) = c :: written rest :=
  written_ordinary (ne_of_hexValue hex).1 (ne_of_hexValue hex).2 rest

theorem breaks_of_hexValue {c : Char} {v : Nat} (hex : hexValue c = some v) (rest : List Char) :
    breaks (c :: rest) = breaks rest :=
  breaks_ordinary (ne_of_hexValue hex).2 rest

/-- Four digits do not end a string and are no escape. -/
theorem written_of_hex4 {cs rest : List Char} {code : Nat} (read : hex4 cs = some (code, rest)) :
    hex4 (written cs) = some (code, written rest) ∧ breaks (written cs) = breaks (written rest) := by
  match cs with
  | [] | [_] | [_, _] | [_, _, _] => cases read
  | a :: b :: c :: d :: more =>
      cases first : hexValue a with
      | none => simp [hex4, first] at read
      | some i =>
      cases second : hexValue b with
      | none => simp [hex4, second] at read
      | some j =>
      cases third : hexValue c with
      | none => simp [hex4, third] at read
      | some k =>
      cases fourth : hexValue d with
      | none => simp [hex4, fourth] at read
      | some l =>
          simp only [hex4, first, second, third, fourth, Option.bind_eq_bind, Option.bind_some, Option.pure_def,
            Option.some.injEq, Prod.mk.injEq] at read
          obtain ⟨rfl, rfl⟩ := read
          rw [written_of_hexValue first, written_of_hexValue second, written_of_hexValue third,
            written_of_hexValue fourth]
          constructor
          · simp [hex4, first, second, third, fourth]
          · rw [breaks_of_hexValue first, breaks_of_hexValue second, breaks_of_hexValue third,
              breaks_of_hexValue fourth]

theorem isBreak_ofNat (code : Nat) : isBreak (Char.ofNat code) = isBreakCode code := by
  by_cases valid : code.isValidChar
  · have value : (Char.ofNat code).toNat = code := by
      unfold Char.ofNat
      rw [dif_pos valid]
      rfl
    rw [isBreak, isBreakCode, Bool.eq_iff_iff, Bool.or_eq_true, Bool.or_eq_true, decide_eq_true_eq, decide_eq_true_eq,
      ← Char.toNat_inj, ← Char.toNat_inj, value, decide_eq_true_eq, decide_eq_true_eq]
    rfl
  · have zero : Char.ofNat code = '\x00' := dif_neg valid
    unfold Nat.isValidChar at valid
    rw [zero, isBreakCode, decide_eq_false (by omega), decide_eq_false (by omega)]
    decide

theorem isBreakCode_of_le {code : Nat} (large : 14 ≤ code) : isBreakCode code = false := by
  rw [isBreakCode, decide_eq_false (by omega), decide_eq_false (by omega)]
  rfl

/-- What an escaped code says of a line break is said by its digits; neither half of a pair is one. -/
theorem breaks_of_unicode {cs rest : List Char} {c : Char} (read : unicode cs = some (c, rest)) :
    (((hex4 (written cs)).any fun read => isBreakCode read.1) || breaks (written cs)) =
      (isBreak c || breaks (written rest)) := by
  have replaced : isBreak '�' = false := by decide
  unfold unicode at read
  obtain ⟨⟨code, after⟩, digits, read⟩ := Option.bind_eq_some_iff.mp read
  obtain ⟨again, others⟩ := written_of_hex4 digits
  rw [again, others, Option.any_some]
  dsimp only at read ⊢
  split_ifs at read with surrogate
  · rw [isBreakCode_of_le (by omega), Bool.false_or]
    split at read
    · split at read
      · rename_i low following second
        split_ifs at read with pair
        · obtain ⟨same, rfl⟩ := Prod.mk.inj (Option.some.inj read)
          obtain ⟨again', others'⟩ := written_of_hex4 second
          rw [← same, isBreak_ofNat, isBreakCode_of_le (by omega), Bool.false_or, ← others']
          simp [written, breaks, again', isBreakCode_of_le (show 14 ≤ low by omega)]
        · cases read
          rw [replaced, Bool.false_or]
      · cases read
        rw [replaced, Bool.false_or]
    · cases read
      rw [replaced, Bool.false_or]
  · cases read
    rw [isBreak_ofNat]

theorem breaks_of_escaped {cs rest : List Char} {c : Char} (read : escaped cs = some (c, rest)) :
    breaks (written ('\\' :: cs)) = (isBreak c || breaks (written rest)) := by
  cases cs with
  | nil => cases read
  | cons d cs =>
      have opened : breaks (written ('\\' :: d :: cs)) = (d = 'n' || d = 'r' ||
          (d = 'u' && (hex4 (written cs)).any fun read => isBreakCode read.1) || breaks (written cs)) := by
        simp [written, breaks]
      rw [opened]
      simp only [escaped] at read
      split_ifs at read with special backspace feed line carriage tab code
      · cases read
        rcases special with rfl | rfl | rfl <;> simp [isBreak]
      · cases read
        subst backspace
        simp [isBreak]
      · cases read
        subst feed
        simp [isBreak]
      · cases read
        subst line
        simp [isBreak]
      · cases read
        subst carriage
        simp [isBreak]
      · cases read
        subst tab
        simp [isBreak]
      · subst code
        rw [← breaks_of_unicode read]
        simp

theorem isBreak_of_le {c : Char} (high : ¬c.toNat < 32) : isBreak c = false := by
  rw [isBreak, Bool.or_eq_false_iff, decide_eq_false_iff_not, decide_eq_false_iff_not]
  constructor
  · rintro rfl
    exact high (by decide)
  · rintro rfl
    exact high (by decide)

/-- A string has a line break exactly if one is written as an escape. -/
theorem breaks_written {fuel : Nat} {cs s rest : List Char} (read : string fuel cs = some (s, rest)) :
    breaks (written cs) = s.any isBreak := by
  induction fuel generalizing cs s with
  | zero => cases read
  | succ fuel ih =>
      cases cs with
      | nil => cases read
      | cons c cs =>
          simp only [string] at read
          split_ifs at read with quotation backslash low
          · cases read
            cases rest <;> simp [written, quotation, breaks]
          · obtain ⟨⟨d, following⟩, escape, read⟩ := Option.bind_eq_some_iff.mp read
            obtain ⟨⟨more, after⟩, later, same⟩ := Option.bind_eq_some_iff.mp read
            cases same
            rw [backslash, breaks_of_escaped escape, ih later, List.any_cons]
          · obtain ⟨⟨more, after⟩, later, same⟩ := Option.bind_eq_some_iff.mp read
            cases same
            rw [written_ordinary quotation backslash, breaks_ordinary backslash, ih later, List.any_cons,
              isBreak_of_le low, Bool.false_or]

theorem Tree.Faithful.breaks_eq {literal : List Char} {s : String} (faithful : (Tree.str literal s).Faithful) :
    breaks literal = s.toList.any isBreak := by
  obtain ⟨cs, rest, read, rfl⟩ := faithful
  exact breaks_written read

end InferenceGateway.Lib.JsonText
