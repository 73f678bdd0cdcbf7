import Mathlib.Algebra.Order.Field.Rat
import Mathlib.Data.Nat.Factorization.Basic
import Mathlib.Data.Rat.Lemmas
import Mathlib.Tactic.FieldSimp
import Mathlib.Tactic.IntervalCases
import Mathlib.Tactic.Positivity
import InferenceGateway.Lib.Json

/-!
# JSON texts

A reader and a writer for JSON texts as UTF-8 bytes. The reader replaces invalid UTF-8 by U+FFFD, as
it does unpaired surrogates, and takes numbers exactly; what it makes of the values is up to a builder,
and two builders that make related values of related parts read related values
(`parseWith_related`). The writer writes a number as a decimal
mantissa and, if it is not an integer, an exponent. A text that has been written is read back as the
value it was written for (`parse_render`).
-/

namespace InferenceGateway.Lib.JsonText

/-! ## UTF-8 -/

def decodeChars : Nat → List UInt8 → List Char
  | 0, _ => []
  | _, [] => []
  | fuel + 1, byte :: rest =>
    match ((byte :: rest).take 4).toByteArray.utf8DecodeChar? 0 with
    | some c => c :: decodeChars fuel ((byte :: rest).drop c.utf8Size)
    | none => '�' :: decodeChars fuel rest

def decodeUtf8 (text : List UInt8) : List Char := decodeChars text.length text

def encodeUtf8 (chars : List Char) : List UInt8 := chars.flatMap String.utf8EncodeChar

theorem utf8DecodeChar_encoded (c : Char) (rest : List UInt8) :
    ((String.utf8EncodeChar c ++ rest).take 4).toByteArray.utf8DecodeChar? 0 = some c := by
  have short : (String.utf8EncodeChar c).length ≤ 4 := by
    rw [String.length_utf8EncodeChar]
    exact c.utf8Size_le_four
  rw [List.take_append, List.take_of_length_le short, List.toByteArray_append]
  exact ByteArray.utf8DecodeChar?_utf8EncodeChar_append

theorem decodeChars_encodeUtf8 (chars : List Char) (fuel : Nat) (enough : (encodeUtf8 chars).length ≤ fuel) :
    decodeChars fuel (encodeUtf8 chars) = chars := by
  induction chars generalizing fuel with
  | nil => cases fuel <;> rfl
  | cons c chars ih =>
      have grown : encodeUtf8 (c :: chars) = String.utf8EncodeChar c ++ encodeUtf8 chars := rfl
      have size := String.length_utf8EncodeChar c
      have positive := c.utf8Size_pos
      rw [grown, List.length_append] at enough
      obtain ⟨byte, bytes, first⟩ : ∃ byte bytes, String.utf8EncodeChar c = byte :: bytes := by
        apply List.exists_cons_of_length_pos
        omega
      obtain ⟨fuel, rfl⟩ : ∃ n, fuel = n + 1 := Nat.exists_eq_add_one.mpr (by omega)
      have decoded := utf8DecodeChar_encoded c (encodeUtf8 chars)
      have dropped : (String.utf8EncodeChar c ++ encodeUtf8 chars).drop c.utf8Size = encodeUtf8 chars := by
        rw [← size, List.drop_left]
      rw [grown]
      rw [first, List.cons_append] at decoded dropped ⊢
      simp only [decodeChars, decoded, dropped]
      rw [ih fuel (by omega)]

theorem decodeUtf8_encodeUtf8 (chars : List Char) : decodeUtf8 (encodeUtf8 chars) = chars :=
  decodeChars_encodeUtf8 chars _ le_rfl

theorem mod_of_eq_ofNat {byte : UInt8} {n : Nat} (same : byte = UInt8.ofNat n) : n % 256 = byte.toNat := by
  rw [same]
  simp

theorem toNat_of_mem_utf8EncodeChar {byte : UInt8} (ascii : byte.toNat < 128) {c : Char}
    (member : byte ∈ String.utf8EncodeChar c) : c.val.toNat = byte.toNat := by
  unfold String.utf8EncodeChar at member
  dsimp only at member
  split_ifs at member with one two three
  · have low : c.val.toNat % 256 = byte.toNat := mod_of_eq_ofNat (List.mem_singleton.mp member)
    omega
  -- the bytes of a longer encoding have their highest bit set
  all_goals simp only [List.mem_cons, List.not_mem_nil, or_false] at member
  · rcases member with same | same <;>
    · have high : _ = byte.toNat := mod_of_eq_ofNat same
      omega
  · rcases member with same | same | same <;>
    · have high : _ = byte.toNat := mod_of_eq_ofNat same
      omega
  · rcases member with same | same | same | same <;>
    · have high : _ = byte.toNat := mod_of_eq_ofNat same
      omega

theorem newline_of_mem_utf8EncodeChar {c : Char} (member : 10 ∈ String.utf8EncodeChar c) : c = '\n' :=
  Char.ext (UInt32.toNat_inj.mp (toNat_of_mem_utf8EncodeChar (by decide) member))

theorem mem_encodeUtf8_iff {byte : UInt8} (ascii : byte.toNat < 128) {chars : List Char} :
    byte ∈ encodeUtf8 chars ↔ ∃ c ∈ chars, c.val.toNat = byte.toNat := by
  rw [encodeUtf8, List.mem_flatMap]
  refine exists_congr fun c => and_congr_right fun _ => ⟨toNat_of_mem_utf8EncodeChar ascii, fun same => ?_⟩
  have one : c.val.toNat ≤ 127 := by omega
  rw [String.utf8EncodeChar, if_pos one, List.mem_singleton, same]
  exact UInt8.ofNat_toNat.symm

/-! ## Strings -/

def hexValue (c : Char) : Option Nat :=
  if c.isDigit then some (c.toNat - 48)
  else if 'a' ≤ c ∧ c ≤ 'f' then some (c.toNat - 87)
  else if 'A' ≤ c ∧ c ≤ 'F' then some (c.toNat - 55)
  else none

def hex4 : List Char → Option (Nat × List Char)
  | a :: b :: c :: d :: rest => do
    return ((((← hexValue a) * 16 + (← hexValue b)) * 16 + (← hexValue c)) * 16 + (← hexValue d), rest)
  | _ => none

/-- What follows `\u`. A surrogate that is not the first half of a pair is replaced. -/
def unicode (cs : List Char) : Option (Char × List Char) := do
  let (high, rest) ← hex4 cs
  if 0xD800 ≤ high ∧ high < 0xE000 then
    match rest with
    | '\\' :: 'u' :: more =>
      match hex4 more with
      | some (low, after) =>
        if high < 0xDC00 ∧ 0xDC00 ≤ low ∧ low < 0xE000 then
          return (Char.ofNat (0x10000 + (high - 0xD800) * 1024 + (low - 0xDC00)), after)
        else return ('�', rest)
      | none => return ('�', rest)
    | _ => return ('�', rest)
  else return (Char.ofNat high, rest)

/-- What follows a backslash. -/
def escaped : List Char → Option (Char × List Char)
  | [] => none
  | c :: rest =>
    if c = '"' ∨ c = '\\' ∨ c = '/' then some (c, rest)
    else if c = 'b' then some ('\x08', rest)
    else if c = 'f' then some ('\x0c', rest)
    else if c = 'n' then some ('\n', rest)
    else if c = 'r' then some ('\r', rest)
    else if c = 't' then some ('\t', rest)
    else if c = 'u' then unicode rest
    else none

/-- What follows an opening quote. -/
def string : Nat → List Char → Option (List Char × List Char)
  | 0, _ => none
  | _, [] => none
  | fuel + 1, c :: rest =>
    if c = '"' then some ([], rest)
    else if c = '\\' then do
      let (c, rest) ← escaped rest
      let (cs, rest) ← string fuel rest
      return (c :: cs, rest)
    else if c.toNat < 32 then none
    else do
      let (cs, rest) ← string fuel rest
      return (c :: cs, rest)

/-- The characters up to the closing quote, as they are written. -/
def written : List Char → List Char
  | [] => []
  | c :: rest =>
    if c = '"' then []
    else if c = '\\' then
      match rest with
      | [] => [c]
      | d :: rest => c :: d :: written rest
    else c :: written rest

def isHidden (c : Char) : Bool :=
  c.toNat < 32 || c = '<' || c = '>' || c = '&' || c.toNat = 0x2028 || c.toNat = 0x2029

def quote (c : Char) : List Char :=
  if c = '"' ∨ c = '\\' then ['\\', c]
  else if c = '\x08' then ['\\', 'b']
  else if c = '\x0c' then ['\\', 'f']
  else if c = '\n' then ['\\', 'n']
  else if c = '\r' then ['\\', 'r']
  else if c = '\t' then ['\\', 't']
  else if isHidden c then
    ['\\', 'u', (c.toNat / 4096 % 16).digitChar, (c.toNat / 256 % 16).digitChar,
      (c.toNat / 16 % 16).digitChar, (c.toNat % 16).digitChar]
  else [c]

theorem hexValue_digitChar : ∀ d < 16, hexValue d.digitChar = some d := by decide

theorem hex4_digitChars (n : Nat) (small : n < 65536) (rest : List Char) :
    hex4 ((n / 4096 % 16).digitChar :: (n / 256 % 16).digitChar :: (n / 16 % 16).digitChar ::
      (n % 16).digitChar :: rest) = some (n, rest) := by
  have digit (m : Nat) : hexValue (m % 16).digitChar = some (m % 16) :=
    hexValue_digitChar _ (Nat.mod_lt _ (by omega))
  simp only [hex4, digit, Option.bind_eq_bind, Option.bind_some, Option.pure_def, Option.some.injEq,
    Prod.mk.injEq, and_true]
  omega

theorem isHidden_toNat {c : Char} (hidden : isHidden c = true) : c.toNat < 0xD800 := by
  simp only [isHidden, Bool.or_eq_true, decide_eq_true_eq] at hidden
  rcases hidden with ((((low | rfl) | rfl) | rfl) | line) | paragraph
  · omega
  · decide
  · decide
  · decide
  · omega
  · omega

theorem string_of_escaped {c : Char} {cs rest : List Char} (read : escaped cs = some (c, rest)) (fuel : Nat) :
    string (fuel + 1) ('\\' :: cs) = (string fuel rest).bind fun (cs, rest) => some (c :: cs, rest) := by
  simp [string, read]

theorem escaped_hidden {c : Char} (hidden : isHidden c = true) (rest : List Char) :
    escaped ('u' :: (c.toNat / 4096 % 16).digitChar :: (c.toNat / 256 % 16).digitChar ::
      (c.toNat / 16 % 16).digitChar :: (c.toNat % 16).digitChar :: rest) = some (c, rest) := by
  have low := isHidden_toNat hidden
  have read := hex4_digitChars c.toNat (by omega) rest
  have plain : ¬ (0xD800 ≤ c.toNat ∧ c.toNat < 0xE000) := by omega
  simp [escaped, unicode, read, plain]

theorem string_quote (c : Char) (fuel : Nat) (rest : List Char) :
    string (fuel + 1) (quote c ++ rest) = (string fuel rest).bind fun (cs, rest) => some (c :: cs, rest) := by
  unfold quote
  split_ifs with special backspace feed line carriage tab hidden
  · rcases special with rfl | rfl <;> exact string_of_escaped rfl fuel
  · subst backspace
    exact string_of_escaped rfl fuel
  · subst feed
    exact string_of_escaped rfl fuel
  · subst line
    exact string_of_escaped rfl fuel
  · subst carriage
    exact string_of_escaped rfl fuel
  · subst tab
    exact string_of_escaped rfl fuel
  · exact string_of_escaped (escaped_hidden hidden rest) fuel
  · have shown : ¬ c.toNat < 32 := by
      intro low
      simp [isHidden, low] at hidden
    obtain ⟨quotation, backslash⟩ := not_or.mp special
    simp [string, quotation, backslash, shown]

theorem string_quoted (cs : List Char) (fuel : Nat) (enough : cs.length < fuel) (rest : List Char) :
    string fuel (cs.flatMap quote ++ '"' :: rest) = some (cs, rest) := by
  induction cs generalizing fuel with
  | nil =>
      obtain ⟨fuel, rfl⟩ : ∃ n, fuel = n + 1 := Nat.exists_eq_add_one.mpr enough
      simp [string]
  | cons c cs ih =>
      rw [List.length_cons] at enough
      obtain ⟨fuel, rfl⟩ : ∃ n, fuel = n + 1 := Nat.exists_eq_add_one.mpr (by omega)
      rw [List.flatMap_cons, List.append_assoc, string_quote, ih fuel (by omega)]
      rfl

/-! ## Numbers -/

def isNumeral (c : Char) : Bool := c.isDigit || c = '-' || c = '+' || c = '.' || c = 'e' || c = 'E'

def natural (cs : List Char) : Option Nat :=
  if cs ≠ [] ∧ cs.all Char.isDigit then some (Nat.ofDigitChars 10 cs 0) else none

def fraction : List Char → Option (List Char × List Char)
  | [] => some ([], [])
  | c :: cs =>
    if c = '.' then
      if cs.takeWhile Char.isDigit = [] then none
      else some (cs.takeWhile Char.isDigit, cs.dropWhile Char.isDigit)
    else some ([], c :: cs)

def exponent : List Char → Option Int
  | [] => some 0
  | c :: cs =>
    if c = 'e' ∨ c = 'E' then
      match cs with
      | [] => none
      | sign :: digits =>
        if sign = '-' then (natural digits).map fun n => -(n : Int)
        else if sign = '+' then (natural digits).map Int.ofNat
        else (natural (sign :: digits)).map Int.ofNat
    else none

def scale (m : Nat) (e : Int) : ℚ :=
  if 0 ≤ e then (m * 10 ^ e.toNat : Nat) else mkRat m (10 ^ (-e).toNat)

def unsigned (cs : List Char) : Option ℚ := do
  let int := cs.takeWhile Char.isDigit
  if int = [] ∨ (int.head? = some '0' ∧ int ≠ ['0']) then none
  else
    let (frac, rest) ← fraction (cs.dropWhile Char.isDigit)
    let e ← exponent rest
    return scale (Nat.ofDigitChars 10 (int ++ frac) 0) (e - frac.length)

def number : List Char → Option ℚ
  | [] => none
  | c :: cs => if c = '-' then (unsigned cs).map fun q => -q else unsigned (c :: cs)

def Decimal (q : ℚ) : Prop := ∃ k, q.den ∣ 10 ^ k

/-- The least power of ten that makes a decimal number an integer. -/
def places (q : ℚ) : Nat := ((List.range (q.den + 1)).find? fun k => 10 ^ k % q.den = 0).getD 0

def mantissa (q : ℚ) : Nat := q.num.natAbs * (10 ^ places q / q.den)

def digits (n : Nat) : List Char := Nat.toDigits 10 n

def shift (k : Nat) : List Char := if k = 0 then [] else 'e' :: '-' :: digits k

def numeral (q : ℚ) : List Char :=
  if q.num < 0 then '-' :: (digits (mantissa q) ++ shift (places q))
  else digits (mantissa q) ++ shift (places q)

theorem decimal_scale (m : Nat) (e : Int) : Decimal (scale m e) := by
  unfold scale
  split
  · exact ⟨0, by rw [Rat.den_natCast, pow_zero]⟩
  · refine ⟨(-e).toNat, ?_⟩
    rw [← Rat.divInt_ofNat]
    exact_mod_cast Rat.den_dvd (m : ℤ) ((10 ^ (-e).toNat : Nat) : ℤ)

theorem decimal_of_unsigned {cs : List Char} {q : ℚ} (read : unsigned cs = some q) : Decimal q := by
  simp only [unsigned, Option.bind_eq_bind, Option.pure_def] at read
  split at read
  · cases read
  · obtain ⟨⟨frac, rest⟩, _, read⟩ := Option.bind_eq_some_iff.mp read
    obtain ⟨e, _, read⟩ := Option.bind_eq_some_iff.mp read
    cases read
    exact decimal_scale ..

theorem decimal_of_number {cs : List Char} {q : ℚ} (read : number cs = some q) : Decimal q := by
  cases cs with
  | nil => cases read
  | cons c cs =>
      simp only [number] at read
      split at read
      · obtain ⟨r, positive, rfl⟩ := Option.map_eq_some_iff.mp read
        obtain ⟨k, divides⟩ := decimal_of_unsigned positive
        exact ⟨k, by rwa [Rat.den_neg_eq_den]⟩
      · exact decimal_of_unsigned read

theorem dvd_ten_pow_self {d k : Nat} (divides : d ∣ 10 ^ k) : d ∣ 10 ^ d := by
  have nonzero : d ≠ 0 := by
    rintro rfl
    exact absurd (Nat.eq_zero_of_zero_dvd divides) (by positivity)
  rw [← Nat.factorization_prime_le_iff_dvd nonzero (by positivity)]
  intro p prime
  by_cases factor : p ∣ d
  · have ten : p ∣ 10 := prime.dvd_of_dvd_pow (factor.trans divides)
    have once : 1 ≤ Nat.factorization 10 p := prime.factorization_pos_of_dvd (by omega) ten
    rw [Nat.factorization_pow, Finsupp.smul_apply, smul_eq_mul]
    calc d.factorization p ≤ d := (Nat.factorization_lt p nonzero).le
      _ ≤ d * Nat.factorization 10 p := Nat.le_mul_of_pos_right d once
  · rw [Nat.factorization_eq_zero_of_not_dvd factor]
    exact Nat.zero_le _

theorem den_dvd_places {q : ℚ} (decimal : Decimal q) : q.den ∣ 10 ^ places q := by
  obtain ⟨k, divides⟩ := decimal
  have found : ((List.range (q.den + 1)).find? fun k => 10 ^ k % q.den = 0).isSome := by
    rw [List.find?_isSome]
    refine ⟨q.den, List.mem_range.mpr (Nat.lt_succ_self _), ?_⟩
    exact decide_eq_true (Nat.mod_eq_zero_of_dvd (dvd_ten_pow_self divides))
  obtain ⟨k, least⟩ := Option.isSome_iff_exists.mp found
  have whole := List.find?_some least
  rw [places, least, Option.getD_some]
  exact Nat.dvd_of_mod_eq_zero (of_decide_eq_true whole)

theorem mkRat_mantissa {q : ℚ} (decimal : Decimal q) : mkRat (mantissa q) (10 ^ places q) = |q| := by
  obtain ⟨c, power⟩ := den_dvd_places decimal
  have positive : (q.den : ℚ) ≠ 0 := by exact_mod_cast q.den_nz
  have factor : (c : ℚ) ≠ 0 := by
    rintro zero
    have : c = 0 := by exact_mod_cast zero
    rw [this, Nat.mul_zero] at power
    exact absurd power (by positivity)
  have whole : mantissa q = q.num.natAbs * c := by
    rw [mantissa, power, Nat.mul_div_cancel_left _ q.den_pos]
  rw [whole, power, Rat.mkRat_eq_div]
  have absolute : |q| = (q.num.natAbs : ℚ) / q.den := by
    nth_rewrite 1 [← Rat.num_div_den q]
    rw [abs_div, Nat.abs_cast, ← Int.cast_abs, Int.abs_eq_natAbs, Int.cast_natCast]
  rw [absolute]
  push_cast
  field_simp
  rw [Nat.cast_natAbs, Int.cast_abs]

theorem isDigit_of_mem_digits {n : Nat} {c : Char} (member : c ∈ digits n) : c.isDigit = true :=
  Nat.isDigit_of_mem_toDigits (by omega) (by omega) member

theorem digits_ne_nil (n : Nat) : digits n ≠ [] := Nat.toDigits_ne_nil

theorem natural_digits (n : Nat) : natural (digits n) = some n := by
  have all : (digits n).all Char.isDigit = true := List.all_eq_true.mpr fun _ => isDigit_of_mem_digits
  rw [natural, if_pos ⟨digits_ne_nil n, all⟩, digits, Nat.ofDigitChars_ten_toDigits]

theorem head_digits {n : Nat} (positive : 0 < n) : (digits n).head? ≠ some '0' := by
  induction n using Nat.strong_induction_on with
  | _ n ih =>
      by_cases small : n < 10
      · rw [digits, Nat.toDigits_of_lt_base small]
        interval_cases n <;> decide
      · have first := ih (n / 10) (by omega) (by omega)
        rw [digits, Nat.toDigits_of_base_le (by omega) (by omega),
          List.head?_append_of_ne_nil _ Nat.toDigits_ne_nil]
        exact first

theorem digits_canonical (n : Nat) : ¬ (digits n = [] ∨ ((digits n).head? = some '0' ∧ digits n ≠ ['0'])) := by
  rintro (none | ⟨zero, more⟩)
  · exact digits_ne_nil n none
  · rcases Nat.eq_zero_or_pos n with rfl | positive
    · exact more (Nat.toDigits_zero 10)
    · exact head_digits positive zero

theorem unsigned_digits (m k : Nat) : unsigned (digits m ++ shift k) = some (mkRat m (10 ^ k)) := by
  have stops : (shift k).takeWhile Char.isDigit = [] ∧ (shift k).dropWhile Char.isDigit = shift k := by
    unfold shift
    split
    · exact ⟨rfl, rfl⟩
    · exact ⟨rfl, rfl⟩
  have taken : (digits m ++ shift k).takeWhile Char.isDigit = digits m := by
    rw [List.takeWhile_append_of_pos fun _ => isDigit_of_mem_digits, stops.1, List.append_nil]
  have dropped : (digits m ++ shift k).dropWhile Char.isDigit = shift k := by
    rw [List.dropWhile_append_of_pos fun _ => isDigit_of_mem_digits, stops.2]
  have value : Nat.ofDigitChars 10 (digits m) 0 = m := Nat.ofDigitChars_ten_toDigits
  have noPoint : fraction (shift k) = some ([], shift k) := by
    unfold shift
    split <;> rfl
  have power : exponent (shift k) = some (-(k : Int)) := by
    unfold shift
    split_ifs with none
    · subst none
      rfl
    · simp [exponent, natural_digits]
  simp only [unsigned, taken, dropped, digits_canonical m, if_false, noPoint, power, List.append_nil, value,
    Option.bind_eq_bind, Option.bind_some, Option.pure_def, List.length_nil, Option.some.injEq]
  unfold scale
  split_ifs with whole
  · obtain rfl : k = 0 := by omega
    simp [Rat.mkRat_one]
  · congr 2
    omega

theorem numeral_cons (q : ℚ) : ∃ c cs, numeral q = c :: cs ∧ (c = '-' ∨ c.isDigit = true) := by
  obtain ⟨c, cs, first⟩ := List.exists_cons_of_ne_nil (digits_ne_nil (mantissa q))
  have digit : c.isDigit = true := isDigit_of_mem_digits (first ▸ List.mem_cons_self)
  unfold numeral
  split
  · exact ⟨'-', _, rfl, .inl rfl⟩
  · exact ⟨c, cs ++ shift (places q), by rw [first, List.cons_append], .inr digit⟩

theorem number_numeral {q : ℚ} (decimal : Decimal q) : number (numeral q) = some q := by
  unfold numeral
  split_ifs with negative
  · have below : q < 0 := Rat.num_neg.mp negative
    simp [number, unsigned_digits, mkRat_mantissa decimal, abs_of_neg below]
  · have above : 0 ≤ q := Rat.num_nonneg.mp (not_lt.mp negative)
    obtain ⟨c, cs, first⟩ := List.exists_cons_of_ne_nil (digits_ne_nil (mantissa q))
    have digit : c.isDigit = true := isDigit_of_mem_digits (first ▸ List.mem_cons_self)
    have unsigned' : c ≠ '-' := by
      rintro rfl
      exact absurd digit (by decide)
    have read := unsigned_digits (mantissa q) (places q)
    rw [first, List.cons_append] at read ⊢
    rw [number, if_neg unsigned', read, mkRat_mantissa decimal, abs_of_nonneg above]

theorem isNumeral_of_mem_numeral {q : ℚ} {c : Char} (member : c ∈ numeral q) : isNumeral c = true := by
  have ofDigits {n : Nat} (digit : c ∈ digits n) : isNumeral c = true := by
    simp [isNumeral, isDigit_of_mem_digits digit]
  have ofTail (tail : c ∈ digits (mantissa q) ++ shift (places q)) : isNumeral c = true := by
    rcases List.mem_append.mp tail with digit | power
    · exact ofDigits digit
    · unfold shift at power
      split at power
      · cases power
      · rcases List.mem_cons.mp power with rfl | power
        · decide
        · rcases List.mem_cons.mp power with rfl | digit
          · decide
          · exact ofDigits digit
  unfold numeral at member
  split at member
  · rcases List.mem_cons.mp member with rfl | tail
    · decide
    · exact ofTail tail
  · exact ofTail member

/-! ## Values -/

def isSpace (c : Char) : Bool := c = ' ' || c = '\t' || c = '\n' || c = '\r'

def skip (cs : List Char) : List Char := cs.dropWhile isSpace

/-- The rest of a literal whose first letter has been read. -/
def literal {α : Type} (letters : List Char) (result : α) (cs : List Char) : Option (α × List Char) :=
  if letters.isPrefixOf cs then some (result, cs.drop letters.length) else none

def quoted (cs : List Char) : Option (List Char × List Char) := string cs.length cs

/-- What is made of the values of a text. Strings and numbers come with the characters they are written
with. -/
structure Builder (α : Type) where
  null : α
  bool : Bool → α
  num : List Char → ℚ → α
  str : List Char → String → α
  arr : List α → α
  obj : List (String × α) → α

section Reader
variable {α : Type} (build : Builder α)

mutual

def value : Nat → List Char → Option (α × List Char)
  | 0, _ => none
  | fuel + 1, cs =>
    match skip cs with
    | [] => none
    | c :: rest =>
      if c = '"' then (quoted rest).map fun (s, after) => (build.str (written rest) (String.ofList s), after)
      else if c = '[' then
        if (skip rest).head? = some ']' then some (build.arr [], (skip rest).tail)
        else (items fuel rest).map fun (items, rest) => (build.arr items, rest)
      else if c = '{' then
        if (skip rest).head? = some '}' then some (build.obj [], (skip rest).tail)
        else (members fuel rest).map fun (members, rest) => (build.obj members, rest)
      else if c = 'n' then literal ['u', 'l', 'l'] build.null rest
      else if c = 't' then literal ['r', 'u', 'e'] (build.bool true) rest
      else if c = 'f' then literal ['a', 'l', 's', 'e'] (build.bool false) rest
      else (number ((c :: rest).takeWhile isNumeral)).map fun q =>
        (build.num ((c :: rest).takeWhile isNumeral) q, (c :: rest).dropWhile isNumeral)

def items : Nat → List Char → Option (List α × List Char)
  | 0, _ => none
  | fuel + 1, cs => do
    let (item, rest) ← value fuel cs
    match skip rest with
    | [] => none
    | c :: rest =>
      if c = ',' then (items fuel rest).map fun (more, rest) => (item :: more, rest)
      else if c = ']' then some ([item], rest)
      else none

def members : Nat → List Char → Option (List (String × α) × List Char)
  | 0, _ => none
  | fuel + 1, cs =>
    match skip cs with
    | [] => none
    | c :: rest =>
      if c = '"' then do
        let (key, rest) ← quoted rest
        match skip rest with
        | [] => none
        | c :: rest =>
          if c = ':' then do
            let (member, rest) ← value fuel rest
            match skip rest with
            | [] => none
            | c :: rest =>
              if c = ',' then
                (members fuel rest).map fun (more, rest) => ((String.ofList key, member) :: more, rest)
              else if c = '}' then some ([(String.ofList key, member)], rest)
              else none
          else none
      else none

end

def parseWith (cs : List Char) : Option α := do
  let (result, rest) ← value build cs.length cs
  if skip rest = [] then return result else none

end Reader

@[simps]
def plain : Builder Json where
  null := .null
  bool := .bool
  num _ := .num
  str _ := .str
  arr := .arr
  obj := .obj

def parse (cs : List Char) : Option Json := parseWith plain cs

def renderString (s : String) : List Char := '"' :: (s.toList.flatMap quote ++ ['"'])

theorem newline_not_mem_quote (c : Char) : '\n' ∉ quote c := by
  by_cases newline : c = '\n'
  · subst newline
    decide
  · have other : '\n' ≠ c := Ne.symm newline
    unfold quote
    split_ifs <;> simp [other]

theorem encodeUtf8_renderString (s : String) :
    ∃ inner, encodeUtf8 (renderString s) = 34 :: (inner ++ [34]) ∧ 10 ∉ inner := by
  refine ⟨encodeUtf8 (s.toList.flatMap quote), ?_, ?_⟩
  · have quotes : String.utf8EncodeChar '"' = [34] := by decide
    simp only [encodeUtf8, renderString, List.flatMap_cons, List.flatMap_append, List.flatMap_nil, quotes]
    rfl
  · intro member
    obtain ⟨c, written, byte⟩ := List.mem_flatMap.mp member
    obtain ⟨original, _, escaped⟩ := List.mem_flatMap.mp written
    rw [newline_of_mem_utf8EncodeChar byte] at escaped
    exact newline_not_mem_quote original escaped

mutual

def render : Json → List Char
  | .null => ['n', 'u', 'l', 'l']
  | .bool true => ['t', 'r', 'u', 'e']
  | .bool false => ['f', 'a', 'l', 's', 'e']
  | .num q => numeral q
  | .str s => renderString s
  | .arr items => '[' :: (renderItems items ++ [']'])
  | .obj members => '{' :: (renderMembers members ++ ['}'])

def renderItems : List Json → List Char
  | [] => []
  | item :: more => render item ++ if more = [] then [] else ',' :: renderItems more

def renderMembers : List (String × Json) → List Char
  | [] => []
  | (key, member) :: more =>
    renderString key ++ ':' :: (render member ++ if more = [] then [] else ',' :: renderMembers more)

end

mutual

def Decimals : Json → Prop
  | .num q => Decimal q
  | .arr items => DecimalItems items
  | .obj members => DecimalMembers members
  | .null | .bool _ | .str _ => True

def DecimalItems : List Json → Prop
  | [] => True
  | item :: more => Decimals item ∧ DecimalItems more

def DecimalMembers : List (String × Json) → Prop
  | [] => True
  | (_, member) :: more => Decimals member ∧ DecimalMembers more

end

/-- What follows a value does not go on a number. -/
def Delimited (rest : List Char) : Prop := ∀ c ∈ rest.head?, isNumeral c = false

theorem render_cons (v : Json) :
    ∃ c cs, render v = c :: cs ∧ isSpace c = false ∧ c ≠ ']' := by
  cases v with
  | num q =>
      obtain ⟨c, cs, first, start⟩ := numeral_cons q
      refine ⟨c, cs, by rw [render, first], ?_⟩
      rcases start with rfl | digit
      · decide
      · constructor
        · cases space : isSpace c with
          | false => rfl
          | true =>
              simp only [isSpace, Bool.or_eq_true, decide_eq_true_eq] at space
              rcases space with ((rfl | rfl) | rfl) | rfl <;> exact absurd digit (by decide)
        · rintro rfl
          exact absurd digit (by decide)
  | bool b => cases b <;> exact ⟨_, _, rfl, by decide⟩
  | _ => exact ⟨_, _, rfl, by decide⟩

theorem skip_cons {c : Char} (solid : isSpace c = false) (cs : List Char) : skip (c :: cs) = c :: cs := by
  rw [skip, List.dropWhile_cons, solid]
  rfl

theorem skip_render (v : Json) (rest : List Char) : skip (render v ++ rest) = render v ++ rest := by
  obtain ⟨c, cs, first, space, _⟩ := render_cons v
  rw [first, List.cons_append, skip_cons space]

theorem render_length_pos (v : Json) : 0 < (render v).length := by
  obtain ⟨c, cs, first, _⟩ := render_cons v
  simp [first]

theorem quoted_renderString (s : String) (rest : List Char) :
    quoted (s.toList.flatMap quote ++ '"' :: rest) = some (s.toList, rest) := by
  apply string_quoted
  have longer : s.toList.length ≤ (s.toList.flatMap quote).length := by
    induction s.toList with
    | nil => exact Nat.le_refl _
    | cons c cs ih =>
        have nonempty : 0 < (quote c).length := by
          unfold quote
          split_ifs <;> simp
        simp only [List.flatMap_cons, List.length_append, List.length_cons]
        omega
  simp only [List.length_append, List.length_cons]
  omega

theorem value_numeral {q : ℚ} (decimal : Decimal q) (fuel : Nat) {rest : List Char} (delimited : Delimited rest) :
    value plain (fuel + 1) (numeral q ++ rest) = some (.num q, rest) := by
  have stops : rest.takeWhile isNumeral = [] ∧ rest.dropWhile isNumeral = rest := by
    cases rest with
    | nil => exact ⟨rfl, rfl⟩
    | cons c cs => simp [delimited c rfl]
  have taken : (numeral q ++ rest).takeWhile isNumeral = numeral q := by
    rw [List.takeWhile_append_of_pos fun _ => isNumeral_of_mem_numeral, stops.1, List.append_nil]
  have dropped : (numeral q ++ rest).dropWhile isNumeral = rest := by
    rw [List.dropWhile_append_of_pos fun _ => isNumeral_of_mem_numeral, stops.2]
  have skipped := skip_render (.num q) rest
  obtain ⟨c, cs, first, start⟩ := numeral_cons q
  have other (d : Char) (special : d ≠ '-' ∧ d.isDigit = false) : c ≠ d := by
    rintro rfl
    rcases start with minus | digit
    · exact special.1 minus
    · rw [special.2] at digit
      cases digit
  rw [render] at skipped
  have read := number_numeral decimal
  rw [first, List.cons_append] at taken dropped skipped ⊢
  rw [first] at read
  simp only [value, plain_num, skipped, other '"' (by decide), other '[' (by decide), other '{' (by decide),
    other 'n' (by decide), other 't' (by decide), other 'f' (by decide), if_false, taken, dropped, read,
    Option.map_some]

section Equations
variable {fuel : Nat} {cs rest : List Char}

theorem value_arr {vs : List Json} (nonempty : (skip cs).head? ≠ some ']')
    (read : items plain fuel cs = some (vs, rest)) : value plain (fuel + 1) ('[' :: cs) = some (.arr vs, rest) := by
  simp [value, skip_cons (rfl : isSpace '[' = false), nonempty, read]

theorem value_obj {object : List (String × Json)} (nonempty : (skip cs).head? ≠ some '}')
    (read : members plain fuel cs = some (object, rest)) :
    value plain (fuel + 1) ('{' :: cs) = some (.obj object, rest) := by
  simp [value, skip_cons (rfl : isSpace '{' = false), nonempty, read]

theorem items_last {item : Json} (read : value plain fuel cs = some (item, ']' :: rest)) :
    items plain (fuel + 1) cs = some ([item], rest) := by
  simp [items, read, skip_cons (rfl : isSpace ']' = false)]

theorem items_cons {item : Json} {more : List Json} {after : List Char}
    (read : value plain fuel cs = some (item, ',' :: after)) (others : items plain fuel after = some (more, rest)) :
    items plain (fuel + 1) cs = some (item :: more, rest) := by
  simp [items, read, skip_cons (rfl : isSpace ',' = false), others]

theorem members_last {member : Json} {key : String} (read : value plain fuel cs = some (member, '}' :: rest)) :
    members plain (fuel + 1) (renderString key ++ ':' :: cs) = some ([(key, member)], rest) := by
  have named := quoted_renderString key (':' :: cs)
  simp only [renderString, List.cons_append, List.append_assoc, List.nil_append]
  simp [members, skip_cons (rfl : isSpace '"' = false), skip_cons (rfl : isSpace ':' = false),
    skip_cons (rfl : isSpace '}' = false), named, read]

theorem members_cons {member : Json} {key : String} {more : List (String × Json)} {after : List Char}
    (read : value plain fuel cs = some (member, ',' :: after)) (others : members plain fuel after = some (more, rest)) :
    members plain (fuel + 1) (renderString key ++ ':' :: cs) = some ((key, member) :: more, rest) := by
  have named := quoted_renderString key (':' :: cs)
  simp only [renderString, List.cons_append, List.append_assoc, List.nil_append]
  simp [members, skip_cons (rfl : isSpace '"' = false), skip_cons (rfl : isSpace ':' = false),
    skip_cons (rfl : isSpace ',' = false), named, read, others]

end Equations

theorem delimited_comma (rest : List Char) : Delimited (',' :: rest) := by
  rintro _ ⟨⟩
  rfl

theorem delimited_bracket (rest : List Char) : Delimited (']' :: rest) := by
  rintro _ ⟨⟩
  rfl

theorem delimited_brace (rest : List Char) : Delimited ('}' :: rest) := by
  rintro _ ⟨⟩
  rfl

-- the recursion is on the value; a list of items or members has fuel to spare for its brackets
mutual

theorem value_render : ∀ (v : Json) (fuel : Nat) (rest : List Char), Decimals v → Delimited rest →
    (render v).length ≤ fuel + 1 → value plain (fuel + 1) (render v ++ rest) = some (v, rest)
  | .null, _, _, _, _, _ => rfl
  | .bool true, _, _, _, _, _ => rfl
  | .bool false, _, _, _, _, _ => rfl
  | .num _, fuel, _, decimal, delimited, _ => value_numeral decimal fuel delimited
  | .str s, fuel, rest, _, _, _ => by
      have read := quoted_renderString s rest
      simp only [render, renderString, List.cons_append, List.append_assoc, List.nil_append]
      simp [value, skip_cons (rfl : isSpace '"' = false), read]
  | .arr [], _, _, _, _, _ => rfl
  | .arr (item :: more), fuel, rest, decimals, _, enough => by
      simp only [render, List.length_cons, List.length_append, List.length_nil] at enough
      have read := items_render (item :: more) fuel rest (List.cons_ne_nil _ _) decimals (by omega)
      rw [render, List.cons_append, List.append_assoc]
      refine value_arr ?_ read
      obtain ⟨c, cs, first, space, other⟩ := render_cons item
      simp [renderItems, first, skip_cons space, other]
  | .obj [], _, _, _, _, _ => rfl
  | .obj ((key, member) :: more), fuel, rest, decimals, _, enough => by
      simp only [render, List.length_cons, List.length_append, List.length_nil] at enough
      have read := members_render ((key, member) :: more) fuel rest (List.cons_ne_nil _ _) decimals (by omega)
      rw [render, List.cons_append, List.append_assoc]
      refine value_obj ?_ read
      simp [renderMembers, renderString, skip_cons (rfl : isSpace '"' = false)]

theorem items_render : ∀ (vs : List Json) (fuel : Nat) (rest : List Char), vs ≠ [] → DecimalItems vs →
    (renderItems vs).length < fuel → items plain fuel (renderItems vs ++ ']' :: rest) = some (vs, rest)
  | [], _, _, nonempty, _, _ => absurd rfl nonempty
  | [item], fuel, rest, _, decimals, enough => by
      have positive := render_length_pos item
      simp only [renderItems, if_true, List.append_nil] at enough ⊢
      obtain ⟨fuel, rfl⟩ : ∃ n, fuel = n + 2 := Nat.exists_eq_add_of_le' (by omega)
      exact items_last (value_render item fuel _ decimals.1 (delimited_bracket rest) (by omega))
  | item :: next :: more, fuel, rest, _, decimals, enough => by
      have positive := render_length_pos item
      rw [renderItems, if_neg (List.cons_ne_nil _ _)] at enough ⊢
      simp only [List.length_append, List.length_cons, List.append_assoc, List.cons_append] at enough ⊢
      obtain ⟨fuel, rfl⟩ : ∃ n, fuel = n + 2 := Nat.exists_eq_add_of_le' (by omega)
      exact items_cons (value_render item fuel _ decimals.1 (delimited_comma _) (by omega))
        (items_render (next :: more) (fuel + 1) rest (List.cons_ne_nil _ _) decimals.2 (by omega))

theorem members_render : ∀ (object : List (String × Json)) (fuel : Nat) (rest : List Char), object ≠ [] →
    DecimalMembers object → (renderMembers object).length < fuel →
    members plain fuel (renderMembers object ++ '}' :: rest) = some (object, rest)
  | [], _, _, nonempty, _, _ => absurd rfl nonempty
  | [(key, member)], fuel, rest, _, decimals, enough => by
      have positive := render_length_pos member
      simp only [renderMembers, if_true, List.append_nil, List.append_assoc, List.cons_append,
        List.length_append, List.length_cons] at enough ⊢
      obtain ⟨fuel, rfl⟩ : ∃ n, fuel = n + 2 := Nat.exists_eq_add_of_le' (by omega)
      exact members_last (value_render member fuel _ decimals.1 (delimited_brace rest) (by omega))
  | (key, member) :: next :: more, fuel, rest, _, decimals, enough => by
      have positive := render_length_pos member
      rw [renderMembers, if_neg (List.cons_ne_nil _ _)] at enough ⊢
      simp only [List.append_assoc, List.cons_append, List.length_append, List.length_cons] at enough ⊢
      obtain ⟨fuel, rfl⟩ : ∃ n, fuel = n + 2 := Nat.exists_eq_add_of_le' (by omega)
      exact members_cons (value_render member fuel _ decimals.1 (delimited_comma _) (by omega))
        (members_render (next :: more) (fuel + 1) rest (List.cons_ne_nil _ _) decimals.2 (by omega))

end

theorem parse_render {v : Json} (decimals : Decimals v) : parse (render v) = some v := by
  obtain ⟨fuel, length⟩ : ∃ n, (render v).length = n + 1 := Nat.exists_eq_add_one.mpr (render_length_pos v)
  have delimited : Delimited [] := by
    rintro _ ⟨⟩
  have read := value_render v fuel [] decimals delimited length.le
  rw [List.append_nil, ← length] at read
  rw [parse, parseWith, read]
  rfl

/-! ## Two readings of one text -/

/-- Two builders that make related values of related parts. -/
structure Builder.Related {α β : Type} (R : α → β → Prop) (first : Builder α) (second : Builder β) : Prop where
  null : R first.null second.null
  bool : ∀ b, R (first.bool b) (second.bool b)
  num : ∀ {cs q}, number cs = some q → R (first.num cs q) (second.num cs q)
  str : ∀ {cs s rest}, quoted cs = some (s, rest) →
    R (first.str (written cs) (String.ofList s)) (second.str (written cs) (String.ofList s))
  arr : ∀ {items items'}, List.Forall₂ R items items' → R (first.arr items) (second.arr items')
  obj : ∀ {members members'}, List.Forall₂ (fun member member' => member.1 = member'.1 ∧ R member.2 member'.2)
    members members' → R (first.obj members) (second.obj members')

section Related
variable {α β : Type} {R : α → β → Prop} {first : Builder α} {second : Builder β}

def SameRest (R : α → β → Prop) : Option (α × List Char) → Option (β × List Char) → Prop :=
  Option.Rel fun read read' => R read.1 read'.1 ∧ read.2 = read'.2

/-- Both readings of the text with some fuel are related, and stop at the same place. -/
structure ReadsRelated (R : α → β → Prop) (first : Builder α) (second : Builder β) (fuel : Nat) : Prop where
  value : ∀ cs, SameRest R (value first fuel cs) (value second fuel cs)
  items : ∀ cs, SameRest (List.Forall₂ R) (items first fuel cs) (items second fuel cs)
  members : ∀ cs, SameRest (List.Forall₂ fun member member' => member.1 = member'.1 ∧ R member.2 member'.2)
    (members first fuel cs) (members second fuel cs)

theorem SameRest.map {γ δ : Type} {S : γ → δ → Prop} {read : Option (α × List Char)} {read' : Option (β × List Char)}
    (related : SameRest R read read') {f : α → γ} {g : β → δ} (maps : ∀ {a b}, R a b → S (f a) (g b)) :
    SameRest S (read.map fun (a, rest) => (f a, rest)) (read'.map fun (b, rest) => (g b, rest)) := by
  cases related with
  | none => exact .none
  | some both => exact .some ⟨maps both.1, both.2⟩

theorem SameRest.bind {γ δ : Type} {S : γ → δ → Prop} {read : Option (α × List Char)}
    {read' : Option (β × List Char)} (related : SameRest R read read') {f : α × List Char → Option (γ × List Char)}
    {g : β × List Char → Option (δ × List Char)}
    (next : ∀ a b rest, R a b → SameRest S (f (a, rest)) (g (b, rest))) :
    SameRest S (read >>= f) (read' >>= g) := by
  cases related with
  | none => exact .none
  | @some found found' both =>
      obtain ⟨a, rest⟩ := found
      obtain ⟨b, rest'⟩ := found'
      obtain ⟨related, rfl⟩ : R a b ∧ rest = rest' := both
      exact next a b rest related

theorem sameRest_literal {a : α} {b : β} (related : R a b) (letters cs : List Char) :
    SameRest R (literal letters a cs) (literal letters b cs) := by
  unfold literal
  split
  · exact .some ⟨related, rfl⟩
  · exact .none

variable {fuel : Nat} (builds : first.Related R second) (reads : ReadsRelated R first second fuel)
include builds reads

theorem ReadsRelated.value_succ (cs : List Char) :
    SameRest R (JsonText.value first (fuel + 1) cs) (JsonText.value second (fuel + 1) cs) := by
  simp only [JsonText.value]
  split
  · exact .none
  · rename_i c rest _
    split_ifs
    · cases read : quoted rest with
      | none => exact .none
      | some found => exact .some ⟨builds.str read, rfl⟩
    · exact .some ⟨builds.arr .nil, rfl⟩
    · exact (reads.items rest).map builds.arr
    · exact .some ⟨builds.obj .nil, rfl⟩
    · exact (reads.members rest).map builds.obj
    · exact sameRest_literal builds.null _ _
    · exact sameRest_literal (builds.bool true) _ _
    · exact sameRest_literal (builds.bool false) _ _
    · cases read : number ((c :: rest).takeWhile isNumeral) with
      | none => exact .none
      | some q => exact .some ⟨builds.num read, rfl⟩

omit builds in
theorem ReadsRelated.items_succ (cs : List Char) :
    SameRest (List.Forall₂ R) (JsonText.items first (fuel + 1) cs) (JsonText.items second (fuel + 1) cs) := by
  simp only [JsonText.items]
  apply (reads.value cs).bind
  intro item item' rest related
  dsimp only
  split
  · exact .none
  · split_ifs
    · exact (reads.items _).map fun more => .cons related more
    · exact .some ⟨.cons related .nil, rfl⟩
    · exact .none

omit builds in
theorem ReadsRelated.members_succ (cs : List Char) :
    SameRest (List.Forall₂ fun member member' => member.1 = member'.1 ∧ R member.2 member'.2)
      (JsonText.members first (fuel + 1) cs) (JsonText.members second (fuel + 1) cs) := by
  simp only [JsonText.members]
  split
  · exact .none
  · split_ifs
    · rename_i rest _ _
      cases quoted rest with
      | none => exact .none
      | some named =>
          simp only [Option.bind_eq_bind, Option.bind_some]
          split
          · exact .none
          · split_ifs
            · apply (reads.value _).bind
              intro member member' rest related
              dsimp only
              split
              · exact .none
              · split_ifs
                · exact (reads.members _).map fun more => .cons ⟨rfl, related⟩ more
                · exact .some ⟨.cons ⟨rfl, related⟩ .nil, rfl⟩
                · exact .none
            · exact .none
    · exact .none

omit reads in
theorem readsRelated (fuel : Nat) : ReadsRelated R first second fuel := by
  induction fuel with
  | zero => exact ⟨fun _ => .none, fun _ => .none, fun _ => .none⟩
  | succ fuel reads => exact ⟨reads.value_succ builds, reads.items_succ, reads.members_succ⟩

omit reads in
theorem parseWith_related (cs : List Char) : Option.Rel R (parseWith first cs) (parseWith second cs) := by
  unfold parseWith
  have read := (readsRelated builds cs.length).value cs
  revert read
  generalize value first cs.length cs = result
  generalize value second cs.length cs = result'
  intro read
  cases read with
  | none => exact .none
  | some both =>
      simp only [Option.bind_eq_bind, Option.bind_some, both.2]
      split
      · exact .some both.1
      · exact .none

end Related

/-! ## Only decimal numbers are read -/

theorem plain_decimals : plain.Related (fun v _ => Decimals v) plain where
  null := trivial
  bool _ := trivial
  num read := decimal_of_number read
  str _ := trivial
  arr related := by
    change DecimalItems _
    induction related with
    | nil => trivial
    | cons decimals _ more => exact ⟨decimals, more⟩
  obj related := by
    change DecimalMembers _
    induction related with
    | nil => trivial
    | cons decimals _ more => exact ⟨decimals.2, more⟩

theorem decimals_of_parse {cs : List Char} {v : Json} (read : parse cs = some v) : Decimals v := by
  have related := parseWith_related plain_decimals cs
  rw [show parseWith plain cs = some v from read] at related
  cases related with
  | some decimals => exact decimals

/-! ## Decoded values

Decoding drops the numbers that are not accepted, and sorts the members of objects; of members with
the same key the last one stays. -/

section Decoding
variable (accepts : ℚ → Bool)

mutual

def normalize : Json → Json
  | .num q => if accepts q then .num q else .null
  | .arr items => .arr (normalizeItems items)
  | .obj members => .obj (Object.merge [] (normalizeMembers members))
  | .null => .null
  | .bool b => .bool b
  | .str s => .str s

def normalizeItems : List Json → List Json
  | [] => []
  | item :: more => normalize item :: normalizeItems more

def normalizeMembers : List (String × Json) → List (String × Json)
  | [] => []
  | (key, member) :: more => (key, normalize member) :: normalizeMembers more

end

mutual

def accepted : Json → Bool
  | .num q => accepts q
  | .arr items => acceptedItems items
  | .obj members => acceptedMembers members
  | .null | .bool _ | .str _ => true

def acceptedItems : List Json → Bool
  | [] => true
  | item :: more => accepted item && acceptedItems more

def acceptedMembers : List (String × Json) → Bool
  | [] => true
  | (_, member) :: more => accepted member && acceptedMembers more

end

mutual

/-- A value as decoding leaves it. -/
def Clean : Json → Prop
  | .num q => accepts q = true ∧ Decimal q
  | .arr items => CleanItems items
  | .obj members => Object.Sorted members ∧ CleanMembers members
  | .null | .bool _ | .str _ => True

def CleanItems : List Json → Prop
  | [] => True
  | item :: more => Clean item ∧ CleanItems more

def CleanMembers : List (String × Json) → Prop
  | [] => True
  | (_, member) :: more => Clean member ∧ CleanMembers more

end

theorem cleanMembers_iff {members : List (String × Json)} :
    CleanMembers accepts members ↔ ∀ member ∈ members, Clean accepts member.2 := by
  induction members with
  | nil => simp [CleanMembers]
  | cons first members ih => simp [CleanMembers, ih]

variable {accepts}

theorem Clean.set {object : Object} (clean : Clean accepts (.obj object)) {value : Json}
    (new : Clean accepts value) (key : String) : Clean accepts (.obj (object.set key value)) := by
  obtain ⟨sorted, members⟩ := clean
  refine ⟨sorted.set key value, (cleanMembers_iff accepts).mpr ?_⟩
  intro member mem
  rcases Object.mem_set mem with rfl | old
  · exact new
  · exact (cleanMembers_iff accepts).mp members member old

theorem clean_merge {members : List (String × Json)} (clean : CleanMembers accepts members) :
    Clean accepts (.obj (Object.merge [] members)) := by
  refine ⟨Object.Sorted.merge List.Pairwise.nil members, (cleanMembers_iff accepts).mpr ?_⟩
  intro member mem
  rcases Object.mem_merge mem with new | old
  · exact (cleanMembers_iff accepts).mp clean member new
  · cases old

mutual

theorem clean_normalize : ∀ v : Json, Decimals v → Clean accepts (normalize accepts v)
  | .null, _ => trivial
  | .bool _, _ => trivial
  | .str _, _ => trivial
  | .num q, decimal => by
      unfold normalize
      split
      · exact ⟨‹_›, decimal⟩
      · trivial
  | .arr items, decimals => clean_normalizeItems items decimals
  | .obj members, decimals => clean_merge (clean_normalizeMembers members decimals)

theorem clean_normalizeItems : ∀ items : List Json, DecimalItems items →
    CleanItems accepts (normalizeItems accepts items)
  | [], _ => trivial
  | item :: more, decimals => ⟨clean_normalize item decimals.1, clean_normalizeItems more decimals.2⟩

theorem clean_normalizeMembers : ∀ members : List (String × Json), DecimalMembers members →
    CleanMembers accepts (normalizeMembers accepts members)
  | [], _ => trivial
  | (_, member) :: more, decimals => ⟨clean_normalize member decimals.1, clean_normalizeMembers more decimals.2⟩

end

mutual

theorem normalize_of_clean : ∀ v : Json, Clean accepts v → normalize accepts v = v
  | .null, _ => rfl
  | .bool _, _ => rfl
  | .str _, _ => rfl
  | .num _, clean => by rw [normalize, if_pos clean.1]
  | .arr items, clean => by rw [normalize, normalizeItems_of_clean items clean]
  | .obj members, clean => by
      have merged : Object.merge [] members = members := @Object.merge_of_sorted [] members clean.1
      rw [normalize, normalizeMembers_of_clean members clean.2, merged]

theorem normalizeItems_of_clean : ∀ items : List Json, CleanItems accepts items →
    normalizeItems accepts items = items
  | [], _ => rfl
  | item :: more, clean => by
      rw [normalizeItems, normalize_of_clean item clean.1, normalizeItems_of_clean more clean.2]

theorem normalizeMembers_of_clean : ∀ members : List (String × Json), CleanMembers accepts members →
    normalizeMembers accepts members = members
  | [], _ => rfl
  | (_, member) :: more, clean => by
      rw [normalizeMembers, normalize_of_clean member clean.1, normalizeMembers_of_clean more clean.2]

end

mutual

theorem accepted_of_clean {other : ℚ → Bool} (weaker : ∀ q, accepts q = true → other q = true) :
    ∀ v : Json, Clean accepts v → accepted other v = true
  | .null, _ => rfl
  | .bool _, _ => rfl
  | .str _, _ => rfl
  | .num q, clean => weaker q clean.1
  | .arr items, clean => acceptedItems_of_clean weaker items clean
  | .obj members, clean => acceptedMembers_of_clean weaker members clean.2

theorem acceptedItems_of_clean {other : ℚ → Bool} (weaker : ∀ q, accepts q = true → other q = true) :
    ∀ items : List Json, CleanItems accepts items → acceptedItems other items = true
  | [], _ => rfl
  | item :: more, clean => by
      rw [acceptedItems, accepted_of_clean weaker item clean.1, acceptedItems_of_clean weaker more clean.2]
      rfl

theorem acceptedMembers_of_clean {other : ℚ → Bool} (weaker : ∀ q, accepts q = true → other q = true) :
    ∀ members : List (String × Json), CleanMembers accepts members → acceptedMembers other members = true
  | [], _ => rfl
  | (_, member) :: more, clean => by
      rw [acceptedMembers, accepted_of_clean weaker member clean.1, acceptedMembers_of_clean weaker more clean.2]
      rfl

end

mutual

theorem decimals_of_clean : ∀ v : Json, Clean accepts v → Decimals v
  | .null, _ => trivial
  | .bool _, _ => trivial
  | .str _, _ => trivial
  | .num _, clean => clean.2
  | .arr items, clean => decimalItems_of_clean items clean
  | .obj members, clean => decimalMembers_of_clean members clean.2

theorem decimalItems_of_clean : ∀ items : List Json, CleanItems accepts items → DecimalItems items
  | [], _ => trivial
  | item :: more, clean => ⟨decimals_of_clean item clean.1, decimalItems_of_clean more clean.2⟩

theorem decimalMembers_of_clean : ∀ members : List (String × Json), CleanMembers accepts members →
    DecimalMembers members
  | [], _ => trivial
  | (_, member) :: more, clean => ⟨decimals_of_clean member clean.1, decimalMembers_of_clean more clean.2⟩

end

end Decoding

end InferenceGateway.Lib.JsonText
