import Mathlib.Algebra.Order.Field.Rat
import Mathlib.Data.Finmap

namespace InferenceGateway

/-! ## Errors -/

inductive ErrorCode
  | unknown
  | badRequest
  | internal
  | modelServerError
  | badConfiguration
  | inferencePoolResourceExhausted
deriving DecidableEq, Repr

structure Error where
  code : ErrorCode
  msg : String
deriving DecidableEq, Repr

/-- The values of Go's `error` interface that the endpoint picker builds: `errors.New`,
`errutil.Error` and `fmt.Errorf` with a `%w` argument, which may be nil. -/
inductive Err
  | new (msg : String)
  | coded (e : Error)
  | wrap (msg : String) (inner : Option Err)
deriving Repr

def ErrorCode.text : ErrorCode → String
  | .unknown => "Unknown"
  | .badRequest => "BadRequest"
  | .internal => "Internal"
  | .modelServerError => "ModelServerError"
  | .badConfiguration => "BadConfiguration"
  | .inferencePoolResourceExhausted => "InferencePoolResourceExhausted"

/-- The `Error` method. -/
def Err.text : Err → String
  | .new msg => msg
  | .coded e => "inference gateway: " ++ e.code.text ++ " - " ++ e.msg
  | .wrap msg none => msg ++ ": %!w(<nil>)"
  | .wrap msg (some inner) => msg ++ ": " ++ inner.text

def Err.canonicalCode : Err → ErrorCode
  | .coded e => e.code
  | .new _ | .wrap _ _ => .unknown

/-! ## Floating point -/

/-- A `float64`. Finite values are exact rationals, and the operations here are exact: there is no rounding
and no overflow. -/
inductive Float64
  | finite (q : ℚ)
  | posInf
  | negInf
  | nan
deriving DecidableEq, Repr

namespace Float64

def maxFinite : ℚ := (2 ^ 53 - 1) * 2 ^ 971  -- math.MaxFloat64

def maxFloat64 : Float64 := .finite maxFinite

def le : Float64 → Float64 → Bool
  | .nan, _ | _, .nan => false
  | .finite a, .finite b => a ≤ b
  | .negInf, _ | _, .posInf => true
  | _, _ => false

def lt (a b : Float64) : Bool := le a b && !le b a

def neg : Float64 → Float64
  | .finite a => .finite (-a)
  | .posInf => .negInf
  | .negInf => .posInf
  | .nan => .nan

def add : Float64 → Float64 → Float64
  | .finite a, .finite b => .finite (a + b)
  | .nan, _ | _, .nan | .posInf, .negInf | .negInf, .posInf => .nan
  | .posInf, _ | _, .posInf => .posInf
  | .negInf, _ | _, .negInf => .negInf

def sub (a b : Float64) : Float64 := add a (neg b)

/-- A quotient of positive zero is not told from one of negative zero. -/
def divide : Float64 → Float64 → Float64
  | .nan, _ | _, .nan => .nan
  | .finite a, .finite b =>
    if b = 0 then if a = 0 then .nan else if 0 < a then .posInf else .negInf
    else .finite (a / b)
  | .finite _, _ => .finite 0
  | .posInf, .finite b => if b < 0 then .negInf else .posInf
  | .negInf, .finite b => if b < 0 then .posInf else .negInf
  | _, _ => .nan

def IsFinite (x : Float64) : Prop := ∃ q : ℚ, x = .finite q ∧ |q| ≤ maxFinite

@[simp] theorem le_finite (a b : ℚ) : le (.finite a) (.finite b) = decide (a ≤ b) := rfl

@[simp] theorem add_finite (a b : ℚ) : add (.finite a) (.finite b) = .finite (a + b) := rfl

@[simp] theorem sub_finite (a b : ℚ) : sub (.finite a) (.finite b) = .finite (a - b) := by
  simp [sub, neg, sub_eq_add_neg]

theorem divide_finite (a : ℚ) {b : ℚ} (nonzero : b ≠ 0) : divide (.finite a) (.finite b) = .finite (a / b) :=
  if_neg nonzero

end Float64

/-- How the scheduler's operations on float64 round their results. A statement that names no arithmetic is
about the exact one: only the result on metrics that are replaced during a run rounds, by
`float64Arithmetic`. The gauges and the JSON numbers are rounded everywhere. -/
class Arithmetic where
  round : Float64 → Float64

instance exactArithmetic : Arithmetic where
  round := id

@[simp] theorem Arithmetic.round_exact (x : Float64) : Arithmetic.round x = x := rfl

end InferenceGateway
