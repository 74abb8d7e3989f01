import CommandEngine.Number.Decimal
import CommandEngine.Problem

/-!
# Types of numbers that tokens can spell

`Numeral` collects what the library asks of a number type: how it is read and written, how two values
compare, its two extreme values, and inputs that show what it accepts.  The four instances are the
integers of 32 and 64 bits and the floating-point numbers of single and double precision.
-/

namespace CommandEngine

/-- A type of numbers that a token can spell. -/
class Numeral (α : Type) where
  /-- The kind named in errors. -/
  kind : ValueKind
  /-- Inputs that the type accepts. -/
  examples : List String
  /-- The least finite value. -/
  least : α
  /-- The greatest finite value. -/
  greatest : α
  /-- Reads a whole token. -/
  ofText? : List Char → Option α
  /-- Writes a value. -/
  text : α → String
  /-- Whether the first value is less than the second. -/
  below : α → α → Bool
  /-- Whether two values are numerically equal. -/
  same : α → α → Bool

namespace Numeral

/-- Examples of integers. -/
def integerExamples : List String := ["0", "123", "-123"]

/-- Examples of numbers with a fraction. -/
def fractionExamples : List String := ["0", "1.2", ".5", "-1", "-.5", "-1234.56"]

/-- Reads an integer of 32 bits; one that does not fit is refused. -/
def int32? (cs : List Char) : Option Int32 :=
  (Digits.integer? cs).bind fun n =>
    if Int32.minValue.toInt ≤ n ∧ n ≤ Int32.maxValue.toInt then some (Int32.ofInt n) else none

/-- Reads an integer of 64 bits; one that does not fit is refused. -/
def int64? (cs : List Char) : Option Int64 :=
  (Digits.integer? cs).bind fun n =>
    if Int64.minValue.toInt ≤ n ∧ n ≤ Int64.maxValue.toInt then some (Int64.ofInt n) else none

end Numeral

instance : Numeral Int32 where
  kind := .integer
  examples := Numeral.integerExamples
  least := Int32.minValue
  greatest := Int32.maxValue
  ofText? := Numeral.int32?
  text n := Digits.ofInt n.toInt
  below a b := a.toInt < b.toInt
  same a b := a.toInt == b.toInt

instance : Numeral Int64 where
  kind := .long
  examples := Numeral.integerExamples
  least := Int64.minValue
  greatest := Int64.maxValue
  ofText? := Numeral.int64?
  text n := Digits.ofInt n.toInt
  below a b := a.toInt < b.toInt
  same a b := a.toInt == b.toInt

instance : Numeral Single where
  kind := .float
  examples := Numeral.fractionExamples
  least := Floating.largest true
  greatest := Floating.largest false
  ofText? := Floating.ofText?
  text := Floating.display
  below := Floating.below
  same := Floating.same

instance : Numeral Double where
  kind := .double
  examples := Numeral.fractionExamples
  least := Floating.largest true
  greatest := Floating.largest false
  ofText? := Floating.ofText?
  text := Floating.display
  below := Floating.below
  same := Floating.same

/-- Inclusive bounds on the values of a number type. -/
structure Bounds (α : Type) where
  min : α
  max : α
  deriving DecidableEq

namespace Bounds

variable {α : Type} [Numeral α]

/-- All finite values. -/
def full : Bounds α := ⟨Numeral.least, Numeral.greatest⟩

/-- The values from `min` on. -/
def atLeast (min : α) : Bounds α := ⟨min, Numeral.greatest⟩

/-- Bounds with a missing end filled in by the extreme value on that side. -/
def ofOptions (min max : Option α) : Bounds α :=
  ⟨min.getD Numeral.least, max.getD Numeral.greatest⟩

/-- The written form: the kind, then as many bounds as differ from the extreme values, from the left. -/
def display (b : Bounds α) : String :=
  let name := (Numeral.kind α).name
  if Numeral.same b.max Numeral.greatest then
    if Numeral.same b.min Numeral.least then name ++ "()"
    else name ++ "(" ++ Numeral.text b.min ++ ")"
  else name ++ "(" ++ Numeral.text b.min ++ ", " ++ Numeral.text b.max ++ ")"

end Bounds
end CommandEngine
