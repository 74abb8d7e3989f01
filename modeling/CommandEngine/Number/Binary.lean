/-!
# Binary floating point

Numbers with a fraction are kept exactly as what they are: a sign, a significand and a power of two.
A `FloatFormat` says how many significand bits there are and how far the exponent reaches, and
`Floating.ofRatio` rounds a quotient of natural numbers to the nearest number of a format, halves going
to the even significand.  Reading a decimal, narrowing from one format to another, and multiplying or
dividing are all that one rounding applied to an exact quotient.

Comparison is exact too: `Floating.scaled` writes a finite number as an integer multiple of the
smallest positive number of its format.
-/

namespace CommandEngine

/-- Two to a power. -/
def twoTo (n : Nat) : Nat := Nat.pow 2 n

/-- Ten to a power. -/
def tenTo (n : Nat) : Nat := Nat.pow 10 n

/-- A binary floating-point format. -/
structure FloatFormat where
  /-- The number of significand bits, the leading one included. -/
  precision : Nat
  /-- The exponent of the last significand bit of the smallest numbers. -/
  minExponent : Int
  /-- The exponent of the last significand bit of the largest numbers. -/
  maxExponent : Int

namespace FloatFormat

/-- Single precision. -/
def binary32 : FloatFormat := ⟨24, -149, 104⟩

/-- Double precision. -/
def binary64 : FloatFormat := ⟨53, -1074, 971⟩

end FloatFormat

/-- A number of a format: `finite negative m e` is `m · 2 ^ e` with its sign. -/
inductive Floating (f : FloatFormat)
  | nan
  | infinite (negative : Bool)
  | finite (negative : Bool) (significand : Nat) (exponent : Int)
  deriving DecidableEq

/-- Single-precision numbers. -/
abbrev Single := Floating .binary32

/-- Double-precision numbers. -/
abbrev Double := Floating .binary64

namespace Floating

variable {f : FloatFormat}

/-- Zero with a sign. -/
def zero (negative : Bool) : Floating f := .finite negative 0 f.minExponent

/-- The finite number of largest magnitude. -/
def largest (negative : Bool) : Floating f :=
  .finite negative (twoTo f.precision - 1) f.maxExponent

/-! ## Rounding -/

/-- The quotient of two natural numbers, to the nearest natural number, a half to the even one. -/
def divideToEven (num den : Nat) : Nat :=
  let quotient := num / den
  let twice := 2 * (num % den)
  if twice < den then quotient
  else if den < twice then quotient + 1
  else quotient + quotient % 2

/-- The binary magnitude of a positive quotient: the `l` with `2 ^ l ≤ num / den < 2 ^ (l + 1)`. -/
def binaryMagnitude (num den : Nat) : Int :=
  let l : Int := (num.log2 : Int) - (den.log2 : Int)
  let reached : Bool :=
    if 0 ≤ l then den * twoTo l.toNat ≤ num else den ≤ num * twoTo (-l).toNat
  if reached then l else l - 1

/-- The number of the format nearest to `num / den`, with the given sign.  A half goes to the even
significand, and what is too large for the format becomes infinite. -/
def ofRatio (negative : Bool) (num den : Nat) : Floating f :=
  if num = 0 then zero negative
  else
    let exponent := max f.minExponent (binaryMagnitude num den - ((f.precision : Int) - 1))
    let significand :=
      if 0 ≤ exponent then divideToEven num (den * twoTo exponent.toNat)
      else divideToEven (num * twoTo (-exponent).toNat) den
    let (significand, exponent) :=
      if significand = twoTo f.precision then (twoTo (f.precision - 1), exponent + 1)
      else (significand, exponent)
    if f.maxExponent < exponent then .infinite negative
    else .finite negative significand exponent

/-- The magnitude of `m · 2 ^ e` as a quotient of natural numbers. -/
def ratio (significand : Nat) (exponent : Int) : Nat × Nat :=
  if 0 ≤ exponent then (significand * twoTo exponent.toNat, 1)
  else (significand, twoTo (-exponent).toNat)

/-- The number nearest to an integer. -/
def ofInt (n : Int) : Floating f := ofRatio (n < 0) n.natAbs 1

/-- The number of another format nearest to this one. -/
def convert (g : FloatFormat) : Floating f → Floating g
  | .nan => .nan
  | .infinite negative => .infinite negative
  | .finite negative m e => ofRatio negative (ratio m e).1 (ratio m e).2

/-! ## Products and quotients -/

/-- The number nearest to a product. -/
def mul : Floating f → Floating f → Floating f
  | .nan, _ => .nan
  | _, .nan => .nan
  | .infinite a, .infinite b => .infinite (a != b)
  | .infinite a, .finite b m _ => if m = 0 then .nan else .infinite (a != b)
  | .finite a m _, .infinite b => if m = 0 then .nan else .infinite (a != b)
  | .finite a m e, .finite b n g => ofRatio (a != b) (ratio (m * n) (e + g)).1 (ratio (m * n) (e + g)).2

/-- The number nearest to a quotient. -/
def div : Floating f → Floating f → Floating f
  | .nan, _ => .nan
  | _, .nan => .nan
  | .infinite _, .infinite _ => .nan
  | .infinite a, .finite b .. => .infinite (a != b)
  | .finite a .., .infinite b => zero (a != b)
  | .finite a m e, .finite b n g =>
    if n = 0 then if m = 0 then .nan else .infinite (a != b)
    else
      let (num, den) := ratio m (e - g)
      ofRatio (a != b) num (den * n)

/-- Whether a number is infinite. -/
def isInfinite : Floating f → Bool
  | .infinite _ => true
  | _ => false

/-- The same number with the opposite sign. -/
def negate : Floating f → Floating f
  | .nan => .nan
  | .infinite a => .infinite !a
  | .finite a m e => .finite (!a) m e

/-! ## Comparison -/

/-- A finite number as a multiple of the smallest positive number of its format. -/
def scaled (f : FloatFormat) (negative : Bool) (m : Nat) (e : Int) : Int :=
  let magnitude : Int := ((m * twoTo (e - f.minExponent).toNat : Nat) : Int)
  if negative then -magnitude else magnitude

/-- Strictly less.  Nothing is less than, or greater than, what is not a number. -/
def below : Floating f → Floating f → Bool
  | .nan, _ => false
  | _, .nan => false
  | .infinite a, .infinite b => a && !b
  | .infinite a, .finite .. => a
  | .finite .., .infinite b => !b
  | .finite a m e, .finite b n g => scaled f a m e < scaled f b n g

/-- Numeric equality: the two zeros are equal, and what is not a number equals nothing. -/
def same : Floating f → Floating f → Bool
  | .infinite a, .infinite b => a == b
  | .finite a m e, .finite b n g => scaled f a m e == scaled f b n g
  | _, _ => false

/-! ## To the integers -/

/-- The integer part, moved into `[low, high]`; zero for what is not a number. -/
def truncateWithin (low high : Int) : Floating f → Int
  | .nan => 0
  | .infinite negative => if negative then low else high
  | .finite negative m e =>
    let (num, den) := ratio m e
    let magnitude : Int := ((num / den : Nat) : Int)
    max low (min high (if negative then -magnitude else magnitude))

end Floating
end CommandEngine
