import CommandEngine.Number.Binary

/-!
# Decimals

A `Decimal` is a natural number times a power of ten.  `Decimal.shortest` finds, for a binary
floating-point number, the decimal with the fewest digits that reads back as that number, and of those
the nearest to it; `Decimal.positional` writes a decimal without an exponent.  Reading goes the other
way: `Floating.ofText?` accepts a sign, digits with an optional point, an optional exponent, and the
names of the infinities and of what is not a number.
-/

namespace CommandEngine

/-! ## Digits -/

namespace Digits

/-- The value of an ASCII digit. -/
def value? (c : Char) : Option Nat :=
  if '0' ≤ c ∧ c ≤ '9' then some (c.toNat - '0'.toNat) else none

/-- Whether a character is an ASCII digit. -/
def isDigit (c : Char) : Bool := (value? c).isSome

/-- The number that a list of digits spells, continuing from `acc`; characters that are not digits
count as zero. -/
def valueFrom (acc : Nat) : List Char → Nat
  | [] => acc
  | c :: cs => valueFrom (10 * acc + (value? c).getD 0) cs

/-- The number that a list of digits spells. -/
def value (cs : List Char) : Nat := valueFrom 0 cs

/-- The digits of a natural number, without superfluous zeros. -/
def ofNat (n : Nat) : List Char := Nat.toDigits 10 n

/-- The decimal text of an integer. -/
def ofInt (n : Int) : String :=
  let digits := String.ofList (ofNat n.natAbs)
  if n < 0 then "-" ++ digits else digits

/-- Reads an optional sign and at least one digit. -/
def integer? : List Char → Option Int
  | '-' :: ds => if ds ≠ [] ∧ ds.all isDigit then some (-(value ds : Int)) else none
  | '+' :: ds => if ds ≠ [] ∧ ds.all isDigit then some (value ds) else none
  | ds => if ds ≠ [] ∧ ds.all isDigit then some (value ds) else none

end Digits

/-- The number `coefficient · 10 ^ exponent`. -/
structure Decimal where
  coefficient : Nat
  exponent : Int
  deriving DecidableEq

namespace Decimal

/-! ## The shortest decimal that reads back -/

/-- The decimal magnitude of a positive quotient: the `k` with `10 ^ (k - 1) ≤ num / den < 10 ^ k`. -/
def magnitude (num den : Nat) : Int :=
  let k : Int := ((Digits.ofNat num).length : Int) - ((Digits.ofNat den).length : Int)
  let reached : Bool :=
    if 0 ≤ k then den * tenTo k.toNat ≤ num else den ≤ num * tenTo (-k).toNat
  if reached then k + 1 else k

/-- Drops the trailing zeros of a coefficient, at most `fuel` of them. -/
def trimZeros : (fuel : Nat) → Decimal → Decimal
  | 0, d => d
  | fuel + 1, d =>
    if d.coefficient ≠ 0 ∧ d.coefficient % 10 = 0 then
      trimZeros fuel ⟨d.coefficient / 10, d.exponent + 1⟩
    else d

/-- The stretch of quotients `num / den` that round to one number: both ends as numerators over a
common denominator, and whether the ends belong to it. -/
structure Reach where
  low : Nat
  value : Nat
  high : Nat
  den : Nat
  closed : Bool

/-- The stretch of a finite number: half-way to its neighbours, which are nearer below a power of two.
The ends belong to it exactly if the significand is even. -/
def reach (f : FloatFormat) (m : Nat) (e : Int) : Reach :=
  let lower := if m = twoTo (f.precision - 1) ∧ f.minExponent < e then 4 * m - 1 else 4 * m - 2
  let unit : Int := e - 2
  let num := if 0 ≤ unit then twoTo unit.toNat else 1
  let den := if 0 ≤ unit then 1 else twoTo (-unit).toNat
  ⟨lower * num, 4 * m * num, (4 * m + 2) * num, den, m % 2 = 0⟩

/-- The point `c · 10 ^ g` against a numerator `n` over `den`: both sides of the comparison as natural
numbers. -/
def crossed (den : Nat) (g : Int) (c n : Nat) : Nat × Nat :=
  if 0 ≤ g then (c * tenTo g.toNat * den, n) else (c * den, n * tenTo (-g).toNat)

/-- Whether the point `c · 10 ^ g` rounds to the number that `r` belongs to. -/
def Reach.contains (r : Reach) (g : Int) (c : Nat) : Bool :=
  let (point, low) := crossed r.den g c r.low
  let high := (crossed r.den g c r.high).2
  if r.closed then low ≤ point ∧ point ≤ high else low < point ∧ point < high

/-- Which of two neighbours on a grid is taken at equal distance. -/
inductive Tie
  /-- The upper one. -/
  | up
  /-- The one with an even last digit. -/
  | toEven
  deriving DecidableEq

/-- The neighbour that is taken at equal distance from `c` and `c + 1`. -/
def Tie.choose : Tie → Nat → Nat
  | up, c => c + 1
  | toEven, c => if c % 2 = 0 then c else c + 1

/-- The point of the grid `10 ^ g` that reads back, if there is one: of two such neighbours the nearer. -/
def Reach.onGrid? (tie : Tie) (r : Reach) (g : Int) : Option Decimal :=
  let c := if 0 ≤ g then r.value / (r.den * tenTo g.toNat) else r.value * tenTo (-g).toNat / r.den
  match r.contains g c, r.contains g (c + 1) with
  | true, true =>
    let (twice, doubled) := crossed r.den g (2 * c + 1) (2 * r.value)
    some ⟨if doubled < twice then c else if twice < doubled then c + 1 else tie.choose c, g⟩
  | true, false => some ⟨c, g⟩
  | false, true => some ⟨c + 1, g⟩
  | false, false => none

/-- No number of the two formats needs more digits than this. -/
def maxDigits : Nat := 17

/-- The decimal with the fewest digits that reads back as the positive number `m · 2 ^ e`, and of those
the nearest to it. -/
def shortest (tie : Tie) (f : FloatFormat) (m : Nat) (e : Int) : Decimal :=
  let r := reach f m e
  let k := magnitude r.value r.den
  let grids := (List.range maxDigits).map fun (n : Nat) => k - (n : Int) - 1
  let found := (grids.findSome? (r.onGrid? tie)).getD
    ⟨r.value * tenTo (-(k - maxDigits)).toNat / r.den, k - maxDigits⟩
  trimZeros (maxDigits + 1) found

/-! ## Writing -/

/-- `n` zeros. -/
def zeros (n : Nat) : List Char := List.replicate n '0'

/-- Writes a decimal without an exponent, and with a point only where there is a fraction. -/
def positional (d : Decimal) : List Char :=
  let ds := Digits.ofNat d.coefficient
  let point : Int := ds.length + d.exponent
  if point ≤ 0 then '0' :: '.' :: (zeros (-point).toNat ++ ds)
  else if point < ds.length then ds.take point.toNat ++ '.' :: ds.drop point.toNat
  else ds ++ zeros (point - ds.length).toNat

end Decimal

namespace Floating

variable {f : FloatFormat}

/-- The fewest digits that read back, without an exponent; a tie goes to the upper neighbour. -/
def display : Floating f → String
  | .nan => "NaN"
  | .infinite negative => if negative then "-inf" else "inf"
  | .finite negative m e =>
    let magnitude := if m = 0 then ['0'] else (Decimal.shortest .up f m e).positional
    String.ofList (if negative then '-' :: magnitude else magnitude)

/-! ## Reading -/

/-- Beyond this many places before or after the point, every number is infinite or zero. -/
def placeLimit : Int := 400

/-- The number nearest to `coefficient · 10 ^ exponent`. -/
def ofDecimal (negative : Bool) (coefficient : Nat) (exponent : Int) : Floating f :=
  if coefficient = 0 then zero negative
  else
    let places : Int := (Digits.ofNat coefficient).length + exponent
    if placeLimit < places then .infinite negative
    else if places < -placeLimit then zero negative
    else if 0 ≤ exponent then ofRatio negative (coefficient * tenTo exponent.toNat) 1
    else ofRatio negative coefficient (tenTo (-exponent).toNat)

/-- Reads what may follow the digits: nothing, or an exponent. -/
def exponent? : List Char → Option Int
  | [] => some 0
  | c :: cs => if c = 'e' ∨ c = 'E' then Digits.integer? cs else none

/-- Reads digits with an optional point and an optional exponent; at least one digit is required. -/
def unsigned? (negative : Bool) (cs : List Char) : Option (Floating f) :=
  let whole := cs.takeWhile Digits.isDigit
  let rest := cs.dropWhile Digits.isDigit
  let (fraction, tail) :=
    match rest with
    | '.' :: more => (more.takeWhile Digits.isDigit, more.dropWhile Digits.isDigit)
    | _ => ([], rest)
  if whole = [] ∧ fraction = [] then none
  else (exponent? tail).map fun e =>
    ofDecimal negative (Digits.value (whole ++ fraction)) (e - fraction.length)

/-- Reads the names of the numbers that are not finite, in any case. -/
def named? (negative : Bool) (cs : List Char) : Option (Floating f) :=
  match String.ofList (cs.map Char.toLower) with
  | "inf" | "infinity" => some (.infinite negative)
  | "nan" => some .nan
  | _ => none

/-- Reads a number: a sign, then a name or a decimal. -/
def ofText? (cs : List Char) : Option (Floating f) :=
  let (negative, body) : Bool × List Char :=
    match cs with
    | '-' :: rest => (true, rest)
    | '+' :: rest => (false, rest)
    | _ => (false, cs)
  (named? negative body).or (unsigned? negative body)

end Floating
end CommandEngine
