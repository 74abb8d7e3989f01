import CommandEngine.Json.Syntax

/-!
# The values of JSON numbers

A number without fraction and exponent is an integer as long as 64 bits hold it.  Every other number is
put together in double precision from its leading digits, as many as 64 bits hold, and a power of ten:
one conversion and one or two multiplications or divisions, each rounded.  The digits after the
leading ones only count for the magnitude.  A number too large for double precision has no value.
-/

namespace CommandEngine
namespace JsonSyntax

/-- The largest significand. -/
def maxSignificand : Nat := twoTo 64 - 1

/-- The largest exponent that is counted exactly. -/
def maxExponent : Nat := twoTo 31 - 1

/-- The largest power of ten that double precision holds. -/
def maxPower : Nat := 308

/-- A power of ten in double precision. -/
def powerOfTen (n : Nat) : Double := Floating.ofDecimal false 1 n

/-- Appends the digits of an integer part to a significand, as long as they fit; counts those left out. -/
def takeWhole (significand : Nat) : List Char → Nat × Nat
  | [] => (significand, 0)
  | c :: cs =>
    let next := 10 * significand + (Digits.value? c).getD 0
    if next ≤ maxSignificand then takeWhole next cs else (significand, (c :: cs).length)

/-- Appends the digits of a fraction to a significand, as long as they fit; counts those appended. -/
def takeFraction (significand taken : Nat) : List Char → Nat × Nat
  | [] => (significand, taken)
  | c :: cs =>
    let next := 10 * significand + (Digits.value? c).getD 0
    if next ≤ maxSignificand then takeFraction next (taken + 1) cs else (significand, taken)

/-- The number `significand · 10 ^ exponent`, rounded at each step. -/
def assemble? (significand : Nat) (exponent : Int) : Option Double :=
  let x : Double := Floating.ofInt significand
  if significand = 0 then some x
  else if 0 ≤ exponent then
    if maxPower < exponent.toNat then none
    else
      let y := x.mul (powerOfTen exponent.toNat)
      if y.isInfinite then none else some y
  else if (-exponent).toNat ≤ maxPower then some (x.div (powerOfTen (-exponent).toNat))
  else
    let y := x.div (powerOfTen maxPower)
    let rest := (-exponent).toNat - maxPower
    some (y.div (powerOfTen (min rest maxPower)))

/-- The number with a given fraction and exponent, without its sign. -/
def realValue? (whole fraction : List Char) (exponent : Int) : Option Double :=
  let (significand, dropped) := takeWhole 0 whole
  let (significand, taken) := takeFraction significand 0 fraction
  let place : Int := (dropped : Int) - taken
  if maxExponent < exponent.natAbs then
    if significand = 0 ∨ exponent < 0 then some (Floating.zero false) else none
  else assemble? significand (place + exponent)

/-- The value of a number that is written well. -/
def numberValue? (text : List Char) : Option JsonNumber :=
  let (negative, body) : Bool × List Char :=
    match text with
    | '-' :: rest => (true, rest)
    | _ => (false, text)
  let (whole, rest) := digits body
  let (fraction, rest) : List Char × List Char :=
    match rest with
    | '.' :: more => digits more
    | _ => ([], rest)
  let signed (x : Double) : JsonNumber := .double (if negative then x.negate else x)
  match rest with
  | [] =>
    let n := Digits.value whole
    if fraction ≠ [] then (realValue? whole fraction 0).map signed
    else if negative then
      if 0 < n ∧ n ≤ twoTo 63 then some (.integer (-n)) else (realValue? whole [] 0).map signed
    else if n ≤ maxSignificand then some (.integer n)
    else (realValue? whole [] 0).map signed
  | _ :: exponent =>
    (Digits.integer? exponent).bind fun e => (realValue? whole fraction e).map signed

/-! ## Whole documents -/

mutual

/-- The value of a document in which arrays and objects are nested at most `depth` deep. -/
def decode? (depth : Nat) : JsonSyntax → Option Json
  | null => some .null
  | bool b => some (.bool b)
  | number text => (numberValue? text).map .number
  | string text => (stringValue? text).map .string
  | array items =>
    match depth with
    | 0 => none
    | depth + 1 => (decodeItems? depth items).map .array
  | object fields =>
    match depth with
    | 0 => none
    | depth + 1 => (decodeFields? depth fields).map .object

/-- The values of the items of an array. -/
def decodeItems? (depth : Nat) : List JsonSyntax → Option (List Json)
  | [] => some []
  | v :: rest => do
    let value ← decode? depth v
    let values ← decodeItems? depth rest
    return value :: values

/-- The values of the fields of an object. -/
def decodeFields? (depth : Nat) : List (List Char × JsonSyntax) → Option (List (String × Json))
  | [] => some []
  | (key, v) :: rest => do
    let name ← stringValue? key
    let value ← decode? depth v
    let values ← decodeFields? depth rest
    return (name, value) :: values

end

end JsonSyntax
end CommandEngine
