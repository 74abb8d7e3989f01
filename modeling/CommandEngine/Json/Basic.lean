import CommandEngine.Number.Decimal
import CommandEngine.Text.Basic

/-!
# JSON values

JSON values and their written forms.  Object fields keep the order they are given in.  Numbers with a
fraction are written with the fewest digits that read back, with at least one digit after the point,
and with an exponent where they are very large or very small; those that are not finite are
written as `null`.
-/

namespace CommandEngine

/-- A JSON number. -/
inductive JsonNumber
  | integer (value : Int)
  | single (value : Single)
  | double (value : Double)
  deriving DecidableEq

/-- A JSON value. -/
inductive Json
  | null
  | bool (value : Bool)
  | number (value : JsonNumber)
  | string (value : String)
  | array (items : List Json)
  | object (fields : List (String × Json))

/-! ## Numbers -/

/-- Where the positional notation of numbers ends. -/
structure NotationLimits where
  /-- The largest number of digits before the point. -/
  most : Int
  /-- The point may stand less than this many places before the first digit. -/
  least : Int

namespace NotationLimits

/-- Numbers of single precision are written positionally from `10 ^ -6` to below `10 ^ 13`. -/
def single : NotationLimits := ⟨13, -6⟩

/-- Numbers of double precision are written positionally from `10 ^ -5` to below `10 ^ 16`. -/
def double : NotationLimits := ⟨16, -5⟩

end NotationLimits

namespace Decimal

/-- An exponent, always with its sign. -/
def exponentText (n : Int) : List Char :=
  'e' :: if n < 0 then (Digits.ofInt n).toList else '+' :: (Digits.ofInt n).toList

/-- Writes a decimal with a point, and with an exponent outside the limits. -/
def jsonText (limits : NotationLimits) (d : Decimal) : List Char :=
  let ds := Digits.ofNat d.coefficient
  let point : Int := ds.length + d.exponent
  if 0 ≤ d.exponent ∧ point ≤ limits.most then ds ++ zeros d.exponent.toNat ++ ['.', '0']
  else if limits.least < point ∧ point ≤ limits.most then d.positional
  else
    let tail := exponentText (point - 1)
    match ds with
    | [] => tail
    | [c] => c :: tail
    | c :: rest => c :: '.' :: rest ++ tail

end Decimal

/-- A floating-point number as JSON: the fewest digits that read back, where a tie goes to the even
neighbour. -/
def Floating.jsonText {f : FloatFormat} (limits : NotationLimits) : Floating f → List Char
  | .nan => "null".toList
  | .infinite _ => "null".toList
  | .finite negative m e =>
    let magnitude :=
      if m = 0 then ['0', '.', '0'] else (Decimal.shortest .toEven f m e).jsonText limits
    if negative then '-' :: magnitude else magnitude

namespace JsonNumber

/-- The written form of a number. -/
def text : JsonNumber → String
  | integer n => Digits.ofInt n
  | single x => String.ofList (x.jsonText .single)
  | double x => String.ofList (x.jsonText .double)

end JsonNumber

/-! ## Texts -/

namespace Json

/-- A hexadecimal digit. -/
def hexDigit (n : Nat) : Char := Nat.digitChar n

/-- One character inside a JSON string: quotes, escape characters and controls are escaped. -/
def escapeChar (c : Char) : List Char :=
  if c = '"' ∨ c = '\\' then ['\\', c]
  else if c = '\n' then ['\\', 'n']
  else if c = '\r' then ['\\', 'r']
  else if c = '\t' then ['\\', 't']
  else if c.toNat = 0x08 then ['\\', 'b']
  else if c.toNat = 0x0C then ['\\', 'f']
  else if c.toNat < 0x20 then
    ['\\', 'u', '0', '0', hexDigit (c.toNat / 16), hexDigit (c.toNat % 16)]
  else [c]

/-- A text as a JSON string. -/
def quote (s : String) : String := String.ofList ('"' :: (s.toList.flatMap escapeChar ++ ['"']))

/-! ## Written forms -/

mutual

/-- The form without any blanks. -/
def compact : Json → String
  | null => "null"
  | bool b => if b then "true" else "false"
  | number n => n.text
  | string s => quote s
  | array items => "[" ++ Text.join "," (compactItems items) ++ "]"
  | object fields => "\x7b" ++ Text.join "," (compactFields fields) ++ "\x7d"

/-- The written forms of the items of an array. -/
def compactItems : List Json → List String
  | [] => []
  | v :: rest => compact v :: compactItems rest

/-- The written forms of the fields of an object. -/
def compactFields : List (String × Json) → List String
  | [] => []
  | (key, v) :: rest => (quote key ++ ":" ++ compact v) :: compactFields rest

end

/-- A new line with `depth` steps of two blanks. -/
def newline (depth : Nat) : String := String.ofList ('\n' :: List.replicate (2 * depth) ' ')

/-- Items between brackets, each on a line of its own. -/
def block (depth : Nat) (left right : String) : List String → String
  | [] => left ++ right
  | items =>
    left ++ newline (depth + 1) ++ Text.join ("," ++ newline (depth + 1)) items ++ newline depth ++ right

mutual

/-- The form with one item to a line. -/
def prettyAt (depth : Nat) : Json → String
  | null => "null"
  | bool b => if b then "true" else "false"
  | number n => n.text
  | string s => quote s
  | array items => block depth "[" "]" (prettyItems (depth + 1) items)
  | object fields => block depth "\x7b" "\x7d" (prettyFields (depth + 1) fields)

/-- The items of an array, each on a line of its own. -/
def prettyItems (depth : Nat) : List Json → List String
  | [] => []
  | v :: rest => prettyAt depth v :: prettyItems depth rest

/-- The fields of an object, each on a line of its own. -/
def prettyFields (depth : Nat) : List (String × Json) → List String
  | [] => []
  | (key, v) :: rest => (quote key ++ ": " ++ prettyAt depth v) :: prettyFields depth rest

end

/-- The form with one item to a line. -/
def pretty (v : Json) : String := prettyAt 0 v

/-! ## Fields in order -/

/-- Puts a field among others that are sorted by key. -/
def insertField (key : String) (v : Json) : List (String × Json) → List (String × Json)
  | [] => [(key, v)]
  | (k, w) :: rest =>
    if Text.order key.toList k.toList = .lt then (key, v) :: (k, w) :: rest
    else (k, w) :: insertField key v rest

mutual

/-- The same value with the fields of every object sorted by key. -/
def sorted : Json → Json
  | array items => array (sortedItems items)
  | object fields => object (sortedFields fields)
  | v => v

/-- The items of an array with their fields sorted. -/
def sortedItems : List Json → List Json
  | [] => []
  | v :: rest => sorted v :: sortedItems rest

/-- Fields sorted by key. -/
def sortedFields : List (String × Json) → List (String × Json)
  | [] => []
  | (key, v) :: rest => insertField key (sorted v) (sortedFields rest)

end

/-- An array of texts. -/
def strings (l : List String) : Json := array (l.map string)

/-- An integer. -/
def ofInt (n : Int) : Json := number (.integer n)

/-- A natural number. -/
def ofNat (n : Nat) : Json := ofInt n

/-- Something that may be missing. -/
def ofOption {α : Type} (f : α → Json) : Option α → Json
  | none => null
  | some a => f a

end Json
end CommandEngine
