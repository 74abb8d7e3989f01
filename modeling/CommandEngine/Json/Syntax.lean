import CommandEngine.Json.Basic

/-!
# JSON documents

Reading a JSON document takes two steps.  `JsonSyntax.parse?` finds out how the document is built up and
keeps numbers and strings as they are written.  `JsonSyntax.decode?` turns those into values, which
fails for numbers too large to represent, for strings with half a surrogate pair, and for
nesting that is too deep.  So a part of a document that nobody asks for only has to be well formed.
-/

namespace CommandEngine

/-- A JSON document as it is written. -/
inductive JsonSyntax
  | null
  | bool (value : Bool)
  /-- The characters of a number. -/
  | number (text : List Char)
  /-- The characters between the quotes. -/
  | string (text : List Char)
  | array (items : List JsonSyntax)
  | object (fields : List (List Char × JsonSyntax))

namespace JsonSyntax

/-! ## Tokens -/

/-- The blanks that JSON allows between tokens. -/
def isBlank (c : Char) : Bool := c == ' ' || c == '\t' || c == '\n' || c == '\r'

/-- The text after any blanks. -/
def skipBlanks (cs : List Char) : List Char := cs.dropWhile isBlank

/-- The text after a given word. -/
def after? : List Char → List Char → Option (List Char)
  | [], cs => some cs
  | _ :: _, [] => none
  | w :: ws, c :: cs => if w = c then after? ws cs else none

/-- The value of a hexadecimal digit. -/
def hexValue? (c : Char) : Option Nat :=
  if '0' ≤ c ∧ c ≤ '9' then some (c.toNat - '0'.toNat)
  else if 'a' ≤ c ∧ c ≤ 'f' then some (c.toNat - 'a'.toNat + 10)
  else if 'A' ≤ c ∧ c ≤ 'F' then some (c.toNat - 'A'.toNat + 10)
  else none

/-- The value of four hexadecimal digits. -/
def hexWord? (a b c d : Char) : Option Nat := do
  return (((← hexValue? a) * 16 + (← hexValue? b)) * 16 + (← hexValue? c)) * 16 + (← hexValue? d)

/-- The character that a short escape stands for. -/
def shortEscape? (c : Char) : Option Char :=
  if c = '"' ∨ c = '\\' ∨ c = '/' then some c
  else if c = 'b' then some (Char.ofNat 0x08)
  else if c = 'f' then some (Char.ofNat 0x0C)
  else if c = 'n' then some '\n'
  else if c = 'r' then some '\r'
  else if c = 't' then some '\t'
  else none

/-- The characters up to the closing quote, and the text after it. -/
def stringBody? : List Char → Option (List Char × List Char)
  | [] => none
  | '"' :: rest => some ([], rest)
  | '\\' :: 'u' :: a :: b :: c :: d :: rest =>
    if (hexWord? a b c d).isSome then
      (stringBody? rest).map fun (body, rest) => ('\\' :: 'u' :: a :: b :: c :: d :: body, rest)
    else none
  | '\\' :: e :: rest =>
    if (shortEscape? e).isSome then
      (stringBody? rest).map fun (body, rest) => ('\\' :: e :: body, rest)
    else none
  | c :: rest =>
    if c.toNat < 0x20 ∨ c = '\\' then none
    else (stringBody? rest).map fun (body, rest) => (c :: body, rest)

/-- A run of digits, and the text after it. -/
def digits (cs : List Char) : List Char × List Char :=
  (cs.takeWhile Digits.isDigit, cs.dropWhile Digits.isDigit)

/-- The integer part of a number: a single zero, or digits that begin with another one. -/
def integerPart? (cs : List Char) : Option (List Char × List Char) :=
  match digits cs with
  | ([], _) => none
  | (['0'], rest) => some (['0'], rest)
  | ('0' :: _, _) => none
  | (ds, rest) => some (ds, rest)

/-- A fraction, if a point comes next. -/
def fractionPart? : List Char → Option (List Char × List Char)
  | '.' :: cs =>
    match digits cs with
    | ([], _) => none
    | (ds, rest) => some ('.' :: ds, rest)
  | cs => some ([], cs)

/-- An exponent, if its mark comes next. -/
def exponentPart? : List Char → Option (List Char × List Char)
  | [] => some ([], [])
  | c :: cs =>
    if c = 'e' ∨ c = 'E' then
      let (sign, cs) : List Char × List Char :=
        match cs with
        | '+' :: more => (['+'], more)
        | '-' :: more => (['-'], more)
        | _ => ([], cs)
      match digits cs with
      | ([], _) => none
      | (ds, rest) => some (c :: sign ++ ds, rest)
    else some ([], c :: cs)

/-- A number, and the text after it. -/
def number? (cs : List Char) : Option (List Char × List Char) := do
  let (sign, cs) : List Char × List Char :=
    match cs with
    | '-' :: more => (['-'], more)
    | _ => ([], cs)
  let (whole, cs) ← integerPart? cs
  let (fraction, cs) ← fractionPart? cs
  let (exponent, cs) ← exponentPart? cs
  return (sign ++ whole ++ fraction ++ exponent, cs)

/-! ## Structure -/

mutual

/-- A value, and the text after it. -/
def value? : (fuel : Nat) → List Char → Option (JsonSyntax × List Char)
  | 0, _ => none
  | fuel + 1, cs =>
    match skipBlanks cs with
    | [] => none
    | '"' :: rest => (stringBody? rest).map fun (body, rest) => (string body, rest)
    | '[' :: rest =>
      match skipBlanks rest with
      | ']' :: rest => some (array [], rest)
      | rest => (items? fuel rest).map fun (items, rest) => (array items, rest)
    | '\x7b' :: rest =>
      match skipBlanks rest with
      | '\x7d' :: rest => some (object [], rest)
      | rest => (fields? fuel rest).map fun (fields, rest) => (object fields, rest)
    | 't' :: rest => (after? "rue".toList rest).map fun rest => (bool true, rest)
    | 'f' :: rest => (after? "alse".toList rest).map fun rest => (bool false, rest)
    | 'n' :: rest => (after? "ull".toList rest).map fun rest => (null, rest)
    | text => (number? text).map fun (digits, rest) => (number digits, rest)

/-- The items of an array up to its closing bracket, and the text after it. -/
def items? : (fuel : Nat) → List Char → Option (List JsonSyntax × List Char)
  | 0, _ => none
  | fuel + 1, cs => do
    let (item, rest) ← value? fuel cs
    match skipBlanks rest with
    | ']' :: rest => return ([item], rest)
    | ',' :: rest =>
      let (items, rest) ← items? fuel rest
      return (item :: items, rest)
    | _ => none

/-- The fields of an object up to its closing brace, and the text after it. -/
def fields? : (fuel : Nat) → List Char → Option (List (List Char × JsonSyntax) × List Char)
  | 0, _ => none
  | fuel + 1, cs =>
    match skipBlanks cs with
    | '"' :: rest => do
      let (key, rest) ← stringBody? rest
      match skipBlanks rest with
      | ':' :: rest =>
        let (item, rest) ← value? fuel rest
        match skipBlanks rest with
        | '\x7d' :: rest => return ([(key, item)], rest)
        | ',' :: rest =>
          let (fields, rest) ← fields? fuel rest
          return ((key, item) :: fields, rest)
        | _ => none
      | _ => none
    | _ => none

end

/-- Reads a document.  Every step of `value?` consumes a character, so the fuel is never used up. -/
def parse? (text : String) : Option JsonSyntax :=
  let cs := text.toList
  match value? (2 * cs.length + 2) cs with
  | some (v, rest) => if skipBlanks rest = [] then some v else none
  | none => none

/-! ## Decoding -/

/-- The characters that the text between quotes stands for; half a surrogate pair stands for none. -/
def decodeString? : List Char → Option (List Char)
  | [] => some []
  | '\\' :: 'u' :: a :: b :: c :: d :: '\\' :: 'u' :: e :: f :: g :: h :: rest => do
    let n ← hexWord? a b c d
    if 0xD800 ≤ n ∧ n < 0xDC00 then
      let m ← hexWord? e f g h
      if 0xDC00 ≤ m ∧ m < 0xE000 then
        let tail ← decodeString? rest
        return Char.ofNat (0x10000 + (n - 0xD800) * 0x400 + (m - 0xDC00)) :: tail
      else none
    else if 0xDC00 ≤ n ∧ n < 0xE000 then none
    else
      let tail ← decodeString? ('\\' :: 'u' :: e :: f :: g :: h :: rest)
      return Char.ofNat n :: tail
  | '\\' :: 'u' :: a :: b :: c :: d :: rest => do
    let n ← hexWord? a b c d
    if 0xD800 ≤ n ∧ n < 0xE000 then none
    else
      let tail ← decodeString? rest
      return Char.ofNat n :: tail
  | '\\' :: e :: rest => do
    let c ← shortEscape? e
    let tail ← decodeString? rest
    return c :: tail
  | c :: rest => (decodeString? rest).map (c :: ·)

/-- The string that the text between quotes stands for. -/
def stringValue? (text : List Char) : Option String := (decodeString? text).map String.ofList

end JsonSyntax
end CommandEngine
