import CommandEngine.Text.Blank
import CommandEngine.Text.HiddenTable

/-!
# Text for inspection

The form in which a text is shown to someone who wants to see what is in it: in double quotes, with the
quote, the escape character and every character without a shape of its own written as an escape.
-/

namespace CommandEngine
namespace Text

/-- Whether a character is hidden when it is shown as it is. -/
def isHidden (c : Char) : Bool :=
  if 0x20 ≤ c.toNat ∧ c.toNat < 0x7F then false else inRanges hiddenRanges c.toNat

/-- The escape by code point: lowercase hexadecimal digits in braces. -/
def codePointEscape (c : Char) : List Char :=
  ['\\', 'u', '\x7b'] ++ Nat.toDigits 16 c.toNat ++ ['\x7d']

/-- One character as it is shown. -/
def inspectChar (c : Char) : List Char :=
  if c = '"' ∨ c = '\\' then ['\\', c]
  else if c = '\n' then ['\\', 'n']
  else if c = '\r' then ['\\', 'r']
  else if c = '\t' then ['\\', 't']
  else if c.toNat = 0 then ['\\', '0']
  else if isHidden c then codePointEscape c
  else [c]

/-- A text as it is shown, in double quotes. -/
def inspect (s : String) : String :=
  String.ofList ('"' :: (s.toList.flatMap inspectChar ++ ['"']))

end Text
end CommandEngine
