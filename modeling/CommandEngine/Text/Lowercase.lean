import CommandEngine.Text.Blank
import CommandEngine.Text.CaseTable

/-!
# Lowercase

Comparison without regard to case goes through the lowercase form of a text.  Each character is mapped
on its own, with two exceptions: a capital `I` with a dot becomes two characters, and a capital sigma
becomes the final form of the letter where it ends a word.
-/

namespace CommandEngine
namespace Text

/-- The code point that a simple mapping gives. -/
def CaseRun.map? (r : CaseRun) (n : Nat) : Option Nat :=
  if r.low ≤ n ∧ n ≤ r.high ∧ (n - r.low) % r.step = 0 then some ((n : Int) + r.shift).toNat
  else none

/-- The lowercase form of a character on its own. -/
def lowerChar (c : Char) : List Char :=
  if c.toNat < 0x80 then [c.toLower]
  else if c = 'İ' then ['i', Char.ofNat 0x307]
  else match caseRuns.findSome? (·.map? c.toNat) with
    | some n => [Char.ofNat n]
    | none => [c]

/-- Whether the first character that does not count for case has a case. -/
def meetsCased (cs : List Char) : Bool :=
  match cs.dropWhile fun c => inRanges caseIgnorableRanges c.toNat with
  | [] => false
  | c :: _ => inRanges casedRanges c.toNat

/-- The lowercase form of the characters `cs`, where `before` holds the preceding characters in
reverse. -/
def lowerFrom (before : List Char) : List Char → List Char
  | [] => []
  | c :: cs =>
    let mapped :=
      if c = 'Σ' then
        if meetsCased before && !meetsCased cs then ['ς'] else ['σ']
      else lowerChar c
    mapped ++ lowerFrom (c :: before) cs

/-- The lowercase form of a text. -/
def lowerChars (cs : List Char) : List Char := lowerFrom [] cs

/-- The lowercase form of a text. -/
def lowercase (s : String) : String := String.ofList (lowerChars s.toList)

end Text
end CommandEngine
