import CommandEngine.Scan

/-!
# Reading an input

A `Reader` is an input with a place in it: the characters before that place and the characters after it.
So a place is always between two characters of the input, and its byte offset is the width of
what lies before.  Reading is `Reader.run`, which hands the text ahead to a scan and moves on by what
the scan passed; an error is located where the reader comes to stand.

Trying something and going back needs no operation: the earlier reader is still there.
-/

namespace CommandEngine

/-- An input with a place in it. -/
structure Reader where
  /-- The characters before the place, in order. -/
  past : List Char
  /-- The characters after the place. -/
  rest : List Char
  deriving DecidableEq

namespace Reader

/-- The start of an input. -/
def ofString (input : String) : Reader := ⟨[], input.toList⟩

/-- The characters of the whole input. -/
def chars (r : Reader) : List Char := r.past ++ r.rest

/-- The whole input. -/
def input (r : Reader) : String := String.ofList r.chars

/-- The byte offset of the place. -/
def cursor (r : Reader) : Nat := Text.width r.past

/-- The text before the place. -/
def readText (r : Reader) : String := String.ofList r.past

/-- The text after the place. -/
def remaining (r : Reader) : String := String.ofList r.rest

/-- The number of bytes after the place. -/
def remainingWidth (r : Reader) : Nat := Text.width r.rest

/-- The number of bytes of the whole input. -/
def totalWidth (r : Reader) : Nat := r.cursor + r.remainingWidth

/-- Whether anything is left. -/
def canRead (r : Reader) : Bool := !r.rest.isEmpty

/-- Whether at least `n` bytes are left. -/
def canReadBytes (r : Reader) (n : Nat) : Bool := n ≤ r.remainingWidth

/-- The next character. -/
def peek? (r : Reader) : Option Char := r.rest.head?

/-- The character `n` characters ahead. -/
def peekAt? (r : Reader) (n : Nat) : Option Char := r.rest[n]?

theorem totalWidth_eq (r : Reader) : r.totalWidth = Text.width r.chars := by
  simp [totalWidth, cursor, remainingWidth, chars]

theorem cursor_le_totalWidth (r : Reader) : r.cursor ≤ r.totalWidth := Nat.le_add_right _ _

/-- A place stands between two characters of the input. -/
theorem splitAt?_cursor (r : Reader) : Text.splitAt? r.chars r.cursor = some (r.past, r.rest) :=
  Text.splitAt?_append r.past r.rest

/-! ## Moving -/

/-- The place `n` characters ahead, or the end of the input if that is nearer. -/
def advance (r : Reader) (n : Nat) : Reader := ⟨r.past ++ r.rest.take n, r.rest.drop n⟩

@[simp] theorem chars_advance (r : Reader) (n : Nat) : (r.advance n).chars = r.chars := by
  simp [advance, chars, List.append_assoc]

/-- Moving on does not leave the input. -/
theorem input_advance (r : Reader) (n : Nat) : (r.advance n).input = r.input := by
  rw [input, chars_advance, input]

@[simp] theorem rest_advance (r : Reader) (n : Nat) : (r.advance n).rest = r.rest.drop n := rfl

@[simp] theorem cursor_advance (r : Reader) (n : Nat) :
    (r.advance n).cursor = r.cursor + Text.width (r.rest.take n) := by
  simp [cursor, advance]

theorem advance_zero (r : Reader) : r.advance 0 = r := by
  rw [advance, List.take_zero, List.append_nil, List.drop_zero]

/-- Going on twice is going on by the sum. -/
theorem advance_advance (r : Reader) (m n : Nat) : (r.advance m).advance n = r.advance (m + n) := by
  simp only [advance, List.take_add, List.drop_drop, List.append_assoc]

/-- The characters of a token are passed by going on by their number. -/
theorem advance_append (past token rest : List Char) :
    (⟨past, token ++ rest⟩ : Reader).advance token.length = ⟨past ++ token, rest⟩ := by
  rw [advance, List.take_left, List.drop_left]

/-- The characters up to a place ahead are those between the two offsets. -/
theorem slice?_advance (r : Reader) (n : Nat) :
    Text.slice? r.chars r.cursor (r.advance n).cursor = some (r.rest.take n) := by
  have h := Text.slice?_append r.past (r.rest.take n) (r.rest.drop n)
  rw [List.take_append_drop] at h
  rw [cursor_advance]
  exact h

/-- The place after the next character. -/
def skip (r : Reader) : Reader := r.advance 1

/-- The place after the blank characters that come next. -/
def skipBlanks (r : Reader) : Reader := r.advance (r.rest.takeWhile Text.isBlank).length

/-- The place at the end of the input. -/
def atEnd (r : Reader) : Reader := ⟨r.chars, []⟩

theorem atEnd_advance (r : Reader) (n : Nat) : (r.advance n).atEnd = r.atEnd := by
  rw [atEnd, chars_advance, atEnd]

theorem advance_length (r : Reader) : r.advance r.rest.length = r.atEnd := by
  rw [advance, List.take_length, List.drop_length, atEnd, chars]

/-- The place at a byte offset, if that is between two characters. -/
def seek? (r : Reader) (offset : Nat) : Option Reader :=
  (Text.splitAt? r.chars offset).map fun (past, rest) => ⟨past, rest⟩

/-! ## Reading -/

/-- An error about the place. -/
def error (r : Reader) (reason : Reason) : SyntaxError :=
  .located reason r.input r.cursor

/-- Scans the text ahead and moves on by what the scan passed. -/
def run {α : Type} (r : Reader) (scan : Scan α) : Except SyntaxError α × Reader :=
  let s := scan r.rest
  let next := r.advance s.passed
  (s.outcome.mapError next.error, next)

/-- Whether a whole input, up to its end or to a separator, is what a scan looks for. -/
def accepts {α : Type} (scan : Scan α) (input : String) : Bool :=
  let s := scan input.toList
  match s.outcome with
  | .ok _ => endsToken (input.toList.drop s.passed)
  | .error _ => false

end Reader
end CommandEngine
