import CommandEngine.Reader

/-!
# Reading by byte offsets

A `ByteReader` is an input with a byte offset in it.  Nothing in the type says that the offset is within the input or
stands between two characters.  The text before the offset and the text after it are cut out of the input whenever
they are looked at; where there is no such cut, reading breaks off.

Reading moves the offset: on by the width of each character that is passed, back by the width of a character that may
not follow an escape, and back to where a token began that is rejected as a whole.  A `ByteReader.Action` breaks
off, or it gives a value or an error together with the reader it leaves behind.
-/

namespace CommandEngine

/-- An input with a byte offset in it. -/
structure ByteReader where
  input : String
  cursor : Nat
  deriving DecidableEq

namespace ByteReader

/-- The start of an input. -/
def ofString (input : String) : ByteReader := ⟨input, 0⟩

/-- The text before the offset. -/
def readText? (b : ByteReader) : Option String :=
  (Text.splitAt? b.input.toList b.cursor).map fun (past, _) => String.ofList past

/-- The text after the offset. -/
def remaining? (b : ByteReader) : Option String :=
  (Text.splitAt? b.input.toList b.cursor).map fun (_, rest) => String.ofList rest

/-- The number of bytes of the whole input. -/
def totalWidth (b : ByteReader) : Nat := Text.width b.input.toList

/-- Whether at least `n` bytes are left. -/
def canReadBytes (b : ByteReader) (n : Nat) : Bool := b.cursor + n ≤ b.totalWidth

/-- The character at the offset; there is none at the end of the input. -/
def peek? (b : ByteReader) : Option (Option Char) := b.remaining?.map fun text => text.toList.head?

/-- The reader past a character. -/
def past (b : ByteReader) (c : Char) : ByteReader := { b with cursor := b.cursor + c.utf8Size }

/-- The reader before a character that it has just passed. -/
def before (b : ByteReader) (c : Char) : ByteReader := { b with cursor := b.cursor - c.utf8Size }

/-- An error about the offset. -/
def error (b : ByteReader) (reason : Reason) : SyntaxError := .located reason b.input b.cursor

/-- A character that is there lies within the input. -/
theorem cursor_past_le {b : ByteReader} {c : Char} (h : b.peek? = some (some c)) : (b.past c).cursor ≤ b.totalWidth := by
  unfold peek? remaining? at h
  cases hcut : Text.splitAt? b.input.toList b.cursor with
  | none => simp [hcut] at h
  | some parts =>
    obtain ⟨before, after⟩ := parts
    obtain ⟨rest, rfl⟩ : ∃ rest, after = c :: rest := by
      cases after with
      | nil => simp [hcut] at h
      | cons d rest => exact ⟨rest, by simpa [hcut] using h⟩
    have hall := congrArg Text.width (Text.append_of_splitAt? hcut)
    rw [Text.width_append, Text.width_of_splitAt? hcut, Text.width_cons] at hall
    simp only [past, totalWidth]
    omega

/-! ## Actions -/

/-- Reading that may fail or break off. -/
abbrev Action (α : Type) := ExceptT SyntaxError (StateT ByteReader Option) α

/-- Gives the character at the offset. -/
def peek : Action (Option Char) := fun b => b.peek?.map fun next => (.ok next, b)

/-- Gives the text after the offset. -/
def remaining : Action String := fun b => b.remaining?.map fun text => (.ok text, b)

/-- Gives the text from an earlier offset up to the present one. -/
def sliceFrom (start : Nat) : Action String := fun b =>
  (Text.slice? b.input.toList start b.cursor).map fun part => (.ok (String.ofList part), b)

/-- Goes to an offset. -/
def setCursor (offset : Nat) : Action Unit := modify fun b => { b with cursor := offset }

/-- Fails with an error about the offset. -/
def fail {α : Type} (reason : Reason) : Action α := do
  let b ← get
  throw (b.error reason)

/-- Goes back to where a token began and fails there. -/
def reject {α : Type} (start : Nat) (reason : Reason) : Action α := do
  setCursor start
  fail reason

/-- Passes one character; at the end of the input there is none. -/
def skip : Action Unit := do
  if let some c ← peek then
    modify fun b => b.past c

/-- Passes one character and gives it. -/
def take : Action (Option Char) := do
  let next ← peek
  if let some c := next then
    modify fun b => b.past c
  return next

/-- The reader past the characters of a kind. -/
def skipWhile (p : Char → Bool) (b : ByteReader) : Option ByteReader :=
  match _h : b.peek? with
  | none => none
  | some none => some b
  | some (some c) => if p c then skipWhile p (b.past c) else some b
termination_by b.totalWidth - b.cursor
decreasing_by
  have hle := cursor_past_le _h
  have hpos := c.utf8Size_pos
  simp only [past, totalWidth] at hle ⊢
  omega

/-- Passes the characters of a kind. -/
def skipAll (p : Char → Bool) : Action Unit := fun b => (b.skipWhile p).map fun next => (.ok (), next)

/-- Passes blank characters. -/
def skipBlanks : Action Unit := skipAll Text.isBlank

/-! ## Tokens -/

/-- Reads a number: the longest run of number characters.  A run that spells no number is not passed. -/
def readNumber {α : Type} [Numeral α] : Action α := do
  let start := (← get).cursor
  skipAll Scan.isNumberChar
  let token ← sliceFrom start
  if token = "" then
    fail (.expectedValue (Numeral.kind α))
  match Numeral.ofText? token.toList with
  | some value => return value
  | none => reject start (.invalidValue (Numeral.kind α) token)

/-- Reads a number within bounds; one outside is not passed. -/
def readBounded {α : Type} [Numeral α] (bounds : Bounds α) : Action α := do
  let start := (← get).cursor
  let value : α ← readNumber
  if Numeral.below value bounds.min then
    reject start (.tooSmall (Numeral.kind α) (Numeral.text value) (Numeral.text bounds.min))
  if Numeral.below bounds.max value then
    reject start (.tooBig (Numeral.kind α) (Numeral.text value) (Numeral.text bounds.max))
  return value

/-- Reads the longest run of bare characters, which may be empty. -/
def readWord : Action String := do
  let start := (← get).cursor
  skipAll Scan.isBareChar
  sliceFrom start

/-- Reads on up to the terminator and past it: what has been read so far is `text`, and the last character was an
escape or not.  A character that may not be escaped is not passed. -/
def readUntilFrom (terminator : Char) (escaped : Bool) (text : String) (b : ByteReader) :
    Option (Except SyntaxError String × ByteReader) :=
  match _h : b.peek? with
  | none => none
  | some none => some (.error (b.error .expectedEndOfQuote), b)
  | some (some c) =>
    if escaped then
      if c = terminator ∨ c = Scan.escape then readUntilFrom terminator false (text.push c) (b.past c)
      else
        let left := (b.past c).before c
        some (.error (left.error (.invalidEscape c)), left)
    else if c = Scan.escape then readUntilFrom terminator true text (b.past c)
    else if c = terminator then some (.ok text, b.past c)
    else readUntilFrom terminator false (text.push c) (b.past c)
termination_by b.totalWidth - b.cursor
decreasing_by
  all_goals
    have hle := cursor_past_le _h
    have hpos := c.utf8Size_pos
    simp only [past, totalWidth] at hle ⊢
    omega

/-- Reads up to the terminator and past it, with the escapes resolved. -/
def readUntil (terminator : Char) : Action String := readUntilFrom terminator false ""

/-- Reads a phrase in quotes.  At the end of the input there is the empty phrase. -/
def readQuoted : Action String := do
  match ← peek with
  | none => return ""
  | some c =>
    if Scan.isQuote c then
      skip
      readUntil c
    else fail .expectedStartOfQuote

/-- Reads a phrase in quotes if a quote comes next, and a bare word otherwise. -/
def readPhrase : Action String := do
  match ← peek with
  | none => return ""
  | some c =>
    if Scan.isQuote c then
      skip
      readUntil c
    else readWord

/-- Reads one of the phrases `true` and `false`.  Another phrase is not passed unless it is empty. -/
def readBoolean : Action Bool := do
  let start := (← get).cursor
  let value ← readPhrase
  if value = "" then
    fail (.expectedValue .bool)
  if value = "true" then
    return true
  if value = "false" then
    return false
  reject start (.invalidValue .bool value)

/-- Reads one given character, or fails without moving. -/
def expect (c : Char) : Action Unit := do
  if (← peek) ≠ some c then
    fail (.expectedSymbol c)
  skip

/-- Does nothing where a token may end, which is at a separator or at the end of the input. -/
def unlessEnded (otherwise : Action Unit) : Action Unit := do
  if (← get).canReadBytes 1 then
    if (← peek) ≠ some separator then
      otherwise

/-- Reads a keyword, which has to be a whole token, or fails without moving. -/
def readKeyword (keyword : String) : Action Unit := do
  let start := (← get).cursor
  let text ← remaining
  if keyword.toList.isPrefixOf text.toList then
    setCursor (start + Text.width keyword.toList)
    unlessEnded (reject start (.literalIncorrect keyword))
  else fail (.literalIncorrect keyword)

/-- Reads everything that is left. -/
def readRest : Action String := do
  let text ← remaining
  setCursor (← get).totalWidth
  return text

end ByteReader
end CommandEngine
