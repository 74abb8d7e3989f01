import CommandEngine.Number.Numeral
import CommandEngine.Text.Blank

/-!
# Scanning the text ahead

A `Scan` looks at the text that lies ahead and says two things: what it found, or why it found nothing,
and how many characters it passed.  On success these are the characters that were consumed; on
failure they lead to the place that the error is about.  A scan therefore never looks back and never
moves back, whatever it does.

The scans here are those of single tokens: numbers, bare words, quoted phrases, truth values, single
symbols, keywords and everything that is left.  What may come of a scan with several branches is said once,
beside it (`Scan.number_cases`, `Scan.bounded_cases`, `Scan.boolean_cases`).
-/

namespace CommandEngine

/-- The separator between tokens. -/
def separator : Char := ' '

/-- Whether a token may end where this text begins: at the end of the input or at a separator. -/
def endsToken : List Char → Bool
  | [] => true
  | c :: _ => c == separator

/-- What a scan found, and how many characters it passed. -/
structure Scanned (α : Type) where
  outcome : Except Reason α
  passed : Nat

/-- A look at the text ahead. -/
abbrev Scan (α : Type) := List Char → Scanned α

namespace Scanned

variable {α β : Type}

/-- A value spelled by the next `passed` characters. -/
def found (value : α) (passed : Nat) : Scanned α := ⟨.ok value, passed⟩

/-- A failure that is about the place `passed` characters ahead. -/
def failed (reason : Reason) (passed : Nat) : Scanned α := ⟨.error reason, passed⟩

/-- The same finding, seen from `n` characters earlier. -/
def after (n : Nat) (s : Scanned α) : Scanned α := ⟨s.outcome, n + s.passed⟩

theorem after_after (s : Scanned α) (m n : Nat) : (s.after m).after n = s.after (n + m) := by
  rw [after, after, after, Nat.add_assoc]

/-- The same finding with its value changed. -/
def map (f : α → β) (s : Scanned α) : Scanned β :=
  match s.outcome with
  | .ok a => found (f a) s.passed
  | .error e => failed e s.passed

end Scanned

namespace Scan

/-! ## Character classes -/

/-- The characters a number is scanned from. -/
def isNumberChar (c : Char) : Bool := Digits.isDigit c || c == '.' || c == '-'

/-- The characters that open a quoted phrase. -/
def isQuote (c : Char) : Bool := c == '"' || c == '\''

/-- The characters of a word that needs no quotes. -/
def isBareChar (c : Char) : Bool :=
  c.isAlphanum || c == '_' || c == '-' || c == '.' || c == '+'

/-- The escape character inside quotes. -/
def escape : Char := '\\'

/-! ## Numbers -/

/-- The longest run of number characters, read as a number.  An empty run and a run that spells no
number are failures at the start of the run. -/
def number {α : Type} [Numeral α] : Scan α := fun text =>
  let token := text.takeWhile isNumberChar
  if token = [] then .failed (.expectedValue (Numeral.kind α)) 0
  else match Numeral.ofText? token with
    | some value => .found value token.length
    | none => .failed (.invalidValue (Numeral.kind α) (String.ofList token)) 0

theorem number_cases {α : Type} [Numeral α] (text : List Char) :
    (number text : Scanned α) = .failed (.expectedValue (Numeral.kind α)) 0 ∨
      (∃ token, (number text : Scanned α) = .failed (.invalidValue (Numeral.kind α) token) 0) ∨
      ∃ value : α, number text = .found value (text.takeWhile isNumberChar).length := by
  by_cases htoken : text.takeWhile isNumberChar = []
  · exact .inl (by simp only [number, htoken, if_true])
  · cases hread : (Numeral.ofText? (text.takeWhile isNumberChar) : Option α) with
    | none =>
      exact .inr (.inl ⟨String.ofList (text.takeWhile isNumberChar), by simp only [number, htoken, if_false, hread]⟩)
    | some value => exact .inr (.inr ⟨value, by simp only [number, htoken, if_false, hread]⟩)

/-- A number within bounds; one outside is a failure at its start. -/
def bounded {α : Type} [Numeral α] (b : Bounds α) : Scan α := fun text =>
  let s : Scanned α := number text
  match s.outcome with
  | .error _ => s
  | .ok value =>
    if Numeral.below value b.min then
      .failed (.tooSmall (Numeral.kind α) (Numeral.text value) (Numeral.text b.min)) 0
    else if Numeral.below b.max value then
      .failed (.tooBig (Numeral.kind α) (Numeral.text value) (Numeral.text b.max)) 0
    else s

theorem bounded_cases {α : Type} [Numeral α] (b : Bounds α) (text : List Char) :
    bounded b text = number text ∨
      (∃ value bound, bounded b text = .failed (.tooSmall (Numeral.kind α) value bound) 0) ∨
      ∃ value bound, bounded b text = .failed (.tooBig (Numeral.kind α) value bound) 0 := by
  simp only [bounded]
  split
  · exact .inl rfl
  · split
    · exact .inr (.inl ⟨_, _, rfl⟩)
    · split
      · exact .inr (.inr ⟨_, _, rfl⟩)
      · exact .inl rfl

/-! ## Words and phrases -/

/-- The longest run of bare characters, which may be empty. -/
def word : Scan String := fun text =>
  let token := text.takeWhile isBareChar
  .found (String.ofList token) token.length

/-- Everything up to the terminator, which is passed too.  The escape character stands before a
terminator or another escape character that is meant as text; before anything else it is a failure at
that character, and so is an end of the text without the terminator. -/
def untilChars (terminator : Char) : List Char → Scanned (List Char)
  | [] => .failed .expectedEndOfQuote 0
  | c :: rest =>
    if c = escape then
      match rest with
      | [] => .failed .expectedEndOfQuote 1
      | d :: more =>
        if d = terminator ∨ d = escape then
          ((untilChars terminator more).map (d :: ·)).after 2
        else .failed (.invalidEscape d) 1
    else if c = terminator then .found [] 1
    else ((untilChars terminator rest).map (c :: ·)).after 1

/-- The text up to the terminator, with the escapes resolved. -/
def upTo (terminator : Char) : Scan String := fun text =>
  (untilChars terminator text).map String.ofList

/-- A phrase in quotes.  At the end of the input there is the empty phrase. -/
def quoted : Scan String
  | [] => .found "" 0
  | c :: rest =>
    if isQuote c then (upTo c rest).after 1 else .failed .expectedStartOfQuote 0

/-- A phrase in quotes if a quote comes next, and a bare word otherwise. -/
def phrase : Scan String
  | [] => .found "" 0
  | c :: rest => if isQuote c then (upTo c rest).after 1 else word (c :: rest)

/-- Everything that is left. -/
def remainder : Scan String := fun text => .found (String.ofList text) text.length

/-! ## Truth values, symbols, keywords -/

/-- One of the phrases `true` and `false`.  An empty phrase is a failure after it, any other phrase a
failure at its start. -/
def boolean : Scan Bool := fun text =>
  let s := phrase text
  match s.outcome with
  | .error reason => .failed reason s.passed
  | .ok value =>
    if value = "" then .failed (.expectedValue .bool) s.passed
    else if value = "true" then .found true s.passed
    else if value = "false" then .found false s.passed
    else .failed (.invalidValue .bool value) 0

theorem boolean_cases (text : List Char) :
    (∃ reason, (phrase text).outcome = .error reason ∧ boolean text = .failed reason (phrase text).passed) ∨
      ((phrase text).outcome = .ok "" ∧ boolean text = .failed (.expectedValue .bool) (phrase text).passed) ∨
      (∃ value, (phrase text).outcome = .ok value ∧ boolean text = .failed (.invalidValue .bool value) 0) ∨
      ∃ value b, (phrase text).outcome = .ok value ∧ boolean text = .found b (phrase text).passed := by
  simp only [boolean]
  split
  · next reason hreason => exact .inl ⟨reason, hreason, rfl⟩
  · next value hvalue =>
    split
    · next hempty => exact .inr (.inl ⟨hempty ▸ hvalue, rfl⟩)
    · split
      · exact .inr (.inr (.inr ⟨value, true, hvalue, rfl⟩))
      · split
        · exact .inr (.inr (.inr ⟨value, false, hvalue, rfl⟩))
        · exact .inr (.inr (.inl ⟨value, hvalue, rfl⟩))

/-- One given character. -/
def symbol (c : Char) : Scan Unit
  | [] => .failed (.expectedSymbol c) 0
  | d :: _ => if d = c then .found () 1 else .failed (.expectedSymbol c) 0

/-- A keyword, which has to be a whole token. -/
def keyword (name : String) : Scan Unit := fun text =>
  if name.toList.isPrefixOf text && endsToken (text.drop name.toList.length) then
    .found () name.toList.length
  else .failed (.literalIncorrect name) 0

end Scan

/-! ## Quoting -/

namespace Phrase

/-- Puts the escape character before every quote and every escape character. -/
def escaped : List Char → List Char
  | [] => []
  | c :: rest => if c = Scan.escape ∨ c = '"' then Scan.escape :: c :: escaped rest else c :: escaped rest

/-- Whether a text can be written without quotes. -/
def isBare (cs : List Char) : Bool := cs.all Scan.isBareChar

/-- Writes a text so that it can be read back as one phrase: as it is if it is bare, else in quotes. -/
def quote (value : String) : String :=
  if isBare value.toList then value
  else String.ofList ('"' :: (escaped value.toList ++ ['"']))

end Phrase
end CommandEngine
