import CommandEngine.Problem

/-!
# Reports

A report shows someone at a terminal what is wrong with a line, and where: line and column count from
one, and columns are characters.
-/

namespace CommandEngine
namespace Console

/-- The characters that end a line. -/
def endsLine (c : Char) : Bool :=
  c == '\n' || c == '\r' || c.toNat == 0x0B || c.toNat == 0x0C || c.toNat == 0x85
    || c.toNat == 0x2028 || c.toNat == 0x2029

/-- The lines of a text, each with what ends it.  A carriage return and a line feed end a line together. -/
def linesOf : List Char → List (List Char)
  | [] => []
  | '\r' :: '\n' :: rest => [ '\r', '\n'] :: linesOf rest
  | c :: rest =>
    if endsLine c then [c] :: linesOf rest
    else match linesOf rest with
      | [] => [[c]]
      | line :: more => (c :: line) :: more

/-- The number of characters of a line before a byte offset. -/
def columnsBefore (line : List Char) (offset : Nat) : Nat :=
  ((Text.splitAt? line offset).map fun (before, _) => before.length).getD line.length

/-- The line and the column of a byte offset, where `number` is the number of the first of the lines.  What
lies past the end counts as the end of the last line. -/
def placeIn (number offset : Nat) : List (List Char) → Nat × Nat
  | [] => (number, 1)
  | [line] => (number, columnsBefore line offset + 1)
  | line :: next :: more =>
    if offset < Text.width line then (number, columnsBefore line offset + 1)
    else placeIn (number + 1) (offset - Text.width line) (next :: more)

/-- The line and the column of a byte offset in a text. -/
def placeOf (input : String) (offset : Nat) : Nat × Nat := placeIn 1 offset (linesOf input.toList)

/-- What is wrong with a line, and where. -/
structure Report where
  headline : String
  line : Nat
  column : Nat
  position : Nat
  help : String
  deriving DecidableEq

namespace Report

/-- The report on an error at an offset of an input. -/
def ofError (input : String) (e : SyntaxError) (cursor : Nat) : Report :=
  let (line, column) := placeOf input cursor
  { headline := "[" ++ e.reason.code.id ++ "] Error: " ++ e.reason.message
    line, column, position := cursor, help := e.reason.code.explanation }

/-- Where the report points to. -/
def place (r : Report) : String := "input:" ++ toString r.line ++ ":" ++ toString r.column

/-- What is said at that place. -/
def label (r : Report) : String := "at position " ++ toString r.position

/-- What may help. -/
def helpLine (r : Report) : String := "Help: " ++ r.help

/-- The report as lines of text. -/
def text (r : Report) : String :=
  r.headline ++ "\n  " ++ r.place ++ "\n  " ++ r.label ++ "\n  " ++ r.helpLine ++ "\n"

end Report

/-- Something written for the person at the terminal. -/
inductive Message
  | line (text : String)
  | report (report : Report)
  deriving DecidableEq

/-- A message as text. -/
def Message.text : Message → String
  | line s => s ++ "\n"
  | report r => r.text

/-- What is said about an error: a report if its place is known, else two lines. -/
def messagesOf (input : String) (e : SyntaxError) : List Message :=
  match e.cursor with
  | some cursor => [.report (.ofError input e cursor)]
  | none =>
    [.line ("error[" ++ e.reason.code.id ++ "]: " ++ e.reason.message),
      .line ("  = help: " ++ e.reason.code.explanation)]

end Console
end CommandEngine
