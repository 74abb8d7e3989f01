import CommandEngine.Span

/-!
# What can go wrong with a command

Reading, matching and running a command fail for one of sixteen reasons.  `Reason` lists them with
what each carries, `Reason.message` words them, and `ErrorCode` gives each a stable code together with
a one-line explanation.  A `SyntaxError` is a reason together with the input and the byte offset it
refers to, when those are known; `SyntaxError.display` adds a short piece of the input before that
offset.
-/

namespace CommandEngine

/-! ## Kinds of values -/

/-- The kinds of values that a token can be required to spell. -/
inductive ValueKind
  | bool
  | integer
  | long
  | float
  | double
  deriving DecidableEq

namespace ValueKind

/-- The name used inside a message. -/
def name : ValueKind → String
  | bool => "bool"
  | integer => "integer"
  | long => "long"
  | float => "float"
  | double => "double"

/-- The name used at the head of a message. -/
def title : ValueKind → String
  | bool => "Bool"
  | integer => "Integer"
  | long => "Long"
  | float => "Float"
  | double => "Double"

end ValueKind

/-! ## Codes -/

/-- The stable codes: `1` for tokens, `2` for nodes, `3` for whole commands, `4` for handlers. -/
inductive ErrorCode
  | expectedStartOfQuote
  | expectedEndOfQuote
  | invalidEscape
  | invalidValue
  | expectedValue
  | expectedSymbol
  | tooSmall
  | tooBig
  | literalIncorrect
  | noSuchArgument
  | argumentTypeMismatch
  | unknownCommand
  | unknownArgument
  | expectedSeparator
  | parseFailure
  | commandFailed
  deriving DecidableEq

namespace ErrorCode

/-- The written form of a code. -/
def id : ErrorCode → String
  | expectedStartOfQuote => "CMD1001"
  | expectedEndOfQuote => "CMD1002"
  | invalidEscape => "CMD1003"
  | invalidValue => "CMD1004"
  | expectedValue => "CMD1005"
  | expectedSymbol => "CMD1006"
  | tooSmall => "CMD2001"
  | tooBig => "CMD2002"
  | literalIncorrect => "CMD2003"
  | noSuchArgument => "CMD2004"
  | argumentTypeMismatch => "CMD2005"
  | unknownCommand => "CMD3001"
  | unknownArgument => "CMD3002"
  | expectedSeparator => "CMD3003"
  | parseFailure => "CMD3004"
  | commandFailed => "CMD4001"

/-- One line on what a code means. -/
def explanation : ErrorCode → String
  | expectedStartOfQuote => "A quoted string was required here; start it with \" or '."
  | expectedEndOfQuote =>
    "A quoted string reached the end of the input without its closing quote."
  | invalidEscape =>
    "Inside quotes a backslash may only escape the quote character or another backslash."
  | invalidValue => "The token could not be converted to the type this argument expects."
  | expectedValue => "This argument needs a value but the input ended or held no token."
  | expectedSymbol => "A specific separator character was required at this position."
  | tooSmall => "The number is below the minimum this argument accepts."
  | tooBig => "The number is above the maximum this argument accepts."
  | literalIncorrect => "The token does not match the keyword expected at this position."
  | noSuchArgument =>
    "The command handler looked up an argument that was not part of the parsed input."
  | argumentTypeMismatch =>
    "The command handler looked up an argument using a different type than it was parsed as."
  | unknownCommand => "No registered command matches the input."
  | unknownArgument =>
    "The start of the input matched a command but the remaining tokens did not."
  | expectedSeparator => "Each token must be followed by a space or the end of the input."
  | parseFailure => "A command node failed to parse its token."
  | commandFailed => "The command handler or redirect modifier reported a failure."

/-- Every code, in numeric order. -/
def all : List ErrorCode :=
  [expectedStartOfQuote, expectedEndOfQuote, invalidEscape, invalidValue, expectedValue,
    expectedSymbol, tooSmall, tooBig, literalIncorrect, noSuchArgument, argumentTypeMismatch,
    unknownCommand, unknownArgument, expectedSeparator, parseFailure, commandFailed]

/-- The list of codes misses none. -/
theorem mem_all (c : ErrorCode) : c ∈ all := by
  cases c <;> simp [all]

/-- The code with the given written form. -/
def ofId? (text : String) : Option ErrorCode :=
  all.find? fun c => c.id == text

/-- The explanation of a code given by its written form. -/
def explain? (text : String) : Option String :=
  (ofId? text).map explanation

end ErrorCode

/-! ## Reasons -/

/-- Why a command could not be read, matched or run. -/
inductive Reason
  | tooSmall (kind : ValueKind) (found min : String)
  | tooBig (kind : ValueKind) (found max : String)
  | literalIncorrect (expected : String)
  | expectedStartOfQuote
  | expectedEndOfQuote
  | invalidEscape (character : Char)
  | invalidValue (kind : ValueKind) (value : String)
  | expectedValue (kind : ValueKind)
  | expectedSymbol (symbol : Char)
  | unknownCommand
  | unknownArgument
  | expectedSeparator
  | parseFailure (message : String)
  | noSuchArgument (name : String)
  | argumentTypeMismatch (name expected : String)
  | custom (message : String)
  deriving DecidableEq

namespace Reason

/-- The code of a reason. -/
def code : Reason → ErrorCode
  | tooSmall .. => .tooSmall
  | tooBig .. => .tooBig
  | literalIncorrect .. => .literalIncorrect
  | expectedStartOfQuote => .expectedStartOfQuote
  | expectedEndOfQuote => .expectedEndOfQuote
  | invalidEscape .. => .invalidEscape
  | invalidValue .. => .invalidValue
  | expectedValue .. => .expectedValue
  | expectedSymbol .. => .expectedSymbol
  | unknownCommand => .unknownCommand
  | unknownArgument => .unknownArgument
  | expectedSeparator => .expectedSeparator
  | parseFailure .. => .parseFailure
  | noSuchArgument .. => .noSuchArgument
  | argumentTypeMismatch .. => .argumentTypeMismatch
  | custom .. => .commandFailed

/-- The wording of a reason, without the place it refers to. -/
def message : Reason → String
  | tooSmall kind found min => kind.title ++ " must not be less than " ++ min ++ ", found " ++ found
  | tooBig kind found max => kind.title ++ " must not be more than " ++ max ++ ", found " ++ found
  | literalIncorrect expected => "Expected literal " ++ expected
  | expectedStartOfQuote => "Expected quote to start a string"
  | expectedEndOfQuote => "Unclosed quoted string"
  | invalidEscape c => "Invalid escape sequence '" ++ c.toString ++ "' in quoted string"
  | invalidValue .bool value =>
    "Invalid bool, expected true or false but found '" ++ value ++ "'"
  | invalidValue kind value => "Invalid " ++ kind.name ++ " '" ++ value ++ "'"
  | expectedValue kind => "Expected " ++ kind.name
  | expectedSymbol c => "Expected '" ++ c.toString ++ "'"
  | unknownCommand => "Unknown command"
  | unknownArgument => "Incorrect argument for command"
  | expectedSeparator => "Expected whitespace to end one argument, but found trailing data"
  | parseFailure text => "Could not parse command: " ++ text
  | noSuchArgument name => "No such argument '" ++ name ++ "' exists on this command"
  | argumentTypeMismatch name expected =>
    "Argument '" ++ name ++ "' is not of type " ++ expected
  | custom text => text

/-- The kind of value a reason speaks of, if it speaks of one. -/
def valueKind? : Reason → Option ValueKind
  | tooSmall kind .. => some kind
  | tooBig kind .. => some kind
  | invalidValue kind _ => some kind
  | expectedValue kind => some kind
  | _ => none

end Reason

/-! ## Errors with a place -/

/-- A reason, with the input and the byte offset it refers to when they are known. -/
structure SyntaxError where
  reason : Reason
  input : Option String
  cursor : Option Nat
  deriving DecidableEq

namespace SyntaxError

/-- An error that refers to no input. -/
def bare (reason : Reason) : SyntaxError := ⟨reason, none, none⟩

/-- An error at a byte offset of an input. -/
def located (reason : Reason) (input : String) (cursor : Nat) : SyntaxError :=
  ⟨reason, some input, some cursor⟩

/-- A failure that a handler words itself. -/
def custom (message : String) : SyntaxError := bare (.custom message)

/-- The number of characters shown before the offset. -/
def contextLength : Nat := 10

/-- The last characters of the input before the offset, then a marker.  An offset past the end counts
as the end; an offset inside a character gives no context. -/
def context? (e : SyntaxError) : Option String := do
  let input ← e.input
  let cursor ← e.cursor
  let (before, _) ← Text.splitAt? input.toList (min cursor (Text.width input.toList))
  let omitted := before.length - contextLength
  let lead := if contextLength < before.length then "..." else ""
  return lead ++ String.ofList (before.drop omitted) ++ "<--[HERE]"

/-- The full wording: the reason, then the offset and its context where there is one. -/
def display (e : SyntaxError) : String :=
  match e.context?, e.cursor with
  | some context, some cursor =>
    e.reason.message ++ " at position " ++ toString cursor ++ ": " ++ context
  | _, _ => e.reason.message

end SyntaxError
end CommandEngine
