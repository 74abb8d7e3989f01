import CommandEngine.Json.Basic
import CommandEngine.Problem
import CommandEngine.Suggestion.Basic

/-!
# Problems and suggestions as JSON
-/

namespace CommandEngine

/-- A span as JSON. -/
def Span.toJson (s : Span) : Json :=
  .object [("start", .ofNat s.start), ("end", .ofNat s.stop)]

namespace Reason

/-- The name of a reason. -/
def name : Reason → String
  | tooSmall .. => "too_small"
  | tooBig .. => "too_big"
  | literalIncorrect .. => "literal_incorrect"
  | expectedStartOfQuote => "expected_start_of_quote"
  | expectedEndOfQuote => "expected_end_of_quote"
  | invalidEscape .. => "invalid_escape"
  | invalidValue .. => "invalid_value"
  | expectedValue .. => "expected_value"
  | expectedSymbol .. => "expected_symbol"
  | unknownCommand => "unknown_command"
  | unknownArgument => "unknown_argument"
  | expectedSeparator => "expected_separator"
  | parseFailure .. => "parse_failure"
  | noSuchArgument .. => "no_such_argument"
  | argumentTypeMismatch .. => "argument_type_mismatch"
  | custom .. => "custom"

/-- What a reason carries, by name. -/
def payload : Reason → List (String × String)
  | tooSmall kind found min => [("kind", kind.name), ("found", found), ("min", min)]
  | tooBig kind found max => [("kind", kind.name), ("found", found), ("max", max)]
  | literalIncorrect expected => [("expected", expected)]
  | invalidEscape c => [("character", c.toString)]
  | invalidValue kind value => [("kind", kind.name), ("value", value)]
  | expectedValue kind => [("kind", kind.name)]
  | expectedSymbol c => [("symbol", c.toString)]
  | parseFailure message => [("message", message)]
  | noSuchArgument name => [("name", name)]
  | argumentTypeMismatch name expected => [("name", name), ("expected", expected)]
  | custom message => [("message", message)]
  | _ => []

/-- A reason as JSON. -/
def toJson (r : Reason) : Json :=
  .object (("reason", .string r.name) :: r.payload.map fun (key, value) => (key, .string value))

end Reason

/-- An error as JSON; the input and the offset are left out where they are not known. -/
def SyntaxError.toJson (e : SyntaxError) : Json :=
  .object
    ([("code", .string e.reason.code.id), ("message", .string e.reason.message),
        ("kind", e.reason.toJson)]
      ++ (match e.input with | some input => [("input", .string input)] | none => [])
      ++ (match e.cursor with | some cursor => [("cursor", .ofNat cursor)] | none => []))

/-- A kind of suggestion as JSON. -/
def SuggestionKind.toJson : SuggestionKind → Json
  | text => .string "text"
  | integer n => .object [("integer", .ofInt n.toInt)]

/-- A suggestion as JSON; the tooltip is left out where there is none. -/
def Suggestion.toJson (s : Suggestion) : Json :=
  .object
    ([("range", s.span.toJson), ("text", .string s.text)]
      ++ (match s.tooltip with | some tooltip => [("tooltip", .string tooltip)] | none => [])
      ++ [("kind", s.kind.toJson)])

end CommandEngine
