import CommandEngine.Problem
import CommandEngine.Suggestion.Basic

/-!
# Collecting suggestions

A `Collector` gathers suggestions for one token: the text from `start` to the end of the input, which is
what each of them replaces.  A collector may be set up to start past the end of its input; it
is only when a suggestion is added that this comes out, as reversed ends of a span.
-/

namespace CommandEngine

/-- Suggestions gathered for the end of an input. -/
structure Collector where
  input : String
  /-- The lowercase form of the input. -/
  lowerInput : String
  /-- Where the token begins that suggestions replace. -/
  start : Nat
  gathered : List Suggestion

namespace Collector

/-- A collector with the lowercase form of the input given. -/
def withLower (input lowerInput : String) (start : Nat) : Collector :=
  ⟨input, lowerInput, start, []⟩

/-- A collector for everything from `start` on. -/
def new (input : String) (start : Nat) : Collector :=
  withLower input (Text.lowercase input) start

/-- What has been typed of the token, nothing if `start` does not fit the input. -/
def remaining (c : Collector) : String :=
  String.ofList (Suggestion.beyond c.input.toList c.start)

/-- The lowercase form of what has been typed. -/
def lowerRemaining (c : Collector) : String := Text.lowercase c.remaining

/-- The span that suggestions replace. -/
def span (c : Collector) : Except Span.Reversed Span :=
  Span.between c.start (Text.width c.input.toList)

/-- Adds a suggestion built for the collector's span. -/
def add (c : Collector) (make : Span → Suggestion) : Except Span.Reversed Collector :=
  c.span.map fun span => { c with gathered := c.gathered ++ [make span] }

/-- Suggests a text, unless it is what has been typed already. -/
def suggest (c : Collector) (text : String) (tooltip : Option String) :
    Except Span.Reversed Collector :=
  if text = c.remaining then .ok c else c.add fun span => .ofText span text tooltip

/-- Suggests an integer. -/
def suggestInteger (c : Collector) (value : Int32) (tooltip : Option String) :
    Except Span.Reversed Collector :=
  c.add fun span => .ofInteger span value tooltip

/-- Takes over what another collector has gathered. -/
def append (c other : Collector) : Collector :=
  { c with gathered := c.gathered ++ other.gathered }

/-- An empty collector over the same input that starts elsewhere. -/
def restartAt (c : Collector) (start : Nat) : Collector :=
  withLower c.input c.lowerInput start

/-- An empty collector over the same input and token. -/
def restart (c : Collector) : Collector := c.restartAt c.start

/-- Whether a candidate begins with what has been typed, without regard to case. -/
def isPrefixed (c : Collector) (candidate : String) : Bool :=
  c.lowerRemaining.toList.isPrefixOf (Text.lowerChars candidate.toList)

/-- Suggests those candidates that begin with what has been typed. -/
def suggestMatching (c : Collector) : List String → Except Span.Reversed Collector
  | [] => .ok c
  | s :: rest =>
    if c.isPrefixed s then (c.suggest s none).bind fun d => d.suggestMatching rest
    else c.suggestMatching rest

/-- The gathered suggestions in normal form. -/
def build? (c : Collector) : Option Suggestions := Suggestions.create? c.input c.gathered

end Collector

/-- What can be wrong with suggestions: they were asked for beyond the end of the input, or their order
contradicts itself. -/
inductive SuggestionFault
  | reversed (ends : Span.Reversed)
  | disordered
  deriving DecidableEq

/-- What is reported for a fault. -/
def SuggestionFault.message : SuggestionFault → String
  | reversed ends => ends.message
  | disordered => "the suggestions contradict each other in their order"

/-- Suggestions, or the fault of having no normal form. -/
def Suggestions.orDisordered (s : Option Suggestions) : Except SuggestionFault Suggestions :=
  match s with
  | some s => .ok s
  | none => .error .disordered

/-- Why no suggestions came from a provider: it refused, or what it suggested is at fault. -/
inductive ProviderFailure
  | refused (error : SyntaxError)
  | faulty (fault : SuggestionFault)
  deriving DecidableEq

end CommandEngine
