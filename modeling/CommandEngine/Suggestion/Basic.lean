import CommandEngine.Span
import CommandEngine.Number.Decimal
import CommandEngine.Sorting.Pivot
import CommandEngine.Text.Lowercase

/-!
# Suggestions

A `Suggestion` proposes to put a text in place of a span of the input.  `Suggestion.apply` does that, and
`Suggestion.expand` says the same with a wider span by repeating the input around the old one.

`Suggestions` is a list in normal form: all its members replace the same span, no two are equal, and
they are sorted.  `Suggestions.create?` brings a list into that form and `Suggestions.merge?` combines
several results.

The order of suggestions is linear among texts and among integers, but not across the two kinds: the
integer `9` comes before the integer `10`, which comes before the text `5`, which comes before the integer
`9`.  A list of both kinds may therefore be found to contradict itself, and then it has no normal form.
-/

namespace CommandEngine

/-- What a suggested text stands for: itself, or an integer that is sorted by value. -/
inductive SuggestionKind
  | text
  | integer (value : Int32)
  deriving DecidableEq

/-- A proposal to put `text` in place of `span`. -/
structure Suggestion where
  span : Span
  text : String
  tooltip : Option String
  kind : SuggestionKind
  deriving DecidableEq

namespace Suggestion

/-- A suggested text. -/
def ofText (span : Span) (text : String) (tooltip : Option String) : Suggestion :=
  ⟨span, text, tooltip, .text⟩

/-- A suggested integer, whose text is its decimal form. -/
def ofInteger (span : Span) (value : Int32) (tooltip : Option String) : Suggestion :=
  ⟨span, Digits.ofInt value.toInt, tooltip, .integer value⟩

/-- The characters of `cs` before a byte offset, none if the offset does not fit. -/
def before (cs : List Char) (offset : Nat) : List Char :=
  ((Text.splitAt? cs offset).map Prod.fst).getD []

/-- The characters of `cs` from a byte offset on, none if the offset does not fit. -/
def beyond (cs : List Char) (offset : Nat) : List Char :=
  ((Text.splitAt? cs offset).map Prod.snd).getD []

/-- The input with the suggestion put in place. -/
def apply (s : Suggestion) (input : String) : String :=
  let cs := input.toList
  if s.span.start = 0 ∧ s.span.stop = Text.width cs then s.text
  else String.ofList (before cs s.span.start ++ s.text.toList ++ beyond cs s.span.stop)

/-- Whether the span ends within a character of the input, so that the rest cannot be kept. -/
def splitsCharacter (s : Suggestion) (input : String) : Bool :=
  decide (s.span.stop < Text.width input.toList) && (Text.splitAt? input.toList s.span.stop).isNone

/-- The input with the suggestion put in place, if the input can be cut where the span ends. -/
def applied? (s : Suggestion) (input : String) : Option String :=
  if s.splitsCharacter input then none else some (s.apply input)

/-- The same suggestion for a span around its own, padded with the text of the command on either side.
A suggestion that is widened stands for its text only. -/
def expand (s : Suggestion) (command : String) (span : Span) : Suggestion :=
  if span = s.span then s
  else
    let cs := command.toList
    let left := (Text.slice? cs span.start s.span.start).getD []
    let right := (Text.slice? cs s.span.stop span.stop).getD []
    ofText span (String.ofList (left ++ s.text.toList ++ right)) s.tooltip

/-! ## Order -/

/-- The order of the lowercase texts. -/
def orderIgnoringCase (a b : Suggestion) : Ordering :=
  Text.order (Text.lowerChars a.text.toList) (Text.lowerChars b.text.toList)

/-- Two integers are ordered by value, and all else by lowercase text. -/
def order (a b : Suggestion) : Ordering :=
  match a.kind, b.kind with
  | .integer m, .integer n => compare m.toInt n.toInt
  | _, _ => a.orderIgnoringCase b

/-- Whether a suggestion comes strictly before another one. -/
def less (a b : Suggestion) : Bool := decide (a.order b = .lt)

/-- Whether a suggestion is an integer. -/
def isInteger (s : Suggestion) : Bool :=
  match s.kind with
  | .integer _ => true
  | .text => false

/-- Whether all suggestions are of one kind, so that their order is linear. -/
def areAlike (l : List Suggestion) : Bool := l.all isInteger || l.all fun s => !s.isInteger

/-- Sorts suggestions; those of equal rank keep their order.  For suggestions of one kind every way of
sorting gives the same list and insertion is the plainest; for a list of both kinds the way matters. -/
def sort? (l : List Suggestion) : Option (List Suggestion) :=
  if areAlike l then some (Sorting.insertionSort less l) else Sorting.sort? less l

/-- A list without repetitions, each member where it occurs first. -/
def distinct : List Suggestion → List Suggestion
  | [] => []
  | s :: rest => s :: (distinct rest).filter fun t => t ≠ s

end Suggestion

/-- Suggestions in normal form: for one span, without repetitions, sorted. -/
structure Suggestions where
  span : Span
  list : List Suggestion
  deriving DecidableEq

namespace Suggestions

/-- No suggestions. -/
def empty : Suggestions := ⟨.point 0, []⟩

/-- Whether there is nothing to suggest. -/
def isEmpty (s : Suggestions) : Bool := s.list.isEmpty

/-- The suggested texts in order. -/
def texts (s : Suggestions) : List String := s.list.map Suggestion.text

/-- The normal form of a list: every suggestion for the union of all spans, repetitions dropped, sorted. -/
def create? (command : String) (l : List Suggestion) : Option Suggestions :=
  match l with
  | [] => some empty
  | _ =>
    let span := Span.unionAll (l.map Suggestion.span)
    (Suggestion.sort? (Suggestion.distinct (l.map fun s => s.expand command span))).map (⟨span, ·⟩)

/-- Combines several results for one command.  A single result is kept as it is. -/
def merge? (command : String) : List Suggestions → Option Suggestions
  | [] => some empty
  | [s] => some s
  | results => create? command (results.flatMap Suggestions.list)

end Suggestions
end CommandEngine
