import CommandEngine.Text.Basic

/-!
# Spans of the input

A `Span` is a half-open stretch of byte offsets `[start, stop)`.  The order of its ends is part of the
type, so the only place where a reversed pair of offsets can show up is `Span.between`, which
answers with a `Span.Reversed`.
-/

namespace CommandEngine

/-- A half-open stretch of byte offsets. -/
structure Span where
  start : Nat
  stop : Nat
  ordered : start ≤ stop := by omega
  deriving DecidableEq

namespace Span

/-- Two offsets that were meant to be the ends of a span, in the wrong order. -/
structure Reversed where
  start : Nat
  stop : Nat
  deriving DecidableEq

/-- What is reported for a reversed pair of offsets. -/
def Reversed.message (r : Reversed) : String :=
  "StringRange end (" ++ toString r.stop ++ ") < start (" ++ toString r.start ++ ")"

/-- The span with the given ends. -/
def between (start stop : Nat) : Except Reversed Span :=
  if h : start ≤ stop then .ok ⟨start, stop, h⟩ else .error ⟨start, stop⟩

/-- The empty span at an offset. -/
def point (offset : Nat) : Span := ⟨offset, offset, Nat.le_refl _⟩

/-- The smallest span that covers both `a` and `b`. -/
def union (a b : Span) : Span :=
  ⟨min a.start b.start, max a.stop b.stop, by have := a.ordered; omega⟩

/-- Whether the span covers nothing. -/
def isEmpty (s : Span) : Bool := s.start == s.stop

/-- The number of bytes covered. -/
def length (s : Span) : Nat := s.stop - s.start

/-- The characters of `cs` that the span covers; nothing if an end is outside the text or inside a
character. -/
def chars (s : Span) (cs : List Char) : List Char :=
  (Text.slice? cs s.start s.stop).getD []

/-- The text of `input` that the span covers, empty if the span does not fit the text. -/
def text (s : Span) (input : String) : String :=
  String.ofList (s.chars input.toList)

/-- The written form `[start, stop)`. -/
def display (s : Span) : String :=
  "[" ++ toString s.start ++ ", " ++ toString s.stop ++ ")"

/-- The union of all spans of a list, the empty span at the origin if there are none. -/
def unionAll : List Span → Span
  | [] => point 0
  | s :: rest => rest.foldl union s

end Span
end CommandEngine
