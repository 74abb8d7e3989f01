import CommandEngine.Argument.Type
import CommandEngine.ByteReader

/-!
# Parsers of arguments

An argument is read by moving a byte offset.  The built-in types do so in the ways of `ByteReader`; an argument
type of one's own brings an `ArgumentParser` along, of which nothing is known but its type: it may look back, move
anywhere, give up with an error about something else, or break off.
-/

namespace CommandEngine

variable {σ : Type}

/-- Reads an argument for a source or, where an input is only tested, for none. -/
abbrev ArgumentParser (σ : Type) := Option σ → ByteReader.Action Value

/-- Reads a text of the kind. -/
def TextKind.parse : TextKind → ByteReader.Action String
  | word => ByteReader.readWord
  | phrase => ByteReader.readPhrase
  | greedy => ByteReader.readRest

/-- Reads an argument of the type; how types of one's own are read is for them to say. -/
def ArgumentType.parse (own : CustomType σ → ArgumentParser σ) : ArgumentType σ → ArgumentParser σ
  | bool, _ => do return .bool (← ByteReader.readBoolean)
  | integer b, _ => do return .int (← ByteReader.readBounded b)
  | long b, _ => do return .long (← ByteReader.readBounded b)
  | float b, _ => do return .float (← ByteReader.readBounded b)
  | double b, _ => do return .double (← ByteReader.readBounded b)
  | text kind, _ => do return .string (← kind.parse)
  | custom type, source => own type source

end CommandEngine
