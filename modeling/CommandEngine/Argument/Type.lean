import CommandEngine.Context
import CommandEngine.Reader
import CommandEngine.Suggestion.Collector

/-!
# Types of arguments

An argument type says how a token is read, which inputs show what it accepts, and what it suggests.  The
built-in types are truth values, the four kinds of bounded numbers and three kinds of text; a
`CustomType` adds further ones, which may look at the source that a command is read for.
-/

namespace CommandEngine

/-- Answers with suggestions for a token.  The context is that of the first hop, as far as it was read. -/
abbrev Provider (σ : Type) := Context σ → Collector → Except ProviderFailure Suggestions

namespace Provider

variable {σ : Type}

/-- A provider that suggests nothing. -/
def none : Provider σ := fun _ _ => .ok .empty

/-- A provider that fills the collector. -/
def ofCollecting (fill : Collector → Except Span.Reversed Collector) : Provider σ := fun _ c =>
  (((fill c).mapError .reversed).bind fun d => Suggestions.orDisordered d.build?).mapError .faulty

/-- Suggests those candidates that begin with what has been typed. -/
def matching (candidates : List String) : Provider σ :=
  ofCollecting fun c => c.suggestMatching candidates

end Provider

/-! ## Kinds of text -/

/-- How much of the input a text argument takes. -/
inductive TextKind
  /-- One bare word. -/
  | word
  /-- A bare word or a quoted phrase. -/
  | phrase
  /-- Everything up to the end of the input. -/
  | greedy
  deriving DecidableEq

namespace TextKind

/-- The name of a kind. -/
def name : TextKind → String
  | word => "SingleWord"
  | phrase => "QuotablePhrase"
  | greedy => "GreedyPhrase"

/-- Reads a text of the kind. -/
def scan : TextKind → Scan String
  | word => Scan.word
  | phrase => Scan.phrase
  | greedy => Scan.remainder

/-- Writes a text in the form in which the kind reads it. -/
def quote : TextKind → String → String
  | phrase, value => Phrase.quote value
  | _, value => value

/-- Inputs that the kind accepts. -/
def examples : TextKind → List String
  | word => ["word", "words_with_underscores"]
  | phrase => ["\"quoted phrase\"", "word", "\"\""]
  | greedy => ["word", "words with spaces", "\"and symbols\""]

end TextKind

/-! ## Argument types -/

/-- An argument type of one's own, given by a scan.  That a parser can be given so is an assumption about it, which
`ArgumentParser.Documented` names; `CommandTree.parseReaderBy` reads with parsers of which nothing is assumed. -/
structure CustomType (σ : Type) where
  /-- The name of the type of the values. -/
  typeName : String
  /-- Reads a token, for a source or, where an input is only tested, for none. -/
  scan : Option σ → Scan Value
  /-- Inputs that the type accepts. -/
  examples : List String := []
  provider : Provider σ := Provider.none

/-- How an argument is read. -/
inductive ArgumentType (σ : Type)
  | bool
  | integer (bounds : Bounds Int32)
  | long (bounds : Bounds Int64)
  | float (bounds : Bounds Single)
  | double (bounds : Bounds Double)
  | text (kind : TextKind)
  | custom (type : CustomType σ)

namespace ArgumentType

variable {σ : Type}

/-- Reads a token for a source, or for none. -/
def scan (source : Option σ) : ArgumentType σ → Scan Value
  | bool => fun text => (Scan.boolean text).map .bool
  | integer b => fun text => (Scan.bounded b text).map .int
  | long b => fun text => (Scan.bounded b text).map .long
  | float b => fun text => (Scan.bounded b text).map .float
  | double b => fun text => (Scan.bounded b text).map .double
  | text kind => fun text => (kind.scan text).map .string
  | custom type => type.scan source

/-- Inputs that the type accepts. -/
def examples : ArgumentType σ → List String
  | bool => ["true", "false"]
  | integer _ => Numeral.examples Int32
  | long _ => Numeral.examples Int64
  | float _ => Numeral.examples Single
  | double _ => Numeral.examples Double
  | text kind => kind.examples
  | custom type => type.examples

/-- The name of the type of the values. -/
def typeName : ArgumentType σ → String
  | bool => Stored.typeName Bool
  | integer _ => Stored.typeName Int32
  | long _ => Stored.typeName Int64
  | float _ => Stored.typeName Single
  | double _ => Stored.typeName Double
  | text _ => Stored.typeName String
  | custom type => type.typeName

/-- What the type itself suggests. -/
def provider : ArgumentType σ → Provider σ
  | bool => Provider.matching ["true", "false"]
  | custom type => type.provider
  | _ => Provider.none

/-- Whether a whole input, up to its end or a separator, is an argument of the type. -/
def accepts (type : ArgumentType σ) (input : String) : Bool :=
  Reader.accepts (type.scan none) input

end ArgumentType
end CommandEngine
