import CommandEngine.Argument.Parser
import CommandEngine.Execution

/-!
# Reading a command by byte offsets

Reading goes as `CommandTree.parseFrom` has it, with a byte reader for the place and with the parsers of argument
types of one's own as a parameter.  Nothing is known of such a parser.  The error that it gives is recorded as it is,
whatever input and place it speaks of, and reading goes on from wherever it leaves the reader.

The candidates are tried one after the other, each from the place where the first one was tried, until one of them
takes its redirect.  Reading breaks off where a parser does; where one finds a value before the place at which it
began, for there is no such span; and where one leaves the reader inside a character.
-/

namespace CommandEngine

variable {σ : Type}

/-- How far a command was read, and what stood in the way; the place is a byte offset. -/
structure ByteParse (σ : Type) where
  trail : Trail σ
  reader : ByteReader
  failures : List (NodeId × SyntaxError)

namespace ByteParse

/-- The order of preference: whole inputs first, then readings without errors. -/
def rank (w : ByteParse σ) : Nat :=
  (if w.reader.canReadBytes 1 then 2 else 0) + (if w.failures.isEmpty then 0 else 1)

/-- The reading of lowest rank, the first one of several. -/
def best? : List (ByteParse σ) → Option (ByteParse σ)
  | [] => none
  | w :: rest =>
    match best? rest with
    | none => some w
    | some v => if v.rank < w.rank then some v else some w

/-- A hop put in front of the hops of a reading. -/
def behind (hop : Hop σ) (w : ByteParse σ) : ByteParse σ := { w with trail := .cons hop w.trail }

/-- Why an input was not read to its end: the error of the only candidate, or else a general one. -/
def error? (w : ByteParse σ) : Option SyntaxError :=
  if w.reader.canReadBytes 1 then
    match w.failures with
    | [(_, e)] => some e
    | _ => some (w.reader.error (if w.trail.first.span.isEmpty then .unknownCommand else .unknownArgument))
  else none

/-- Runs a command that has been read. -/
def execute (w : ByteParse σ) : Run σ Int32 :=
  match w.error? with
  | some e => ⟨.error e, []⟩
  | none =>
    match Chain.ofTrail? w.trail w.reader.input with
    | none => ⟨.error (w.reader.error .unknownCommand), [.unhandled (w.trail.context w.reader.input)]⟩
    | some chain => chain.run w.trail.first.source

end ByteParse

namespace ByteReader

/-- Gives the span from an offset up to the present one, and breaks off if that is before it. -/
def spanFrom (start : Nat) : Action Span := fun b =>
  if h : start ≤ b.cursor then some (.ok ⟨start, b.cursor, h⟩, b) else none

/-- The reader past one character, if there is one. -/
def skipped? (b : ByteReader) : Option ByteReader := (skip b).map Prod.snd

end ByteReader

namespace CommandTree

variable (t : CommandTree σ) (own : CustomType σ → ArgumentParser σ)

/-- The children of a node that are worth trying.  The text ahead is looked at only if there are keywords. -/
def candidatesBy (id : NodeId) (b : ByteReader) : Option (List NodeId) :=
  if (t.literals id).isEmpty then some ((t.arguments id).map Prod.snd)
  else b.remaining?.map fun text => t.candidates id text.toList

/-- Matches a node and records it in the hop. -/
def matchNodeBy (hop : Hop σ) (id : NodeId) : ByteReader.Action (Hop σ) := do
  let n := t.node id
  let start := (← get).cursor
  match n.pattern with
  | none => return hop
  | some (.literal keyword) =>
    ByteReader.readKeyword keyword
    let span ← ByteReader.spanFrom start
    return hop.withNode id span n.modifier? n.forks
  | some (.argument name type _) =>
    let value ← type.parse own (some hop.source)
    let span ← ByteReader.spanFrom start
    return (hop.withArgument name ⟨span, value⟩).withNode id span n.modifier? n.forks

/-- Matches a node as a whole token, which ends at a separator or with the input. -/
def matchTokenBy (hop : Hop σ) (id : NodeId) : ByteReader.Action (Hop σ) := do
  let taken ← t.matchNodeBy own hop id
  ByteReader.unlessEnded (ByteReader.fail .expectedSeparator)
  return { taken with handler := (t.node id).handler }

/-- Tries candidates in order, all at one place, and chooses; `readOn` reads on behind those that match and do not end
the input.  The readings and the errors of the candidates tried before are given. -/
def tryEach (readOn : NodeId → ByteReader → Hop σ → Option (ByteParse σ)) (b : ByteReader) (hop : Hop σ) :
    List NodeId → List (ByteParse σ) → List (NodeId × SyntaxError) → Option (ByteParse σ)
  | [], readings, failures => some ((ByteParse.best? readings).getD ⟨.single hop, b, failures⟩)
  | id :: rest, readings, failures =>
    match t.matchTokenBy own hop id b with
    | none => none
    | some (.error e, _) => tryEach readOn b hop rest readings (failures ++ [(id, e)])
    | some (.ok taken, next) =>
      match (t.node id).target? with
      | some target =>
        if next.canReadBytes 1 then do
          let past ← next.skipped?
          let inner ← readOn target past (.start hop.source target past.cursor)
          return inner.behind taken
        else tryEach readOn b hop rest (readings ++ [⟨.single taken, next, []⟩]) failures
      | none =>
        if next.canReadBytes 2 then do
          let past ← next.skipped?
          let reading ← readOn id past taken
          tryEach readOn b hop rest (readings ++ [reading]) failures
        else tryEach readOn b hop rest (readings ++ [⟨.single taken, next, []⟩]) failures

/-- Reads on from a place, below a node, for at most `depth` tokens one below the other; reading that would go
deeper breaks off. -/
def parseFromBy : Nat → NodeId → ByteReader → Hop σ → Option (ByteParse σ)
  | 0, _, _, _ => none
  | depth + 1, id, b, hop => do
    let candidates ← t.candidatesBy id b
    t.tryEach own (parseFromBy depth) b hop (candidates.filter fun c => (t.node c).canUse hop.source) [] []

/-- Reads a command from a place in an input.  Every token but the last has a separator behind it, so that no reading
of an input goes deeper than its bytes and one; only a parser that exchanges the input could lead on. -/
def parseReaderBy (b : ByteReader) (source : σ) : Option (ByteParse σ) :=
  t.parseFromBy own (b.totalWidth + 1) rootId b (.start source rootId b.cursor)

/-- Reads an input as a command and runs it. -/
def executeBy (input : String) (source : σ) : Option (Run σ Int32) :=
  (t.parseReaderBy own (.ofString input) source).map ByteParse.execute

end CommandTree
end CommandEngine
