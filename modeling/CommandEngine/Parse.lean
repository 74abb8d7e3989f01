import CommandEngine.Tree.Build

/-!
# Reading a command

Reading starts at the root of the tree and tries, at every token, the children of the node it has come
to.  `CommandTree.candidates` are the children worth trying: the keyword that the token spells if
there is one, else every argument.  `CommandTree.stepAt` tries one of them and says how things
stand afterwards:

* it failed, with an error;
* it matched and the input ends here, or only one separator is left;
* it matched and reading goes on below it;
* it matched and its redirect takes reading elsewhere.

`CommandTree.parseFrom` follows the first redirect that is taken, and otherwise chooses among the readings
of all candidates: a reading of the whole input is better than one that leaves something, then one
without errors is better than one with errors, and the first of equals is kept.  Where no candidate
matches, reading stops and the errors of the candidates are kept.
-/

namespace CommandEngine

/-- How far a command was read, and what stood in the way. -/
structure ParseResult (σ : Type) where
  trail : Trail σ
  /-- The place where reading stopped. -/
  reader : Reader
  /-- The errors of the candidates that were tried there, in order. -/
  failures : List (NodeId × SyntaxError)

namespace ParseResult

variable {σ : Type}

/-- Whether the whole input was read. -/
def isComplete (r : ParseResult σ) : Bool := !r.reader.canRead

/-- The order of preference: whole inputs first, then readings without errors. -/
def rank (r : ParseResult σ) : Nat :=
  (if r.reader.canRead then 2 else 0) + (if r.failures.isEmpty then 0 else 1)

/-- The reading of lowest rank, the first one of several. -/
def best? : List (ParseResult σ) → Option (ParseResult σ)
  | [] => none
  | r :: rest =>
    match best? rest with
    | none => some r
    | some s => if s.rank < r.rank then some s else some r

/-- Why an input was not read to its end: the error of the only candidate, or else a general one. -/
def error? (r : ParseResult σ) : Option SyntaxError :=
  if r.isComplete then none
  else match r.failures with
    | [(_, e)] => some e
    | _ =>
      some (r.reader.error
        (if r.trail.first.span.isEmpty then .unknownCommand else .unknownArgument))

/-- The context of the first hop. -/
def context (r : ParseResult σ) : Context σ := r.trail.context r.reader.input

end ParseResult

namespace Reader

/-- Going on does not go back. -/
theorem cursor_le_cursor_advance (r : Reader) (n : Nat) : r.cursor ≤ (r.advance n).cursor := by
  simp [cursor, advance]

/-- The span of the next `n` characters. -/
def ahead (r : Reader) (n : Nat) : Span :=
  ⟨r.cursor, (r.advance n).cursor, r.cursor_le_cursor_advance n⟩

/-- Past a character that is there, less is left. -/
theorem length_rest_advance_lt {r : Reader} {n : Nat} (h : n < r.rest.length) :
    (r.advance (n + 1)).rest.length < r.rest.length := by
  simp only [rest_advance, List.length_drop]
  omega

end Reader

/-- How things stand after a candidate was tried at a place. -/
inductive Step (σ : Type) (r : Reader)
  /-- The candidate does not match. -/
  | failed (id : NodeId) (error : SyntaxError)
  /-- The candidate matches and nothing is left to be read below it. -/
  | arrived (hop : Hop σ) (passed : Nat)
  /-- The candidate matches, and reading goes on below it after the separator. -/
  | onward (id : NodeId) (hop : Hop σ) (passed : Nat) (more : passed < r.rest.length)
  /-- The candidate matches, and reading goes on at its target after the separator. -/
  | jump (target : NodeId) (hop : Hop σ) (passed : Nat) (more : passed < r.rest.length)

namespace CommandTree

variable {σ : Type}

/-- The children of a node that are worth trying: the keyword that is the next token, else every
argument. -/
def candidates (t : CommandTree σ) (id : NodeId) (text : List Char) : List NodeId :=
  let token := text.takeWhile (· ≠ separator)
  match (t.literals id).find? fun (name, _) => name.toList = token with
  | some (_, literal) => [literal]
  | none => (t.arguments id).map Prod.snd

/-- Those candidates that the source may use. -/
def usable (t : CommandTree σ) (id : NodeId) (text : List Char) (source : σ) : List NodeId :=
  (t.candidates id text).filter fun c => (t.node c).canUse source

/-- Matches a node with the text ahead: the hop with the node recorded, and how many characters it took. -/
def matchNode (t : CommandTree σ) (r : Reader) (hop : Hop σ) (id : NodeId) :
    Except SyntaxError (Hop σ × Nat) :=
  let n := t.node id
  match n.pattern with
  | none => .ok (hop, 0)
  | some (.literal keyword) =>
    let s := Scan.keyword keyword r.rest
    match s.outcome with
    | .error e => .error ((r.advance s.passed).error e)
    | .ok () => .ok (hop.withNode id (r.ahead s.passed) n.modifier? n.forks, s.passed)
  | some (.argument name type _) =>
    let s := type.scan (some hop.source) r.rest
    match s.outcome with
    | .error e => .error ((r.advance s.passed).error e)
    | .ok value =>
      let span := r.ahead s.passed
      .ok ((hop.withArgument name ⟨span, value⟩).withNode id span n.modifier? n.forks, s.passed)

/-- Matches a node as a whole token, which ends at a separator or with the input. -/
def matchToken (t : CommandTree σ) (r : Reader) (hop : Hop σ) (id : NodeId) :
    Except SyntaxError (Hop σ × Nat) :=
  match t.matchNode r hop id with
  | .error e => .error e
  | .ok (hop, passed) =>
    if endsToken (r.rest.drop passed) then .ok ({ hop with handler := (t.node id).handler }, passed)
    else .error ((r.advance passed).error .expectedSeparator)

/-- Tries one candidate. -/
def stepAt (t : CommandTree σ) (r : Reader) (hop : Hop σ) (id : NodeId) : Step σ r :=
  match t.matchToken r hop id with
  | .error e => .failed id e
  | .ok (hop, passed) =>
    match (t.node id).target? with
    | some target =>
      if h : passed < r.rest.length then .jump target hop passed h else .arrived hop passed
    | none =>
      if h : passed + 1 < r.rest.length then .onward id hop passed (Nat.lt_of_succ_lt h)
      else .arrived hop passed

end CommandTree

namespace Step

variable {σ : Type} {r : Reader}

/-- A redirect that is taken. -/
structure Jump (σ : Type) (r : Reader) where
  target : NodeId
  hop : Hop σ
  passed : Nat
  more : passed < r.rest.length

/-- The redirect that a step takes. -/
def jump? : Step σ r → Option (Jump σ r)
  | jump target hop passed more => some ⟨target, hop, passed, more⟩
  | _ => none

/-- The error that a step ended with. -/
def failure? : Step σ r → Option (NodeId × SyntaxError)
  | failed id e => some (id, e)
  | _ => none

end Step

namespace CommandTree

variable {σ : Type}

/-- Reads on from a place, below a node, with what the current hop has matched so far. -/
def parseFrom (t : CommandTree σ) (id : NodeId) (r : Reader) (hop : Hop σ) : ParseResult σ :=
  let steps := (t.usable id r.rest hop.source).map (t.stepAt r hop)
  match steps.findSome? Step.jump? with
  | some ⟨target, taken, passed, more⟩ =>
    have := Reader.length_rest_advance_lt more
    let next := r.advance (passed + 1)
    let inner := parseFrom t target next (.start hop.source target next.cursor)
    { inner with trail := .cons taken inner.trail }
  | none =>
    let readings := steps.filterMap fun
      | .arrived reached passed => some ⟨.single reached, r.advance passed, []⟩
      | .onward child reached passed more =>
        have := Reader.length_rest_advance_lt more
        some (parseFrom t child (r.advance (passed + 1)) reached)
      | _ => none
    (ParseResult.best? readings).getD ⟨.single hop, r, steps.filterMap Step.failure?⟩
termination_by r.rest.length
decreasing_by all_goals assumption

/-- Reads a command from a place in an input. -/
def parseReader (t : CommandTree σ) (r : Reader) (source : σ) : ParseResult σ :=
  t.parseFrom rootId r (.start source rootId r.cursor)

/-- Reads a whole input as a command. -/
def parse (t : CommandTree σ) (input : String) (source : σ) : ParseResult σ :=
  t.parseReader (.ofString input) source

end CommandTree
end CommandEngine
