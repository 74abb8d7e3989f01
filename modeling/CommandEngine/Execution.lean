import CommandEngine.Parse

/-!
# Running a command

A trail of hops is run from the outside in.  Every hop but the innermost is a stage: its modifier turns
each source into the sources that the next stage is run for.  The innermost hop has the handler,
which is run for every source that is left, and the results are added up as 32-bit integers.

A failure ends the run, unless one of the stages so far forks: then only the source it happened for is
given up.

A run is returned together with its `Invocation`s, which say for what contexts modifiers and handlers
were called and how they answered.  What an observer is told of a run are the `Notice`s in it.
-/

namespace CommandEngine

variable {σ : Type}

/-! ## What happens in a run -/

/-- One event of a run. -/
inductive Invocation (σ : Type)
  /-- A modifier was called. -/
  | modified (context : Context σ) (outcome : Except SyntaxError (List σ))
  /-- A handler was called. -/
  | handled (context : Context σ) (outcome : Except SyntaxError Int32)
  /-- A whole command had no handler. -/
  | unhandled (context : Context σ)

/-- What an observer is told: for what context, whether it went well, and the result. -/
structure Notice (σ : Type) where
  context : Context σ
  success : Bool
  result : Int32

/-- The notice of an event; modifiers that answer are not reported. -/
def Invocation.notice? : Invocation σ → Option (Notice σ)
  | modified _ (.ok _) => none
  | modified c (.error _) => some ⟨c, false, 0⟩
  | handled c (.ok n) => some ⟨c, true, n⟩
  | handled c (.error _) => some ⟨c, false, 0⟩
  | unhandled c => some ⟨c, false, 0⟩

/-- The outcome of a run, with its events in order. -/
structure Run (σ α : Type) where
  outcome : Except SyntaxError α
  trace : List (Invocation σ)

/-- What an observer is told of a run, in order. -/
def Run.notices {α : Type} (r : Run σ α) : List (Notice σ) := r.trace.filterMap Invocation.notice?

/-! ## Stages -/

/-- A hop that leads on to another. -/
structure Stage (σ : Type) where
  context : Context σ
  modifier : Option (Modifier σ)

namespace Stage

/-- Whether the stage forks. -/
def forks (s : Stage σ) : Bool := s.context.frame.forks

/-- The sources that one source is turned into. -/
def apply (s : Stage σ) (forked : Bool) (source : σ) : Run σ (List σ) :=
  match s.modifier with
  | none => ⟨.ok [source], []⟩
  | some modifier =>
    let context := s.context.withSource source
    match modifier context with
    | .ok sources => ⟨.ok sources, [.modified context (.ok sources)]⟩
    | .error e => ⟨if forked then .ok [] else .error e, [.modified context (.error e)]⟩

/-- The sources that several sources are turned into, from left to right. -/
def applyAll (s : Stage σ) (forked : Bool) : List σ → Run σ (List σ)
  | [] => ⟨.ok [], []⟩
  | source :: rest =>
    let first := s.apply forked source
    match first.outcome with
    | .error e => ⟨.error e, first.trace⟩
    | .ok sources =>
      let others := applyAll s forked rest
      ⟨others.outcome.map (sources ++ ·), first.trace ++ others.trace⟩

end Stage

/-! ## Chains -/

/-- The stages of a command in order, then the context and the handler of the innermost hop. -/
structure Chain (σ : Type) where
  stages : List (Stage σ)
  context : Context σ
  handler : Handler σ

namespace Chain

/-- The stages of the hops before the innermost one. -/
def stagesOf (input : String) (h : Hop σ) : List (Hop σ) → List (Stage σ)
  | [] => []
  | next :: rest =>
    ⟨⟨input, h.toFrame, (next :: rest).map Hop.toFrame⟩, h.modifier⟩ :: stagesOf input next rest

/-- The chain of a trail, if its innermost hop has a handler. -/
def ofTrail? (t : Trail σ) (input : String) : Option (Chain σ) :=
  t.last.handler.map fun handler =>
    ⟨stagesOf input t.first t.later, t.lastContext input, handler⟩

/-- The context of the first stage, or of the handler if there is no stage. -/
def top (c : Chain σ) : Context σ :=
  match c.stages with
  | [] => c.context
  | s :: _ => s.context

/-- The chain without its first stage. -/
def next? (c : Chain σ) : Option (Chain σ) :=
  match c.stages with
  | [] => none
  | _ :: rest => some { c with stages := rest }

/-- The chain without its first `n` stages, as far as it has them. -/
def drop (c : Chain σ) (n : Nat) : Chain σ := { c with stages := c.stages.drop n }

/-- Runs the handler for one source. -/
def handle (c : Chain σ) (forked : Bool) (source : σ) : Run σ Int32 :=
  let context := c.context.withSource source
  match c.handler context with
  | .ok n => ⟨.ok n, [.handled context (.ok n)]⟩
  | .error e => ⟨if forked then .ok 0 else .error e, [.handled context (.error e)]⟩

/-- Runs the handler for several sources, from left to right, and adds up the results. -/
def handleAll (c : Chain σ) (forked : Bool) (sum : Int32) : List σ → Run σ Int32
  | [] => ⟨.ok sum, []⟩
  | source :: rest =>
    let first := c.handle forked source
    match first.outcome with
    | .error e => ⟨.error e, first.trace⟩
    | .ok n =>
      let others := handleAll c forked (sum + n) rest
      ⟨others.outcome, first.trace ++ others.trace⟩

/-- Runs the given stages for several sources, then the handler. -/
def runStages (c : Chain σ) (forked : Bool) (sources : List σ) : List (Stage σ) → Run σ Int32
  | [] => c.handleAll forked 0 sources
  | s :: rest =>
    let forked := forked || s.forks
    let first := s.applyAll forked sources
    match first.outcome with
    | .error e => ⟨.error e, first.trace⟩
    | .ok sources =>
      let others := runStages c forked sources rest
      ⟨others.outcome, first.trace ++ others.trace⟩

/-- Runs the whole chain for a source. -/
def run (c : Chain σ) (source : σ) : Run σ Int32 := c.runStages false [source] c.stages

end Chain

/-! ## Commands -/

/-- Runs a command that has been read. -/
def ParseResult.execute (r : ParseResult σ) : Run σ Int32 :=
  match r.error? with
  | some e => ⟨.error e, []⟩
  | none =>
    match Chain.ofTrail? r.trail r.reader.input with
    | none => ⟨.error (r.reader.error .unknownCommand), [.unhandled r.context]⟩
    | some chain => chain.run r.trail.first.source

/-- Reads an input as a command and runs it. -/
def CommandTree.execute (t : CommandTree σ) (input : String) (source : σ) : Run σ Int32 :=
  (t.parse input source).execute

end CommandEngine
