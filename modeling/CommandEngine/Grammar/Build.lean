import CommandEngine.Execution
import CommandEngine.Grammar.Source
import CommandEngine.Grammar.Validate

/-!
# From a grammar to a command tree

A tree is built in two passes.  The first adds every command, with nodes that redirect as leaves, so
that a redirect may lead to a command that comes later.  The second finds the target of each redirect
by its path and attaches it.
-/

namespace CommandEngine

/-! ## Actions -/

/-- The argument of a name, whatever its type. -/
def Context.lookup {σ : Type} (c : Context σ) (name : String) : Except SyntaxError ParsedArgument :=
  match c.parsed? name with
  | none => .error (.bare (.noSuchArgument name))
  | some p => .ok p

/-- An integer moved into the range of 32 bits. -/
def clampInt32 (n : Int) : Int32 :=
  Int32.ofInt (max Int32.minValue.toInt (min Int32.maxValue.toInt n))

/-- A value as a number: integers as far as 32 bits reach, the integer part of other numbers, truth
values as zero and one, and texts by the number of their characters. -/
def Value.number? : Value → Option Int32
  | int n => some n
  | long n => some (clampInt32 n.toInt)
  | float x => some (Int32.ofInt (x.truncateWithin Int32.minValue.toInt Int32.maxValue.toInt))
  | double x => some (Int32.ofInt (x.truncateWithin Int32.minValue.toInt Int32.maxValue.toInt))
  | bool b => some (if b then 1 else 0)
  | string s => some (clampInt32 s.toList.length)
  | other _ => none

/-- The handler that does an action. -/
def Action.handler {σ : Type} : Action → Handler σ
  | constant n => fun _ => .ok n
  | argument name => fun c =>
    (c.lookup name).bind fun p =>
      match p.value.number? with
      | some n => .ok n
      | none => .error (.bare (.argumentTypeMismatch name "number"))
  | fail message => fun _ => .error (.custom message)

/-! ## Rules for sources -/

/-- The parts of a text between commas, without blanks around them; empty parts are left out. -/
def listParts (s : String) : List String :=
  ((s.toList.splitOn ',').map Text.trim).filterMap fun part =>
    if part = [] then none else some (String.ofList part)

/-- The modifier that follows a rule.  Every source it gives keeps the permissions. -/
def SourceRule.apply : SourceRule → Modifier Source
  | split name => fun c =>
    (c.argument name : Except SyntaxError String).map fun list =>
      (listParts list).map c.source.renamed
  | rename name => fun c =>
    (c.lookup name).map fun p =>
      match p.value with
      | .string s => [c.source.renamed s]
      | _ => [c.source.renamed (p.span.text c.input)]

/-! ## Nodes -/

/-- Bounds with missing ends filled in. -/
def OpenBounds.close {α : Type} [Numeral α] (b : OpenBounds α) : Bounds α := .ofOptions b.min b.max

/-- The argument type that a grammar names. -/
def GrammarType.toArgumentType {σ : Type} : GrammarType → ArgumentType σ
  | bool => .bool
  | word => .text .word
  | string => .text .phrase
  | greedy => .text .greedy
  | integer b => .integer b.close
  | long b => .long b.close
  | float b => .float b.close
  | double b => .double b.close

/-- The pattern of a node, with its suggestions. -/
def GrammarPattern.toPattern (suggestions : List String) : GrammarPattern → Pattern Source
  | literal keyword => .literal keyword
  | argument name type =>
    .argument name type.toArgumentType
      (if suggestions.isEmpty then none else some (Provider.matching suggestions))

mutual

/-- A node and everything below it, without redirects. -/
def GrammarNode.toSpec : GrammarNode → NodeSpec Source
  | ⟨pattern, children, executes, requires, _, _, _, suggestions⟩ =>
    { pattern := pattern.toPattern suggestions
      children := GrammarNode.toSpecs children
      handler := executes.map Action.handler
      requirement := requires.map fun permission source => source.holds permission
      redirect := none }

/-- Several nodes. -/
def GrammarNode.toSpecs : List GrammarNode → List (NodeSpec Source)
  | [] => []
  | n :: rest => GrammarNode.toSpec n :: GrammarNode.toSpecs rest

end

/-! ## Redirects -/

/-- A redirect whose target is still to be found. -/
structure PendingRedirect where
  path : List String
  target : List String
  modifier : Option SourceRule
  fork : Bool
  deriving DecidableEq

mutual

/-- The redirects of a node and everything below it, where `above` leads to the node. -/
def GrammarNode.redirects (above : List String) : GrammarNode → List PendingRedirect
  | ⟨pattern, children, _, _, redirect, fork, modifier, _⟩ =>
    let path := above ++ [pattern.name]
    let own := match redirect with
      | none => []
      | some target => [⟨path, target, modifier, fork⟩]
    own ++ GrammarNode.redirectsAll path children

/-- The redirects of several nodes. -/
def GrammarNode.redirectsAll (above : List String) : List GrammarNode → List PendingRedirect
  | [] => []
  | n :: rest => GrammarNode.redirects above n ++ GrammarNode.redirectsAll above rest

end

/-- The written form of a path. -/
def pathText (path : List String) : String := Text.join separator.toString path

/-- Finds the target of a redirect and attaches it. -/
def PendingRedirect.resolve (t : CommandTree Source) (p : PendingRedirect) :
    Except GrammarError (CommandTree Source) :=
  match t.find? p.path, t.find? p.target with
  | some id, some target =>
    (t.setRedirect id ⟨target, p.modifier.map SourceRule.apply, p.fork⟩).mapError fun cause =>
      .build (pathText p.path) cause
  | _, _ => .error (.unresolvedRedirect (pathText p.path) (pathText p.target))

namespace Grammar

/-- Adds the commands of a grammar in order. -/
def registerAll (t : CommandTree Source) : List GrammarNode → Except GrammarError (CommandTree Source)
  | [] => .ok t
  | n :: rest =>
    match t.register n.toSpec with
    | .error cause => .error (.build n.name cause)
    | .ok (_, t) => registerAll t rest

/-- Attaches redirects in order. -/
def resolveAll (t : CommandTree Source) :
    List PendingRedirect → Except GrammarError (CommandTree Source)
  | [] => .ok t
  | p :: rest => (p.resolve t).bind fun t => resolveAll t rest

/-- The command tree that a grammar describes. -/
def build (g : Grammar) : Except GrammarError (CommandTree Source) := do
  let t ← registerAll .empty g.commands
  resolveAll t (GrammarNode.redirectsAll [] g.commands)

/-- Reads a document and builds the tree it describes. -/
def loadTree (text : String) : Except GrammarError (CommandTree Source) := do
  let g ← load text
  g.build

end Grammar
end CommandEngine
