import CommandEngine.Argument.Value
import CommandEngine.Span

/-!
# What a command was read as

Reading a command leaves a trail of hops.  A hop starts at a node, the root of the tree for the
first one, and matches nodes downwards from there; where a node redirects, the next hop starts at the
node it redirects to.

A `Frame` is what a hop has matched: the nodes with their spans, and the arguments among them with their
values.  A `Context` is what a handler gets to see: the input, the frame of its own hop, and the
frames of the hops after it.  A `Hop` is a frame together with the handler and the modifier that its
last node brought along, and a `Trail` is the hops in order.
-/

namespace CommandEngine

/-- The number of a node; nodes are numbered in the order in which they were added, the root first. -/
abbrev NodeId := Nat

/-- The root of every tree. -/
def rootId : NodeId := 0

/-- The value of an argument and the input it was read from. -/
structure ParsedArgument where
  span : Span
  value : Value
  deriving DecidableEq

/-- A node and the input that it matched. -/
structure MatchedNode where
  node : NodeId
  span : Span
  deriving DecidableEq

/-- What one hop has matched. -/
structure Frame (σ : Type) where
  source : σ
  /-- The node that the hop starts at. -/
  root : NodeId
  /-- The arguments by name, in the order in which the names were first met. -/
  arguments : List (String × ParsedArgument)
  /-- The matched nodes in order. -/
  nodes : List MatchedNode
  /-- The input covered by the matched nodes. -/
  span : Span
  /-- Whether the last node forks. -/
  forks : Bool

/-- What a handler gets to see. -/
structure Context (σ : Type) where
  input : String
  frame : Frame σ
  /-- The frames of the hops after this one. -/
  onward : List (Frame σ)

namespace Context

variable {σ : Type}

/-- The source that the command is run for. -/
def source (c : Context σ) : σ := c.frame.source

/-- The same context for another source. -/
def withSource (c : Context σ) (source : σ) : Context σ :=
  { c with frame := { c.frame with source } }

/-- The argument of a name, with the input it was read from. -/
def parsed? (c : Context σ) (name : String) : Option ParsedArgument :=
  c.frame.arguments.lookup name

/-- Whether there is an argument of that name. -/
def hasArgument (c : Context σ) (name : String) : Bool := (c.parsed? name).isSome

/-- The value of an argument, which has to exist and to be of the expected type. -/
def argument {α : Type} [Stored α] (c : Context σ) (name : String) : Except SyntaxError α :=
  match c.parsed? name with
  | none => .error (.bare (.noSuchArgument name))
  | some p =>
    match Stored.ofValue? p.value with
    | none => .error (.bare (.argumentTypeMismatch name (Stored.typeName α)))
    | some value => .ok value

end Context

/-! ## Hops and trails -/

/-- Runs a command; the result is a number. -/
abbrev Handler (σ : Type) := Context σ → Except SyntaxError Int32

/-- The sources that the hops after a redirect are run for. -/
abbrev Modifier (σ : Type) := Context σ → Except SyntaxError (List σ)

/-- A frame with the handler and the modifier that its last node brought along. -/
structure Hop (σ : Type) extends Frame σ where
  handler : Option (Handler σ)
  modifier : Option (Modifier σ)

namespace Hop

variable {σ : Type}

/-- A hop that has matched nothing yet. -/
def start (source : σ) (root : NodeId) (offset : Nat) : Hop σ where
  source
  root
  arguments := []
  nodes := []
  span := .point offset
  forks := false
  handler := none
  modifier := none

/-- Puts an argument under a name: in the place of an earlier one of that name, else last. -/
def putArgument (name : String) (p : ParsedArgument) :
    List (String × ParsedArgument) → List (String × ParsedArgument)
  | [] => [(name, p)]
  | (n, q) :: rest => if n = name then (n, p) :: rest else (n, q) :: putArgument name p rest

/-- Records an argument. -/
def withArgument (h : Hop σ) (name : String) (p : ParsedArgument) : Hop σ :=
  { h with arguments := putArgument name p h.arguments }

/-- Records a matched node, with the modifier and the fork flag it brings along. -/
def withNode (h : Hop σ) (node : NodeId) (span : Span) (modifier : Option (Modifier σ))
    (forks : Bool) : Hop σ :=
  { h with nodes := h.nodes ++ [⟨node, span⟩], span := h.span.union span, modifier, forks }

/-- The node at which the hop has arrived: the last one matched, or the one it started at. -/
def current (h : Hop σ) : NodeId := (h.nodes.getLast?.map MatchedNode.node).getD h.root

end Hop

/-- The hops of a command in order. -/
structure Trail (σ : Type) where
  first : Hop σ
  later : List (Hop σ)

namespace Trail

variable {σ : Type}

/-- A trail of one hop. -/
def single (h : Hop σ) : Trail σ := ⟨h, []⟩

/-- All hops in order. -/
def hops (t : Trail σ) : List (Hop σ) := t.first :: t.later

/-- A hop followed by a trail. -/
def cons (h : Hop σ) (t : Trail σ) : Trail σ := ⟨h, t.hops⟩

/-- The innermost hop. -/
def last (t : Trail σ) : Hop σ := t.later.getLast?.getD t.first

/-- The context of the first hop. -/
def context (t : Trail σ) (input : String) : Context σ :=
  ⟨input, t.first.toFrame, t.later.map Hop.toFrame⟩

/-- The context of the innermost hop. -/
def lastContext (t : Trail σ) (input : String) : Context σ := ⟨input, t.last.toFrame, []⟩

end Trail

/-! ## Where completion happens -/

/-- The node whose children are proposed, and where the text begins that they replace. -/
structure Anchor where
  parent : NodeId
  start : Nat
  deriving DecidableEq

namespace Anchor

/-- The anchor inside a list of matched nodes: the node that covers the offset is completed by the
children of the one before it. -/
def amongNodes (offset fallback : Nat) (previous : NodeId) : List MatchedNode → Anchor
  | [] => ⟨previous, fallback⟩
  | m :: rest =>
    if m.span.start ≤ offset ∧ offset ≤ m.span.stop then ⟨previous, m.span.start⟩
    else amongNodes offset fallback m.node rest

/-- The anchor past everything that a hop has matched: one separator after its last node. -/
def past {σ : Type} (h : Hop σ) : Anchor :=
  match h.nodes.getLast? with
  | some m => ⟨m.node, m.span.stop + 1⟩
  | none => ⟨h.root, h.span.start⟩

/-- The anchor for an offset: in the first hop that reaches it, else past the innermost hop. -/
def ofHops? {σ : Type} (offset : Nat) (h : Hop σ) : List (Hop σ) → Option Anchor
  | [] =>
    if offset < h.span.start then none
    else if h.span.stop < offset then some (past h)
    else some (amongNodes offset h.span.start h.root h.nodes)
  | next :: rest =>
    if offset < h.span.start then none
    else if h.span.stop < offset then ofHops? offset next rest
    else some (amongNodes offset h.span.start h.root h.nodes)

end Anchor

/-- Where completion at a byte offset happens; nowhere if the offset lies before the command. -/
def Trail.anchor? {σ : Type} (t : Trail σ) (offset : Nat) : Option Anchor :=
  Anchor.ofHops? offset t.first t.later

end CommandEngine
