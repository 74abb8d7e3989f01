import CommandEngine.Parse
import CommandEngine.Text.Inspect

/-!
# Trees and contexts for inspection

One-line forms of trees and of what a command was read as, for someone who wants to see everything that
is in them: records with named fields, lists in square brackets, maps in braces.
-/

namespace CommandEngine
namespace Inspect

/-- A record with named fields. -/
def record (name : String) (fields : List (String × String)) : String :=
  name ++ " \x7b " ++ Text.join ", " (fields.map fun (key, value) => key ++ ": " ++ value) ++ " \x7d"

/-- A record of which some fields are not shown. -/
def openRecord (name : String) (fields : List (String × String)) : String :=
  name ++ " \x7b " ++ Text.join ", " (fields.map fun (key, value) => key ++ ": " ++ value) ++ ", .. \x7d"

/-- A list. -/
def list (items : List String) : String := "[" ++ Text.join ", " items ++ "]"

/-- A set of shown members. -/
def set (items : List String) : String := "\x7b" ++ Text.join ", " items ++ "\x7d"

/-- A map from texts. -/
def map (entries : List (String × String)) : String :=
  set (entries.map fun (key, value) => Text.inspect key ++ ": " ++ value)

/-- A truth value. -/
def bool (b : Bool) : String := if b then "true" else "false"

/-- Something that may be missing. -/
def option : Option String → String
  | none => "None"
  | some s => "Some(" ++ s ++ ")"

/-- The number of a node. -/
def nodeId (id : NodeId) : String := "NodeId(" ++ toString id ++ ")"

/-- A span. -/
def span (s : Span) : String :=
  record "StringRange" [("start", toString s.start), ("end", toString s.stop)]

end Inspect

variable {σ : Type}

open Inspect

/-- What a node matches, in one word. -/
def Node.kindName (n : Node σ) : String :=
  match n.pattern with
  | none => "root"
  | some (.literal _) => "literal"
  | some (.argument ..) => "argument"

/-- A node for inspection. -/
def Node.inspect (n : Node σ) : String :=
  record "CommandNode"
    [("kind", Text.inspect n.kindName),
      ("name", Text.inspect n.name),
      ("children", map (n.children.map fun (name, c) => (name, nodeId c))),
      ("executable", bool n.handler.isSome),
      ("redirect", option (n.target?.map nodeId)),
      ("forks", bool n.forks)]

/-- A tree for inspection. -/
def CommandTree.inspect (t : CommandTree σ) : String := list (t.nodes.toList.map Node.inspect)

/-- A tree with what is around it that is not shown. -/
def CommandTree.inspectDispatcher (t : CommandTree σ) : String :=
  openRecord "CommandDispatcher" [("tree", t.inspect)]

/-- An argument for inspection; its value is not shown. -/
def ParsedArgument.inspect (p : ParsedArgument) : String :=
  openRecord "ParsedArgument" [("range", Inspect.span p.span)]

/-- A matched node for inspection. -/
def MatchedNode.inspect (m : MatchedNode) : String :=
  record "ParsedCommandNode" [("node", nodeId m.node), ("range", Inspect.span m.span)]

/-- A hop for inspection, with the hop after it already shown. -/
def Hop.inspect (source : σ → String) (input : String) (h : Hop σ) (child : Option String) : String :=
  record "CommandContext"
    [("source", source h.source),
      ("input", Text.inspect input),
      ("arguments", map (h.arguments.map fun (name, p) => (name, p.inspect))),
      ("executable", bool h.handler.isSome),
      ("root_node", nodeId h.root),
      ("nodes", list (h.nodes.map MatchedNode.inspect)),
      ("range", Inspect.span h.span),
      ("child", option child),
      ("forks", bool h.forks)]

/-- A trail for inspection, given how a source is shown. -/
def Trail.inspect (t : Trail σ) (source : σ → String) (input : String) : String :=
  let child := t.later.foldr (fun h after => some (h.inspect source input after)) none
  t.first.inspect source input child

end CommandEngine
