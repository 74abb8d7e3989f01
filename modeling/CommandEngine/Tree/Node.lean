import CommandEngine.Argument.Type

/-!
# Nodes

A node of a command tree matches a keyword or an argument; only the root matches nothing.  A node may
carry a handler, a requirement on the source, and a redirect to another node.
-/

namespace CommandEngine

/-- What a node matches. -/
inductive Pattern (σ : Type)
  /-- A fixed keyword. -/
  | literal (keyword : String)
  /-- An argument, with a provider of suggestions that takes the place of the type's own. -/
  | argument (name : String) (type : ArgumentType σ) (provider : Option (Provider σ))

namespace Pattern

variable {σ : Type}

/-- The keyword, or the name of the argument. -/
def name : Pattern σ → String
  | literal keyword => keyword
  | argument name .. => name

/-- Whether the pattern is a keyword. -/
def isLiteral : Pattern σ → Bool
  | literal _ => true
  | argument .. => false

/-- How the pattern appears in a usage line. -/
def usage : Pattern σ → String
  | literal keyword => keyword
  | argument name .. => "<" ++ name ++ ">"

/-- Inputs that the pattern matches. -/
def examples : Pattern σ → List String
  | literal keyword => [keyword]
  | argument _ type _ => type.examples

/-- Whether a whole input, up to its end or a separator, is matched. -/
def accepts : Pattern σ → String → Bool
  | literal keyword, input => Reader.accepts (Scan.keyword keyword) input
  | argument _ type _, input => type.accepts input

/-- What the pattern suggests: a keyword suggests itself if it begins with what has been typed. -/
def suggest : Pattern σ → Provider σ
  | literal keyword => Provider.matching [keyword]
  | argument _ _ (some provider) => provider
  | argument _ type none => type.provider

end Pattern

/-- Where the command goes on after a node. -/
structure Redirect (σ : Type) where
  target : NodeId
  /-- Chooses the sources that the rest of the command is run for; without it the source is kept. -/
  modifier : Option (Modifier σ)
  /-- Whether failures concern only the source they happen for. -/
  forks : Bool

/-- A node of a command tree. -/
structure Node (σ : Type) where
  /-- What the node matches; the root matches nothing. -/
  pattern : Option (Pattern σ)
  /-- The children by name, in the order in which they were added. -/
  children : List (String × NodeId)
  handler : Option (Handler σ)
  requirement : Option (σ → Bool)
  redirect : Option (Redirect σ)

namespace Node

variable {σ : Type}

/-- A root without children. -/
def root : Node σ := ⟨none, [], none, none, none⟩

/-- The name of a node, empty for the root. -/
def name (n : Node σ) : String := (n.pattern.map Pattern.name).getD ""

/-- How a node appears in a usage line. -/
def usage (n : Node σ) : String := (n.pattern.map Pattern.usage).getD ""

/-- Whether a node matches a keyword. -/
def isLiteral (n : Node σ) : Bool := (n.pattern.map Pattern.isLiteral).getD false

/-- Inputs that a node matches. -/
def examples (n : Node σ) : List String := (n.pattern.map Pattern.examples).getD []

/-- Whether a whole input, up to its end or a separator, is matched. -/
def accepts (n : Node σ) (input : String) : Bool :=
  (n.pattern.map fun p => p.accepts input).getD false

/-- Whether a source may use the node. -/
def canUse (n : Node σ) (source : σ) : Bool :=
  match n.requirement with
  | none => true
  | some requirement => requirement source

/-- The target of the redirect. -/
def target? (n : Node σ) : Option NodeId := n.redirect.map Redirect.target

/-- The modifier of the redirect. -/
def modifier? (n : Node σ) : Option (Modifier σ) := n.redirect.bind Redirect.modifier

/-- Whether the node forks. -/
def forks (n : Node σ) : Bool := (n.redirect.map Redirect.forks).getD false

end Node

/-- A node that is still to be added to a tree, with everything below it. -/
structure NodeSpec (σ : Type) where
  pattern : Pattern σ
  children : List (NodeSpec σ)
  handler : Option (Handler σ)
  requirement : Option (σ → Bool)
  redirect : Option (Redirect σ)

namespace NodeSpec

variable {σ : Type}

/-- A node without anything attached. -/
def ofPattern (pattern : Pattern σ) : NodeSpec σ := ⟨pattern, [], none, none, none⟩

/-- The name of the node. -/
def name (s : NodeSpec σ) : String := s.pattern.name

/-- The node itself, without what is below it. -/
def toNode (s : NodeSpec σ) : Node σ :=
  ⟨some s.pattern, [], s.handler, s.requirement, s.redirect⟩

end NodeSpec
end CommandEngine
