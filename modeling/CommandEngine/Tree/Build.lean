import CommandEngine.Tree.Node

/-!
# Command trees

A `CommandTree` holds its nodes in an array; the number of a node is its place there.  Children are
reached by number, and so are the targets of redirects, which may lie anywhere.

`CommandTree.addChild` adds a node with everything below it.  A node of a name that is there already is
merged: a new handler takes the place of the old one, new children are added below, and everything
else stays as it was.  What is added is checked first, so a refusal leaves the tree as it was.
-/

namespace CommandEngine

/-- Why a node was not added. -/
inductive BuildError
  | emptyName
  | redirectWithChildren (name : String)
  | unknownTarget (name : String) (target : NodeId)
  | notALiteral (name : String)
  | rootNode
  deriving DecidableEq

namespace BuildError

/-- The wording of a refusal. -/
def message : BuildError → String
  | emptyName => "node names must not be empty"
  | redirectWithChildren name => "node '" ++ name ++ "' redirects and cannot also have children"
  | unknownTarget name target =>
    "node '" ++ name ++ "' redirects to unknown node #" ++ toString target
  | notALiteral name => "top-level command '" ++ name ++ "' must be a literal"
  | rootNode => "the root node cannot redirect"

end BuildError

/-- A tree of command nodes. -/
structure CommandTree (σ : Type) where
  nodes : Array (Node σ)

namespace CommandTree

variable {σ : Type}

/-- The tree that has only a root. -/
def empty : CommandTree σ := ⟨#[Node.root]⟩

/-- The number of nodes, the root included. -/
def size (t : CommandTree σ) : Nat := t.nodes.size

/-- Whether there is only a root. -/
def isEmpty (t : CommandTree σ) : Bool := t.size == 1

/-- The node with a number. -/
def node? (t : CommandTree σ) (id : NodeId) : Option (Node σ) := t.nodes[id]?

/-- The node with a number; a number that is not in the tree stands for a root without children. -/
def node (t : CommandTree σ) (id : NodeId) : Node σ := (t.node? id).getD .root

/-- The child of a name. -/
def child? (t : CommandTree σ) (id : NodeId) (name : String) : Option NodeId :=
  (t.node id).children.lookup name

/-- The children in the order in which they were added. -/
def children (t : CommandTree σ) (id : NodeId) : List NodeId :=
  (t.node id).children.map Prod.snd

/-- The children that match a keyword, by name. -/
def literals (t : CommandTree σ) (id : NodeId) : List (String × NodeId) :=
  (t.node id).children.filter fun (_, c) => (t.node c).isLiteral

/-- The children that match an argument, by name. -/
def arguments (t : CommandTree σ) (id : NodeId) : List (String × NodeId) :=
  (t.node id).children.filter fun (_, c) => !(t.node c).isLiteral

/-- The children that were added after their parent, which in a tree built by `addChild` are all of
them.  Recursion downwards goes along these. -/
def later (t : CommandTree σ) (id : NodeId) : List { c : NodeId // id < c ∧ c < t.size } :=
  (t.children id).filterMap fun c =>
    if h : id < c ∧ c < t.size then some ⟨c, h⟩ else none

/-! ## Adding nodes -/

/-- Checks what can be said of a node without looking at its place: its name and its redirect. -/
def checkOwn (t : CommandTree σ) (name : String) (children : List (NodeSpec σ))
    (redirect : Option (Redirect σ)) : Except BuildError Unit := do
  if name = "" then throw .emptyName
  if let some r := redirect then
    if !children.isEmpty then throw (.redirectWithChildren name)
    if (t.node? r.target).isNone then throw (.unknownTarget name r.target)

mutual

/-- Checks a node that is to be added below `parent`, and everything below it.  Without a parent the node
is below one that is itself new. -/
def check (t : CommandTree σ) (parent : Option NodeId) : NodeSpec σ → Except BuildError Unit
  | ⟨pattern, children, _, _, redirect⟩ => do
    let name := pattern.name
    t.checkOwn name children redirect
    let existing := parent.bind fun p => t.child? p name
    if let some e := existing then
      if (t.node e).redirect.isSome && !children.isEmpty then throw (.redirectWithChildren name)
    checkAll t existing children

/-- Checks several nodes below one parent. -/
def checkAll (t : CommandTree σ) (parent : Option NodeId) : List (NodeSpec σ) → Except BuildError Unit
  | [] => pure ()
  | s :: rest => do
    check t parent s
    checkAll t parent rest

end

/-- Gives an existing node the handler of a new one, if that has one. -/
def mergeHandler (t : CommandTree σ) (id : NodeId) (handler : Option (Handler σ)) : CommandTree σ :=
  ⟨t.nodes.modify id fun n => { n with handler := handler.or n.handler }⟩

/-- Adds a node without children and makes it the last child of `parent`. -/
def append (t : CommandTree σ) (parent : NodeId) (n : Node σ) : CommandTree σ :=
  ⟨(t.nodes.push n).modify parent fun p => { p with children := p.children ++ [(n.name, t.size)] }⟩

mutual

/-- Adds a node and everything below it, merging where names meet.  Gives the number of the node. -/
def insert (t : CommandTree σ) (parent : NodeId) : NodeSpec σ → NodeId × CommandTree σ
  | ⟨pattern, children, handler, requirement, redirect⟩ =>
    match t.child? parent pattern.name with
    | some existing => (existing, insertAll (t.mergeHandler existing handler) existing children)
    | none =>
      let added := t.append parent ⟨some pattern, [], handler, requirement, redirect⟩
      (t.size, insertAll added t.size children)

/-- Adds several nodes below one parent, in order. -/
def insertAll (t : CommandTree σ) (parent : NodeId) : List (NodeSpec σ) → CommandTree σ
  | [] => t
  | s :: rest => insertAll (insert t parent s).2 parent rest

end

/-- Checks a node and adds it below `parent`, a node of the tree. -/
def addChild (t : CommandTree σ) (parent : NodeId) (s : NodeSpec σ) :
    Except BuildError (NodeId × CommandTree σ) :=
  (t.check (some parent) s).map fun _ => t.insert parent s

/-- Adds a command, which is a keyword below the root. -/
def register (t : CommandTree σ) (s : NodeSpec σ) : Except BuildError (NodeId × CommandTree σ) :=
  if s.pattern.isLiteral then t.addChild rootId s else .error (.notALiteral s.name)

/-- Makes a node without children redirect. -/
def setRedirect (t : CommandTree σ) (id : NodeId) (r : Redirect σ) :
    Except BuildError (CommandTree σ) :=
  let n := t.node id
  if id = rootId then .error .rootNode
  else if (t.node? r.target).isNone then .error (.unknownTarget n.name r.target)
  else if !n.children.isEmpty then .error (.redirectWithChildren n.name)
  else .ok ⟨t.nodes.modify id fun n => { n with redirect := some r }⟩

/-! ## Paths -/

/-- Follows names downwards from a node. -/
def findFrom? (t : CommandTree σ) (id : NodeId) : List String → Option NodeId
  | [] => some id
  | name :: rest => (t.child? id name).bind fun c => t.findFrom? c rest

/-- The node at a path of names from the root. -/
def find? (t : CommandTree σ) (path : List String) : Option NodeId := t.findFrom? rootId path

/-- The nodes on the way from `id` down to `target`, the first way found. -/
def wayFrom? (t : CommandTree σ) (target id : NodeId) : Option (List NodeId) :=
  if id = target then some []
  else (t.later id).findSome? fun ⟨c, h⟩ =>
    have : t.size - c < t.size - id := Nat.sub_lt_sub_left (Nat.lt_trans h.1 h.2) h.1
    (wayFrom? t target c).map (c :: ·)
termination_by t.size - id

/-- The names on the way from the root to a node, none if there is no way. -/
def path (t : CommandTree σ) (target : NodeId) : List String :=
  ((t.wayFrom? target rootId).getD []).map fun id => (t.node id).name

end CommandTree
end CommandEngine
