import CommandEngine.Tree.Build
import Mathlib.Data.List.Basic

/-!
# Trees as they are stored

A `StoredTree` is a command tree with everything that is kept of it.  A node keeps its children three times over:
all of them in the order in which they were added, the keywords among them in a hash map, and the arguments among
them in their order again.  The target of a redirect, its modifier and its fork flag are fields of their own, which
nothing in the type ties together.

A node that is still to be added is a `NodeBuilder`, and a `Recipe` says how it was put together: a builder is
begun as a keyword or an argument, and then things are attached to it one at a time.

`StoredTree.addChild` and `StoredTree.setRedirect` give the tree they leave behind along with the answer, whether
that is a refusal or not.  Nodes are appended to the array, and the maps of their parents are updated, one step
after another.
-/

namespace CommandEngine

/-! ## Nodes -/

/-- Puts a number under a name: in the place of an earlier one of that name, else last. -/
def putChild (name : String) (id : NodeId) : List (String × NodeId) → List (String × NodeId)
  | [] => [(name, id)]
  | (k, c) :: rest => if k = name then (k, id) :: rest else (k, c) :: putChild name id rest

/-- A node as it is stored. -/
structure StoredNode (σ : Type) where
  /-- What the node matches; the root matches nothing. -/
  kind : Option (Pattern σ)
  children : List (String × NodeId)
  literals : Std.HashMap String NodeId
  arguments : List (String × NodeId)
  handler : Option (Handler σ)
  requirement : Option (σ → Bool)
  redirect : Option NodeId
  modifier : Option (Modifier σ)
  forks : Bool

namespace StoredNode

variable {σ : Type}

/-- A node without children and without anything attached. -/
def ofKind (kind : Option (Pattern σ)) : StoredNode σ where
  kind
  children := []
  literals := ∅
  arguments := []
  handler := none
  requirement := none
  redirect := none
  modifier := none
  forks := false

/-- A root without children. -/
def root : StoredNode σ := ofKind none

/-- The name of a node, empty for the root. -/
def name (n : StoredNode σ) : String := (n.kind.map Pattern.name).getD ""

/-- The child of a name. -/
def child? (n : StoredNode σ) (name : String) : Option NodeId := n.children.lookup name

end StoredNode

/-! ## Builders -/

/-- What a node that is still to be added will match; the provider of an argument is not settled yet. -/
inductive PendingKind (σ : Type)
  | literal (keyword : String)
  | argument (name : String) (type : ArgumentType σ)

namespace PendingKind

variable {σ : Type}

/-- The keyword, or the name of the argument. -/
def name : PendingKind σ → String
  | literal keyword => keyword
  | argument name _ => name

/-- Whether the node will be a keyword. -/
def isLiteral : PendingKind σ → Bool
  | literal _ => true
  | argument .. => false

/-- What the node will match; a keyword has no use for a provider. -/
def settle (provider : Option (Provider σ)) : PendingKind σ → Pattern σ
  | literal keyword => .literal keyword
  | argument name type => .argument name type provider

end PendingKind

/-- A node that is still to be added to a tree, with everything below it. -/
structure NodeBuilder (σ : Type) where
  kind : PendingKind σ
  children : List (NodeBuilder σ)
  handler : Option (Handler σ)
  requirement : Option (σ → Bool)
  target : Option NodeId
  modifier : Option (Modifier σ)
  forks : Bool
  provider : Option (Provider σ)

/-- A builder to which nothing has been attached yet. -/
def NodeBuilder.begin {σ : Type} (kind : PendingKind σ) : NodeBuilder σ where
  kind
  children := []
  handler := none
  requirement := none
  target := none
  modifier := none
  forks := false
  provider := none

/-- How a builder is put together. -/
inductive Recipe (σ : Type)
  /-- A keyword. -/
  | literal (keyword : String)
  /-- An argument. -/
  | argument (name : String) (type : ArgumentType σ)
  /-- Another node below. -/
  | followedBy (r child : Recipe σ)
  /-- A handler. -/
  | executes (r : Recipe σ) (handler : Handler σ)
  /-- A requirement on the source. -/
  | requires (r : Recipe σ) (requirement : σ → Bool)
  /-- A redirect; without a modifier the source is kept. -/
  | forward (r : Recipe σ) (target : NodeId) (modifier : Option (Modifier σ)) (forks : Bool)
  /-- A provider of suggestions. -/
  | suggests (r : Recipe σ) (provider : Provider σ)

/-- The builder that a recipe makes. -/
def Recipe.build {σ : Type} : Recipe σ → NodeBuilder σ
  | literal keyword => .begin (.literal keyword)
  | argument name type => .begin (.argument name type)
  | followedBy r child => { r.build with children := r.build.children ++ [child.build] }
  | executes r handler => { r.build with handler := some handler }
  | requires r requirement => { r.build with requirement := some requirement }
  | forward r target modifier forks => { r.build with target := some target, modifier, forks }
  | suggests r provider => { r.build with provider := some provider }

/-! ## Trees -/

/-- A tree of stored nodes. -/
structure StoredTree (σ : Type) where
  nodes : Array (StoredNode σ)

namespace StoredTree

variable {σ : Type}

/-- The tree that has only a root. -/
def empty : StoredTree σ := ⟨#[.root]⟩

/-- The number of nodes, the root included. -/
def size (a : StoredTree σ) : Nat := a.nodes.size

/-- The node with a number; a number that is not in the tree stands for a root without children. -/
def node (a : StoredTree σ) (id : NodeId) : StoredNode σ := a.nodes[id]?.getD .root

/-- Appends a node. -/
def push (a : StoredTree σ) (n : StoredNode σ) : StoredTree σ := ⟨a.nodes.push n⟩

/-- Changes one node in its place. -/
def update (a : StoredTree σ) (id : NodeId) (f : StoredNode σ → StoredNode σ) : StoredTree σ :=
  ⟨a.nodes.modify id f⟩

/-- Checks what can be said of a builder without looking at its place: its name and its redirect. -/
def checkOwn (a : StoredTree σ) (name : String) (children : List (NodeBuilder σ)) (target : Option NodeId) :
    Except BuildError Unit := do
  if name = "" then throw .emptyName
  if let some target := target then
    if !children.isEmpty then throw (.redirectWithChildren name)
    if a.nodes[target]?.isNone then throw (.unknownTarget name target)

mutual

/-- Checks a builder that is to become a node below `parent`, and everything below it.  Without a parent the node
is below one that is itself new. -/
def check (a : StoredTree σ) (parent : Option NodeId) : NodeBuilder σ → Except BuildError Unit
  | ⟨kind, children, _, _, target, _, _, _⟩ => do
    let name := kind.name
    a.checkOwn name children target
    let existing := parent.bind fun p => (a.node p).child? name
    if let some e := existing then
      if (a.node e).redirect.isSome && !children.isEmpty then throw (.redirectWithChildren name)
    checkAll a existing children

/-- Checks several builders below one parent. -/
def checkAll (a : StoredTree σ) (parent : Option NodeId) : List (NodeBuilder σ) → Except BuildError Unit
  | [] => pure ()
  | b :: rest => do
    check a parent b
    checkAll a parent rest

end

/-- Gives an existing node the handler of a new one, if that has one. -/
def merge (a : StoredTree σ) (id : NodeId) (handler : Option (Handler σ)) : StoredTree σ :=
  if handler.isSome then a.update id fun n => { n with handler } else a

/-- Enters a node in the maps of its parent: among all children, and among those of its kind. -/
def enter (a : StoredTree σ) (parent : NodeId) (kind : PendingKind σ) (id : NodeId) : StoredTree σ :=
  let a := a.update parent fun p => { p with children := putChild kind.name id p.children }
  if kind.isLiteral then a.update parent fun p => { p with literals := p.literals.insert kind.name id }
  else a.update parent fun p => { p with arguments := putChild kind.name id p.arguments }

mutual

/-- Makes a builder a node and everything below it as well, merging where names meet.  Gives the number of the
node. -/
def insert (a : StoredTree σ) (parent : NodeId) : NodeBuilder σ → NodeId × StoredTree σ
  | ⟨kind, children, handler, requirement, target, modifier, forks, provider⟩ =>
    match (a.node parent).child? kind.name with
    | some existing => (existing, insertAll (a.merge existing handler) existing children)
    | none =>
      let id := a.size
      let bare := StoredNode.ofKind (some (kind.settle provider))
      let added := a.push { bare with handler, requirement, redirect := target, modifier, forks }
      (id, insertAll (added.enter parent kind id) id children)

/-- Inserts several builders below one parent, in order. -/
def insertAll (a : StoredTree σ) (parent : NodeId) : List (NodeBuilder σ) → StoredTree σ
  | [] => a
  | b :: rest => insertAll (insert a parent b).2 parent rest

end

/-- Checks a builder and inserts it below `parent`. -/
def addChild (a : StoredTree σ) (parent : NodeId) (b : NodeBuilder σ) :
    Except BuildError NodeId × StoredTree σ :=
  match a.check (some parent) b with
  | .error e => (.error e, a)
  | .ok () =>
    let (id, grown) := a.insert parent b
    (.ok id, grown)

/-- Makes a node without children redirect. -/
def setRedirect (a : StoredTree σ) (id target : NodeId) (modifier : Option (Modifier σ)) (forks : Bool) :
    Except BuildError Unit × StoredTree σ :=
  if id = rootId then (.error .rootNode, a)
  else
    let name := (a.node id).name
    if a.nodes[target]?.isNone then (.error (.unknownTarget name target), a)
    else if !(a.node id).children.isEmpty then (.error (.redirectWithChildren name), a)
    else
      let a := a.update id fun n => { n with redirect := some target }
      let a := a.update id fun n => { n with modifier }
      (.ok (), a.update id fun n => { n with forks })

end StoredTree
end CommandEngine
