import CommandEngine.Proofs.Tree.Arena
import CommandEngine.Tree.Stored

/-!
# What a stored tree stands for

A stored tree stands for a command tree (`StoredTree.toTree`): its maps of keywords and of arguments are left out, and
a target, a modifier and a fork flag become one redirect.  A builder stands for a declaration in the same way
(`NodeBuilder.spec`).

Every operation on stored trees is the one on command trees: `StoredTree.check_toTree`,
`StoredTree.insert_toTree`, `StoredTree.addChild_toTree` and `StoredTree.setRedirect_toTree` say so for every stored
tree and every builder, refusals included.  Appending to the array, entering the new node in the maps of its parent
and writing the fields of a redirect one by one come to what `CommandTree.append` and `CommandTree.setRedirect` do
at once.
-/

namespace CommandEngine

variable {σ : Type}

/-! ## What stands for what -/

mutual

/-- The declaration that a builder stands for: a modifier and a fork count for something with a target only. -/
def NodeBuilder.spec : NodeBuilder σ → NodeSpec σ
  | ⟨kind, children, handler, requirement, target, modifier, forks, provider⟩ =>
    ⟨kind.settle provider, NodeBuilder.specAll children, handler, requirement,
      target.map fun target => ⟨target, modifier, forks⟩⟩

def NodeBuilder.specAll : List (NodeBuilder σ) → List (NodeSpec σ)
  | [] => []
  | b :: rest => b.spec :: NodeBuilder.specAll rest

end

/-- The node that a stored node stands for. -/
def StoredNode.toNode (n : StoredNode σ) : Node σ where
  pattern := n.kind
  children := n.children
  handler := n.handler
  requirement := n.requirement
  redirect := n.redirect.map fun target => ⟨target, n.modifier, n.forks⟩

/-- The tree that a stored tree stands for. -/
def StoredTree.toTree (a : StoredTree σ) : CommandTree σ := ⟨a.nodes.map StoredNode.toNode⟩

@[simp] lemma PendingKind.name_settle (kind : PendingKind σ) (provider : Option (Provider σ)) :
    (kind.settle provider).name = kind.name := by
  cases kind <;> rfl

@[simp] lemma PendingKind.isLiteral_settle (kind : PendingKind σ) (provider : Option (Provider σ)) :
    (kind.settle provider).isLiteral = kind.isLiteral := by
  cases kind <;> rfl

@[simp] lemma NodeBuilder.isEmpty_specAll (l : List (NodeBuilder σ)) : (specAll l).isEmpty = l.isEmpty := by
  cases l <;> rfl

@[simp] lemma StoredNode.name_toNode (n : StoredNode σ) : n.toNode.name = n.name := rfl

@[simp] lemma StoredNode.children_toNode (n : StoredNode σ) : n.toNode.children = n.children := rfl

/-- A name that is not there yet is put last. -/
lemma putChild_of_lookup_eq_none {name : String} {l : List (String × NodeId)} (h : l.lookup name = none)
    (id : NodeId) : putChild name id l = l ++ [(name, id)] := by
  induction l with
  | nil => rfl
  | cons e rest ih =>
    obtain ⟨k, c⟩ := e
    rw [List.lookup_cons] at h
    by_cases hk : name = k
    · simp [hk] at h
    · have hne : (name == k) = false := by simpa using hk
      rw [hne] at h
      rw [putChild, if_neg (Ne.symm hk), ih h, List.cons_append]

namespace StoredTree

variable {a a' : StoredTree σ}

@[simp] lemma size_toTree : a.toTree.size = a.size := by
  simp [CommandTree.size, toTree, size]

@[simp] lemma node_toTree (id : NodeId) : a.toTree.node id = (a.node id).toNode := by
  rw [CommandTree.node, CommandTree.node?, toTree, node, Array.getElem?_map]
  cases a.nodes[id]? <;> rfl

lemma isNone_node?_toTree (id : NodeId) : (a.toTree.node? id).isNone = a.nodes[id]?.isNone := by
  simp [CommandTree.node?, toTree]

lemma child?_toTree (id : NodeId) (name : String) : a.toTree.child? id name = (a.node id).child? name := by
  rw [CommandTree.child?, node_toTree]
  rfl

lemma isSome_redirect_toNode (n : StoredNode σ) : n.toNode.redirect.isSome = n.redirect.isSome :=
  Option.isSome_map

/-! ## The operations -/

lemma toTree_push (n : StoredNode σ) : (a.push n).toTree = ⟨a.toTree.nodes.push n.toNode⟩ := by
  simp [toTree, push]

lemma modify_self (t : CommandTree σ) (id : NodeId) : CommandTree.mk (t.nodes.modify id fun n => n) = t := by
  obtain ⟨nodes⟩ := t
  congr 1
  refine Array.ext_getElem? fun i => ?_
  rw [Array.getElem?_modify, Option.map_id', ite_self]

lemma update_update (id : NodeId) (f g : StoredNode σ → StoredNode σ) :
    (a.update id f).update id g = a.update id fun n => g (f n) := by
  unfold update
  congr 1
  refine Array.ext_getElem? fun i => ?_
  simp only [Array.getElem?_modify]
  split
  · exact Option.map_map _ _ _
  · rfl

/-- An update of a stored node is an update of the node it stands for. -/
lemma toTree_update (id : NodeId) {f : StoredNode σ → StoredNode σ} {g : Node σ → Node σ}
    (h : ∀ n, (f n).toNode = g n.toNode) : (a.update id f).toTree = ⟨a.toTree.nodes.modify id g⟩ := by
  rw [toTree, update, toTree]
  congr 1
  refine Array.ext_getElem? fun i => ?_
  simp only [Array.getElem?_map, Array.getElem?_modify]
  split
  · simp only [Option.map_map]
    exact congrArg (Option.map · _) (funext h)
  · rfl

/-- What is stored besides makes no difference. -/
lemma toTree_update_of_toNode (id : NodeId) {f : StoredNode σ → StoredNode σ}
    (h : ∀ n, (f n).toNode = n.toNode) : (a.update id f).toTree = a.toTree :=
  (toTree_update id (g := fun n => n) h).trans (modify_self a.toTree id)

lemma toTree_merge (id : NodeId) (handler : Option (Handler σ)) :
    (a.merge id handler).toTree = a.toTree.mergeHandler id handler := by
  cases handler with
  | none => exact (modify_self a.toTree id).symm
  | some handler => exact toTree_update id fun n => rfl

lemma toTree_enter (parent : NodeId) (kind : PendingKind σ) (id : NodeId) :
    (a.enter parent kind id).toTree =
      ⟨a.toTree.nodes.modify parent fun p => { p with children := putChild kind.name id p.children }⟩ := by
  have hchildren := toTree_update (a := a) parent
    (f := fun p => { p with children := putChild kind.name id p.children })
    (g := fun p => { p with children := putChild kind.name id p.children }) fun n => rfl
  unfold enter
  cases kind.isLiteral
  · rw [if_neg Bool.false_ne_true, ← hchildren]
    exact toTree_update_of_toNode parent fun n => rfl
  · rw [if_pos rfl, ← hchildren]
    exact toTree_update_of_toNode parent fun n => rfl

/-- A node that is appended and entered under a name that its parent does not have yet becomes its last child. -/
lemma toTree_append {parent : NodeId} {kind : PendingKind σ} {n : StoredNode σ} (hname : n.name = kind.name)
    (hchildren : n.children = []) (hfresh : (a.node parent).child? kind.name = none) :
    ((a.push n).enter parent kind a.size).toTree = a.toTree.append parent n.toNode := by
  rw [toTree_enter, toTree_push, CommandTree.append, n.name_toNode, hname, size_toTree]
  congr 1
  refine Array.ext_getElem? fun i => ?_
  simp only [Array.getElem?_modify]
  split
  · next heq =>
    subst heq
    refine Option.map_congr fun p hp => ?_
    have hnone : p.children.lookup kind.name = none := by
      rw [Array.getElem?_push] at hp
      split at hp
      · cases hp
        rw [StoredNode.toNode, hchildren]
        rfl
      · have hnode : a.toTree.node parent = p := by rw [CommandTree.node, CommandTree.node?, hp]; rfl
        rw [← hnode, node_toTree]
        exact hfresh
    rw [putChild_of_lookup_eq_none hnone]
  · rfl

lemma checkOwn_toTree (name : String) (children : List (NodeBuilder σ)) (target : Option NodeId)
    (modifier : Option (Modifier σ)) (forks : Bool) :
    a.toTree.checkOwn name (NodeBuilder.specAll children) (target.map fun target => ⟨target, modifier, forks⟩) =
      a.checkOwn name children target := by
  cases target with
  | none => rfl
  | some target =>
    simp only [CommandTree.checkOwn, checkOwn, Option.map_some, NodeBuilder.isEmpty_specAll,
      isNone_node?_toTree]

mutual

/-- A builder passes the check of the stored tree as its declaration passes that of the tree, and is refused for
the same reason. -/
theorem check_toTree : ∀ (b : NodeBuilder σ) (parent : Option NodeId),
    a.toTree.check parent b.spec = a.check parent b
  | ⟨kind, children, handler, requirement, target, modifier, forks, provider⟩, parent => by
    rw [NodeBuilder.spec, CommandTree.check, check]
    cases hchild : parent.bind fun p => (a.node p).child? kind.name with
    | none => simp only [PendingKind.name_settle, checkOwn_toTree, child?_toTree, hchild, checkAll_toTree children]
    | some existing =>
      simp only [PendingKind.name_settle, checkOwn_toTree, child?_toTree, hchild, node_toTree,
        isSome_redirect_toNode, NodeBuilder.isEmpty_specAll, checkAll_toTree children]

theorem checkAll_toTree : ∀ (l : List (NodeBuilder σ)) (parent : Option NodeId),
    a.toTree.checkAll parent (NodeBuilder.specAll l) = a.checkAll parent l
  | [], _ => rfl
  | b :: rest, parent => by
    rw [NodeBuilder.specAll, CommandTree.checkAll, checkAll]
    simp only [check_toTree b, checkAll_toTree rest]

end

mutual

/-- Inserting a builder inserts its declaration, under the same number. -/
theorem insert_toTree : ∀ (b : NodeBuilder σ) (a : StoredTree σ) (parent : NodeId),
    a.toTree.insert parent b.spec = ((a.insert parent b).1, (a.insert parent b).2.toTree)
  | ⟨kind, children, handler, requirement, target, modifier, forks, provider⟩, a, parent => by
    rw [NodeBuilder.spec, CommandTree.insert, insert, child?_toTree, PendingKind.name_settle]
    cases hchild : (a.node parent).child? kind.name with
    | some existing => simp only [← toTree_merge, insertAll_toTree children]
    | none =>
      simp only [size_toTree, StoredNode.ofKind]
      set n : StoredNode σ :=
        ⟨some (kind.settle provider), [], ∅, [], handler, requirement, target, modifier, forks⟩
      have hname : n.name = kind.name := kind.name_settle provider
      rw [← insertAll_toTree children, toTree_append hname rfl hchild]
      rfl

theorem insertAll_toTree : ∀ (l : List (NodeBuilder σ)) (a : StoredTree σ) (parent : NodeId),
    a.toTree.insertAll parent (NodeBuilder.specAll l) = (a.insertAll parent l).toTree
  | [], _, _ => rfl
  | b :: rest, a, parent => by
    rw [NodeBuilder.specAll, CommandTree.insertAll, insertAll, insert_toTree b, insertAll_toTree rest]

end

/-- Adding a builder is adding its declaration: it is refused for the same reason, and gets the same number and
the same tree if it is not. -/
theorem addChild_toTree (parent : NodeId) (b : NodeBuilder σ) :
    a.toTree.addChild parent b.spec = (a.addChild parent b).1.map fun id => (id, (a.addChild parent b).2.toTree) := by
  rw [CommandTree.addChild, addChild, check_toTree, insert_toTree]
  cases a.check (some parent) b <;> rfl

/-- A redirect is refused for the same reason, and makes the same tree if it is not. -/
theorem setRedirect_toTree (id target : NodeId) (modifier : Option (Modifier σ)) (forks : Bool) :
    a.toTree.setRedirect id ⟨target, modifier, forks⟩ =
      (a.setRedirect id target modifier forks).1.map fun _ => (a.setRedirect id target modifier forks).2.toTree := by
  have hdone : (((a.update id fun n => { n with redirect := some target }).update id
      fun n => { n with modifier }).update id fun n => { n with forks }).toTree =
      ⟨a.toTree.nodes.modify id fun n => { n with redirect := some ⟨target, modifier, forks⟩ }⟩ := by
    rw [update_update, update_update]
    exact toTree_update id fun n => rfl
  unfold CommandTree.setRedirect setRedirect
  simp only [node_toTree, StoredNode.name_toNode, StoredNode.children_toNode, isNone_node?_toTree, ← hdone]
  split
  · rfl
  · split
    · rfl
    · split <;> rfl

end StoredTree
end CommandEngine
