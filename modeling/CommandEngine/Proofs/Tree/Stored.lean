import CommandEngine.Proofs.Tree.Agreement

/-!
# The nodes of a stored tree that can come about

A stored tree comes about by a sequence of `Request`s, some of which may be refused; every one of them leaves a tree
behind.  `StoredTree.sound_run` says what can be relied on after any of them, map by map and field by field.

What concerns the shape is known of command trees.  It is carried over along `Request.toTree_perform`: a request
does to the tree that a stored one stands for what a `Change` does.
-/

namespace CommandEngine

variable {σ : Type}

namespace StoredTree

variable {a a' : StoredTree σ}

/-! ## What can be relied on -/

/-- Follows names downwards from a node. -/
def findFrom? (a : StoredTree σ) (id : NodeId) : List String → Option NodeId
  | [] => some id
  | name :: rest => ((a.node id).child? name).bind fun c => a.findFrom? c rest

lemma findFrom?_toTree (id : NodeId) (path : List String) : a.toTree.findFrom? id path = a.findFrom? id path := by
  induction path generalizing id with
  | nil => rfl
  | cons name rest ih => simp only [CommandTree.findFrom?, findFrom?, child?_toTree, ih]

/-- What can be relied on when a stored tree is read. -/
structure Sound (a : StoredTree σ) : Prop where
  /-- There is a root, and no other node matches nothing. -/
  root_lt : rootId < a.size
  root_iff : ∀ id < a.size, (a.node id).kind = none ↔ id = rootId
  root_redirect : (a.node rootId).redirect = none
  root_orphan : ∀ parent name, (name, rootId) ∉ (a.node parent).children
  /-- Every other node is a child of one node, once, and comes after it. -/
  parent : ∀ id < a.size, id ≠ rootId → ∃ parent < id,
    ((a.node parent).children.map Prod.snd).count id = 1 ∧
      ∀ other, id ∈ (a.node other).children.map Prod.snd → other = parent
  child_lt : ∀ id, ∀ e ∈ (a.node id).children, e.2 < a.size
  /-- So one path leads to every node. -/
  path : ∀ id < a.size, ∃! path, a.findFrom? rootId path = some id
  /-- Children are kept under their own names. -/
  keys : ∀ id, ((a.node id).children.map Prod.fst).Nodup
  named : ∀ id, ∀ e ∈ (a.node id).children, e.1 = (a.node e.2).name ∧ e.1 ≠ ""
  /-- The maps of keywords and of arguments share the children out between them. -/
  disjoint : ∀ id name, name ∈ (a.node id).literals → name ∉ (a.node id).arguments.map Prod.fst
  union : ∀ (id : NodeId) (name : String) (c : NodeId), (name, c) ∈ (a.node id).children ↔
    (a.node id).literals[name]? = some c ∨ (name, c) ∈ (a.node id).arguments
  literal : ∀ (id : NodeId) (name : String) (c : NodeId), (a.node id).literals[name]? = some c →
    ∃ keyword, (a.node c).kind = some (.literal keyword)
  argument : ∀ id, ∀ e ∈ (a.node id).arguments, ∃ name type provider,
    (a.node e.2).kind = some (.argument name type provider)
  ordered : ∀ id, (a.node id).arguments.Sublist (a.node id).children
  /-- Redirects lead to nodes, and a modifier or a fork comes with one. -/
  target : ∀ id, ∀ target ∈ (a.node id).redirect, target < a.size
  attached : ∀ id, (a.node id).modifier.isSome ∨ (a.node id).forks = true → (a.node id).redirect.isSome

/-- A tree with nodes and handlers added to it: a node that was there has its number and its kind, and its
children in their order, before any new ones, in all three maps. -/
structure Keeps (a a' : StoredTree σ) : Prop where
  size_le : a.size ≤ a'.size
  kind : ∀ id < a.size, (a'.node id).kind = (a.node id).kind
  children : ∀ id < a.size, (a.node id).children <+: (a'.node id).children
  literals : ∀ (id : NodeId) (name : String) (c : NodeId),
    (a.node id).literals[name]? = some c → (a'.node id).literals[name]? = some c
  arguments : ∀ id, (a.node id).arguments <+: (a'.node id).arguments

/-- A keyword is found under a name if it is a child of that name. -/
lemma Agrees.literal_iff (h : a.Agrees) (ht : a.toTree.WellShaped) {id c : NodeId} {name : String} :
    (a.node id).literals[name]? = some c ↔ (name, c) ∈ a.toTree.literals id := by
  rw [h.literals, List.lookup_eq_some_iff]
  constructor
  · rintro ⟨before, after, heq, -⟩
    simp [heq]
  · intro hmem
    obtain ⟨before, after, heq⟩ := List.append_of_mem hmem
    refine ⟨before, after, heq, fun e he => ?_⟩
    have hnodup : ((a.toTree.literals id).map Prod.fst).Nodup :=
      (ht.distinct id).sublist (List.filter_sublist.map Prod.fst)
    rw [heq, List.map_append, List.map_cons, List.nodup_append] at hnodup
    have hne := hnodup.2.2 e.1 (List.mem_map_of_mem he) name (List.mem_cons_self ..)
    simpa [bne_iff_ne] using hne.symm

/-- What can be relied on of the tree that it stands for can be relied on of a stored tree that agrees with it. -/
theorem Agrees.sound (h : a.Agrees) (ht : a.toTree.WellShaped) (hs : a.toTree.Sound) : a.Sound where
  root_lt := size_toTree ▸ hs.root_lt
  root_iff := fun id hid => by
    have hroot := hs.root_iff id (size_toTree.symm ▸ hid)
    rwa [node_toTree] at hroot
  root_redirect := by
    have hroot := hs.root_redirect
    rw [node_toTree] at hroot
    exact Option.map_eq_none_iff.1 hroot
  root_orphan := fun parent name hmem => by
    refine hs.root_orphan parent ?_
    rw [CommandTree.children, node_toTree]
    exact List.mem_map.2 ⟨_, hmem, rfl⟩
  parent := fun id hid hne => by
    have hparent := hs.parent id (size_toTree.symm ▸ hid) hne
    simpa only [CommandTree.children, node_toTree, StoredNode.children_toNode] using hparent
  child_lt := fun id e he => by
    have hlt := hs.child_lt id e.2
    rw [CommandTree.children, node_toTree, size_toTree] at hlt
    exact hlt (List.mem_map.2 ⟨e, he, rfl⟩)
  path := fun id hid => by
    have hpath := hs.path id (size_toTree.symm ▸ hid)
    simpa only [CommandTree.find?, findFrom?_toTree] using hpath
  keys := fun id => by
    have hkeys := hs.keys id
    rwa [node_toTree] at hkeys
  named := fun id e he => by
    have hnamed := hs.named id e
    rw [node_toTree, node_toTree] at hnamed
    exact hnamed he
  disjoint := fun id name hliteral => by
    obtain ⟨c, hc⟩ := Option.isSome_iff_exists.1 (Std.HashMap.isSome_getElem?_iff_mem.2 hliteral)
    rw [h.literal_iff ht] at hc
    rw [h.arguments]
    exact hs.disjoint id (List.mem_map.2 ⟨_, hc, rfl⟩)
  union := fun id name c => by
    have hunion := (hs.union id).mem_iff (a := (name, c))
    rw [node_toTree] at hunion
    rw [h.literal_iff ht, h.arguments, ← List.mem_append]
    exact hunion.symm
  literal := fun id name c hc => by
    have hliteral := hs.literal id (name, c) ((h.literal_iff ht).1 hc)
    rwa [node_toTree] at hliteral
  argument := fun id e he => by
    have hargument := hs.argument id e (h.arguments id ▸ he)
    rwa [node_toTree] at hargument
  ordered := fun id => by
    have hordered := hs.ordered id
    rwa [node_toTree, ← h.arguments] at hordered
  target := fun id target htarget => by
    have hlt := hs.target id ⟨target, (a.node id).modifier, (a.node id).forks⟩
    rw [node_toTree, size_toTree] at hlt
    exact hlt (Option.mem_map_of_mem _ htarget)
  attached := h.attached

/-- What is kept of the tree that it stands for is kept of a stored tree. -/
lemma Agrees.keeps (h : a.Agrees) (h' : a'.Agrees) (ht : a.toTree.WellShaped) (ht' : a'.toTree.WellShaped)
    (hkeeps : a.toTree.Keeps a'.toTree) : a.Keeps a' where
  size_le := by
    have hsize := hkeeps.size_le
    rwa [size_toTree, size_toTree] at hsize
  kind := fun id hid => by
    obtain ⟨handler, added, hnode⟩ := hkeeps.node id (size_toTree.symm ▸ hid)
    rw [node_toTree, node_toTree] at hnode
    exact congrArg Node.pattern hnode
  children := fun id hid => by
    obtain ⟨handler, added, hnode⟩ := hkeeps.node id (size_toTree.symm ▸ hid)
    rw [node_toTree, node_toTree] at hnode
    exact ⟨added, (congrArg Node.children hnode).symm⟩
  literals := fun id name c hc => by
    rw [h.literal_iff ht] at hc
    rw [h'.literal_iff ht']
    exact (hkeeps.literals id).mem hc
  arguments := fun id => by
    rw [h.arguments, h'.arguments]
    exact hkeeps.arguments id

end StoredTree

/-! ## Requests -/

/-- A change that is asked of a stored tree. -/
inductive Request (σ : Type)
  | addChild (parent : NodeId) (r : Recipe σ)
  | setRedirect (id target : NodeId) (modifier : Option (Modifier σ)) (forks : Bool)

namespace Request

/-- The node that a request is about. -/
def subject : Request σ → NodeId
  | addChild parent _ => parent
  | setRedirect id .. => id

/-- Whether a request is refused and why, and the tree that it leaves behind. -/
def perform (a : StoredTree σ) : Request σ → Except BuildError Unit × StoredTree σ
  | addChild parent r => ((a.addChild parent r.build).1.map fun _ => (), (a.addChild parent r.build).2)
  | setRedirect id target modifier forks => a.setRedirect id target modifier forks

/-- The change of a tree that a request stands for. -/
def change : Request σ → Change σ
  | addChild parent r => .addChild parent r.build.spec
  | setRedirect id target modifier forks => .setRedirect id ⟨target, modifier, forks⟩

lemma subject_change (q : Request σ) : q.change.subject = q.subject := by
  cases q <;> rfl

lemma perform_of_error {a : StoredTree σ} {q : Request σ} {e : BuildError} (h : (q.perform a).1 = .error e) :
    (q.perform a).2 = a := by
  cases q with
  | addChild parent r =>
    cases hanswer : (a.addChild parent r.build).1 with
    | error e' => exact StoredTree.addChild_of_error hanswer
    | ok id =>
      rw [perform, hanswer] at h
      cases h
  | setRedirect id target modifier forks => exact StoredTree.setRedirect_of_error h

/-- A request changes a stored tree the way that its change changes the tree it stands for. -/
theorem toTree_perform (a : StoredTree σ) (q : Request σ) : (q.perform a).2.toTree = a.toTree.after q.change := by
  cases q with
  | addChild parent r =>
    have hadd := StoredTree.addChild_toTree (a := a) parent r.build
    cases hanswer : (a.addChild parent r.build).1 with
    | error e =>
      rw [hanswer] at hadd
      rw [CommandTree.after_of_error (e := e) (by rw [change, Change.perform, hadd]; rfl)]
      exact congrArg _ (StoredTree.addChild_of_error hanswer)
    | ok id =>
      rw [hanswer] at hadd
      exact (CommandTree.after_of_ok (by rw [change, Change.perform, hadd]; rfl)).symm
  | setRedirect id target modifier forks =>
    have hset := StoredTree.setRedirect_toTree (a := a) id target modifier forks
    cases hanswer : (a.setRedirect id target modifier forks).1 with
    | error e =>
      rw [hanswer] at hset
      rw [CommandTree.after_of_error (e := e) (by rw [change, Change.perform, hset]; rfl)]
      exact congrArg _ (StoredTree.setRedirect_of_error hanswer)
    | ok _ =>
      rw [hanswer] at hset
      exact (CommandTree.after_of_ok (by rw [change, Change.perform, hset]; rfl)).symm

end Request

namespace StoredTree

variable {a : StoredTree σ} {requests : List (Request σ)}

/-- The tree that requests leave behind when they are made in order. -/
def run (a : StoredTree σ) (requests : List (Request σ)) : StoredTree σ :=
  requests.foldl (fun a q => (q.perform a).2) a

/-- Every request is about a node that exists by then. -/
def Serves : StoredTree σ → List (Request σ) → Prop
  | _, [] => True
  | a, q :: rest => q.subject < a.size ∧ Serves (q.perform a).2 rest

lemma Agrees.perform (h : a.Agrees) (ht : a.toTree.WellShaped) {q : Request σ} (hq : q.subject < a.size) :
    (q.perform a).2.Agrees := by
  cases q with
  | addChild parent r => exact h.addChild ht hq r.attached_build
  | setRedirect id target modifier forks => exact h.setRedirect hq target modifier forks

/-- What one request keeps, all requests keep: the tree that the stored one stands for can come about, and what is
stored agrees with it. -/
theorem agrees_run (h : a.Agrees) (ht : a.toTree.Reachable) (hserves : a.Serves requests) :
    (a.run requests).Agrees ∧ (a.run requests).toTree.Reachable := by
  induction requests generalizing a with
  | nil => exact ⟨h, ht⟩
  | cons q rest ih =>
    refine ih (h.perform ht.wellShaped hserves.1) ?_ hserves.2
    rw [Request.toTree_perform]
    refine ht.after ?_
    rw [q.subject_change, size_toTree]
    exact hserves.1

lemma toTree_empty : (empty : StoredTree σ).toTree = .empty := by
  simp [toTree, empty, CommandTree.empty, StoredNode.root, StoredNode.ofKind, StoredNode.toNode, Node.root]

/-- Whatever is asked of an empty tree, accepted or refused, its nodes can be relied on: the maps of children,
keywords and arguments agree, child edges form a tree, and redirects lead to nodes.  A request that is refused
leaves the tree behind as it found it, and a node that is added leaves all others in their places, with their
children in order. -/
theorem sound_run (hserves : (empty : StoredTree σ).Serves requests) :
    ((empty : StoredTree σ).run requests).Sound ∧
      (∀ (q : Request σ) e, (q.perform (empty.run requests)).1 = .error e →
        (q.perform (empty.run requests)).2 = empty.run requests) ∧
      ∀ parent (r : Recipe σ) id, parent < (empty.run requests).size →
        ((empty.run requests).addChild parent r.build).1 = .ok id →
          (empty.run requests).Keeps ((empty.run requests).addChild parent r.build).2 := by
  obtain ⟨hagrees, hreachable⟩ := agrees_run agrees_empty (toTree_empty ▸ .empty) hserves
  have hshaped := hreachable.wellShaped
  refine ⟨hagrees.sound hshaped hreachable.sound, fun q e => Request.perform_of_error,
    fun parent r id hparent hid => ?_⟩
  have hadded := addChild_toTree (a := empty.run requests) parent r.build
  rw [hid] at hadded
  have hparent' := size_toTree.symm ▸ hparent
  have hafter := CommandTree.Reachable.addChild hreachable hparent' hadded
  exact hagrees.keeps (hagrees.addChild hshaped hparent r.attached_build) hshaped hafter.wellShaped
    (hreachable.keeps_addChild hparent' hadded)

/-- Requests of every kind: a command with an argument, the same command with a keyword of the argument's name
and a forking keyword, a redirect that is refused because it is the root's, and one of a node without children. -/
def sampleRequests : List (Request Unit) :=
  [.addChild rootId (.followedBy (.literal "give") (.argument "count" (.integer .full))),
    .addChild rootId (.followedBy (.followedBy (.literal "give") (.literal "count"))
      (.forward (.literal "all") rootId none true)),
    .setRedirect rootId 1 none false,
    .setRedirect 2 rootId none true]

theorem sound_run_sampleRequests :
    (empty : StoredTree Unit).Serves sampleRequests ∧ ((empty : StoredTree Unit).run sampleRequests).size = 4 ∧
      ((empty : StoredTree Unit).run sampleRequests).Sound := by
  have hserves : (empty : StoredTree Unit).Serves sampleRequests :=
    ⟨by decide, by decide, by decide, by decide, trivial⟩
  exact ⟨hserves, by decide, (sound_run hserves).1⟩

end StoredTree
end CommandEngine
