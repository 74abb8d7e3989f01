import CommandEngine.Proofs.Tree.Refinement

/-!
# The maps of a stored tree agree

A command tree has the keywords and the arguments of a node by looking at its children one by one.  A stored tree
looks them up in maps of their own, which nothing but the order of updates keeps in step with the children.
`StoredTree.Agrees` says that the maps give the same answers, and that no modifier and no fork is stored without a
redirect.

It holds of the empty tree, and every step of an insertion keeps it: a node that is there already gets a handler
(`StoredTree.Agrees.merge`), and a node that is new is entered in the map of its kind
(`StoredTree.Agrees.append`).  The tree has to be well shaped for that, since the children that a node has by then
must not change their kinds.  Modifiers and forks come from builders, where `Recipe.attached_build` accounts for
them.
-/

namespace CommandEngine

variable {σ : Type}

/-! ## What builders bring along -/

/-- A modifier or a fork comes with a redirect. -/
def StoredNode.Attached (n : StoredNode σ) : Prop :=
  n.modifier.isSome ∨ n.forks = true → n.redirect.isSome

mutual

/-- In a builder and everything below it, a modifier or a fork comes with a target. -/
def NodeBuilder.Attached : NodeBuilder σ → Prop
  | ⟨_, children, _, _, target, modifier, forks, _⟩ =>
    (modifier.isSome ∨ forks = true → target.isSome) ∧ NodeBuilder.AttachedAll children

def NodeBuilder.AttachedAll : List (NodeBuilder σ) → Prop
  | [] => True
  | b :: rest => b.Attached ∧ NodeBuilder.AttachedAll rest

end

lemma NodeBuilder.attached_iff {b : NodeBuilder σ} :
    b.Attached ↔ (b.modifier.isSome ∨ b.forks = true → b.target.isSome) ∧ AttachedAll b.children := by
  cases b
  rfl

lemma NodeBuilder.attachedAll_append {l m : List (NodeBuilder σ)} :
    AttachedAll (l ++ m) ↔ AttachedAll l ∧ AttachedAll m := by
  induction l with
  | nil => simp [AttachedAll]
  | cons b rest ih => simp [AttachedAll, ih, and_assoc]

/-- Target, modifier and fork are attached together, so none of the last two is without the first. -/
theorem Recipe.attached_build (r : Recipe σ) : r.build.Attached := by
  induction r with
  | literal keyword => exact ⟨by simp, trivial⟩
  | argument name type => exact ⟨by simp, trivial⟩
  | followedBy r child ih ihChild =>
    rw [NodeBuilder.attached_iff] at ih ⊢
    exact ⟨ih.1, NodeBuilder.attachedAll_append.2 ⟨ih.2, ihChild, trivial⟩⟩
  | forward r target modifier forks ih =>
    rw [NodeBuilder.attached_iff] at ih ⊢
    exact ⟨fun _ => rfl, ih.2⟩
  | executes r handler ih =>
    rw [NodeBuilder.attached_iff] at ih ⊢
    exact ih
  | requires r requirement ih =>
    rw [NodeBuilder.attached_iff] at ih ⊢
    exact ih
  | suggests r provider ih =>
    rw [NodeBuilder.attached_iff] at ih ⊢
    exact ih

/-- The maps of a node in which another one is entered. -/
def StoredNode.entering (n : StoredNode σ) (kind : PendingKind σ) (id : NodeId) : StoredNode σ :=
  { n with
    children := putChild kind.name id n.children
    literals := if kind.isLiteral then n.literals.insert kind.name id else n.literals
    arguments := if kind.isLiteral then n.arguments else putChild kind.name id n.arguments }

namespace StoredTree

variable {a a' : StoredTree σ}

/-! ## Nodes after an update -/

lemma node_of_size_le {id : NodeId} (h : a.size ≤ id) : a.node id = .root := by
  have hnone : a.nodes[id]? = none := Array.getElem?_eq_none h
  simp [node, hnone]

lemma node_push (n : StoredNode σ) (id : NodeId) :
    (a.push n).node id = if id = a.size then n else a.node id := by
  by_cases hid : id = a.nodes.size
  · simp [node, push, size, hid]
  · simp [node, push, size, hid, Array.getElem?_push]

lemma node_update {i : NodeId} (hi : i < a.size) (f : StoredNode σ → StoredNode σ) (id : NodeId) :
    (a.update i f).node id = if i = id then f (a.node id) else a.node id := by
  simp only [node, update, Array.getElem?_modify]
  split
  · next heq =>
    subst heq
    simp [Array.getElem?_eq_getElem hi]
  · rfl

@[simp] lemma size_push (n : StoredNode σ) : (a.push n).size = a.size + 1 := by
  simp [push, size]

@[simp] lemma size_update (i : NodeId) (f : StoredNode σ → StoredNode σ) : (a.update i f).size = a.size := by
  simp [update, size]

lemma enter_eq (parent : NodeId) (kind : PendingKind σ) (id : NodeId) :
    a.enter parent kind id = a.update parent fun n => n.entering kind id := by
  unfold enter StoredNode.entering
  cases kind.isLiteral
  · exact update_update parent _ _
  · exact update_update parent _ _

/-- A node that is appended and entered at its parent; nothing else changes. -/
lemma node_enter_push {parent : NodeId} (hparent : parent < a.size) (n : StoredNode σ) (kind : PendingKind σ)
    (id : NodeId) :
    ((a.push n).enter parent kind a.size).node id =
      if id = a.size then n else if parent = id then (a.node id).entering kind a.size else a.node id := by
  have hlt : parent < (a.push n).size := by
    rw [size_push]
    exact Nat.lt_succ_of_lt hparent
  rw [enter_eq, node_update hlt, node_push]
  by_cases hid : id = a.size
  · have hne : parent ≠ id := hid ▸ Nat.ne_of_lt hparent
    rw [if_neg hne, if_pos hid, if_pos hid]
  · rw [if_neg hid, if_neg hid]

/-! ## What is stored agrees -/

/-- The maps of keywords and of arguments say what the children say, and modifiers and forks come with redirects. -/
structure Agrees (a : StoredTree σ) : Prop where
  literals : ∀ id name, (a.node id).literals[name]? = (a.toTree.literals id).lookup name
  arguments : ∀ id, (a.node id).arguments = a.toTree.arguments id
  attached : ∀ id, (a.node id).Attached

lemma agrees_empty : (empty : StoredTree σ).Agrees := by
  have hnode : ∀ id, (empty : StoredTree σ).node id = .root := by
    intro id
    cases id with
    | zero => rfl
    | succ id => exact node_of_size_le (Nat.succ_le_succ (Nat.zero_le id))
  refine ⟨fun id name => ?_, fun id => ?_, fun id => ?_⟩
  · rw [CommandTree.literals, node_toTree, hnode]
    exact Std.HashMap.getElem?_empty
  · rw [CommandTree.arguments, node_toTree, hnode]
    rfl
  · rw [hnode]
    rintro (h | h) <;> cases h

/-- What an update may change without the maps noticing. -/
lemma sameShape_update {id : NodeId} (hid : id < a.size) {f : StoredNode σ → StoredNode σ}
    (hkind : ∀ n, (f n).kind = n.kind) (hchildren : ∀ n, (f n).children = n.children) :
    CommandTree.SameShape a.toTree (a.update id f).toTree := by
  refine ⟨by simp, fun i => ?_, fun i => ?_⟩
  · rw [node_toTree, node_toTree, node_update hid]
    split
    · exact hchildren _
    · rfl
  · rw [node_toTree, node_toTree, node_update hid]
    split
    · exact hkind _
    · rfl

/-- Changing what a node carries, its kind and its maps aside, keeps the agreement. -/
lemma Agrees.update (h : a.Agrees) {id : NodeId} (hid : id < a.size) {f : StoredNode σ → StoredNode σ}
    (hkind : ∀ n, (f n).kind = n.kind) (hchildren : ∀ n, (f n).children = n.children)
    (hliterals : ∀ n, (f n).literals = n.literals) (harguments : ∀ n, (f n).arguments = n.arguments)
    (hattached : (f (a.node id)).Attached) : (a.update id f).Agrees := by
  have hsame := sameShape_update hid hkind hchildren
  refine ⟨fun i name => ?_, fun i => ?_, fun i => ?_⟩
  · rw [hsame.literals, ← h.literals, node_update hid]
    split
    · rw [hliterals]
    · rfl
  · rw [hsame.arguments, ← h.arguments, node_update hid]
    split
    · exact harguments _
    · rfl
  · rw [node_update hid]
    split
    · next heq => exact heq ▸ hattached
    · exact h.attached i

/-- A name that no child has is not among the keywords or the arguments either. -/
lemma lookup_filter_eq_none {name : String} {l : List (String × NodeId)} (h : l.lookup name = none)
    (keep : String × NodeId → Bool) : (l.filter keep).lookup name = none := by
  rw [List.lookup_eq_none_iff] at h ⊢
  exact fun e he => h e (List.mem_of_mem_filter he)

/-! ## A node that is new -/

section Append

variable {parent : NodeId} {n : StoredNode σ} {kind : PendingKind σ} {provider : Option (Provider σ)}

/-- A keyword is put in the map of keywords of its parent; other maps of keywords stay as they are. -/
lemma literals_enter_push (hparent : parent < a.size) (hliterals : n.literals = ∅) (id : NodeId) (name : String) :
    (((a.push n).enter parent kind a.size).node id).literals[name]? =
      if id = parent ∧ kind.isLiteral ∧ name = kind.name then some a.size else (a.node id).literals[name]? := by
  rw [node_enter_push hparent]
  by_cases hid : id = a.size
  · have hne : id ≠ parent := hid ▸ Nat.ne_of_gt hparent
    rw [if_pos hid, hliterals, if_neg fun h => hne h.1, node_of_size_le (Nat.le_of_eq hid.symm)]
    rfl
  · rw [if_neg hid]
    by_cases hp : parent = id
    · rw [if_pos hp, StoredNode.entering]
      cases kind.isLiteral with
      | false => simp
      | true =>
        by_cases heq : name = kind.name
        · simp [hp, heq]
        · have hno : kind.name ≠ name := Ne.symm heq
          simp [Std.HashMap.getElem?_insert, heq, hno]
    · rw [if_neg hp, if_neg fun h => hp h.1.symm]

/-- An argument is put in the map of arguments of its parent; other maps of arguments stay as they are. -/
lemma arguments_enter_push (hparent : parent < a.size) (harguments : n.arguments = []) (id : NodeId) :
    (((a.push n).enter parent kind a.size).node id).arguments =
      if id = parent ∧ !kind.isLiteral then putChild kind.name a.size (a.node id).arguments
      else (a.node id).arguments := by
  rw [node_enter_push hparent]
  by_cases hid : id = a.size
  · have hne : id ≠ parent := hid ▸ Nat.ne_of_gt hparent
    rw [if_pos hid, harguments, if_neg fun h => hne h.1, node_of_size_le (Nat.le_of_eq hid.symm)]
    rfl
  · rw [if_neg hid]
    by_cases hp : parent = id
    · rw [if_pos hp, StoredNode.entering]
      cases kind.isLiteral <;> simp [hp]
    · rw [if_neg hp, if_neg fun h => hp h.1.symm]

/-- A node that is new to the tree is entered in the map that it belongs to, and in no other. -/
lemma Agrees.append (h : a.Agrees) (ht : a.toTree.WellShaped) (hparent : parent < a.size)
    (hkind : n.kind = some (kind.settle provider)) (hchildren : n.children = []) (hliterals : n.literals = ∅)
    (harguments : n.arguments = []) (hattached : n.Attached) (hfresh : (a.node parent).child? kind.name = none) :
    ((a.push n).enter parent kind a.size).Agrees := by
  have hparent' : parent < a.toTree.size := size_toTree.symm ▸ hparent
  have hname : n.toNode.name = kind.name := by
    rw [n.name_toNode, StoredNode.name, hkind, Option.map_some, PendingKind.name_settle]
    rfl
  have hliteral : n.toNode.isLiteral = kind.isLiteral := by
    rw [Node.isLiteral, StoredNode.toNode, hkind, Option.map_some, PendingKind.isLiteral_settle]
    rfl
  have htree := toTree_append (n.name_toNode ▸ hname) hchildren hfresh
  have hlookup : a.toTree.child? parent kind.name = none := by rw [child?_toTree, hfresh]
  refine ⟨fun id name => ?_, fun id => ?_, fun id => ?_⟩
  · -- the name is not among the keywords yet, so it does not matter that the new one stands last
    have hbefore : (a.toTree.literals parent).lookup kind.name = none := lookup_filter_eq_none hlookup _
    rw [htree, CommandTree.literals_append ht hparent' hchildren, literals_enter_push hparent hliterals, hname,
      hliteral, size_toTree, List.lookup_append, h.literals]
    by_cases hnew : id = parent ∧ kind.isLiteral = true
    · obtain ⟨rfl, hk⟩ := hnew
      by_cases heq : name = kind.name
      · subst heq
        simp [hk, hbefore]
      · have hno : (name == kind.name) = false := by simpa using heq
        simp [hk, heq, hno, List.lookup_cons]
    · rw [if_neg fun h => hnew ⟨h.1, h.2.1⟩, if_neg hnew, List.lookup_nil, Option.or_none]
  · have hbefore : (a.node parent).arguments.lookup kind.name = none := by
      rw [h.arguments]
      exact lookup_filter_eq_none hlookup _
    rw [htree, CommandTree.arguments_append ht hparent' hchildren, arguments_enter_push hparent harguments, hname,
      hliteral, size_toTree, ← h.arguments]
    split
    · next hnew => rw [hnew.1, putChild_of_lookup_eq_none hbefore]
    · rw [List.append_nil]
  · rw [node_enter_push hparent]
    split
    · exact hattached
    · split
      · exact h.attached id
      · exact h.attached id

end Append

/-! ## Whole builders -/

lemma Agrees.merge (h : a.Agrees) {id : NodeId} (hid : id < a.size) (handler : Option (Handler σ)) :
    (a.merge id handler).Agrees := by
  unfold StoredTree.merge
  split
  · exact h.update hid (fun _ => rfl) (fun _ => rfl) (fun _ => rfl) (fun _ => rfl) (h.attached id)
  · exact h

/-- Inserting keeps the shape of the tree, and no number is lost. -/
lemma wellShaped_insert (ht : a.toTree.WellShaped) {parent : NodeId} (hparent : parent < a.size)
    (b : NodeBuilder σ) : (a.insert parent b).2.toTree.WellShaped ∧ a.size ≤ (a.insert parent b).2.size := by
  obtain ⟨above, habove⟩ := ht.exists_find? (size_toTree ▸ hparent)
  have hjoins := CommandTree.joinsAll_insert b.spec ht habove
  have hsize := (hjoins.keeps ht).size_le
  rw [insert_toTree] at hjoins hsize
  rw [size_toTree, size_toTree] at hsize
  exact ⟨(hjoins.extends ht).shaped, hsize⟩

mutual

/-- Inserting keeps the agreement: every node on the way down is merged with one of its name or entered at its
parent. -/
theorem Agrees.insert : ∀ (b : NodeBuilder σ) {a : StoredTree σ} {parent : NodeId}, a.Agrees → b.Attached →
    a.toTree.WellShaped → parent < a.size → (a.insert parent b).2.Agrees
  | ⟨kind, children, handler, requirement, target, modifier, forks, provider⟩, a, parent, h, hb, ht, hparent => by
    rw [NodeBuilder.attached_iff] at hb
    rw [StoredTree.insert]
    cases hchild : (a.node parent).child? kind.name with
    | some existing =>
      have hlookup : a.toTree.child? parent kind.name = some existing := by rw [child?_toTree, hchild]
      have hlt : existing < a.toTree.size := (ht.ordered (ht.child?_eq_some.1 hlookup)).2
      have hsame := CommandTree.sameShape_mergeHandler hlt handler
      rw [size_toTree] at hlt
      refine Agrees.insertAll children (h.merge hlt handler) hb.2 ?_ ?_
      · rw [toTree_merge]
        exact ht.of_sameShape hsame
      · rw [← size_toTree, toTree_merge, hsame.size, size_toTree]
        exact hlt
    | none =>
      have hlookup : a.toTree.child? parent kind.name = none := by rw [child?_toTree, hchild]
      simp only [StoredNode.ofKind]
      set n : StoredNode σ :=
        ⟨some (kind.settle provider), [], ∅, [], handler, requirement, target, modifier, forks⟩
      have hname : n.name = kind.name := kind.name_settle provider
      have htree := toTree_append hname rfl hchild
      have hparent' : parent < a.toTree.size := size_toTree.symm ▸ hparent
      refine Agrees.insertAll children (h.append ht hparent (n := n) rfl rfl rfl rfl hb.1 hchild) hb.2 ?_ ?_
      · rw [htree]
        exact ht.append hparent' rfl rfl (n.name_toNode ▸ hname.symm ▸ hlookup)
      · rw [enter_eq, size_update, size_push]
        exact Nat.lt_succ_self _

theorem Agrees.insertAll : ∀ (l : List (NodeBuilder σ)) {a : StoredTree σ} {parent : NodeId}, a.Agrees →
    NodeBuilder.AttachedAll l → a.toTree.WellShaped → parent < a.size → (a.insertAll parent l).Agrees
  | [], a, parent, h, _, _, _ => h
  | b :: rest, a, parent, h, hl, ht, hparent => by
    obtain ⟨hshaped, hsize⟩ := wellShaped_insert ht hparent b
    exact Agrees.insertAll rest (Agrees.insert b h hl.1 ht hparent) hl.2 hshaped (Nat.lt_of_lt_of_le hparent hsize)

end

/-- A call that is refused leaves the tree behind as it found it. -/
lemma addChild_of_error {parent : NodeId} {b : NodeBuilder σ} {e : BuildError} (h : (a.addChild parent b).1 = .error e) :
    (a.addChild parent b).2 = a := by
  unfold addChild at h ⊢
  cases hcheck : a.check (some parent) b with
  | error _ => rfl
  | ok _ =>
    rw [hcheck] at h
    cases h

lemma setRedirect_of_error {id target : NodeId} {modifier : Option (Modifier σ)} {forks : Bool} {e : BuildError}
    (h : (a.setRedirect id target modifier forks).1 = .error e) : (a.setRedirect id target modifier forks).2 = a := by
  unfold setRedirect at h ⊢
  by_cases hroot : id = rootId
  · rw [if_pos hroot]
  · rw [if_neg hroot] at h ⊢
    by_cases htarget : a.nodes[target]?.isNone
    · simp only [htarget, if_true]
    · simp only [htarget, Bool.false_eq_true, if_false] at h ⊢
      by_cases hchildren : (a.node id).children.isEmpty
      · simp [hchildren] at h
      · simp [hchildren]

lemma Agrees.addChild (h : a.Agrees) (ht : a.toTree.WellShaped) {parent : NodeId} (hparent : parent < a.size)
    {b : NodeBuilder σ} (hb : b.Attached) : (a.addChild parent b).2.Agrees := by
  unfold StoredTree.addChild
  cases a.check (some parent) b with
  | error e => exact h
  | ok _ => exact Agrees.insert b h hb ht hparent

lemma Agrees.setRedirect (h : a.Agrees) {id : NodeId} (hid : id < a.size) (target : NodeId)
    (modifier : Option (Modifier σ)) (forks : Bool) : (a.setRedirect id target modifier forks).2.Agrees := by
  unfold StoredTree.setRedirect
  split
  · exact h
  · simp only
    split
    · exact h
    · split
      · exact h
      · rw [update_update, update_update]
        exact h.update hid (fun _ => rfl) (fun _ => rfl) (fun _ => rfl) (fun _ => rfl) fun _ => rfl

end StoredTree
end CommandEngine
