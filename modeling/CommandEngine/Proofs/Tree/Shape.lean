import CommandEngine.Tree.Build
import Mathlib.Data.List.Induction
import Mathlib.Data.List.Nodup

/-!
# The shape of a command tree

The nodes of a `CommandTree` lie in an array and refer to their children by number.  Nothing in that type
says that the child edges form a tree; `CommandTree.WellShaped` does.  The two ways in which a tree grows,
`CommandTree.append` and updates of a node that leave its pattern and its children alone, keep the shape.

In a well-shaped tree a node and its path determine each other: `CommandTree.WellShaped.find?_inj` says
that no two paths lead to one node, and `CommandTree.WellShaped.exists_find?` that some path leads to
every node.  So what an update does can be told by paths: `CommandTree.WellShaped.find?_append` says that
appending a node adds one path and changes no other.
-/

namespace CommandEngine

variable {σ : Type}

/-- A node is a keyword if that is what it matches. -/
lemma Node.isLiteral_iff {n : Node σ} : n.isLiteral = true ↔ ∃ keyword, n.pattern = some (.literal keyword) := by
  rcases hpattern : n.pattern with _ | ⟨keyword⟩ | ⟨name, type, provider⟩ <;>
    simp [Node.isLiteral, hpattern, Pattern.isLiteral]

namespace CommandTree

variable {t t' : CommandTree σ}

/-! ## Nodes after an update -/

lemma node_of_size_le {id : NodeId} (h : t.size ≤ id) : t.node id = .root := by
  have hnone : t.nodes[id]? = none := Array.getElem?_eq_none h
  simp [node, node?, hnone]

lemma node_push (n : Node σ) (id : NodeId) :
    (CommandTree.mk (t.nodes.push n)).node id = if id = t.size then n else t.node id := by
  by_cases hid : id = t.nodes.size
  · simp [node, node?, size, hid]
  · simp [node, node?, size, hid, Array.getElem?_push]

lemma node_modify {i : NodeId} (hi : i < t.size) (f : Node σ → Node σ) (id : NodeId) :
    (CommandTree.mk (t.nodes.modify i f)).node id = if i = id then f (t.node id) else t.node id := by
  simp only [node, node?, Array.getElem?_modify]
  split
  · next heq =>
    subst heq
    simp [Array.getElem?_eq_getElem hi]
  · rfl

section Append

variable {parent : NodeId} {n : Node σ}

@[simp] lemma size_append : (t.append parent n).size = t.size + 1 := by
  simp [append, size]

/-- A node that is appended becomes the last child of its parent; nothing else changes. -/
lemma node_append (hparent : parent < t.size) (id : NodeId) :
    (t.append parent n).node id =
      if id = t.size then n
      else if parent = id then
        { t.node id with children := (t.node id).children ++ [(n.name, t.size)] }
      else t.node id := by
  have hlt : parent < (CommandTree.mk (t.nodes.push n)).size := by
    simpa [size] using Nat.lt_succ_of_lt hparent
  have hmodify := node_modify hlt
    (fun p => { p with children := p.children ++ [(n.name, t.size)] }) id
  rw [append, hmodify, node_push]
  by_cases hid : id = t.size
  · have hne : parent ≠ id := hid ▸ Nat.ne_of_lt hparent
    rw [if_neg hne, if_pos hid, if_pos hid]
  · rw [if_neg hid, if_neg hid]

lemma mem_children_append (hparent : parent < t.size) (hn : n.children = []) {id c : NodeId}
    {k : String} :
    (k, c) ∈ ((t.append parent n).node id).children ↔
      (k, c) ∈ (t.node id).children ∨ (id = parent ∧ k = n.name ∧ c = t.size) := by
  rw [node_append hparent]
  by_cases hid : id = t.size
  · have hne : id ≠ parent := hid ▸ Nat.ne_of_gt hparent
    have hroot : t.node id = .root := node_of_size_le (Nat.le_of_eq hid.symm)
    rw [if_pos hid, hn, hroot]
    simp [Node.root, hne]
  · rw [if_neg hid]
    by_cases hp : parent = id
    · subst hp
      simp
    · have hne : id ≠ parent := fun h => hp h.symm
      simp [hp, hne]

end Append

/-! ## Keywords and arguments -/

lemma isLiteral_of_mem_literals {id : NodeId} {e : String × NodeId} (he : e ∈ t.literals id) :
    (t.node e.2).isLiteral = true :=
  (List.mem_filter.1 he).2

lemma isLiteral_of_mem_arguments {id : NodeId} {e : String × NodeId} (he : e ∈ t.arguments id) :
    (t.node e.2).isLiteral = false := by
  simpa using (List.mem_filter.1 he).2

/-! ## The shape -/

/-- The child edges form a tree that begins at the root and reaches every node.  Children are kept
under their own names, and each was added after its parent. -/
structure WellShaped (t : CommandTree σ) : Prop where
  nonempty : 0 < t.size
  root : (t.node rootId).pattern = none
  ordered : ∀ {id c : NodeId} {k : String}, (k, c) ∈ (t.node id).children → id < c ∧ c < t.size
  named : ∀ {id c : NodeId} {k : String},
    (k, c) ∈ (t.node id).children → ∃ p, (t.node c).pattern = some p ∧ p.name = k
  distinct : ∀ id, ((t.node id).children.map Prod.fst).Nodup
  single : ∀ {a b c : NodeId} {j k : String},
    (j, c) ∈ (t.node a).children → (k, c) ∈ (t.node b).children → a = b
  spanning : ∀ {id : NodeId}, id ≠ rootId → id < t.size →
    ∃ parent k, (k, id) ∈ (t.node parent).children

lemma wellShaped_empty : (CommandTree.empty : CommandTree σ).WellShaped := by
  have hnode : ∀ id, (CommandTree.empty : CommandTree σ).node id = .root := by
    intro id
    cases id with
    | zero => rfl
    | succ id => exact node_of_size_le (Nat.succ_le_succ (Nat.zero_le id))
  have hsize : (CommandTree.empty : CommandTree σ).size = 1 := rfl
  constructor
  · simp [hsize]
  · simp [hnode, Node.root]
  · simp [hnode, Node.root]
  · simp [hnode, Node.root]
  · simp [hnode, Node.root]
  · simp [hnode, Node.root]
  · intro id hid hlt
    exact absurd (Nat.lt_one_iff.1 (hsize ▸ hlt)) hid

lemma WellShaped.root_lt (h : t.WellShaped) : rootId < t.size := h.nonempty

lemma WellShaped.ne_root (h : t.WellShaped) {id c : NodeId} {k : String} (hmem : (k, c) ∈ (t.node id).children) :
    c ≠ rootId :=
  Nat.ne_of_gt (Nat.zero_lt_of_lt (h.ordered hmem).1)

lemma WellShaped.child?_eq_some (h : t.WellShaped) {id c : NodeId} {k : String} :
    t.child? id k = some c ↔ (k, c) ∈ (t.node id).children := by
  rw [child?, List.lookup_eq_some_iff]
  constructor
  · rintro ⟨before, after, heq, -⟩
    simp [heq]
  · intro hmem
    obtain ⟨before, after, heq⟩ := List.append_of_mem hmem
    refine ⟨before, after, heq, fun q hq => ?_⟩
    have hnodup := h.distinct id
    rw [heq, List.map_append, List.map_cons, List.nodup_append] at hnodup
    have hne := hnodup.2.2 q.1 (List.mem_map_of_mem hq) k (List.mem_cons_self ..)
    simpa [bne_iff_ne] using hne.symm

lemma WellShaped.child?_eq_none (h : t.WellShaped) {id : NodeId} {k : String} :
    t.child? id k = none ↔ ∀ c, (k, c) ∉ (t.node id).children := by
  constructor
  · intro hnone c hmem
    rw [h.child?_eq_some.2 hmem] at hnone
    cases hnone
  · intro hall
    cases hchild : t.child? id k with
    | none => rfl
    | some c => exact absurd (h.child?_eq_some.1 hchild) (hall c)

/-- A child of a node is kept under its own name. -/
lemma WellShaped.child?_name (h : t.WellShaped) {id c : NodeId} (hc : c ∈ t.children id) :
    t.child? id (t.node c).name = some c := by
  obtain ⟨⟨k, d⟩, hmem, rfl⟩ := List.mem_map.1 hc
  obtain ⟨p, hpattern, hname⟩ := h.named hmem
  have hk : (t.node d).name = k := by simp [Node.name, hpattern, hname]
  rw [hk]
  exact h.child?_eq_some.2 hmem

lemma WellShaped.map_later (h : t.WellShaped) (id : NodeId) :
    (t.later id).map Subtype.val = t.children id := by
  rw [later, List.map_filterMap]
  conv => rhs; rw [← List.filterMap_some (l := t.children id)]
  refine List.filterMap_congr fun c hc => ?_
  obtain ⟨e, hmem, rfl⟩ := List.mem_map.1 hc
  simp [h.ordered (k := e.1) (c := e.2) hmem]

lemma WellShaped.pattern_of_child (h : t.WellShaped) {id c : NodeId} (hc : c ∈ t.children id) :
    ∃ p, (t.node c).pattern = some p := by
  obtain ⟨⟨k, d⟩, hmem, rfl⟩ := List.mem_map.1 hc
  obtain ⟨p, hpattern, -⟩ := h.named hmem
  exact ⟨p, hpattern⟩

/-! ## Paths -/

@[simp] lemma find?_nil : t.find? [] = some rootId := rfl

lemma findFrom?_append (id : NodeId) (p q : List String) :
    t.findFrom? id (p ++ q) = (t.findFrom? id p).bind fun c => t.findFrom? c q := by
  induction p generalizing id with
  | nil => rfl
  | cons k p ih =>
    simp only [List.cons_append, findFrom?]
    cases t.child? id k with
    | none => rfl
    | some c => simp [ih]

/-- The last name of a path is looked up among the children of the node before it. -/
lemma find?_concat (p : List String) (k : String) :
    t.find? (p ++ [k]) = (t.find? p).bind fun id => t.child? id k := by
  rw [find?, findFrom?_append]
  simp only [findFrom?]
  cases hp : t.findFrom? rootId p with
  | none => simp [find?, hp]
  | some id =>
    simp only [find?, hp, Option.bind_some]
    cases t.child? id k <;> rfl

lemma find?_concat_of_some {p : List String} {id : NodeId} (hp : t.find? p = some id) (k : String) :
    t.find? (p ++ [k]) = t.child? id k := by
  rw [find?_concat, hp, Option.bind_some]

lemma WellShaped.lt_of_find? (h : t.WellShaped) {p : List String} {id : NodeId}
    (hp : t.find? p = some id) : id < t.size := by
  induction p using List.reverseRecOn with
  | nil =>
    cases hp
    exact h.root_lt
  | append_singleton p k _ =>
    rw [find?_concat, Option.bind_eq_some_iff] at hp
    obtain ⟨parent, -, hchild⟩ := hp
    exact (h.ordered (h.child?_eq_some.1 hchild)).2

/-- No two paths lead to one node. -/
theorem WellShaped.find?_inj (h : t.WellShaped) {p q : List String} {id : NodeId}
    (hp : t.find? p = some id) (hq : t.find? q = some id) : p = q := by
  -- the root is nobody's child, and a child determines its parent and its own name
  have hroot : ∀ {p : List String} {k : String}, t.find? (p ++ [k]) ≠ some rootId := by
    intro p k hfind
    rw [find?_concat, Option.bind_eq_some_iff] at hfind
    obtain ⟨parent, -, hchild⟩ := hfind
    exact Nat.not_lt_zero _ (h.ordered (h.child?_eq_some.1 hchild)).1
  induction p using List.reverseRecOn generalizing q id with
  | nil =>
    cases hp
    cases q using List.reverseRecOn with
    | nil => rfl
    | append_singleton q k => exact absurd hq hroot
  | append_singleton p j ih =>
    cases q using List.reverseRecOn with
    | nil =>
      cases hq
      exact absurd hp hroot
    | append_singleton q k =>
      rw [find?_concat, Option.bind_eq_some_iff] at hp hq
      obtain ⟨a, ha, hchild⟩ := hp
      obtain ⟨b, hb, hchild'⟩ := hq
      have hmem := h.child?_eq_some.1 hchild
      have hmem' := h.child?_eq_some.1 hchild'
      have hab : a = b := h.single hmem hmem'
      subst hab
      obtain ⟨pattern, hpattern, rfl⟩ := h.named hmem
      obtain ⟨pattern', hpattern', rfl⟩ := h.named hmem'
      rw [hpattern] at hpattern'
      cases hpattern'
      rw [ih ha hb]

/-- A path leads to every node of the tree. -/
theorem WellShaped.exists_find? (h : t.WellShaped) {id : NodeId} (hid : id < t.size) :
    ∃ p, t.find? p = some id := by
  -- a parent was added before its children
  induction id using Nat.strongRecOn with
  | ind id ih =>
    by_cases hroot : id = rootId
    · exact ⟨[], by rw [hroot, find?_nil]⟩
    · obtain ⟨parent, k, hmem⟩ := h.spanning hroot hid
      obtain ⟨hlt, -⟩ := h.ordered hmem
      obtain ⟨p, hp⟩ := ih parent hlt (Nat.lt_trans hlt hid)
      exact ⟨p ++ [k], by rw [find?_concat_of_some hp, h.child?_eq_some.2 hmem]⟩

/-! ## Updates that keep the shape -/

/-- The same nodes with the same patterns and the same children. -/
structure SameShape (t t' : CommandTree σ) : Prop where
  size : t'.size = t.size
  children : ∀ id, (t'.node id).children = (t.node id).children
  pattern : ∀ id, (t'.node id).pattern = (t.node id).pattern

/-- Changing a node apart from its pattern and its children. -/
lemma sameShape_modify {i : NodeId} (hi : i < t.size) {f : Node σ → Node σ}
    (hchildren : ∀ n, (f n).children = n.children) (hpattern : ∀ n, (f n).pattern = n.pattern) :
    SameShape t ⟨t.nodes.modify i f⟩ := by
  constructor
  · simp [CommandTree.size]
  · intro id
    rw [node_modify hi]
    split
    · rw [hchildren]
    · rfl
  · intro id
    rw [node_modify hi]
    split
    · rw [hpattern]
    · rfl

lemma SameShape.child? (h : SameShape t t') (id : NodeId) (k : String) :
    t'.child? id k = t.child? id k := by
  rw [CommandTree.child?, CommandTree.child?, h.children]

lemma SameShape.find? (h : SameShape t t') (p : List String) : t'.find? p = t.find? p := by
  induction p using List.reverseRecOn with
  | nil => rfl
  | append_singleton p k ih =>
    rw [find?_concat, find?_concat, ih]
    simp only [h.child?]

lemma WellShaped.of_sameShape (h : t.WellShaped) (hs : SameShape t t') : t'.WellShaped := by
  constructor
  · rw [hs.size]
    exact h.nonempty
  · rw [hs.pattern]
    exact h.root
  · intro id c k hmem
    rw [hs.children] at hmem
    rw [hs.size]
    exact h.ordered hmem
  · intro id c k hmem
    rw [hs.children] at hmem
    rw [hs.pattern]
    exact h.named hmem
  · intro id
    rw [hs.children]
    exact h.distinct id
  · intro a b c j k ha hb
    rw [hs.children] at ha hb
    exact h.single ha hb
  · intro id hid hlt
    rw [hs.size] at hlt
    simp only [hs.children]
    exact h.spanning hid hlt

/-! ## Appending a node -/

section Appended

variable {parent : NodeId} {n : Node σ} {pattern : Pattern σ}

/-- A name that is not used yet is put after those of the children. -/
lemma WellShaped.nodup_names_append (h : t.WellShaped) (hn : n.children = []) (hparent : parent < t.size)
    (hfresh : t.child? parent n.name = none) (id : NodeId) :
    (((t.append parent n).node id).children.map Prod.fst).Nodup := by
  rw [node_append hparent]
  split
  · simp [hn]
  · split
    · next hid =>
      subst hid
      have hnew : n.name ∉ (t.node parent).children.map Prod.fst := by
        intro hk
        obtain ⟨⟨k, c⟩, hc, hk⟩ := List.mem_map.1 hk
        exact h.child?_eq_none.1 hfresh c (hk ▸ hc)
      rw [List.map_append, List.nodup_append]
      refine ⟨h.distinct parent, by simp, ?_⟩
      intro a ha b hb hab
      simp only [List.map_cons, List.map_nil, List.mem_singleton] at hb
      exact hnew (hb ▸ hab ▸ ha)
    · exact h.distinct id

/-- Appending a node under a name that its parent does not have yet keeps the shape. -/
lemma WellShaped.append (h : t.WellShaped) (hparent : parent < t.size) (hn : n.children = [])
    (hpattern : n.pattern = some pattern) (hfresh : t.child? parent n.name = none) :
    (t.append parent n).WellShaped := by
  have hmem : ∀ {id c : NodeId} {k : String}, (k, c) ∈ ((t.append parent n).node id).children ↔
      (k, c) ∈ (t.node id).children ∨ (id = parent ∧ k = n.name ∧ c = t.size) :=
    mem_children_append hparent hn
  have hnode := node_append (n := n) hparent
  have hold : ∀ {id : NodeId}, id < t.size →
      ((t.append parent n).node id).pattern = (t.node id).pattern := by
    intro id hid
    rw [hnode, if_neg (Nat.ne_of_lt hid)]
    split <;> rfl
  constructor
  · rw [size_append]
    exact Nat.succ_pos _
  · rw [hold h.root_lt]
    exact h.root
  · intro id c k hc
    rw [size_append]
    rcases hmem.1 hc with hc | ⟨rfl, -, rfl⟩
    · exact ⟨(h.ordered hc).1, Nat.lt_succ_of_lt (h.ordered hc).2⟩
    · exact ⟨hparent, Nat.lt_succ_self _⟩
  · intro id c k hc
    rcases hmem.1 hc with hc | ⟨rfl, rfl, rfl⟩
    · rw [hold (h.ordered hc).2]
      exact h.named hc
    · refine ⟨pattern, ?_, ?_⟩
      · rw [hnode, if_pos rfl, hpattern]
      · simp [Node.name, hpattern]
  · exact h.nodup_names_append hn hparent hfresh
  · intro a b c j k ha hb
    rcases hmem.1 ha with hold | ⟨heq, -, hc⟩
    · rcases hmem.1 hb with hold' | ⟨-, -, hc⟩
      · exact h.single hold hold'
      · exact absurd hc (Nat.ne_of_lt (h.ordered hold).2)
    · rcases hmem.1 hb with hold' | ⟨heq', -, -⟩
      · exact absurd hc (Nat.ne_of_lt (h.ordered hold').2)
      · rw [heq, heq']
  · intro id hid hlt
    rw [size_append] at hlt
    rcases Nat.lt_or_eq_of_le (Nat.le_of_lt_succ hlt) with hlt | heq
    · obtain ⟨a, k, hc⟩ := h.spanning hid hlt
      exact ⟨a, k, hmem.2 (.inl hc)⟩
    · exact ⟨parent, n.name, hmem.2 (.inr ⟨rfl, rfl, heq⟩)⟩

lemma WellShaped.child?_append (h : t.WellShaped) (hparent : parent < t.size) (hn : n.children = [])
    (hpattern : n.pattern = some pattern) (hfresh : t.child? parent n.name = none)
    (id : NodeId) (k : String) :
    (t.append parent n).child? id k =
      if id = parent ∧ k = n.name then some t.size else t.child? id k := by
  have hshape := h.append hparent hn hpattern hfresh
  split
  · next hnew =>
    exact hshape.child?_eq_some.2 ((mem_children_append hparent hn).2 (.inr ⟨hnew.1, hnew.2, rfl⟩))
  · next hother =>
    cases hchild : t.child? id k with
    | some c =>
      exact hshape.child?_eq_some.2
        ((mem_children_append hparent hn).2 (.inl (h.child?_eq_some.1 hchild)))
    | none =>
      refine hshape.child?_eq_none.2 fun c hc => ?_
      rcases (mem_children_append hparent hn).1 hc with hc | ⟨rfl, rfl, -⟩
      · exact h.child?_eq_none.1 hchild c hc
      · exact hother ⟨rfl, rfl⟩

/-- Appending a node adds its path and changes no other. -/
theorem WellShaped.find?_append (h : t.WellShaped) {path : List String}
    (hpath : t.find? path = some parent) (hn : n.children = []) (hpattern : n.pattern = some pattern)
    (hfresh : t.child? parent n.name = none) (q : List String) :
    (t.append parent n).find? q = if q = path ++ [n.name] then some t.size else t.find? q := by
  have hchild := h.child?_append (h.lt_of_find? hpath) hn hpattern hfresh
  induction q using List.reverseRecOn with
  | nil => simp
  | append_singleton q k ih =>
    rw [find?_concat, ih]
    by_cases hq : q = path ++ [n.name]
    · -- nothing was below the new node's path, and nothing is below the new node
      have hnone : t.find? (q ++ [k]) = none := by
        rw [find?_concat, hq, find?_concat_of_some hpath, hfresh, Option.bind_none]
      have hne : q ++ [k] ≠ path ++ [n.name] := by
        intro heq
        have hlength := congrArg List.length (List.append_inj_left' heq rfl)
        simp [hq] at hlength
      have hleaf : t.child? t.size k = none := by
        rw [child?, node_of_size_le (Nat.le_refl _)]
        rfl
      have hsize : t.size ≠ parent := Nat.ne_of_gt (h.lt_of_find? hpath)
      rw [if_pos hq, if_neg hne, hnone, Option.bind_some, hchild, if_neg (fun hnew => hsize hnew.1), hleaf]
    · rw [if_neg hq, find?_concat]
      cases hfind : t.find? q with
      | none =>
        have hne : q ++ [k] ≠ path ++ [n.name] := by
          intro heq
          rw [List.append_inj_left' heq rfl, hpath] at hfind
          cases hfind
        rw [if_neg hne]
        rfl
      | some id =>
        have hiff : id = parent ↔ q = path := by
          constructor
          · rintro rfl
            exact h.find?_inj hfind hpath
          · rintro rfl
            exact Option.some.inj (hfind.symm.trans hpath)
        simp only [Option.bind_some, hchild, hiff]
        congr 1
        simp

end Appended
end CommandTree
end CommandEngine
