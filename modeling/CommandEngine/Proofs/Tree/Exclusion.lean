import CommandEngine.Proofs.Tree.Arena

/-!
# Redirects and children

A node that redirects should have no children: reading goes on at the target and never looks at them.
`CommandTree.check` refuses a declaration that has both, and one that brings children to a node that
redirects already.  It compares every declaration with the tree as it was before, though, and it does not
look at the node below which the whole is added.  So two ways are left in which a node comes to have both:

* a child is added below a node that redirects;
* a path that is new is declared with a redirect first, and again with children in the same spec.

There are no others: `CommandTree.exclusive_addChild_iff` says so of one change and
`CommandTree.exclusive_run_iff` of any sequence of changes.  `CommandTree.not_exclusive_run` has an example of
each.
-/

namespace CommandEngine

variable {σ : Type}

/-! ## Children that are declared -/

namespace NodeSpec

mutual

/-- A declaration is the topmost one or declares a child of another one. -/
theorem mem_declarations_iff : ∀ (s : NodeSpec σ) (above path : List String) (c : NodeSpec σ),
    (path, c) ∈ s.declarations above ↔
      (path, c) = (above ++ [s.name], s) ∨
        ∃ p d, (p, d) ∈ s.declarations above ∧ c ∈ d.children ∧ path = p ++ [c.name]
  | ⟨pattern, children, handler, requirement, redirect⟩, above, path, c => by
    set s : NodeSpec σ := ⟨pattern, children, handler, requirement, redirect⟩ with hs
    have hdeclarations : s.declarations above =
        (above ++ [s.name], s) :: declarationsAll (above ++ [s.name]) children := by
      rw [hs, declarations]
      rfl
    rw [hdeclarations, List.mem_cons, mem_declarationsAll_iff children (above ++ [s.name]) path c]
    constructor
    · rintro (htop | ⟨hc, rfl⟩ | ⟨p, d, hd, hc, rfl⟩)
      · exact .inl htop
      · exact .inr ⟨_, s, List.mem_cons_self .., hc, rfl⟩
      · exact .inr ⟨p, d, List.mem_cons_of_mem _ hd, hc, rfl⟩
    · rintro (htop | ⟨p, d, hd, hc, rfl⟩)
      · exact .inl htop
      · rcases List.mem_cons.1 hd with htop | hd
        · obtain ⟨rfl, rfl⟩ := Prod.mk.inj htop
          exact .inr (.inl ⟨hc, rfl⟩)
        · exact .inr (.inr ⟨p, d, hd, hc, rfl⟩)

theorem mem_declarationsAll_iff : ∀ (l : List (NodeSpec σ)) (above path : List String) (c : NodeSpec σ),
    (path, c) ∈ declarationsAll above l ↔
      (c ∈ l ∧ path = above ++ [c.name]) ∨
        ∃ p d, (p, d) ∈ declarationsAll above l ∧ c ∈ d.children ∧ path = p ++ [c.name]
  | [], _, _, _ => by simp [declarationsAll]
  | s :: rest, above, path, c => by
    rw [declarationsAll, List.mem_append, mem_declarations_iff s above path c,
      mem_declarationsAll_iff rest above path c]
    simp only [List.mem_append, List.mem_cons]
    constructor
    · rintro ((htop | ⟨p, d, hd, hc, rfl⟩) | ⟨hc, rfl⟩ | ⟨p, d, hd, hc, rfl⟩)
      · obtain ⟨rfl, rfl⟩ := Prod.mk.inj htop
        exact .inl ⟨.inl rfl, rfl⟩
      · exact .inr ⟨p, d, .inl hd, hc, rfl⟩
      · exact .inl ⟨.inr hc, rfl⟩
      · exact .inr ⟨p, d, .inr hd, hc, rfl⟩
    · rintro (⟨rfl | hc, rfl⟩ | ⟨p, d, hd | hd, hc, rfl⟩)
      · exact .inl (.inl rfl)
      · exact .inr (.inl ⟨hc, rfl⟩)
      · exact .inl (.inr ⟨p, d, hd, hc, rfl⟩)
      · exact .inr (.inr ⟨p, d, hd, hc, rfl⟩)

end

/-- Nothing is declared below a path if it is not the one above the spec and its declarations have no
children. -/
lemma namesBelow_eq_nil_iff {s : NodeSpec σ} {above path : List String} :
    namesBelow path (s.declarations above) = [] ↔
      path ≠ above ∧ ∀ d, (path, d) ∈ s.declarations above → d.children = [] := by
  have hnames : namesBelow path (s.declarations above) = [] ↔
      ∀ k c, (path ++ [k], c) ∉ s.declarations above := by
    rw [namesBelow, List.filterMap_eq_nil_iff]
    constructor
    · intro hnone k c hmem
      simpa using hnone _ hmem
    · rintro hnone ⟨q, c⟩ hmem
      cases q using List.reverseRecOn with
      | nil => simp
      | append_singleton q k =>
        have hne : q ≠ path := by
          rintro rfl
          exact hnone k c hmem
        simp [hne]
  rw [hnames]
  constructor
  · intro hnone
    refine ⟨?_, fun d hd => ?_⟩
    · rintro rfl
      exact hnone s.name s ((mem_declarations_iff s ..).2 (.inl rfl))
    · cases hchildren : d.children with
      | nil => rfl
      | cons c rest =>
        have hc : c ∈ d.children := by simp [hchildren]
        exact absurd ((mem_declarations_iff s ..).2 (.inr ⟨path, d, hd, hc, rfl⟩)) (hnone c.name c)
  · rintro ⟨hne, hbare⟩ k c hmem
    rcases (mem_declarations_iff s ..).1 hmem with htop | ⟨p, d, hd, hc, heq⟩
    · exact hne (List.append_inj_left' (Prod.mk.inj htop).1 rfl)
    · have hp : path = p := List.append_inj_left' heq rfl
      rw [hbare d (hp ▸ hd)] at hc
      cases hc

end NodeSpec

lemma foldl_addName_eq_nil_iff {l names : List String} :
    l.foldl addName names = [] ↔ names = [] ∧ l = [] := by
  constructor
  · intro h
    have hnames : names = [] := by
      rw [foldl_addName] at h
      exact (List.append_eq_nil_iff.1 h).1
    subst hnames
    rw [foldl_addName_nil] at h
    refine ⟨rfl, List.eq_nil_iff_forall_not_mem.2 fun k hk => ?_⟩
    have hmem := List.mem_eraseDups.2 hk
    rw [h] at hmem
    cases hmem
  · rintro ⟨rfl, rfl⟩
    rfl

/-! ## One change -/

namespace CommandTree

variable {t t' : CommandTree σ}

/-- No node has both a redirect and a child. -/
def Exclusive (t : CommandTree σ) : Prop :=
  ∀ id, (t.node id).redirect.isSome → (t.node id).children = []

/-- Told by paths. -/
lemma WellShaped.exclusive_iff (ht : t.WellShaped) :
    t.Exclusive ↔ ∀ path id, t.find? path = some id → (t.node id).redirect.isSome →
      t.childNames path = [] := by
  constructor
  · intro h path id hpath hredirect
    rw [childNames_of_some hpath, h id hredirect]
    rfl
  · intro h id hredirect
    by_cases hid : id < t.size
    · obtain ⟨path, hpath⟩ := ht.exists_find? hid
      have hnames := h path id hpath hredirect
      rw [childNames_of_some hpath] at hnames
      exact List.map_eq_nil_iff.1 hnames
    · rw [node_of_size_le (Nat.le_of_not_lt hid)]
      rfl

end CommandTree

/-- Of the declarations of a path the first one redirects and a later one has children. -/
def Clash (l : List (NodeSpec σ)) : Prop :=
  ∃ first rest, l = first :: rest ∧ first.redirect.isSome ∧ ∃ d ∈ rest, d.children ≠ []

namespace CommandTree

variable {t t' : CommandTree σ}

/-- A node can be added below `parent` without any node coming to have both a redirect and a child: the
parent does not redirect, and no new path has declarations that clash. -/
def Compatible (t : CommandTree σ) (parent : NodeId) (s : NodeSpec σ) : Prop :=
  (t.node parent).redirect = none ∧ ∀ above path, t.find? above = some parent → t.find? path = none →
    ¬ Clash (declaredAt path (s.declarations above))

section Grown

variable {parent : NodeId} {above : List String} {s : NodeSpec σ}

/-- Once a node was added, a path has no children if it had none and none were declared for it. -/
lemma JoinsAll.childNames_eq_nil_iff (ht : t.WellShaped) (hjoins : JoinsAll t (s.declarations above) t')
    (path : List String) : t'.childNames path = [] ↔
      t.childNames path = [] ∧ path ≠ above ∧ ∀ d, (path, d) ∈ s.declarations above → d.children = [] := by
  rw [hjoins.childNames ht, foldl_addName_eq_nil_iff, NodeSpec.namesBelow_eq_nil_iff]

lemma compatible_of_exclusive (ht : t.WellShaped) (habove : t.find? above = some parent)
    (hjoins : JoinsAll t (s.declarations above) t') (hexclusive : t'.Exclusive) : t.Compatible parent s := by
  have hextends := hjoins.extends ht
  have hnone := hextends.shaped.exclusive_iff.1 hexclusive
  refine ⟨?_, fun above' path habove' hfresh => ?_⟩
  · by_contra hredirect
    have hsome : (t.node parent).redirect.isSome := Option.isSome_iff_ne_none.2 hredirect
    rcases hextends.origin (hextends.keeps habove) with ⟨-, -, -, hkept⟩ | ⟨hnew, -⟩
    · have hchildless := hnone above parent (hextends.keeps habove) (hkept ▸ hsome)
      exact ((hjoins.childNames_eq_nil_iff ht above).1 hchildless).2.1 rfl
    · rw [habove] at hnew
      cases hnew
  · obtain rfl : above' = above := ht.find?_inj habove' habove
    rintro ⟨first, rest, hdeclared, hredirect, d, hd, hchildren⟩
    have hsome : (t'.find? path).isSome := (hextends.isSome_find? path).2 (.inr (by simp [hdeclared]))
    obtain ⟨c, hc⟩ := Option.isSome_iff_exists.1 hsome
    rcases hextends.origin hc with ⟨hold, -⟩ | ⟨-, first', rest', hdeclared', -, -, hbrought, -⟩
    · rw [hfresh] at hold
      cases hold
    · rw [hdeclared] at hdeclared'
      cases hdeclared'
      have hmem : d ∈ declaredAt path (s.declarations above') := by simp [hdeclared, hd]
      have hchildless := hnone path c hc (hbrought ▸ hredirect)
      exact hchildren (((hjoins.childNames_eq_nil_iff ht path).1 hchildless).2.2 d (mem_declaredAt.1 hmem))

lemma exclusive_of_compatible (ht : t.WellShaped) (h : t.Exclusive) (habove : t.find? above = some parent)
    (hadmits : ∀ d ∈ s.declarations above, t.Admits d) (hjoins : JoinsAll t (s.declarations above) t')
    (hcompatible : t.Compatible parent s) : t'.Exclusive := by
  have hextends := hjoins.extends ht
  obtain ⟨hplain, hclash⟩ := hcompatible
  refine hextends.shaped.exclusive_iff.2 fun path c hc hredirect => (hjoins.childNames_eq_nil_iff ht path).2 ?_
  rcases hextends.origin hc with ⟨hold, -, -, hkept⟩ | ⟨hfresh, first, rest, hdeclared, -, -, hbrought, -⟩
  · -- the node was there before, and its redirect keeps children from it
    rw [hkept] at hredirect
    refine ⟨ht.exclusive_iff.1 h path c hold hredirect, ?_, fun d hd => ?_⟩
    · rintro rfl
      obtain rfl : c = parent := Option.some.inj (hold.symm.trans habove)
      simp [hplain] at hredirect
    · exact (hadmits _ hd).bare c hold hredirect
  · rw [hbrought] at hredirect
    refine ⟨childNames_of_none hfresh, ?_, fun d hd => ?_⟩
    · rintro rfl
      rw [habove] at hfresh
      cases hfresh
    · have hmem := mem_declaredAt.2 hd
      rw [hdeclared] at hmem
      rcases List.mem_cons.1 hmem with rfl | hrest
      · exact (hadmits _ hd).leaf hredirect
      · by_contra hchildren
        exact hclash above path habove hfresh ⟨first, rest, hdeclared, hredirect, d, hrest, hchildren⟩

end Grown

/-- When adding a node keeps redirects and children apart. -/
theorem exclusive_addChild_iff (ht : t.WellShaped) (h : t.Exclusive) {parent id : NodeId} {s : NodeSpec σ}
    (hparent : parent < t.size) (hadded : t.addChild parent s = .ok (id, t')) :
    t'.Exclusive ↔ t.Compatible parent s := by
  obtain ⟨above, habove⟩ := ht.exists_find? hparent
  obtain ⟨hadmits, hjoins⟩ := joinsAll_addChild ht habove hadded
  exact ⟨compatible_of_exclusive ht habove hjoins, exclusive_of_compatible ht h habove hadmits hjoins⟩

end CommandTree

/-! ## Any sequence of changes -/

/-- A change keeps redirects and children apart: setting a redirect always does, as it is refused where
there are children. -/
def Change.Compatible (t : CommandTree σ) (c : Change σ) : Prop :=
  match c with
  | addChild parent s => ∀ t', (Change.addChild parent s).perform t = .ok t' → t.Compatible parent s
  | setRedirect .. => True

namespace CommandTree

variable {t t' : CommandTree σ} {c : Change σ} {changes : List (Change σ)}

/-- A node that has come to have both keeps both. -/
lemma Keeps.exclusive (hkeeps : t.Keeps t') (h : t'.Exclusive) : t.Exclusive := by
  intro id hredirect
  by_cases hid : id < t.size
  · obtain ⟨handler, added, hnode⟩ := hkeeps.node id hid
    have hnone := h id
    rw [hnode] at hnone
    exact (List.append_eq_nil_iff.1 (hnone hredirect)).1
  · rw [node_of_size_le (Nat.le_of_not_lt hid)]
    rfl

lemma exclusive_setRedirect_iff {id : NodeId} {r : Redirect σ} (hid : id < t.size)
    (h : t.setRedirect id r = .ok t') : t'.Exclusive ↔ t.Exclusive := by
  obtain ⟨-, -, hleaf, rfl⟩ := setRedirect_eq_ok h
  refine forall_congr' fun c => ?_
  rw [node_modify hid]
  by_cases hc : id = c
  · subst hc
    simp [hleaf]
  · rw [if_neg hc]

/-- What a change does to redirects and children. -/
theorem exclusive_after_iff (ht : t.Reachable) (hsubject : c.subject < t.size) :
    (t.after c).Exclusive ↔ t.Exclusive ∧ c.Compatible t := by
  cases hperform : c.perform t with
  | error e =>
    rw [after_of_error hperform]
    cases c with
    | addChild parent s => simp [Change.Compatible, hperform]
    | setRedirect id r => simp [Change.Compatible]
  | ok t' =>
    rw [after_of_ok hperform]
    cases c with
    | addChild parent s =>
      obtain ⟨id, hadded⟩ := perform_addChild_eq_ok.1 hperform
      have hstep := fun h => exclusive_addChild_iff ht.wellShaped h hsubject hadded
      constructor
      · intro h
        have hbefore := (ht.keeps_addChild hsubject hadded).exclusive h
        exact ⟨hbefore, fun _ _ => (hstep hbefore).1 h⟩
      · rintro ⟨hbefore, hcompatible⟩
        exact (hstep hbefore).2 (hcompatible t' hperform)
    | setRedirect id r =>
      rw [exclusive_setRedirect_iff hsubject hperform, Change.Compatible, and_true]

lemma exclusive_run_of_reachable (ht : t.Reachable) (hserves : t.Serves changes) :
    (t.run changes).Exclusive ↔ t.Exclusive ∧ Along (fun t c => c.Compatible t) t changes := by
  induction changes generalizing t with
  | nil => simp [run, Along]
  | cons c rest ih =>
    have hrest := ih (ht.after hserves.1) hserves.2
    rw [exclusive_after_iff ht hserves.1] at hrest
    rw [Along, ← and_assoc]
    exact hrest

/-- The tree that changes make of an empty one has no node with both a redirect and a child if and only if
every node that was added was compatible with the tree that it was added to. -/
theorem exclusive_run_iff (hserves : (CommandTree.empty : CommandTree σ).Serves changes) :
    ((CommandTree.empty : CommandTree σ).run changes).Exclusive ↔
      Along (fun t c => c.Compatible t) CommandTree.empty changes := by
  have hempty : (CommandTree.empty : CommandTree σ).Exclusive := by
    intro id _
    cases id with
    | zero => rfl
    | succ id =>
      rw [node_of_size_le (Nat.succ_le_succ (Nat.zero_le id))]
      rfl
  rw [exclusive_run_of_reachable .empty hserves, and_iff_right hempty]

/-- A child that is declared twice, first with a redirect and then with a child of its own. -/
def doubled : List (Change Unit) :=
  [.addChild rootId { NodeSpec.ofPattern (.literal "a") with
    children := [{ NodeSpec.ofPattern (.literal "b") with redirect := some ⟨rootId, none, false⟩ },
      { NodeSpec.ofPattern (.literal "b") with children := [.ofPattern (.literal "c")] }] }]

/-- A child that is added to a node that redirects. -/
def grafted : List (Change Unit) :=
  [.addChild rootId { NodeSpec.ofPattern (.literal "a") with redirect := some ⟨rootId, none, false⟩ },
    .addChild 1 (.ofPattern (.literal "b"))]

lemma doubled_serves : (CommandTree.empty : CommandTree Unit).Serves doubled := ⟨by decide, trivial⟩

lemma grafted_serves : (CommandTree.empty : CommandTree Unit).Serves grafted :=
  ⟨by decide, by decide, trivial⟩

lemma doubled_not_exclusive : ¬ ((CommandTree.empty : CommandTree Unit).run doubled).Exclusive := by
  intro h
  have hnone := h 2 (by decide)
  revert hnone
  decide

lemma grafted_not_exclusive : ¬ ((CommandTree.empty : CommandTree Unit).run grafted).Exclusive := by
  intro h
  have hnone := h 1 (by decide)
  revert hnone
  decide

/-- What is checked does not keep redirects and children apart, neither inside of one spec nor below a node
that is there. -/
theorem not_exclusive_run :
    ((CommandTree.empty : CommandTree Unit).Serves doubled ∧
        ¬ ((CommandTree.empty : CommandTree Unit).run doubled).Exclusive) ∧
      (CommandTree.empty : CommandTree Unit).Serves grafted ∧
        ¬ ((CommandTree.empty : CommandTree Unit).run grafted).Exclusive :=
  ⟨⟨doubled_serves, doubled_not_exclusive⟩, grafted_serves, grafted_not_exclusive⟩

theorem exclusive_run_iff_grafted :
    (CommandTree.empty : CommandTree Unit).Serves grafted ∧
      ¬ Along (fun t c => c.Compatible t) (CommandTree.empty : CommandTree Unit) grafted :=
  ⟨grafted_serves, fun h => grafted_not_exclusive ((exclusive_run_iff grafted_serves).2 h)⟩

end CommandTree
end CommandEngine
