import CommandEngine.Proofs.Tree.Growth

/-!
# What a sequence of registrations amounts to

Commands that are registered one after the other share the nodes of one tree wherever their paths meet,
across commands and inside of one.  Read as one list of declarations in pre-order, they say what stands at a
path: there is a node if the path is declared, its first declaration decides on everything but the handler,
the last one that has a handler on that, and its children stand in the order in which their names are first
declared below it.  This is `CommandTree.node_registerEach`.
-/

namespace CommandEngine

variable {σ : Type}

lemma NodeSpec.mem_declarationsAll {above : List String} {l : List (NodeSpec σ)}
    {d : List String × NodeSpec σ} :
    d ∈ declarationsAll above l ↔ ∃ s ∈ l, d ∈ s.declarations above := by
  induction l with
  | nil => simp [declarationsAll]
  | cons s l ih => simp [declarationsAll, ih]

namespace CommandTree

variable {t t' : CommandTree σ} {specs : List (NodeSpec σ)}

/-- Adds commands in order, as long as none is refused. -/
def registerEach (t : CommandTree σ) (specs : List (NodeSpec σ)) : Except BuildError (CommandTree σ) :=
  specs.foldlM (fun t s => (t.register s).map Prod.snd) t

/-- Registering commands takes their declarations one after the other. -/
lemma joinsAll_registerEach (ht : t.WellShaped) (h : t.registerEach specs = .ok t') :
    JoinsAll t (NodeSpec.declarationsAll [] specs) t' := by
  induction specs generalizing t with
  | nil =>
    cases h
    exact .nil
  | cons s rest ih =>
    rw [registerEach, List.foldlM_cons] at h
    cases hregister : t.register s with
    | error e =>
      rw [hregister] at h
      cases h
    | ok added =>
      obtain ⟨id, u⟩ := added
      rw [hregister] at h
      obtain ⟨-, hinsert⟩ := addChild_eq_ok (register_eq_ok hregister).2
      have hfirst := joinsAll_insert s ht find?_nil
      rw [hinsert] at hfirst
      rw [NodeSpec.declarationsAll]
      exact hfirst.append (ih (hfirst.extends ht).shaped h)

lemma WellShaped.names_children (ht : t.WellShaped) (id : NodeId) :
    ((t.children id).map fun c => (t.node c).name) = (t.node id).children.map Prod.fst := by
  rw [children, List.map_map]
  exact List.map_congr_left fun e he => ht.name_of_mem he

lemma find?_empty {path : List String} (hpath : path ≠ []) :
    (CommandTree.empty : CommandTree σ).find? path = none := by
  cases path with
  | nil => exact absurd rfl hpath
  | cons k rest => rfl

/-- The node at a path after commands have been registered.  It exists if and only if one of them declares
the path; its first declaration decides on what it matches, on its requirement and on its redirect, the last
one that has a handler on the handler, and its children stand in the order in which their names were first
declared. -/
theorem node_registerEach (h : (CommandTree.empty : CommandTree σ).registerEach specs = .ok t)
    {path : List String} (hpath : path ≠ []) :
    ((t.find? path).isSome ↔ ∃ s ∈ specs, ∃ d, (path, d) ∈ s.declarations []) ∧
      ∀ id, t.find? path = some id →
        ∃ first rest, declaredAt path (NodeSpec.declarationsAll [] specs) = first :: rest ∧
          (t.node id).pattern = some first.pattern ∧
          (t.node id).requirement = first.requirement ∧
          (t.node id).redirect = first.redirect ∧
          (t.node id).handler = (first :: rest).reverse.findSome? NodeSpec.handler ∧
          ((t.children id).map fun c => (t.node c).name) =
            (namesBelow path (NodeSpec.declarationsAll [] specs)).eraseDups := by
  have hjoins := joinsAll_registerEach wellShaped_empty h
  have hextends := hjoins.extends wellShaped_empty
  have hfresh := find?_empty (σ := σ) hpath
  refine ⟨?_, fun id hid => ?_⟩
  · rw [hextends.isSome_find?, hfresh, declaredAt_ne_nil]
    simp only [Option.isSome_none, Bool.false_eq_true, false_or, NodeSpec.mem_declarationsAll]
    exact ⟨fun ⟨d, s, hs, hd⟩ => ⟨s, hs, d, hd⟩, fun ⟨s, hs, d, hd⟩ => ⟨d, s, hs, hd⟩⟩
  · rcases hextends.origin hid with
      ⟨hold, -⟩ | ⟨-, first, rest, hdeclared, hpattern, hrequirement, hredirect, hhandler⟩
    · rw [hfresh] at hold
      cases hold
    · refine ⟨first, rest, hdeclared, hpattern, hrequirement, hredirect, hhandler, ?_⟩
      rw [hextends.shaped.names_children, ← childNames_of_some hid, hjoins.childNames wellShaped_empty,
        childNames_of_none hfresh, foldl_addName_nil]

/-- A command that is registered twice.  The second time it has a keyword of the name of the argument, with
a handler of its own. -/
def twice : List (NodeSpec Unit) :=
  [{ NodeSpec.ofPattern (.literal "give") with
      children := [{ NodeSpec.ofPattern (.argument "count" (.integer .full) none) with
        handler := some fun _ => .ok 1 }] },
    { NodeSpec.ofPattern (.literal "give") with
      children := [.ofPattern (.literal "all"), { NodeSpec.ofPattern (.literal "count") with
        handler := some fun _ => .ok 2 }] }]

/-- The argument stays an argument and stays first, and has the handler of the keyword. -/
theorem node_registerEach_twice :
    ∃ t : CommandTree Unit, CommandTree.empty.registerEach twice = .ok t ∧
      (∃ id, t.find? ["give", "count"] = some id ∧
        (t.node id).pattern = some (.argument "count" (.integer .full) none) ∧
        (t.node id).handler = some fun _ => .ok 2) ∧
      ∃ id, t.find? ["give"] = some id ∧
        ((t.children id).map fun c => (t.node c).name) = ["count", "all"] := by
  have h : CommandTree.empty.registerEach twice = .ok _ := rfl
  refine ⟨_, h, ⟨2, rfl, ?_⟩, 1, rfl, ?_⟩
  · obtain ⟨first, rest, hdeclared, hpattern, -, -, hhandler, -⟩ :=
      (node_registerEach h (by simp : ["give", "count"] ≠ [])).2 2 rfl
    cases hdeclared
    exact ⟨hpattern, hhandler⟩
  · obtain ⟨first, rest, -, -, -, -, -, hnames⟩ :=
      (node_registerEach h (by simp : ["give"] ≠ [])).2 1 rfl
    rw [hnames]
    decide

end CommandTree
end CommandEngine
