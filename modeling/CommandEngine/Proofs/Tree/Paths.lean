import CommandEngine.Proofs.Tree.Merge

/-!
# Paths and nodes are inverse

`CommandTree.path` looks for a node by going down from the root, child by child and one branch after the other,
and answers with the names on the way that it has found; `CommandTree.find?` follows names downwards.  In a tree
that has come about by registrations the two are inverse (`CommandTree.find?_path_inverse`): the search finds a way
to every node (`CommandTree.WellShaped.isSome_wayFrom?`), following the names on a way leads to its end
(`CommandTree.WellShaped.findFrom?_of_wayFrom?`), and no two paths lead to one node.

Redirects are no part of this.  They may lead back to a node on the way, but neither function takes them.
-/

namespace CommandEngine
namespace CommandTree

variable {σ : Type} {t : CommandTree σ} {id target : NodeId}

/-! ## The search for a node -/

/-- The search is one among all children, each of which comes later than its parent. -/
lemma WellShaped.wayFrom?_eq (ht : t.WellShaped) (target id : NodeId) :
    t.wayFrom? target id =
      if id = target then some []
      else (t.children id).findSome? fun c => (t.wayFrom? target c).map (c :: ·) := by
  rw [wayFrom?, ← ht.map_later, List.findSome?_map]
  rfl

/-- The names on a way that was found lead to its end. -/
lemma WellShaped.findFrom?_of_wayFrom? (ht : t.WellShaped) {way : List NodeId}
    (h : t.wayFrom? target id = some way) :
    t.findFrom? id (way.map fun c => (t.node c).name) = some target := by
  induction way generalizing id with
  | nil =>
    rw [ht.wayFrom?_eq] at h
    split at h
    · next heq => rw [List.map_nil, findFrom?, heq]
    · obtain ⟨c, -, hway⟩ := List.exists_of_findSome?_eq_some h
      simp at hway
  | cons c way ih =>
    rw [ht.wayFrom?_eq] at h
    split at h
    · cases h
    · obtain ⟨d, hd, hway⟩ := List.exists_of_findSome?_eq_some h
      obtain ⟨way', hway', heq⟩ := Option.map_eq_some_iff.1 hway
      obtain ⟨rfl, rfl⟩ := List.cons.inj heq
      rw [List.map_cons, findFrom?, ht.child?_name hd, Option.bind_some]
      exact ih hway'

/-- Where names lead, the search finds a way. -/
lemma WellShaped.isSome_wayFrom? (ht : t.WellShaped) {names : List String}
    (h : t.findFrom? id names = some target) : (t.wayFrom? target id).isSome := by
  induction names generalizing id with
  | nil =>
    rw [ht.wayFrom?_eq, if_pos (Option.some.inj h)]
    rfl
  | cons k names ih =>
    obtain ⟨c, hchild, hnames⟩ := Option.bind_eq_some_iff.1 h
    rw [ht.wayFrom?_eq]
    split
    · rfl
    · -- a way through an earlier child will do as well
      have hc : c ∈ t.children id := List.mem_map.2 ⟨(k, c), ht.child?_eq_some.1 hchild, rfl⟩
      rw [List.isSome_findSome?, List.any_eq_true]
      refine ⟨c, hc, ?_⟩
      rw [Option.isSome_map]
      exact ih hnames

/-! ## Both directions -/

lemma WellShaped.find?_path (ht : t.WellShaped) (hid : id < t.size) : t.find? (t.path id) = some id := by
  obtain ⟨names, hnames⟩ := ht.exists_find? hid
  obtain ⟨way, hway⟩ := Option.isSome_iff_exists.1 (ht.isSome_wayFrom? hnames)
  rw [path, hway, Option.getD_some]
  exact ht.findFrom?_of_wayFrom? hway

/-- Every node is found at its own path, and every path at which a node is found is the path of that node. -/
theorem find?_path_inverse (h : t.Reachable) :
    (∀ id < t.size, t.find? (t.path id) = some id) ∧
      ∀ names id, t.find? names = some id → t.path id = names := by
  have ht := h.wellShaped
  refine ⟨fun id hid => ht.find?_path hid, fun names id hnames => ?_⟩
  have hpath := ht.find?_path (ht.lt_of_find? hnames)
  exact ht.find?_inj hpath hnames

/-- A road with a ford of its own and another one below the mill.  The former may be redirected. -/
def road (redirect : Option (Redirect Unit)) : CommandTree Unit :=
  ⟨#[{ Node.root with children := [("road", 1)] },
    ⟨some (.literal "road"), [("mill", 2), ("ford", 4)], none, none, none⟩,
    ⟨some (.literal "mill"), [("ford", 3)], none, none, none⟩,
    ⟨some (.literal "ford"), [], none, none, none⟩,
    ⟨some (.literal "ford"), [], none, none, redirect⟩]⟩

lemma road_reachable : (road (some ⟨1, none, false⟩)).Reachable := by
  let ford : NodeSpec Unit := .ofPattern (.literal "ford")
  have hroad : (road none).Reachable := .register (s := { NodeSpec.ofPattern (.literal "road") with
    children := [{ NodeSpec.ofPattern (.literal "mill") with children := [ford] }, ford] }) .empty rfl
  have hford : 4 < (road none).size := by decide
  exact .setRedirect (r := ⟨1, none, false⟩) hroad hford rfl

/-- The search for the ford of the road, which leads back to where the road begins, comes past the one below the
mill. -/
theorem find?_path_inverse_road :
    (road (some ⟨1, none, false⟩)).Reachable ∧
      (road (some ⟨1, none, false⟩)).path 4 = ["road", "ford"] ∧
      (road (some ⟨1, none, false⟩)).find? ((road (some ⟨1, none, false⟩)).path 3) = some 3 := by
  have hford : (road (some ⟨1, none, false⟩)).find? ["road", "ford"] = some 4 := by decide
  obtain ⟨hfind, hpath⟩ := find?_path_inverse road_reachable
  exact ⟨road_reachable, hpath _ _ hford, hfind 3 (by decide)⟩

end CommandTree
end CommandEngine
