import CommandEngine.Execution
import CommandEngine.Proofs.Keywords
import CommandEngine.Proofs.Simulation
import CommandEngine.Proofs.Tree.Arena

/-!
# A new command leaves other input alone

A command under a new name is registered in the part of the tree that lies below it; of the nodes that were there
only the root changes, which has one more keyword (`CommandTree.Receives`).  Reading comes to the root only where
a piece of the input begins, at the start or after a separator, however often redirects lead back to it.  So an
input of which no piece is the new name is read as before, node by node (`CommandTree.parse_register`).
-/

namespace CommandEngine

variable {σ : Type}

/-! ## Pieces of an input -/

/-- The first piece of a text is what comes before the first separator. -/
lemma head?_splitOn (text : List Char) :
    (text.splitOn separator).head? = some (text.takeWhile (· ≠ separator)) := by
  have hplain : ∀ c ∈ text.takeWhile (· ≠ separator), (c == separator) = false := by
    intro c hc
    simpa using List.all_eq_true.1 List.all_takeWhile c hc
  have htext := List.takeWhile_append_dropWhile (p := (· ≠ separator)) (l := text)
  have hends : endsToken (text.dropWhile (· ≠ separator)) = true := by
    have hdrop := endsToken_drop_takeWhile text
    rwa [← htext, List.drop_left'] at hdrop
    rw [htext]
  cases hrest : text.dropWhile (· ≠ separator) with
  | nil =>
    rw [hrest, List.append_nil] at htext
    rw [htext] at hplain ⊢
    rw [List.splitOn, List.splitOnP_eq_singleton hplain]
    rfl
  | cons c rest =>
    rw [hrest] at htext hends
    have hsplit := List.splitOnP_append_cons_of_forall_mem hplain c hends rest
    rw [htext] at hsplit
    rw [List.splitOn, hsplit]
    rfl

lemma takeWhile_mem_splitOn (text : List Char) :
    text.takeWhile (· ≠ separator) ∈ text.splitOn separator :=
  List.mem_of_mem_head? (head?_splitOn text)

lemma head?_pieces (input : String) :
    (pieces input).head? = some (String.ofList (input.toList.takeWhile (· ≠ separator))) := by
  rw [pieces, List.head?_map, head?_splitOn, Option.map_some]

namespace Reader

/-- A piece of the input begins at the place. -/
def AtPiece (r : Reader) : Prop := r.past = [] ∨ ∃ before, r.past = before ++ [separator]

/-- The next token is then a piece of the input. -/
lemma AtPiece.token_mem {r : Reader} (h : r.AtPiece) :
    String.ofList (r.rest.takeWhile (· ≠ separator)) ∈ pieces r.input := by
  have htoken := takeWhile_mem_splitOn r.rest
  rw [pieces, input, String.toList_ofList, chars]
  refine List.mem_map_of_mem ?_
  rcases h with hnil | ⟨before, hpast⟩
  · rw [hnil]
    exact htoken
  · have hsplit := List.splitOnP_append_cons (p := (· == separator)) before r.rest (beq_self_eq_true separator)
    rw [hpast, List.append_assoc, List.singleton_append, List.splitOn, hsplit]
    exact List.mem_append_right _ htoken

end Reader

/-! ## Declarations below a node -/

namespace NodeSpec

mutual

/-- Everything that a spec declares lies at or below its own path. -/
lemma exists_of_mem_declarations : ∀ (s : NodeSpec σ) {above : List String} {d : List String × NodeSpec σ},
    d ∈ s.declarations above → ∃ q, d.1 = above ++ s.name :: q
  | ⟨pattern, children, handler, requirement, redirect⟩, above, d, hd => by
    rw [declarations] at hd
    rcases List.mem_cons.1 hd with rfl | hd
    · exact ⟨[], rfl⟩
    · obtain ⟨k, q, hpath⟩ := exists_of_mem_declarationsAll children hd
      refine ⟨k :: q, ?_⟩
      rw [hpath, List.append_assoc]
      rfl

lemma exists_of_mem_declarationsAll : ∀ (l : List (NodeSpec σ)) {above : List String}
    {d : List String × NodeSpec σ}, d ∈ declarationsAll above l → ∃ k q, d.1 = above ++ k :: q
  | [], _, _, hd => by simp [declarationsAll] at hd
  | s :: rest, _, _, hd => by
    rw [declarationsAll, List.mem_append] at hd
    rcases hd with hd | hd
    · exact ⟨s.name, exists_of_mem_declarations s hd⟩
    · exact exists_of_mem_declarationsAll rest hd

end

end NodeSpec

namespace CommandTree

variable {t t' : CommandTree σ}

/-- What lies below a node was added after it. -/
lemma WellShaped.le_of_findFrom? (ht : t.WellShaped) {id c : NodeId} {path : List String}
    (h : t.findFrom? id path = some c) : id ≤ c := by
  induction path generalizing id with
  | nil => exact Nat.le_of_eq (Option.some.inj h)
  | cons k path ih =>
    obtain ⟨child, hchild, hrest⟩ := Option.bind_eq_some_iff.1 h
    exact Nat.le_trans (Nat.le_of_lt (ht.ordered (ht.child?_eq_some.1 hchild)).1) (ih hrest)

lemma WellShaped.le_of_find?_append (ht : t.WellShaped) {above q : List String} {n c : NodeId}
    (hn : t.find? above = some n) (hc : t.find? (above ++ q) = some c) : n ≤ c := by
  rw [find?, findFrom?_append] at hc
  rw [find?] at hn
  rw [hn, Option.bind_some] at hc
  exact ht.le_of_findFrom? hc

/-- A declaration below a node changes no node that was added before that one. -/
lemma Joins.node_eq (ht : t.WellShaped) {d : List String × NodeSpec σ} (h : Joins t d t') {above : List String}
    {n : NodeId} (hn : t.find? above = some n) {k : String} {q : List String} (hpath : d.1 = above ++ k :: q)
    {id : NodeId} (hid : id < n) : t'.node id = t.node id := by
  cases h with
  | @fresh parent place s found unused =>
    have hplace : place = above ++ (k :: q).dropLast := by
      have hdrop := congrArg List.dropLast hpath
      simpa [List.dropLast_append_of_ne_nil] using hdrop
    have hle := ht.le_of_find?_append hn (hplace ▸ found)
    have hsize := ht.lt_of_find? hn
    rw [node_append (ht.lt_of_find? found), if_neg (Nat.ne_of_lt (hid.trans hsize)),
      if_neg (Nat.ne_of_gt (Nat.lt_of_lt_of_le hid hle))]
  | @merged existing place s found =>
    obtain rfl : place = above ++ k :: q := hpath
    have hle := ht.le_of_find?_append hn found
    rw [mergeHandler, node_modify (ht.lt_of_find? found), if_neg (Nat.ne_of_gt (Nat.lt_of_lt_of_le hid hle))]

theorem JoinsAll.node_eq (ht : t.WellShaped) {l : List (List String × NodeSpec σ)} (h : JoinsAll t l t')
    {above : List String} {n : NodeId} (hn : t.find? above = some n)
    (hpaths : ∀ d ∈ l, ∃ k q, d.1 = above ++ k :: q) {id : NodeId} (hid : id < n) :
    t'.node id = t.node id := by
  induction h with
  | nil => rfl
  | @cons t t' u d l first _ ih =>
    rw [List.forall_mem_cons] at hpaths
    obtain ⟨⟨k, q, hpath⟩, hrest⟩ := hpaths
    have hextends := first.extends ht
    rw [ih hextends.shaped (hextends.keeps hn) hrest, first.node_eq ht hn hpath hid]

/-! ## What a new command changes -/

/-- The tree with a new keyword of the root: it stands last among the children of the root, and the other nodes
are as they were. -/
structure Receives (t t' : CommandTree σ) (k : String) : Prop where
  root : t'.node rootId = { t.node rootId with children := (t.node rootId).children ++ [(k, t.size)] }
  node : ∀ id < t.size, id ≠ rootId → t'.node id = t.node id
  literal : (t'.node t.size).isLiteral = true

theorem receives_register (ht : t.WellShaped) {id : NodeId} {s : NodeSpec σ}
    (h : t.register s = .ok (id, t')) (hnew : t.child? rootId s.name = none) : t.Receives t' s.name := by
  obtain ⟨hliteral, hadded⟩ := register_eq_ok h
  obtain ⟨-, hinsert⟩ := addChild_eq_ok hadded
  obtain ⟨pattern, children, handler, requirement, redirect⟩ := s
  set s : NodeSpec σ := ⟨pattern, children, handler, requirement, redirect⟩
  -- the command itself is appended, and then everything below it
  have hchild : t.child? rootId pattern.name = none := hnew
  rw [insert, hchild] at hinsert
  obtain ⟨-, ht'⟩ := Prod.mk.inj hinsert
  have hextends := extends_append (s := s) ht find?_nil hnew
  have hplace : (t.append rootId s.toNode).find? ([] ++ [s.name]) = some t.size := by
    rw [ht.find?_append (n := s.toNode) find?_nil rfl rfl hnew]
    exact if_pos rfl
  have hjoins : JoinsAll _ _ t' := ht' ▸ joinsAll_insertAll children hextends.shaped hplace
  have hold : ∀ c < t.size, _ = (t.append rootId s.toNode).node c := fun c hc =>
    hjoins.node_eq hextends.shaped hplace (fun d hd => NodeSpec.exists_of_mem_declarationsAll children hd) hc
  have happend := fun c => node_append (n := s.toNode) ht.root_lt c
  refine ⟨?_, fun c hc hne => ?_, ?_⟩
  · rw [hold rootId ht.root_lt, happend, if_neg (Nat.ne_of_lt ht.root_lt), if_pos rfl]
    rfl
  · rw [hold c hc, happend, if_neg (Nat.ne_of_lt hc), if_neg (Ne.symm hne)]
  · obtain ⟨handler', added, hnode⟩ := (hjoins.keeps hextends.shaped).node t.size (by simp)
    rw [hnode, happend, if_pos rfl]
    exact hliteral

namespace Receives

variable {k : String} {id : NodeId}

lemma bare (h : t.Receives t' k) (hid : id < t.size) : (t'.node id).bare = (t.node id).bare := by
  by_cases hroot : id = rootId
  · rw [hroot, h.root]
    rfl
  · rw [h.node id hid hroot]

/-- A kind of children that does not depend on what is below them. -/
lemma filter_children (ht : t.WellShaped) (h : t.Receives t' k) (kind : Node σ → Bool)
    (hkind : ∀ n : Node σ, kind n = kind n.bare) (hid : id < t.size) :
    ((t'.node id).children.filter fun e => kind (t'.node e.2)) =
      ((t.node id).children.filter fun e => kind (t.node e.2)) ++
        if id = rootId ∧ kind (t'.node t.size) then [(k, t.size)] else [] := by
  have hsame : ∀ e ∈ (t.node id).children, kind (t'.node e.2) = kind (t.node e.2) := by
    rintro ⟨j, c⟩ hmem
    rw [hkind, h.bare (ht.ordered hmem).2, ← hkind]
  rw [← List.filter_congr hsame]
  by_cases hroot : id = rootId
  · rw [hroot, h.root, List.filter_append]
    simp [List.filter_cons]
  · rw [h.node id hid hroot]
    simp [hroot]

/-- Where the next token is not the new name, the same children are worth trying. -/
lemma candidates (ht : t.WellShaped) (h : t.Receives t' k) {text : List Char} (hid : id < t.size)
    (htoken : k.toList ≠ text.takeWhile (· ≠ separator)) : t'.candidates id text = t.candidates id text := by
  have hliterals : t'.literals id = t.literals id ++ if id = rootId then [(k, t.size)] else [] := by
    simpa [h.literal, literals] using h.filter_children ht Node.isLiteral (fun _ => rfl) hid
  have harguments : t'.arguments id = t.arguments id := by
    simpa [h.literal, arguments] using h.filter_children ht (fun n => !n.isLiteral) (fun _ => rfl) hid
  have hfind : ((t'.literals id).find? fun e => e.1.toList = text.takeWhile (· ≠ separator)) =
      (t.literals id).find? fun e => e.1.toList = text.takeWhile (· ≠ separator) := by
    rw [hliterals, List.find?_append]
    split
    · simp only [List.find?_singleton, decide_eq_true_eq, if_neg htoken, Option.or_none]
    · simp
  unfold CommandTree.candidates
  simp only [hfind, harguments]

end Receives

/-- What a node matches does not depend on what is below it. -/
lemma matchToken_of_bare {c : NodeId} (h : (t'.node c).bare = (t.node c).bare) (r : Reader) (hop : Hop σ) :
    t'.matchToken r hop c = t.matchToken r hop c := by
  simp only [Node.bare, Node.mk.injEq, true_and] at h
  obtain ⟨hpattern, hhandler, -, hredirect⟩ := h
  simp only [matchToken, matchNode, Node.modifier?, Node.forks, hpattern, hhandler, hredirect]

/-! ## Reading other input -/

/-- A place where the new name is not met: the node was there before, and a piece of an input begins of which no
piece is the name. -/
structure Place.Clear (t : CommandTree σ) (k : String) (a : Place σ) : Prop where
  node_lt : a.node < t.size
  atPiece : a.reader.AtPiece
  pieces : k ∉ pieces a.reader.input

section Reading

variable {k : String} {a : Place σ} {p : Pick σ}

/-- After a token and the separator the next piece begins. -/
lemma Takes.atPiece {r : Reader} {hop : Hop σ} (htakes : t.Takes r hop p.node p.hop p.passed)
    (hmore : t.goesOn r p) : (r.advance (p.passed + 1)).AtPiece := by
  refine .inr ⟨r.past ++ r.rest.take p.passed, ?_⟩
  have hnext : (r.rest.drop p.passed).take 1 = [separator] := by
    rw [htakes.rest_eq hmore]
    rfl
  rw [Reader.advance, List.take_add, hnext, List.append_assoc]

lemma Place.Clear.next (ht : t.WellShaped) (ha : a.Clear t k) (hp : p ∈ a.picks t) (hmore : t.goesOn a.reader p)
    {id : NodeId} (hid : id < t.size) (hop : Hop σ) :
    Place.Clear t k ⟨id, a.reader.advance (p.passed + 1), hop⟩ := by
  refine ⟨hid, (takes_of_mem_picks ht hp).atPiece hmore, ?_⟩
  rw [Reader.input_advance]
  exact ha.pieces

variable (ht : t.WellShaped) (h : t.Receives t' k)

include ht h

lemma Receives.usable (ha : a.Clear t k) :
    t'.usable a.node a.reader.rest a.hop.source = t.usable a.node a.reader.rest a.hop.source := by
  have htoken : k.toList ≠ a.reader.rest.takeWhile (· ≠ separator) := by
    intro heq
    have hmem := ha.atPiece.token_mem
    rw [← heq, String.ofList_toList] at hmem
    exact ha.pieces hmem
  rw [CommandTree.usable, CommandTree.usable, h.candidates ht ha.node_lt htoken]
  refine List.filter_congr fun c hc => ?_
  obtain ⟨e, hmem, rfl⟩ := List.mem_map.1 (mem_children_of_mem_candidates hc)
  have hbare := congrArg Node.requirement (h.bare (ht.ordered (k := e.1) (c := e.2) hmem).2)
  simp only [Node.bare] at hbare
  rw [Node.canUse, Node.canUse, hbare]

/-- What is collected from the candidates depends only on how their tokens match. -/
lemma Receives.filterMap_usable (ha : a.Clear t k) {β : Type} {f f' : NodeId → Option β}
    (hf : ∀ c, t'.matchToken a.reader a.hop c = t.matchToken a.reader a.hop c → f' c = f c) :
    (t'.usable a.node a.reader.rest a.hop.source).filterMap f' =
      (t.usable a.node a.reader.rest a.hop.source).filterMap f := by
  rw [h.usable ht ha]
  refine List.filterMap_congr fun c hc => hf c ?_
  obtain ⟨e, hmem, rfl⟩ := List.mem_map.1 (mem_children_of_mem_candidates (mem_usable.1 hc).1)
  exact matchToken_of_bare (h.bare (ht.ordered (k := e.1) (c := e.2) hmem).2) _ _

/-- At a clear place the two trees read the same, and go on to clear places. -/
theorem Receives.simulates (hsettled : t.Settled) :
    Simulates t t' (fun a b => a = b ∧ a.Clear t k) Eq where
  picks := by
    rintro a _ ⟨rfl, ha⟩
    have hpicks : a.picks t' = a.picks t :=
      h.filterMap_usable ht ha fun c hc => by rw [pick?, pick?, hc]
    rw [hpicks, List.forall₂_same]
    intro p hp
    have hchild := mem_children_of_mem_candidates (mem_usable.1 (mem_picks.1 hp).1).1
    obtain ⟨⟨j, c⟩, hmem, hnode⟩ := List.mem_map.1 hchild
    have hlt : p.node < t.size := hnode ▸ (ht.ordered hmem).2
    have htarget : (t'.node p.node).target? = (t.node p.node).target? := by
      have hredirect := congrArg Node.redirect (h.bare hlt)
      simp only [Node.bare] at hredirect
      rw [Node.target?, Node.target?, hredirect]
    have hgoesOn : t'.goesOn a.reader p ↔ t.goesOn a.reader p := by
      rw [goesOn, goesOn, needs, needs, htarget]
    by_cases hmore : t.goesOn a.reader p
    · cases hredirect : (t.node p.node).target? with
      | none =>
        exact .onward hmore (hgoesOn.2 hmore) hredirect (htarget.trans hredirect)
          ⟨rfl, ha.next ht hp hmore hlt _⟩
      | some target =>
        obtain ⟨r, hr, rfl⟩ := Option.map_eq_some_iff.1 hredirect
        exact .jump hmore (hgoesOn.2 hmore) hredirect (htarget.trans hredirect)
          ⟨rfl, ha.next ht hp hmore (hsettled.target _ r hr) _⟩ fun hw => by rw [hw]
    · exact .stop hmore (fun hmore' => hmore (hgoesOn.1 hmore')) rfl
  stuck := by
    rintro a _ ⟨rfl, ha⟩ -
    have hrefusals : t'.refusals a.node a.reader a.hop = t.refusals a.node a.reader a.hop :=
      h.filterMap_usable ht ha fun c hc => by rw [refusal?, refusal?, hc]
    rw [Place.impasse, Place.impasse, CommandTree.impasse, CommandTree.impasse, hrefusals]
  rank := fun hw => by rw [hw]

end Reading

/-- An input of which no piece is the name of a new command is read as before the command was registered, with the
same hops, nodes, values and errors, and is run with the same result and the same notices. -/
theorem parse_register (ht : t.Reachable) {id : NodeId} {s : NodeSpec σ} (h : t.register s = .ok (id, t'))
    (hnew : t.child? rootId s.name = none) {input : String} (hpieces : s.name ∉ pieces input) (source : σ) :
    t'.parse input source = t.parse input source ∧ t'.execute input source = t.execute input source := by
  have hreceives := receives_register ht.wellShaped h hnew
  have hclear : Place.Clear t s.name ⟨rootId, .ofString input, .start source rootId 0⟩ := by
    refine ⟨ht.wellShaped.root_lt, .inl rfl, ?_⟩
    have hinput : (Reader.ofString input).input = input := String.ofList_toList
    rw [hinput]
    exact hpieces
  have hparse : t.parse input source = t'.parse input source :=
    (hreceives.simulates ht.wellShaped ht.settled).parseFrom ⟨rfl, hclear⟩
  exact ⟨hparse.symm, by rw [execute, execute, hparse]⟩

/-- A command whose name begins like another one, and a keyword below it that has the name of that one. -/
def stopover : NodeSpec Unit :=
  { NodeSpec.ofPattern (.literal "stopover") with
    children := [{ NodeSpec.ofPattern (.literal "stop") with handler := some fun _ => .ok 2 }] }

theorem parse_register_stopover :
    roundabout.Reachable ∧ roundabout.child? rootId stopover.name = none ∧
      stopover.name ∉ pieces "again again stop" ∧
      ∃ t', roundabout.register stopover = .ok (3, t') ∧
        t'.parse "again again stop" () = roundabout.parse "again again stop" () ∧
        t'.execute "again again stop" () = roundabout.execute "again again stop" () := by
  have hregister : roundabout.register stopover = .ok (3, _) := rfl
  have hpieces : stopover.name ∉ pieces "again again stop" := by decide +kernel
  exact ⟨roundabout_reachable, rfl, hpieces, _, hregister,
    parse_register roundabout_reachable hregister rfl hpieces ()⟩

end CommandTree
end CommandEngine
