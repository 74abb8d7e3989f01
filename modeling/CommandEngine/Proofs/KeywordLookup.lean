import CommandEngine.Proofs.Keywords
import Mathlib.Data.List.TakeWhile

/-!
# Looking a keyword up and scanning for it

Whether a keyword comes next is told in two ways.  Reading takes the next token and looks it up among the keywords
below a node (`CommandTree.candidates`); the node itself compares its keyword with the text ahead and asks whether a
token may end after it (`Scan.keyword`).  `CommandTree.LooksUp` says that the two agree below a node, and what follows
from that: no two keywords are found at one place, the arguments are tried where no keyword is found, and reading
takes a keyword for every input that the node accepts.

A keyword is looked up where it is found and is itself one token (`CommandTree.mem_candidates_keyword`), so they agree
where no keyword has a separator in it (`CommandTree.looksUp_iff`).  Nothing that is checked when a node is added
keeps such keywords out of a tree.
-/

namespace CommandEngine

variable {σ : Type}

/-! ## A keyword ahead -/

namespace Scan

variable {k : String} {text : List Char}

/-- A keyword is found ahead: it comes next, and a token may end after it. -/
def Finds (k : String) (text : List Char) : Prop := (Scan.keyword k text).outcome = .ok ()

instance (k : String) (text : List Char) : Decidable (Finds k text) :=
  inferInstanceAs (Decidable (_ = _))

lemma finds_iff : Finds k text ↔ ∃ rest, text = k.toList ++ rest ∧ endsToken rest = true := by
  unfold Finds keyword
  split
  · next hfound =>
    rw [Bool.and_eq_true, List.isPrefixOf_iff_prefix] at hfound
    obtain ⟨⟨rest, rfl⟩, hends⟩ := hfound
    rw [List.drop_left] at hends
    exact ⟨fun _ => ⟨rest, rfl, hends⟩, fun _ => rfl⟩
  · next hnot =>
    constructor
    · intro h
      cases h
    · rintro ⟨rest, rfl, hends⟩
      simp [hends] at hnot

/-- A keyword is found in itself. -/
lemma finds_self (k : String) : Finds k k.toList := finds_iff.2 ⟨[], (List.append_nil _).symm, rfl⟩

/-- A keyword that is one token is found exactly where it is the next token. -/
lemma token_iff : k.toList = text.takeWhile (· ≠ separator) ↔ separator ∉ k.toList ∧ Finds k text := by
  constructor
  · intro htoken
    refine ⟨fun hmem => ?_, ?_⟩
    · rw [htoken] at hmem
      simpa using List.mem_takeWhile_imp hmem
    · rw [Finds, keyword_of_token htoken]
      rfl
  · rintro ⟨hunbroken, hfinds⟩
    obtain ⟨rest, rfl, hends⟩ := finds_iff.1 hfinds
    exact (CommandTree.takeWhile_token hunbroken hends).symm

lemma finds_of_accepts {input : String} (h : Reader.accepts (Scan.keyword k) input = true) :
    Finds k input.toList := by
  unfold Reader.accepts at h
  unfold Finds
  cases houtcome : (Scan.keyword k input.toList).outcome with
  | ok _ => rfl
  | error e => simp [houtcome] at h

end Scan

/-! ## Candidates -/

namespace CommandTree

variable {t : CommandTree σ} {id : NodeId} {text : List Char} {e : String × NodeId}

lemma child?_of_mem_literals (ht : t.WellShaped) (he : e ∈ t.literals id) :
    t.child? id e.1 = some e.2 ∧ (t.node e.2).isLiteral = true :=
  ⟨ht.child?_eq_some.2 (List.mem_of_mem_filter he), isLiteral_of_mem_literals he⟩

lemma pattern_of_mem_literals (ht : t.WellShaped) (he : e ∈ t.literals id) :
    (t.node e.2).pattern = some (.literal e.1) := by
  obtain ⟨hchild, hliteral⟩ := child?_of_mem_literals ht he
  exact pattern_of_keyword ht hchild hliteral

/-- A keyword is a candidate where it is found, if it is one token. -/
lemma mem_candidates_keyword (ht : t.WellShaped) (he : e ∈ t.literals id) :
    e.2 ∈ t.candidates id text ↔ separator ∉ e.1.toList ∧ Scan.Finds e.1 text := by
  rw [← Scan.token_iff]
  constructor
  · intro hc
    exact token_of_mem_candidates ht hc (pattern_of_mem_literals ht he)
  · intro htoken
    obtain ⟨hchild, hliteral⟩ := child?_of_mem_literals ht he
    rw [candidates_of_keyword ht hchild hliteral htoken]
    exact List.mem_singleton_self _

/-- An argument is a candidate where no keyword is. -/
lemma mem_candidates_argument (ht : t.WellShaped) (he : e ∈ t.arguments id) :
    e.2 ∈ t.candidates id text ↔ ∀ l ∈ t.literals id, l.2 ∉ t.candidates id text := by
  cases hfind : (t.literals id).find? fun l => l.1.toList = text.takeWhile (· ≠ separator) with
  | none =>
    have hall : t.candidates id text = (t.arguments id).map Prod.snd := by
      unfold candidates
      simp only [hfind]
    rw [hall]
    refine iff_of_true (List.mem_map_of_mem he) fun l hl hmem => ?_
    -- a node is not of both kinds
    obtain ⟨a, ha, hnode⟩ := List.mem_map.1 hmem
    have hargument := isLiteral_of_mem_arguments ha
    rw [hnode, (child?_of_mem_literals ht hl).2] at hargument
    cases hargument
  | some l =>
    have hl := List.mem_of_find?_eq_some hfind
    have hone : t.candidates id text = [l.2] := by
      unfold candidates
      simp only [hfind]
    rw [hone]
    refine iff_of_false (fun hmem => ?_) fun hnone => hnone l hl (List.mem_singleton_self _)
    have hargument := isLiteral_of_mem_arguments he
    rw [List.mem_singleton.1 hmem, (child?_of_mem_literals ht hl).2] at hargument
    cases hargument

/-! ## Where the two agree -/

/-- Looking up and scanning agree below a node. -/
structure LooksUp (t : CommandTree σ) (id : NodeId) : Prop where
  /-- A keyword is a candidate where it is found. -/
  keyword : ∀ r : Reader, ∀ e ∈ t.literals id, e.2 ∈ t.candidates id r.rest ↔ Scan.Finds e.1 r.rest
  /-- No two keywords are found at one place. -/
  single : ∀ r : Reader, ∀ e ∈ t.literals id, ∀ l ∈ t.literals id,
    Scan.Finds e.1 r.rest → Scan.Finds l.1 r.rest → e = l
  /-- The arguments are candidates where no keyword is found. -/
  argument : ∀ r : Reader, ∀ e ∈ t.arguments id,
    e.2 ∈ t.candidates id r.rest ↔ ∀ l ∈ t.literals id, ¬ Scan.Finds l.1 r.rest
  /-- What a keyword accepts as a whole input, wherever it stands, is read as that keyword and as nothing else. -/
  accepted : ∀ e ∈ t.literals id, ∀ input, (t.node e.2).accepts input = true →
    ∀ (past : List Char) (hop : Hop σ), (t.node e.2).canUse hop.source = true →
      (t.picks id ⟨past, input.toList⟩ hop).map Pick.node = [e.2]

/-- Looking up and scanning agree below a node exactly if every keyword there is one token. -/
theorem looksUp_iff (ht : t.Reachable) (id : NodeId) :
    t.LooksUp id ↔ ∀ e ∈ t.literals id, separator ∉ e.1.toList := by
  have hshape := ht.wellShaped
  constructor
  · intro h e he
    have hc := (h.keyword ⟨[], e.1.toList⟩ e he).2 (Scan.finds_self e.1)
    exact ((mem_candidates_keyword hshape he).1 hc).1
  · intro hunbroken
    have hkeyword : ∀ e ∈ t.literals id, ∀ text, e.2 ∈ t.candidates id text ↔ Scan.Finds e.1 text := by
      intro e he text
      rw [mem_candidates_keyword hshape he, and_iff_right (hunbroken e he)]
    have htoken : ∀ e ∈ t.literals id, ∀ text, Scan.Finds e.1 text →
        e.1.toList = text.takeWhile (· ≠ separator) :=
      fun e he text hfinds => Scan.token_iff.2 ⟨hunbroken e he, hfinds⟩
    refine ⟨fun r e he => hkeyword e he r.rest, fun r e he l hl hfinds hfinds' => ?_, fun r e he => ?_,
      fun e he input haccepts past hop hcanUse => ?_⟩
    · -- both are the next token, and names are distinct
      have hname : e.1 = l.1 :=
        String.toList_injective ((htoken e he _ hfinds).trans (htoken l hl _ hfinds').symm)
      exact List.inj_on_of_nodup_map (hshape.distinct id) (List.mem_of_mem_filter he) (List.mem_of_mem_filter hl)
        hname
    · rw [mem_candidates_argument hshape he]
      exact forall₂_congr fun l hl => not_congr (hkeyword l hl r.rest)
    · have hpattern := pattern_of_mem_literals hshape he
      rw [Node.accepts, hpattern] at haccepts
      obtain ⟨hchild, hliteral⟩ := child?_of_mem_literals hshape he
      have hpicks : t.picks id ⟨past, input.toList⟩ hop = _ :=
        picks_of_keyword hshape hchild hliteral hcanUse (htoken e he _ (Scan.finds_of_accepts haccepts))
      rw [hpicks]
      rfl

/-- Directions, one of them in two words, and a place. -/
def signpost : CommandTree Unit :=
  ⟨#[{ Node.root with children := [("go", 1)] },
    ⟨some (.literal "go"), [("north", 2), ("north west", 3), ("place", 4)], none, none, none⟩,
    ⟨some (.literal "north"), [], none, none, none⟩,
    ⟨some (.literal "north west"), [], none, none, none⟩,
    ⟨some (.argument "place" (.text .word) none), [], none, none, none⟩]⟩

lemma signpost_reachable : signpost.Reachable :=
  .register (s := { NodeSpec.ofPattern (.literal "go") with
    children := [.ofPattern (.literal "north"), .ofPattern (.literal "north west"),
      .ofPattern (.argument "place" (.text .word) none)] }) .empty rfl

/-- The direction in two words is never a candidate, although it was registered and accepts itself as an input.
Where it is found, so is the one in one word, which is taken instead. -/
theorem not_looksUp_signpost :
    signpost.Reachable ∧ ¬ signpost.LooksUp 1 ∧ (signpost.node 3).accepts "north west" = true ∧
      Scan.Finds "north" "north west".toList ∧ Scan.Finds "north west" "north west".toList ∧
      signpost.candidates 1 "north west".toList = [2] := by
  have hcandidates : signpost.candidates 1 "north west".toList = [2] := by decide
  have hfinds : Scan.Finds "north west" "north west".toList := Scan.finds_self _
  have hmem : ("north west", 3) ∈ signpost.literals 1 := List.mem_cons_of_mem _ (List.mem_cons_self ..)
  refine ⟨signpost_reachable, fun h => ?_, by decide, by decide +kernel, hfinds, hcandidates⟩
  have hc := (h.keyword ⟨[], "north west".toList⟩ _ hmem).2 hfinds
  rw [hcandidates] at hc
  exact absurd hc (by decide)

/-- At the root, where the only keyword is one token, looking up and scanning agree. -/
theorem looksUp_iff_signpost : signpost.Reachable ∧ signpost.LooksUp rootId ∧
    signpost.candidates rootId "go north".toList = [1] := by
  have hunbroken : ∀ e ∈ signpost.literals rootId, separator ∉ e.1.toList := by decide
  exact ⟨signpost_reachable, (looksUp_iff signpost_reachable rootId).2 hunbroken, by decide⟩

end CommandTree
end CommandEngine
