import CommandEngine.Proofs.Simulation
import CommandEngine.Proofs.Stopping

/-!
# Commands behind a lead

A command need not stand at the beginning of an input.  If it begins behind a lead, it is read as it would be without
the lead, and what was read is told in offsets of the longer input: `CommandTree.parse_ledBy`.  Every span and every
error is moved by the width of the lead, and nothing else changes.

The reason is that nothing looks back.  Scans are handed the text ahead, so the same candidates match at a place and
take the same characters (`CommandTree.matchToken_ledBy`), reading goes on or ends by how much is left, and readings
compare by what they leave and by whether they have errors.
-/

namespace CommandEngine

variable {σ : Type}

/-! ## Moving what was read -/

/-- A span that stands `n` bytes later. -/
def Span.shift (n : Nat) (s : Span) : Span := ⟨n + s.start, n + s.stop, Nat.add_le_add_left s.ordered n⟩

namespace Span

variable {n : Nat}

lemma shift_union (a b : Span) : (a.union b).shift n = (a.shift n).union (b.shift n) := by
  simp only [shift, union, mk.injEq]
  omega

lemma isEmpty_shift (s : Span) : (s.shift n).isEmpty = s.isEmpty := by
  rw [Bool.eq_iff_iff, isEmpty, isEmpty, beq_iff_eq, beq_iff_eq]
  exact Nat.add_left_cancel_iff

end Span

/-- A matched node whose token stands `n` bytes later. -/
def MatchedNode.shift (n : Nat) (m : MatchedNode) : MatchedNode := { m with span := m.span.shift n }

/-- An argument whose token stands `n` bytes later. -/
def ParsedArgument.shift (n : Nat) (p : ParsedArgument) : ParsedArgument := { p with span := p.span.shift n }

namespace Hop

/-- A hop whose tokens stand `n` bytes later. -/
def shift (n : Nat) (h : Hop σ) : Hop σ :=
  { h with
    arguments := h.arguments.map fun e => (e.1, e.2.shift n)
    nodes := h.nodes.map (MatchedNode.shift n)
    span := h.span.shift n }

variable {n : Nat} {h : Hop σ}

lemma shift_start (source : σ) (root : NodeId) (offset : Nat) :
    (start source root offset).shift n = start source root (n + offset) := rfl

lemma shift_withNode (c : NodeId) (span : Span) (modifier : Option (Modifier σ)) (forks : Bool) :
    (h.withNode c span modifier forks).shift n = (h.shift n).withNode c (span.shift n) modifier forks := by
  simp [shift, withNode, MatchedNode.shift, Span.shift_union]

lemma shift_putArgument (name : String) (p : ParsedArgument) (l : List (String × ParsedArgument)) :
    (putArgument name p l).map (fun e => (e.1, e.2.shift n)) =
      putArgument name (p.shift n) (l.map fun e => (e.1, e.2.shift n)) := by
  induction l with
  | nil => rfl
  | cons e l ih =>
    simp only [putArgument, List.map_cons]
    split
    · rfl
    · rw [List.map_cons, ih]

lemma shift_withArgument (name : String) (p : ParsedArgument) :
    (h.withArgument name p).shift n = (h.shift n).withArgument name (p.shift n) := by
  simp only [shift, withArgument, shift_putArgument]

end Hop

/-- A trail whose tokens stand `n` bytes later. -/
def Trail.shift (n : Nat) (t : Trail σ) : Trail σ := ⟨t.first.shift n, t.later.map (Hop.shift n)⟩

/-- An error about an input that has a lead in front of it. -/
def SyntaxError.ledBy (lead : String) (e : SyntaxError) : SyntaxError :=
  ⟨e.reason, e.input.map (lead ++ ·), e.cursor.map (Text.width lead.toList + ·)⟩

namespace Reader

/-- The same place of an input that has a lead in front of it. -/
def ledBy (lead : String) (r : Reader) : Reader := ⟨lead.toList ++ r.past, r.rest⟩

variable {lead : String} {r : Reader}

lemma advance_ledBy (n : Nat) : (r.ledBy lead).advance n = (r.advance n).ledBy lead := by
  simp [ledBy, advance]

lemma cursor_ledBy : (r.ledBy lead).cursor = Text.width lead.toList + r.cursor := by
  rw [cursor, ledBy, Text.width_append, cursor]

lemma input_ledBy : (r.ledBy lead).input = lead ++ r.input := by
  apply String.toList_injective
  simp [input, chars, ledBy]

lemma ahead_ledBy (n : Nat) : (r.ledBy lead).ahead n = (r.ahead n).shift (Text.width lead.toList) := by
  simp only [ahead, Span.shift, advance_ledBy, cursor_ledBy]

lemma error_ledBy (reason : Reason) : (r.ledBy lead).error reason = (r.error reason).ledBy lead := by
  rw [error, input_ledBy, cursor_ledBy]
  rfl

end Reader

namespace ParseResult

/-- What was read of an input, told of one that has a lead in front of it. -/
def ledBy (lead : String) (w : ParseResult σ) : ParseResult σ :=
  ⟨w.trail.shift (Text.width lead.toList), w.reader.ledBy lead, w.failures.map fun f => (f.1, f.2.ledBy lead)⟩

variable {lead : String} (w : ParseResult σ)

lemma isComplete_ledBy : (w.ledBy lead).isComplete = w.isComplete := rfl

lemma rank_ledBy : (w.ledBy lead).rank = w.rank := by
  have hfailures : (w.ledBy lead).failures.isEmpty = w.failures.isEmpty := List.isEmpty_map
  rw [rank, rank, hfailures]
  rfl

/-- Why an input was not read to its end is told of the longer one. -/
lemma error?_ledBy : (w.ledBy lead).error? = w.error?.map (SyntaxError.ledBy lead) := by
  have hempty : (w.ledBy lead).trail.first.span.isEmpty = w.trail.first.span.isEmpty :=
    Span.isEmpty_shift _
  unfold error?
  rw [isComplete_ledBy, hempty]
  split
  · rfl
  · simp only [ledBy, Reader.error_ledBy]
    cases w.failures with
    | nil => rfl
    | cons f rest => cases rest <;> rfl

end ParseResult

/-! ## Matching behind a lead -/

/-- A pick whose token stands `n` bytes later. -/
def Pick.shift (n : Nat) (p : Pick σ) : Pick σ := ⟨p.node, p.hop.shift n, p.passed⟩

namespace CommandTree

variable {t : CommandTree σ} {lead : String} {r : Reader} {hop : Hop σ}

/-- How a candidate is matched, told of an input that has a lead in front of it. -/
def ledMatch (lead : String) (m : Except SyntaxError (Hop σ × Nat)) : Except SyntaxError (Hop σ × Nat) :=
  (m.map fun taken => (taken.1.shift (Text.width lead.toList), taken.2)).mapError (SyntaxError.ledBy lead)

lemma matchNode_ledBy (c : NodeId) :
    t.matchNode (r.ledBy lead) (hop.shift (Text.width lead.toList)) c = ledMatch lead (t.matchNode r hop c) := by
  have hrest : (r.ledBy lead).rest = r.rest := rfl
  have hsource : (hop.shift (Text.width lead.toList)).source = hop.source := rfl
  unfold matchNode
  cases hpattern : (t.node c).pattern with
  | none =>
    simp only [hpattern]
    rfl
  | some p =>
    cases p with
    | literal keyword =>
      simp only [hpattern, hrest]
      cases (Scan.keyword keyword r.rest).outcome with
      | error e =>
        simp only [Reader.advance_ledBy, Reader.error_ledBy]
        rfl
      | ok _ =>
        simp only [Reader.ahead_ledBy, ← Hop.shift_withNode]
        rfl
    | argument name type provider =>
      simp only [hpattern, hrest, hsource]
      cases (type.scan (some hop.source) r.rest).outcome with
      | error e =>
        simp only [Reader.advance_ledBy, Reader.error_ledBy]
        rfl
      | ok value =>
        have hargument : ∀ span : Span, (⟨span.shift (Text.width lead.toList), value⟩ : ParsedArgument) =
            ParsedArgument.shift (Text.width lead.toList) ⟨span, value⟩ := fun _ => rfl
        simp only [Reader.ahead_ledBy, hargument, ← Hop.shift_withArgument, ← Hop.shift_withNode]
        rfl

/-- A candidate is matched with the text ahead, so it is refused for the same reason or takes the same token. -/
lemma matchToken_ledBy (c : NodeId) :
    t.matchToken (r.ledBy lead) (hop.shift (Text.width lead.toList)) c = ledMatch lead (t.matchToken r hop c) := by
  have hrest : (r.ledBy lead).rest = r.rest := rfl
  unfold matchToken
  rw [matchNode_ledBy]
  cases t.matchNode r hop c with
  | error e => rfl
  | ok taken =>
    simp only [ledMatch, Except.map, Except.mapError, hrest, Reader.advance_ledBy, Reader.error_ledBy]
    split <;> rfl

lemma picks_ledBy (id : NodeId) :
    t.picks id (r.ledBy lead) (hop.shift (Text.width lead.toList)) =
      (t.picks id r hop).map (Pick.shift (Text.width lead.toList)) := by
  rw [picks, picks, List.map_filterMap]
  refine List.filterMap_congr fun c _ => ?_
  rw [pick?, pick?, matchToken_ledBy]
  cases t.matchToken r hop c <;> rfl

lemma refusals_ledBy (id : NodeId) :
    t.refusals id (r.ledBy lead) (hop.shift (Text.width lead.toList)) =
      (t.refusals id r hop).map fun f => (f.1, f.2.ledBy lead) := by
  rw [refusals, refusals, List.map_filterMap]
  refine List.filterMap_congr fun c _ => ?_
  rw [refusal?, refusal?, matchToken_ledBy]
  cases t.matchToken r hop c <;> rfl

lemma exists_error_of_matchNode {c : NodeId} {e : SyntaxError} (h : t.matchNode r hop c = .error e) :
    ∃ n reason, e = (r.advance n).error reason := by
  unfold matchNode at h
  cases hpattern : (t.node c).pattern with
  | none => simp [hpattern] at h
  | some p =>
    cases p with
    | literal keyword =>
      simp only [hpattern] at h
      split at h
      · exact ⟨_, _, (Except.error.inj h).symm⟩
      · cases h
    | argument name type provider =>
      simp only [hpattern] at h
      split at h
      · exact ⟨_, _, (Except.error.inj h).symm⟩
      · cases h

/-- A candidate is refused at the place or further on in the input that is read. -/
lemma exists_error_of_matchToken {c : NodeId} {e : SyntaxError} (h : t.matchToken r hop c = .error e) :
    ∃ n reason, e = (r.advance n).error reason := by
  unfold matchToken at h
  cases hmatch : t.matchNode r hop c with
  | error e' =>
    rw [hmatch] at h
    obtain rfl := Except.error.inj h
    exact exists_error_of_matchNode hmatch
  | ok taken =>
    simp only [hmatch] at h
    split at h
    · cases h
    · exact ⟨_, _, (Except.error.inj h).symm⟩

lemma input_of_mem_refusals {id : NodeId} {f : NodeId × SyntaxError} (hf : f ∈ t.refusals id r hop) :
    f.2.input = some r.input := by
  obtain ⟨c, -, hrefusal⟩ := List.mem_filterMap.1 hf
  unfold refusal? at hrefusal
  cases hmatch : t.matchToken r hop c with
  | ok taken => simp [hmatch] at hrefusal
  | error e =>
    obtain ⟨n, reason, rfl⟩ := exists_error_of_matchToken hmatch
    simp only [hmatch, Option.some.injEq] at hrefusal
    subst hrefusal
    exact congrArg some (r.input_advance n)

/-! ## Reading behind a lead -/

/-- The same place of an input that has a lead in front of it. -/
def Place.ledBy (lead : String) (a : Place σ) : Place σ :=
  ⟨a.node, a.reader.ledBy lead, a.hop.shift (Text.width lead.toList)⟩

/-- Reading has come to the same place of an input and of that input behind a lead. -/
structure Follows (lead input : String) (a b : Place σ) : Prop where
  place : b = a.ledBy lead
  input : a.reader.input = input

/-- The same was read of an input and of that input behind a lead, and all errors are about that input. -/
structure ReadsSame (lead input : String) (w w' : ParseResult σ) : Prop where
  result : w' = w.ledBy lead
  input : ∀ f ∈ w.failures, f.2.input = some input

/-- A pick leads the same way behind a lead. -/
lemma parallel_ledBy {input : String} (a : Place σ) (hinput : a.reader.input = input) (p : Pick σ) :
    Parallel t t (Follows lead input) (ReadsSame lead input) a (a.ledBy lead) p
      (p.shift (Text.width lead.toList)) := by
  have hinput' : (a.reader.advance (p.passed + 1)).input = input := by rw [Reader.input_advance, hinput]
  by_cases hmore : t.goesOn a.reader p
  · have hmore' : t.goesOn (a.ledBy lead).reader (p.shift (Text.width lead.toList)) := hmore
    cases hredirect : (t.node p.node).target? with
    | none =>
      refine .onward hmore hmore' hredirect hredirect ⟨?_, hinput'⟩
      simp only [Place.below, Place.ledBy, Pick.shift, Reader.advance_ledBy]
    | some target =>
      refine .jump hmore hmore' hredirect hredirect ⟨?_, hinput'⟩ ?_
      · simp only [Place.across, Place.ledBy, Pick.shift, Reader.advance_ledBy, landing, Hop.shift_start,
          Reader.cursor_ledBy]
        rfl
      · rintro w _ ⟨rfl, hfailures⟩
        exact ⟨rfl, hfailures⟩
  · refine .stop hmore hmore ⟨?_, by simp [arrival]⟩
    simp [arrival, ParseResult.ledBy, Place.ledBy, Pick.shift, Reader.advance_ledBy, Trail.shift, Trail.single]

lemma simulates_ledBy (t : CommandTree σ) (lead input : String) :
    Simulates t t (Follows lead input) (ReadsSame lead input) := by
  refine ⟨?_, ?_, ?_⟩
  · rintro a _ ⟨rfl, hinput⟩
    have hpicks : (a.ledBy lead).picks t = (a.picks t).map (Pick.shift (Text.width lead.toList)) :=
      picks_ledBy a.node
    rw [hpicks, List.forall₂_map_right_iff, List.forall₂_same]
    exact fun p _ => parallel_ledBy a hinput p
  · rintro a _ ⟨rfl, hinput⟩ -
    refine ⟨?_, fun f hf => hinput ▸ input_of_mem_refusals hf⟩
    show CommandTree.impasse t a.node (a.reader.ledBy lead) (a.hop.shift (Text.width lead.toList)) = _
    rw [CommandTree.impasse, refusals_ledBy]
    rfl
  · rintro w _ ⟨rfl, -⟩
    exact w.rank_ledBy.symm

end CommandTree
end CommandEngine
