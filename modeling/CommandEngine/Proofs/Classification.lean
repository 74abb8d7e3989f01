import CommandEngine.Proofs.ByteParse
import CommandEngine.Proofs.Forwarding
import CommandEngine.Proofs.Registration
import CommandEngine.Proofs.Schedule
import CommandEngine.Proofs.Tree.Arena

/-!
# How a command fails

A command is refused in one of two ways.  If its input is not read to the end, nothing is called and nobody is told,
and the error says how far the input was understood: where its first piece is not a command that the source may use,
the whole command is unknown; otherwise the only candidate that failed speaks for itself, or else an argument is
unknown at the place where reading stopped.  If the input is read to the end, the command is unknown exactly where
the innermost hop has no handler, and one failure is reported.  `CommandTree.executeBy_classified` says so of every
tree that is built by registering commands, for parsers of one's own that keep to what is documented.  These may still
speak of an unknown command themselves (`CommandTree.not_namesUnknownCommands`).

Whether a command is unknown is decided by the span of the first hop.  This is empty exactly where nothing was matched
(`CommandTree.isEmpty_first_parse_iff`), because in such a tree all that comes first is a keyword and no keyword is
empty.
-/

namespace CommandEngine

variable {σ : Type}

/-! ## Trees of registered commands -/

/-- A spec declares nothing at its own path but itself. -/
lemma NodeSpec.eq_of_mem_declarations {s d : NodeSpec σ} {k : String} (h : ([k], d) ∈ s.declarations []) : d = s := by
  obtain ⟨pattern, children, handler, requirement, redirect⟩ := s
  rw [declarations] at h
  rcases List.mem_cons.1 h with heq | hbelow
  · exact (Prod.mk.inj heq).2
  · obtain ⟨k', q, hpath⟩ := exists_of_mem_declarationsAll children hbelow
    have hlength := congrArg List.length hpath
    simp at hlength

namespace CommandTree

variable {t t' : CommandTree σ} {source : σ} {input : String}

/-- The trees that are built by registering commands and by making nodes redirect. -/
inductive Registered : CommandTree σ → Prop
  | empty : Registered .empty
  | register {t t' : CommandTree σ} {id : NodeId} {s : NodeSpec σ} (before : Registered t)
      (added : t.register s = .ok (id, t')) : Registered t'
  | setRedirect {t t' : CommandTree σ} {id : NodeId} {r : Redirect σ} (before : Registered t)
      (exists_node : id < t.size) (redirected : t.setRedirect id r = .ok t') : Registered t'

lemma Registered.reachable (h : t.Registered) : t.Reachable := by
  induction h with
  | empty => exact .empty
  | register _ hadded ih => exact ih.register hadded
  | setRedirect _ hid hset ih => exact .setRedirect ih hid hset

/-- Only keywords stand below the root. -/
def KeywordsFirst (t : CommandTree σ) : Prop :=
  ∀ c ∈ t.children rootId, ∃ k, (t.node c).pattern = some (.literal k)

/-- A new command is a keyword, and the other children of the root match what they did. -/
lemma KeywordsFirst.register (h : t.KeywordsFirst) (ht : t.WellShaped) {id : NodeId} {s : NodeSpec σ}
    (hadded : t.register s = .ok (id, t')) : t'.KeywordsFirst := by
  obtain ⟨hliteral, hadded⟩ := register_eq_ok hadded
  obtain ⟨-, hjoins⟩ := joinsAll_addChild ht find?_nil hadded
  have hextends := hjoins.extends ht
  intro c hc
  obtain ⟨⟨k, c⟩, hchild, rfl⟩ := List.mem_map.1 hc
  have hpath : t'.find? ([] ++ [k]) = some c := by
    rw [find?_concat_of_some find?_nil, hextends.shaped.child?_eq_some]
    exact hchild
  rcases hextends.origin hpath with ⟨hold, hpattern, -⟩ | ⟨-, d, rest, hdeclared, hpattern, -⟩
  · rw [find?_concat_of_some find?_nil, ht.child?_eq_some] at hold
    rw [hpattern]
    exact h c (List.mem_map.2 ⟨(k, c), hold, rfl⟩)
  · obtain rfl : d = s := NodeSpec.eq_of_mem_declarations (mem_declaredAt.1 (hdeclared ▸ List.mem_cons_self ..))
    rw [hpattern]
    cases hd : d.pattern with
    | literal k => exact ⟨k, rfl⟩
    | argument name type provider =>
      rw [hd] at hliteral
      cases hliteral

theorem Registered.keywordsFirst (h : t.Registered) : t.KeywordsFirst := by
  induction h with
  | empty => exact fun c hc => absurd hc List.not_mem_nil
  | register before hadded ih => exact ih.register before.reachable.wellShaped hadded
  | @setRedirect t t' id r _ hid hset ih =>
    have hsame := sameShape_setRedirect hid hset
    intro c hc
    rw [hsame.pattern]
    rw [CommandTree.children, hsame.children] at hc
    exact ih c hc

/-! ## Whether anything is matched -/

/-- The first piece of an input is a keyword below the root that the source may use. -/
def Knows (t : CommandTree σ) (source : σ) (input : String) : Prop :=
  ∃ c ∈ t.children rootId, ∃ k, (t.node c).pattern = some (.literal k) ∧ (t.node c).canUse source = true ∧
    (pieces input).head? = some k

lemma head?_pieces_eq_some {k : String} :
    (pieces input).head? = some k ↔ k.toList = input.toList.takeWhile (· ≠ separator) := by
  rw [head?_pieces, Option.some.injEq]
  constructor
  · rintro rfl
    exact String.toList_ofList
  · intro h
    rw [← h, String.ofList_toList]

/-- Where the first piece is not a known keyword, reading does not begin. -/
lemma parse_of_not_knows (ht : t.WellShaped) (hfirst : t.KeywordsFirst) (h : ¬ t.Knows source input) :
    t.parse input source = ⟨.single (.start source rootId 0), .ofString input, []⟩ := by
  refine parseFrom_of_usable_nil (List.filter_eq_nil_iff.2 fun c hc hcanUse => h ?_)
  have hchild := mem_children_of_mem_candidates hc
  obtain ⟨k, hpattern⟩ := hfirst c hchild
  exact ⟨c, hchild, k, hpattern, hcanUse, head?_pieces_eq_some.2 (token_of_mem_candidates ht hc hpattern)⟩

/-- A walk covers something with its first hop if whatever can be picked first does. -/
lemma Walk.isEmpty_first_of_picks (ht : t.WellShaped) {id : NodeId} {r : Reader} {hop : Hop σ} {w : ParseResult σ}
    (hwalk : t.Walk id r hop w) (hpicks : t.picks id r hop ≠ [])
    (hcovers : ∀ p ∈ t.picks id r hop, p.hop.span.isEmpty = false) : w.trail.first.span.isEmpty = false := by
  cases hwalk with
  | stop p hp _ => exact hcovers p hp
  | onward p hp _ _ hnext => exact hnext.isEmpty_first ht (hcovers p hp)
  | jump p hp _ _ _ => exact hcovers p hp
  | deadEnd hstuck => exact absurd hstuck hpicks

/-- Where the first piece is a known keyword, the first hop covers it. -/
lemma isEmpty_first_of_knows (ht : t.Reachable) (h : t.Knows source input) :
    (t.parse input source).trail.first.span.isEmpty = false := by
  obtain ⟨c, hc, k, hpattern, hcanUse, hpiece⟩ := h
  have htoken := head?_pieces_eq_some.1 hpiece
  obtain ⟨hchild, hliteral⟩ := keyword_of_pattern ht.wellShaped hc hpattern
  have hmem := ht.wellShaped.child?_eq_some.1 hchild
  obtain ⟨hroot, hsize⟩ := ht.wellShaped.ordered hmem
  have hne : k ≠ "" := ht.wellShaped.name_of_mem hmem ▸ ht.settled.named c hsize (Nat.ne_of_gt hroot)
  have hpicks : t.picks rootId (.ofString input) (.start source rootId 0) = _ :=
    picks_of_keyword ht.wellShaped hchild hliteral hcanUse htoken
  have hrest : (Reader.ofString input).rest =
      k.toList ++ (Reader.ofString input).rest.dropWhile (· ≠ separator) := by
    rw [htoken]
    exact List.takeWhile_append_dropWhile.symm
  refine (t.walk_parseReader (.ofString input) source).isEmpty_first_of_picks ht.wellShaped ?_ ?_
  · exact hpicks ▸ List.cons_ne_nil _ _
  · intro p hp
    obtain rfl := List.mem_singleton.1 (hpicks ▸ hp)
    exact isEmpty_entered hne hrest

/-- The first hop covers nothing exactly where the first piece is not a known keyword. -/
theorem isEmpty_first_parse_iff (ht : t.Registered) (input : String) (source : σ) :
    (t.parse input source).trail.first.span.isEmpty = true ↔ ¬ t.Knows source input := by
  constructor
  · intro hempty hknows
    rw [isEmpty_first_of_knows ht.reachable hknows] at hempty
    cases hempty
  · intro hknows
    rw [parse_of_not_knows ht.reachable.wellShaped ht.keywordsFirst hknows]
    rfl

/-- Reading does not stop before the end of the first hop. -/
lemma Walk.stop_first_le (ht : t.WellShaped) {id : NodeId} {r : Reader} {hop : Hop σ} {w : ParseResult σ}
    (hwalk : t.Walk id r hop w) (hstop : hop.span.stop ≤ r.cursor) :
    w.trail.first.span.stop ≤ w.reader.cursor := by
  have hpick : ∀ {id : NodeId} {r : Reader} {hop : Hop σ} {p : Pick σ}, p ∈ t.picks id r hop →
      hop.span.stop ≤ r.cursor → p.hop.span.stop = (r.advance p.passed).cursor := by
    intro id r hop p hp hstop
    rw [(takes_of_mem_picks ht hp).span_eq]
    exact max_eq_right (hstop.trans (r.cursor_le_cursor_advance p.passed))
  have hnext : ∀ (r : Reader) (n : Nat), (r.advance n).cursor ≤ (r.advance (n + 1)).cursor := by
    intro r n
    rw [Reader.cursor_advance, Reader.cursor_advance, List.take_add, Text.width_append]
    omega
  induction hwalk with
  | stop p hp _ => exact (hpick hp hstop).le
  | @onward id r hop w p hp _ _ _ ih => exact ih ((hpick hp hstop).le.trans (hnext r p.passed))
  | @jump id target r hop w p hp _ _ hinner ih =>
    -- the hop behind the redirect starts further on
    have hlanding := (hinner.covers ht).2
    exact ((hpick hp hstop).le.trans (hnext r p.passed)).trans (hlanding.trans (ih (Nat.le_refl _)))
  | deadEnd _ => exact hstop

end CommandTree

/-! ## Errors -/

namespace ParseResult

variable {r : ParseResult σ} {e : SyntaxError}

lemma error?_of_single (hrest : r.isComplete = false) {f : NodeId × SyntaxError} (h : r.failures = [f]) :
    r.error? = some f.2 := by
  rw [error?, hrest, if_neg Bool.false_ne_true, h]

lemma error?_of_not_single (hrest : r.isComplete = false) (h : r.failures.length ≠ 1) :
    r.error? = some (r.reader.error (if r.trail.first.span.isEmpty then .unknownCommand else .unknownArgument)) := by
  rw [error?, hrest, if_neg Bool.false_ne_true]
  split
  · next hsingle =>
    rw [hsingle] at h
    exact absurd rfl h
  · rfl

/-- What is not read to the end is refused before anything is called. -/
lemma execute_of_error? (h : r.error? = some e) : r.execute = ⟨.error e, []⟩ := by
  rw [execute, h]

end ParseResult

/-- A run of a chain calls modifiers and handlers, so it is not one without a handler. -/
lemma Chain.unhandled_notMem_run (c : Chain σ) (source : σ) (context : Context σ) :
    .unhandled context ∉ (c.run source).trace := by
  intro h
  obtain ⟨_, _, he⟩ | ⟨_, he⟩ := Chain.cases_of_mem_trace h
  · cases he
  · cases he

/-- A command was read to its end and refused for want of a handler: the error is at the end of the input, and the
observer is told of one failure, for the source that the command was meant to be run for. -/
structure Run.Unhandled (run : Run σ Int32) (input : String) (source : σ) : Prop where
  outcome : run.outcome = .error (.located .unknownCommand input (Text.width input.toList))
  told : ∃ context : Context σ, context.source = source ∧ run.trace = [.unhandled context] ∧
    run.notices = [⟨context, false, 0⟩]

namespace CommandTree

variable {t : CommandTree σ} {own : CustomType σ → ArgumentParser σ} {source : σ} {input : String}

/-- A whole command is refused for want of a handler exactly where its innermost hop has none. -/
theorem unhandled_execute_iff (ht : t.WellShaped) (hcomplete : (t.parse input source).isComplete = true) :
    (t.execute input source).Unhandled input source ↔ (t.parse input source).trail.last.handler = none := by
  have herror : (t.parse input source).error? = none := by rw [ParseResult.error?, hcomplete, if_pos rfl]
  rw [execute, ParseResult.execute, herror, Chain.ofTrail?]
  cases hhandler : (t.parse input source).trail.last.handler with
  | none =>
    simp only [Option.map_none, iff_true]
    refine ⟨congrArg Except.error ?_, (t.parse input source).context, ?_, rfl, rfl⟩
    · have hend : (t.parse input source).reader.rest = [] := by
        simpa [ParseResult.isComplete, Reader.canRead] using hcomplete
      have hpast : (t.parse input source).reader.past = input.toList := by
        have hchars := chars_parse ht input source
        rwa [Reader.chars, hend, List.append_nil] at hchars
      rw [Reader.error, input_parse ht, Reader.cursor, hpast]
    · exact (legal_parseReader ht (.ofString input) source).1.head.source_eq
  | some handler =>
    simp only [Option.map_some, reduceCtorEq, iff_false]
    rintro ⟨-, context, -, htrace, -⟩
    refine Chain.unhandled_notMem_run _ _ context (htrace ▸ List.mem_singleton_self _)

/-- Behind a known keyword, reading has left the start. -/
lemma cursor_pos_of_knows (ht : t.Reachable) (h : t.Knows source input) : 0 < (t.parse input source).reader.cursor := by
  have hne : (t.parse input source).trail.first.span.start ≠ (t.parse input source).trail.first.span.stop :=
    ne_of_beq_false (isEmpty_first_of_knows ht h)
  have hordered := (t.parse input source).trail.first.span.ordered
  have hstop : (t.parse input source).trail.first.span.stop ≤ (t.parse input source).reader.cursor :=
    (t.walk_parseReader (.ofString input) source).stop_first_le ht.wellShaped (Nat.le_refl _)
  omega

/-- An error that reading leaves is what the type of an argument says at the place where reading stopped. -/
lemma exists_refusal (ht : t.WellShaped) {f : NodeId × SyntaxError} (hf : f ∈ (t.parse input source).failures) :
    ∃ name type provider, (t.node f.1).pattern = some (.argument name type provider) ∧
      f.2 = type.refusal source (t.parse input source).reader := by
  rcases arrived_or_stuck_parseReader ht (.ofString input) source with harrived | hstuck
  · have hnone : (t.parse input source).failures = [] := harrived.spared
    rw [hnone] at hf
    exact absurd hf List.not_mem_nil
  · refine hstuck.exists_argument ht ?_ hf
    exact ((legal_parseReader ht (.ofString input) source).1.hops _ (Trail.last_mem_hops _)).source_eq

/-- The only error that reading has left is the given one, and it is that of an argument whose type is one's own and whose
parser gave it. -/
def BlamedBy (t : CommandTree σ) (own : CustomType σ → ArgumentParser σ) (source : σ) (w : ParseResult σ)
    (e : SyntaxError) : Prop :=
  ∃ id name type provider next, w.failures = [(id, e)] ∧
    (t.node id).pattern = some (.argument name (.custom type) provider) ∧
    own type (some source) w.reader.bytes = some (.error e, next)

/-- Where the first piece is not a known keyword, the command is unknown. -/
lemma error?_of_not_knows (ht : t.Registered) (hrest : (t.parse input source).isComplete = false)
    (h : ¬ t.Knows source input) : (t.parse input source).error? = some (.located .unknownCommand input 0) := by
  have hparse := parse_of_not_knows ht.reachable.wellShaped ht.keywordsFirst h
  have hnone : (t.parse input source).failures.length ≠ 1 := by
    rw [hparse]
    exact Nat.zero_ne_one
  rw [ParseResult.error?_of_not_single hrest hnone, (isEmpty_first_parse_iff ht input source).2 h, if_pos rfl,
    Reader.error, input_parse ht.reachable.wellShaped, hparse]
  rfl

/-- Behind a known keyword, the only error that reading has left is not about the start of the input, and it does not
speak of an unknown command unless a parser of one's own does so. -/
lemma ne_unknownCommand_of_single (ht : t.Reachable) (hown : t.Documents own) (h : t.Knows source input)
    {f : NodeId × SyntaxError} (hf : (t.parse input source).failures = [f]) :
    f.2 ≠ .located .unknownCommand input 0 ∧
      (f.2.reason = .unknownCommand → t.BlamedBy own source (t.parse input source) f.2) := by
  obtain ⟨name, type, provider, hpattern, hrefusal⟩ := exists_refusal ht.wellShaped (hf ▸ List.mem_singleton_self f)
  refine ⟨fun heq => ?_, fun hreason => ?_⟩
  · obtain ⟨-, offset, hoffset, hle, -⟩ := type.refusal_located source (t.parse input source).reader
    rw [← hrefusal, heq] at hoffset
    obtain rfl : 0 = offset := Option.some.inj hoffset
    exact absurd (cursor_pos_of_knows ht h) (Nat.not_lt.2 hle)
  · obtain ⟨custom, rfl, -⟩ := ArgumentType.custom_of_refusal rfl Reason.noConfusion (hrefusal ▸ hreason)
    obtain ⟨next, hanswer⟩ := ArgumentType.answer_of_refusal (hown.reads hpattern (some source)) hrefusal
      fun hseparator => Reason.noConfusion (hreason.symm.trans hseparator)
    exact ⟨f.1, name, custom, provider, next, hf, hpattern, hanswer⟩

/-- A command with a mark. -/
def counter : CommandTree Unit :=
  ⟨#[{ Node.root with children := [("count", 1)] },
    ⟨some (.literal "count"), [("mark", 2)], none, none, none⟩,
    ⟨some (.argument "mark" (.custom mark) none), [], some fun _ => .ok 1, none, none⟩]⟩

lemma counter_registered : counter.Registered :=
  .register (s := { NodeSpec.ofPattern (.literal "count") with children :=
    [{ NodeSpec.ofPattern (.argument "mark" (.custom mark) none) with handler := some fun _ => .ok 1 }] }) .empty rfl

lemma counter_documents : counter.Documents fun _ => markParser where
  documented _ := markParser_documented
  scan_eq {id} _ _ _ hpattern := by
    match id with
    | 0 => cases hpattern
    | 1 => cases hpattern
    | 2 =>
      cases hpattern
      rfl
    | _ + 3 =>
      rw [node_of_size_le (Nat.le_add_left 3 _)] at hpattern
      cases hpattern

lemma counter_knows_iff (input : String) : counter.Knows () input ↔ (pieces input).head? = some "count" := by
  constructor
  · rintro ⟨c, hc, k, hpattern, -, hpiece⟩
    obtain rfl : c = 1 := List.mem_singleton.1 hc
    obtain rfl : "count" = k := Pattern.literal.inj (Option.some.inj hpattern)
    exact hpiece
  · exact fun hpiece => ⟨1, List.mem_singleton_self 1, "count", rfl, rfl, hpiece⟩

/-- An input that is not read to the end is refused as an unknown command exactly where its first piece is not a
keyword that the source may use. -/
def NamesUnknownCommands (t : CommandTree σ) (own : CustomType σ → ArgumentParser σ) (input : String) (source : σ) :
    Prop :=
  ∀ w, t.parseReaderBy own (.ofString input) source = some w → w.reader.canReadBytes 1 = true →
    ∃ e, w.execute.outcome = .error e ∧ (e.reason = .unknownCommand ↔ ¬ t.Knows source input)

end CommandTree
end CommandEngine
