import Mathlib.Algebra.Ring.Int.Defs
import Mathlib.Data.List.Basic
import CommandEngine.Execution

/-!
# What a run calls, and in what order

The schedule of a chain is a table written down without running anything: for every stage the sources
that reach it, for each of them the call of its modifier, and after the last stage the calls of the
handler.  The table makes up the context of every call on its own, field by field, and it notes the source that
the call is made for.  A call is marked as forgiven if the fork flag is set in the frame of one of the stages up
to it.  The run of the chain is then the schedule up to the first call that fails without being forgiven.

`Run.Follows` is the link between the two: a run follows a list of calls with a value if it carries them
out in order, ends with the first failure that is not forgiven, and otherwise comes to the value.  Runs
that follow lists of calls can be put one after the other, and all loops of a run are of that kind.
-/

namespace CommandEngine

variable {σ α β : Type}

/-! ## What is called -/

/-- What a stage or a handler is called with for a source: its own context, with that source in it. -/
def Context.carrying (c : Context σ) (source : σ) : Context σ where
  input := c.input
  frame :=
    { source
      root := c.frame.root
      arguments := c.frame.arguments
      nodes := c.frame.nodes
      span := c.frame.span
      forks := c.frame.forks }
  onward := c.onward

@[simp] lemma Context.source_carrying (c : Context σ) (source : σ) : (c.carrying source).source = source := rfl

/-- A context for another source differs from the first one in its source and in nothing else. -/
lemma Context.withSource_eq_carrying (c : Context σ) (source : σ) : c.withSource source = c.carrying source := rfl

/-- A stage forks if the flag is set in its frame. -/
lemma Stage.forks_eq (s : Stage σ) : s.forks = s.context.frame.forks := rfl

/-! ## Calls -/

/-- A call of a modifier or a handler: whether its failure is put up with, the source it is made for, and what
happens. -/
structure Call (σ : Type) where
  forgiven : Bool
  source : σ
  event : Invocation σ

def Invocation.error? : Invocation σ → Option SyntaxError
  | modified _ (.error e) => some e
  | handled _ (.error e) => some e
  | _ => none

/-- The context that an event is about. -/
def Invocation.context : Invocation σ → Context σ
  | modified c _ => c
  | handled c _ => c
  | unhandled c => c

/-- What an event leaves in the log: its source, whether it went well, and the result. -/
def Invocation.entry? : Invocation σ → Option (σ × Bool × Int32)
  | modified _ (.ok _) => none
  | modified c (.error _) => some (c.source, false, 0)
  | handled c (.ok n) => some (c.source, true, n)
  | handled c (.error _) => some (c.source, false, 0)
  | unhandled c => some (c.source, false, 0)

def Notice.entry (n : Notice σ) : σ × Bool × Int32 := (n.context.source, n.success, n.result)

lemma Invocation.entry_notice? (i : Invocation σ) : i.notice?.map Notice.entry = i.entry? := by
  rcases i with ⟨_, _ | _⟩ | ⟨_, _ | _⟩ | _ <;> rfl

lemma Run.map_entry_notices (r : Run σ α) : r.notices.map Notice.entry = r.trace.filterMap Invocation.entry? := by
  rw [notices, List.map_filterMap]
  exact congrFun (congrArg List.filterMap (funext Invocation.entry_notice?)) r.trace

namespace Call

/-- What a call leaves in the log: the source it is made for, whether it went well, and the result. -/
def entry? (k : Call σ) : Option (σ × Bool × Int32) :=
  match k.event with
  | .modified _ (.ok _) => none
  | .modified _ (.error _) => some (k.source, false, 0)
  | .handled _ (.ok n) => some (k.source, true, n)
  | .handled _ (.error _) => some (k.source, false, 0)
  | .unhandled _ => some (k.source, false, 0)

/-- The call shows its callee the source it is made for. -/
def Honest (k : Call σ) : Prop := k.event.context.source = k.source

/-- An honest call leaves in the log what its event does. -/
lemma Honest.entry?_eq {k : Call σ} (h : k.Honest) : k.event.entry? = k.entry? := by
  unfold Honest at h
  unfold entry?
  rw [← h]
  rcases k.event with ⟨_, _ | _⟩ | ⟨_, _ | _⟩ | _ <;> rfl

/-- The error that a call ends the run with. -/
def fatal? (k : Call σ) : Option SyntaxError := if k.forgiven then none else k.event.error?

/-- The error that a list of calls ends with: that of the first fatal call. -/
def failure? (calls : List (Call σ)) : Option SyntaxError := calls.findSome? fatal?

/-- The calls that are made: all up to the first fatal one, which is the last. -/
def made (calls : List (Call σ)) : List (Call σ) :=
  calls.takeWhile (fun k => k.fatal?.isNone) ++ (calls.find? fun k => k.fatal?.isSome).toList

lemma mem_of_mem_made {calls : List (Call σ)} {k : Call σ} (h : k ∈ made calls) : k ∈ calls := by
  unfold made at h
  rcases List.mem_append.1 h with h | h
  · exact (List.takeWhile_prefix _).mem h
  · rw [Option.mem_toList] at h
    exact List.mem_of_find?_eq_some h

@[simp] lemma made_nil : made ([] : List (Call σ)) = [] := rfl

lemma made_cons_of_fatal {k : Call σ} {e : SyntaxError} (h : k.fatal? = some e) (rest : List (Call σ)) :
    made (k :: rest) = [k] := by
  simp [made, h]

lemma made_cons {k : Call σ} (h : k.fatal? = none) (rest : List (Call σ)) :
    made (k :: rest) = k :: made rest := by
  simp [made, h]

lemma made_append {calls : List (Call σ)} (h : failure? calls = none) (more : List (Call σ)) :
    made (calls ++ more) = calls ++ made more := by
  induction calls with
  | nil => rfl
  | cons k rest ih =>
    unfold failure? at h
    rw [List.findSome?_cons] at h
    cases hk : k.fatal? with
    | some e => simp [hk] at h
    | none =>
      rw [hk] at h
      rw [List.cons_append, made_cons hk, ih h, List.cons_append]

lemma made_eq_self {calls : List (Call σ)} (h : failure? calls = none) : made calls = calls := by
  simpa using made_append h []

lemma made_append_of_fatal {calls : List (Call σ)} {e : SyntaxError} (h : failure? calls = some e)
    (more : List (Call σ)) : made (calls ++ more) = made calls := by
  induction calls with
  | nil => simp [failure?] at h
  | cons k rest ih =>
    unfold failure? at h
    rw [List.findSome?_cons] at h
    cases hk : k.fatal? with
    | some e' => rw [List.cons_append, made_cons_of_fatal hk, made_cons_of_fatal hk]
    | none =>
      rw [hk] at h
      rw [List.cons_append, made_cons hk, made_cons hk, ih h]

lemma failure?_append (calls more : List (Call σ)) :
    failure? (calls ++ more) = (failure? calls).or (failure? more) := List.findSome?_append

end Call

/-! ## Runs that follow a list of calls -/

namespace Run

/-- A run followed by another one that depends on what the first came to. -/
def andThen (r : Run σ α) (f : α → Run σ β) : Run σ β :=
  match r.outcome with
  | .error e => ⟨.error e, r.trace⟩
  | .ok a => ⟨(f a).outcome, r.trace ++ (f a).trace⟩

/-- The run makes the calls in order, up to the first fatal one, and comes to the value unless there is
one. -/
structure Follows (r : Run σ α) (calls : List (Call σ)) (value : α) : Prop where
  outcome_eq : r.outcome = match Call.failure? calls with
    | some e => .error e
    | none => .ok value
  trace_eq : r.trace = (Call.made calls).map Call.event

lemma follows_nil (a : α) : (⟨.ok a, []⟩ : Run σ α).Follows [] a := ⟨rfl, rfl⟩

lemma follows_call {r : Run σ α} {k : Call σ} {a : α} (htrace : r.trace = [k.event])
    (hout : r.outcome = match k.fatal? with
      | some e => .error e
      | none => .ok a) : r.Follows [k] a := by
  cases hk : k.fatal? with
  | some e =>
    rw [hk] at hout
    refine ⟨?_, by rw [Call.made_cons_of_fatal hk, htrace]; rfl⟩
    simp [Call.failure?, hk, hout]
  | none =>
    rw [hk] at hout
    refine ⟨?_, by rw [Call.made_cons hk, htrace]; rfl⟩
    simp [Call.failure?, hk, hout]

/-- Two runs one after the other follow the calls of both. -/
lemma Follows.andThen {r : Run σ α} {f : α → Run σ β} {calls more : List (Call σ)} {a : α} {b : β}
    (h : r.Follows calls a) (hf : (f a).Follows more b) : (r.andThen f).Follows (calls ++ more) b := by
  have hout := h.outcome_eq
  cases hc : Call.failure? calls with
  | some e =>
    -- the first run ends with an error, and the second is never begun
    rw [hc] at hout
    refine ⟨?_, ?_⟩
    · simp only [Run.andThen, hout, Call.failure?_append, hc, Option.some_or]
    · rw [Call.made_append_of_fatal hc]
      simp only [Run.andThen, hout, h.trace_eq]
  | none =>
    rw [hc] at hout
    refine ⟨?_, ?_⟩
    · simp only [Run.andThen, hout, Call.failure?_append, hc, Option.none_or, hf.outcome_eq]
    · rw [Call.made_append hc, List.map_append, ← hf.trace_eq]
      simp only [Run.andThen, hout, h.trace_eq, Call.made_eq_self hc]

lemma Follows.map {r : Run σ α} {calls : List (Call σ)} {a : α} (h : r.Follows calls a) (f : α → β) :
    (⟨r.outcome.map f, r.trace⟩ : Run σ β).Follows calls (f a) := by
  refine ⟨?_, h.trace_eq⟩
  rw [h.outcome_eq]
  cases Call.failure? calls <;> rfl

lemma Follows.mem {r : Run σ α} {calls : List (Call σ)} {a : α} (h : r.Follows calls a)
    {i : Invocation σ} (hi : i ∈ r.trace) : ∃ k ∈ calls, k.event = i := by
  rw [h.trace_eq] at hi
  obtain ⟨k, hk, rfl⟩ := List.mem_map.1 hi
  exact ⟨k, Call.mem_of_mem_made hk, rfl⟩

end Run

/-! ## Stages -/

namespace Stage

/-- How the stage answers a source: through its modifier, or with the source itself if it has none. -/
def answer (s : Stage σ) (source : σ) : Except SyntaxError (List σ) :=
  match s.modifier with
  | none => .ok [source]
  | some modifier => modifier (s.context.carrying source)

/-- The sources that the stage makes of one: none if it fails. -/
def yield (s : Stage σ) (source : σ) : List σ := (s.answer source).toOption.getD []

/-- The call that the stage makes for a source, if it has a modifier. -/
def call? (s : Stage σ) (forgiven : Bool) (source : σ) : Option (Call σ) :=
  s.modifier.map fun _ => ⟨forgiven, source, .modified (s.context.carrying source) (s.answer source)⟩

def calls (s : Stage σ) (forgiven : Bool) (sources : List σ) : List (Call σ) :=
  sources.filterMap (s.call? forgiven)

lemma apply_follows (s : Stage σ) (forked : Bool) (source : σ) :
    (s.apply forked source).Follows (s.call? forked source).toList (s.yield source) := by
  unfold apply call? yield answer
  cases hm : s.modifier with
  | none => exact Run.follows_nil _
  | some modifier =>
    simp only [Context.withSource_eq_carrying]
    cases ha : modifier (s.context.carrying source) with
    | ok sources =>
      apply Run.follows_call
      · rfl
      · cases forked <;> simp [Call.fatal?, Invocation.error?, Except.toOption]
    | error e =>
      apply Run.follows_call
      · rfl
      · cases forked <;> simp [Call.fatal?, Invocation.error?, Except.toOption]

lemma applyAll_cons (s : Stage σ) (forked : Bool) (source : σ) (rest : List σ) :
    s.applyAll forked (source :: rest) = (s.apply forked source).andThen fun made =>
      ⟨(s.applyAll forked rest).outcome.map (made ++ ·), (s.applyAll forked rest).trace⟩ := by
  simp only [applyAll, Run.andThen]
  cases (s.apply forked source).outcome <;> rfl

/-- One stage calls its modifier for one source after the other and concatenates what it makes of them. -/
lemma applyAll_follows (s : Stage σ) (forked : Bool) (sources : List σ) :
    (s.applyAll forked sources).Follows (s.calls forked sources) (sources.flatMap s.yield) := by
  induction sources with
  | nil => exact Run.follows_nil []
  | cons source rest ih =>
    have hcalls : s.calls forked (source :: rest) =
        (s.call? forked source).toList ++ s.calls forked rest := by
      unfold calls
      cases h : s.call? forked source with
      | none => simp [h]
      | some k => simp [h]
    rw [applyAll_cons, hcalls, List.flatMap_cons]
    exact (s.apply_follows forked source).andThen (ih.map (s.yield source ++ ·))

end Stage

/-! ## Chains -/

namespace Chain

def call (c : Chain σ) (forgiven : Bool) (source : σ) : Call σ :=
  ⟨forgiven, source, .handled (c.context.carrying source) (c.handler (c.context.carrying source))⟩

/-- What a source contributes to the result: nothing if the handler fails. -/
def worth (c : Chain σ) (source : σ) : Int :=
  match c.handler (c.context.carrying source) with
  | .ok n => n.toInt
  | .error _ => 0

lemma handle_follows (c : Chain σ) (forked : Bool) (source : σ) :
    (c.handle forked source).Follows [c.call forked source] (Int32.ofInt (c.worth source)) := by
  unfold handle call worth
  simp only [Context.withSource_eq_carrying]
  cases ha : c.handler (c.context.carrying source) with
  | ok n =>
    apply Run.follows_call
    · rfl
    · cases forked <;> simp [Call.fatal?, Invocation.error?]
  | error e =>
    apply Run.follows_call
    · rfl
    · cases forked <;> simp [Call.fatal?, Invocation.error?]

lemma handleAll_cons (c : Chain σ) (forked : Bool) (sum : Int32) (source : σ) (rest : List σ) :
    c.handleAll forked sum (source :: rest) =
      (c.handle forked source).andThen fun n => c.handleAll forked (sum + n) rest := by
  simp only [handleAll, Run.andThen]
  cases (c.handle forked source).outcome <;> rfl

lemma runStages_cons (c : Chain σ) (forked : Bool) (sources : List σ) (s : Stage σ) (rest : List (Stage σ)) :
    c.runStages forked sources (s :: rest) = (s.applyAll (forked || s.forks) sources).andThen
      fun made => c.runStages (forked || s.forks) made rest := by
  simp only [runStages, Run.andThen]
  cases (s.applyAll _ _).outcome <;> rfl

/-- The handler is called for one source after the other, and the results are added up. -/
lemma handleAll_follows (c : Chain σ) (forked : Bool) (sum : Int32) (sources : List σ) :
    (c.handleAll forked sum sources).Follows (sources.map (c.call forked))
      (sum + Int32.ofInt (sources.map c.worth).sum) := by
  induction sources generalizing sum with
  | nil =>
    have hzero : sum + Int32.ofInt (([] : List σ).map c.worth).sum = sum := Int32.add_zero sum
    rw [hzero]
    exact Run.follows_nil sum
  | cons source rest ih =>
    have hsum : sum + Int32.ofInt ((source :: rest).map c.worth).sum =
        sum + Int32.ofInt (c.worth source) + Int32.ofInt (rest.map c.worth).sum := by
      rw [List.map_cons, List.sum_cons, Int32.ofInt_add, Int32.add_assoc]
    rw [handleAll_cons, hsum, List.map_cons]
    exact (c.handle_follows forked source).andThen (ih _)

/-! ## The schedule of a chain -/

/-- The sources that reach a stage; those of the handler come after the last one. -/
def sourcesAt (c : Chain σ) (source : σ) (i : Nat) : List σ :=
  (c.stages.take i).foldl (fun sources s => sources.flatMap s.yield) [source]

/-- Whether the fork flag is set in the frame of one of the stages up to the given one. -/
def forkedAt (c : Chain σ) (i : Nat) : Bool := (c.stages.take (i + 1)).any (·.context.frame.forks)

/-- The calls of one stage. -/
def stageCalls (c : Chain σ) (source : σ) (i : Nat) : List (Call σ) :=
  (c.stages[i]?.toList).flatMap fun s => s.calls (c.forkedAt i) (c.sourcesAt source i)

/-- The sources that are left for the handler. -/
def survivors (c : Chain σ) (source : σ) : List σ := c.sourcesAt source c.stages.length

/-- The calls of the handler. -/
def handlerCalls (c : Chain σ) (source : σ) : List (Call σ) :=
  (c.survivors source).map (c.call (c.stages.any (·.context.frame.forks)))

/-- All calls of a chain in order: the stages from the outside in, then the handler. -/
def schedule (c : Chain σ) (source : σ) : List (Call σ) :=
  (List.range c.stages.length).flatMap (c.stageCalls source) ++ c.handlerCalls source

/-- The result of a chain: that of the first fatal call, or the sum over the sources that are left. -/
def verdict (c : Chain σ) (source : σ) : Except SyntaxError Int32 :=
  match Call.failure? (c.schedule source) with
  | some e => .error e
  | none => .ok (Int32.ofInt ((c.survivors source).map c.worth).sum)

/-- What is logged of a chain: an entry for every call that is made, but none for a modifier that
answers. -/
def log (c : Chain σ) (source : σ) : List (σ × Bool × Int32) :=
  (Call.made (c.schedule source)).filterMap Call.entry?

/-- The stages that are left, after some that have been run without a fatal call. -/
lemma runStages_follows (c : Chain σ) (source : σ) (done todo : List (Stage σ))
    (h : c.stages = done ++ todo) :
    (c.runStages (done.any (·.context.frame.forks)) (c.sourcesAt source done.length) todo).Follows
      ((List.range' done.length todo.length).flatMap (c.stageCalls source) ++ c.handlerCalls source)
      (Int32.ofInt ((c.survivors source).map c.worth).sum) := by
  induction todo generalizing done with
  | nil =>
    rw [List.append_nil] at h
    subst h
    have hrun := c.handleAll_follows (c.stages.any (·.context.frame.forks)) 0 (c.survivors source)
    rw [Int32.zero_add] at hrun
    exact hrun
  | cons s rest ih =>
    -- what stands at the position of the stage `s` in the tables
    have hstages : c.stages = (done ++ [s]) ++ rest := by simpa using h
    have hlen : (done ++ [s]).length = done.length + 1 := List.length_append
    have htake : c.stages.take (done.length + 1) = done ++ [s] := by
      rw [hstages, ← hlen, List.take_left]
    have hfork : c.forkedAt done.length = (done.any (·.context.frame.forks) || s.forks) := by
      simp [forkedAt, htake, Stage.forks_eq]
    have hnext : c.sourcesAt source (done.length + 1) =
        (c.sourcesAt source done.length).flatMap s.yield := by
      have hdone : c.stages.take done.length = done := by rw [h, List.take_left]
      simp [sourcesAt, htake, hdone]
    have hcalls : c.stageCalls source done.length =
        s.calls (done.any (·.context.frame.forks) || s.forks) (c.sourcesAt source done.length) := by
      simp [stageCalls, h, ← hfork]
    have hrest := ih (done ++ [s]) hstages
    rw [hlen, hnext, List.any_append, List.any_cons, List.any_nil, Bool.or_false, ← Stage.forks_eq] at hrest
    rw [runStages_cons, List.length_cons, List.range'_succ, List.flatMap_cons, hcalls, List.append_assoc]
    exact (s.applyAll_follows _ _).andThen hrest

lemma run_follows (c : Chain σ) (source : σ) :
    (c.run source).Follows (c.schedule source)
      (Int32.ofInt ((c.survivors source).map c.worth).sum) := by
  have h := c.runStages_follows source [] c.stages rfl
  unfold schedule
  rw [List.range_eq_range']
  exact h

/-- A call of the schedule is one that a stage makes for a source that reaches it, or a call of the handler for
one that is left. -/
lemma cases_of_mem_schedule (c : Chain σ) {source : σ} {k : Call σ} (h : k ∈ c.schedule source) :
    (∃ i s, ∃ x ∈ c.sourcesAt source i, Stage.call? s (c.forkedAt i) x = some k) ∨
      ∃ x ∈ c.survivors source, c.call (c.stages.any (·.context.frame.forks)) x = k := by
  rcases List.mem_append.1 h with h | h
  · obtain ⟨i, -, h⟩ := List.mem_flatMap.1 h
    obtain ⟨s, -, h⟩ := List.mem_flatMap.1 h
    obtain ⟨x, hx, h⟩ := List.mem_filterMap.1 h
    exact .inl ⟨i, s, x, hx, h⟩
  · exact .inr (List.mem_map.1 h)

/-- Every call of the schedule shows its callee the source it is made for. -/
lemma honest_of_mem_schedule {c : Chain σ} {source : σ} {k : Call σ} (h : k ∈ c.schedule source) : k.Honest := by
  obtain ⟨i, s, x, -, h⟩ | ⟨x, -, rfl⟩ := c.cases_of_mem_schedule h
  · obtain ⟨m, -, rfl⟩ := Option.map_eq_some_iff.1 h
    exact s.context.source_carrying x
  · exact c.context.source_carrying x

/-- The run of a chain is its schedule, carried out from the left up to the first call that fails while
no stage so far forks: its error is the outcome, and nothing is called after it.  If there is no such
call, the outcome is the sum of what the handler makes of the sources that are left, as a 32-bit integer
with wrap-around.  The observer is told of every handler that is called and of every modifier that fails,
in the order of the calls. -/
theorem run_eq_schedule (c : Chain σ) (source : σ) :
    (c.run source).outcome = c.verdict source ∧
      (c.run source).trace = (Call.made (c.schedule source)).map Call.event ∧
      (c.run source).notices.map Notice.entry = c.log source := by
  have h := c.run_follows source
  refine ⟨h.outcome_eq, h.trace_eq, ?_⟩
  rw [Run.map_entry_notices, h.trace_eq, List.filterMap_map]
  refine List.filterMap_congr fun k hk => ?_
  exact (honest_of_mem_schedule (Call.mem_of_mem_made hk)).entry?_eq

/-- A run tells of modifiers that were called and of calls of the chain's handler, with the innermost context for
some source, and of nothing else. -/
lemma cases_of_mem_trace {c : Chain σ} {source : σ} {e : Invocation σ} (h : e ∈ (c.run source).trace) :
    (∃ context outcome, e = .modified context outcome) ∨
      ∃ s, e = .handled (c.context.carrying s) (c.handler (c.context.carrying s)) := by
  obtain ⟨k, hk, rfl⟩ := (c.run_follows source).mem h
  obtain ⟨i, s, x, -, hk⟩ | ⟨x, -, rfl⟩ := c.cases_of_mem_schedule hk
  · -- the calls of the stages are all calls of modifiers
    obtain ⟨m, -, rfl⟩ := Option.map_eq_some_iff.1 hk
    exact .inl ⟨_, _, rfl⟩
  · exact .inr ⟨x, rfl⟩

/-- A run calls no handler but that of the chain, with the innermost context for some source. -/
lemma handled_of_mem_trace {c : Chain σ} {source : σ} {context : Context σ}
    {outcome : Except SyntaxError Int32} (h : .handled context outcome ∈ (c.run source).trace) :
    ∃ s, context = c.context.carrying s ∧ outcome = c.handler context := by
  obtain ⟨_, _, he⟩ | ⟨s, he⟩ := cases_of_mem_trace h
  · cases he
  · cases he
    exact ⟨s, rfl, rfl⟩

end Chain

/-- Running a command calls no handler but that of its innermost hop, with the context of that hop. -/
lemma ParseResult.handled_of_mem_execute {r : ParseResult σ} {context : Context σ}
    {outcome : Except SyntaxError Int32} (h : .handled context outcome ∈ r.execute.trace) :
    ∃ handler, r.trail.last.handler = some handler ∧ outcome = handler context ∧
      context.frame.nodes = r.trail.last.nodes := by
  unfold execute at h
  split at h
  · cases h
  · split at h
    · cases h with
      | tail _ h => cases h
    · next chain hchain =>
      obtain ⟨handler, hhandler, rfl⟩ := Option.map_eq_some_iff.1 hchain
      obtain ⟨s, rfl, rfl⟩ := Chain.handled_of_mem_trace h
      exact ⟨handler, hhandler, rfl, rfl⟩

end CommandEngine
