import CommandEngine.Ambiguity
import CommandEngine.Proofs.IntegerReading
import CommandEngine.Proofs.Tree.Merge

/-!
# Reported ambiguities

The search for ambiguities tries the examples of a child on its siblings and reports those that a sibling accepts.
It misses nothing and makes nothing up: what is reported are all pairs of siblings with an example of the first that
the second accepts (`CommandTree.WellShaped.mem_ambiguities_iff`).

The child itself is never asked.  Keywords, truth values and texts do accept their examples.  But the examples of a
number type do not depend on its bounds, and one outside the bounds is refused (`ArgumentType.accepts_example`); so is
an example of a type of one's own that its scan does not take.  These are the examples that a type disowns
(`ArgumentType.disowns`), and reports are genuine as far as they have none (`CommandTree.reportsAmbiguities`).
-/

namespace CommandEngine

variable {σ : Type}

/-! ## Examples of numbers -/

/-- Whether an input spells a number outside the bounds. -/
def Bounds.excludes {α : Type} [Numeral α] (b : Bounds α) (input : String) : Bool :=
  (Numeral.ofText? input.toList : Option α).any fun x => Numeral.below x b.min || Numeral.below b.max x

/-- Every example of a number type is a run of number characters, and spells a finite value. -/
structure Numeral.Exemplary (α : Type) [Numeral α] : Prop where
  nonempty : ∀ input ∈ Numeral.examples α, input.toList ≠ []
  run : ∀ input ∈ Numeral.examples α, Scan.numberRun input.toList = input.toList
  spells : ∀ input ∈ Numeral.examples α, (Numeral.ofText? input.toList : Option α).isSome = true
  finite : ∀ input ∈ Numeral.examples α, (Bounds.full : Bounds α).excludes input = false

namespace Numeral

lemma int32_exemplary : Exemplary Int32 := by constructor <;> decide +kernel

lemma int64_exemplary : Exemplary Int64 := by constructor <;> decide +kernel

lemma single_exemplary : Exemplary Single := by constructor <;> decide +kernel

lemma double_exemplary : Exemplary Double := by constructor <;> decide +kernel

end Numeral

/-! ## Examples of types -/

namespace Reader

variable {α β : Type} {scan : Scan α} {input : String}

lemma accepts_map (scan : Scan α) (f : α → β) (input : String) :
    accepts (fun text => (scan text).map f) input = accepts scan input := by
  simp only [accepts, Scanned.map]
  cases (scan input.toList).outcome <;> rfl

/-- An example of a number type is accepted within the bounds only. -/
lemma accepts_bounded_example [Numeral α] (hα : Numeral.Exemplary α) (b : Bounds α)
    (h : input ∈ Numeral.examples α) : accepts (Scan.bounded b) input = !b.excludes input := by
  have hrun := hα.run input h
  obtain ⟨x, hx⟩ := Option.isSome_iff_exists.1 (hα.spells input h)
  -- the number is the whole input, so nothing but a bound can stand against it
  have hnumber : Scan.number input.toList = .found x (Scan.numberRun input.toList).length :=
    Scan.number_of_some (hrun.symm ▸ hα.nonempty input h) (hrun.symm ▸ hx)
  rw [hrun] at hnumber
  rw [Bounds.excludes, hx, Option.any_some]
  cases hmin : Numeral.below x b.min with
  | true => simp [accepts, Scan.bounded, hnumber, Scanned.found, Scanned.failed, hmin]
  | false =>
    cases hmax : Numeral.below b.max x with
    | true => simp [accepts, Scan.bounded, hnumber, Scanned.found, Scanned.failed, hmin, hmax]
    | false => simp [accepts, Scan.bounded, hnumber, Scanned.found, hmin, hmax, endsToken]

end Reader

lemma TextKind.accepts_example (kind : TextKind) : ∀ input ∈ kind.examples, Reader.accepts kind.scan input = true := by
  cases kind <;> decide +kernel

namespace ArgumentType

/-- Whether a type refuses an example of its own.  The examples of a number type do not depend on its bounds; and what
the examples of a type of one's own are, it says itself. -/
def disowns : ArgumentType σ → String → Bool
  | bool, _ => false
  | integer b, input => b.excludes input
  | long b, input => b.excludes input
  | float b, input => b.excludes input
  | double b, input => b.excludes input
  | text _, _ => false
  | custom own, input => !Reader.accepts (own.scan none) input

lemma accepts_example {type : ArgumentType σ} {input : String} (h : input ∈ type.examples) :
    type.accepts input = !type.disowns input := by
  cases type with
  | bool =>
    have hboolean : ∀ input ∈ ["true", "false"], Reader.accepts Scan.boolean input = true := by decide +kernel
    exact (Reader.accepts_map _ _ _).trans (hboolean input h)
  | integer b => exact (Reader.accepts_map _ _ _).trans (Reader.accepts_bounded_example Numeral.int32_exemplary b h)
  | long b => exact (Reader.accepts_map _ _ _).trans (Reader.accepts_bounded_example Numeral.int64_exemplary b h)
  | float b => exact (Reader.accepts_map _ _ _).trans (Reader.accepts_bounded_example Numeral.single_exemplary b h)
  | double b => exact (Reader.accepts_map _ _ _).trans (Reader.accepts_bounded_example Numeral.double_exemplary b h)
  | text kind => exact (Reader.accepts_map _ _ _).trans (kind.accepts_example input h)
  | custom own => exact (Bool.not_not _).symm

/-- A type that is built in, with the bounds of a number left at the extreme values. -/
def Unbounded : ArgumentType σ → Prop
  | bool => True
  | integer b => b = .full
  | long b => b = .full
  | float b => b = .full
  | double b => b = .full
  | text _ => True
  | custom _ => False

lemma Unbounded.disowns_example {type : ArgumentType σ} (hfull : type.Unbounded) {input : String}
    (h : input ∈ type.examples) : type.disowns input = false := by
  cases type with
  | bool => rfl
  | integer b =>
    obtain rfl : b = .full := hfull
    exact Numeral.int32_exemplary.finite input h
  | long b =>
    obtain rfl : b = .full := hfull
    exact Numeral.int64_exemplary.finite input h
  | float b =>
    obtain rfl : b = .full := hfull
    exact Numeral.single_exemplary.finite input h
  | double b =>
    obtain rfl : b = .full := hfull
    exact Numeral.double_exemplary.finite input h
  | text kind => rfl
  | custom own => exact hfull.elim

end ArgumentType

/-! ## Examples of nodes -/

/-- Whether a pattern refuses an example of its own. -/
def Pattern.disowns : Pattern σ → String → Bool
  | literal _, _ => false
  | argument _ type _, input => type.disowns input

lemma Scan.accepts_keyword_self (k : String) : Reader.accepts (Scan.keyword k) k = true := by
  have hself : Scan.keyword k k.toList = .found () k.toList.length := by
    rw [Scan.keyword, List.isPrefixOf_iff_prefix.2 (List.prefix_refl _), List.drop_length]
    rfl
  simp only [Reader.accepts, hself, Scanned.found, List.drop_length]
  rfl

lemma Pattern.accepts_example {p : Pattern σ} {input : String} (h : input ∈ p.examples) :
    p.accepts input = !p.disowns input := by
  cases p with
  | literal k =>
    obtain rfl : input = k := List.mem_singleton.1 h
    exact Scan.accepts_keyword_self input
  | argument name type provider => exact ArgumentType.accepts_example h

namespace Node

/-- Whether a node refuses an example of its own. -/
def disowns (n : Node σ) (input : String) : Bool := n.pattern.any fun p => p.disowns input

lemma accepts_example {n : Node σ} {input : String} (h : input ∈ n.examples) :
    n.accepts input = !n.disowns input := by
  cases hpattern : n.pattern with
  | none => simp [examples, hpattern] at h
  | some p =>
    have hexample : input ∈ p.examples := by simpa [examples, hpattern] using h
    simp only [accepts, disowns, hpattern, Option.map_some, Option.getD_some, Option.any_some]
    exact Pattern.accepts_example hexample

lemma disowns_example {n : Node σ}
    (hfull : ∀ name type provider, n.pattern = some (.argument name type provider) → type.Unbounded)
    {input : String} (h : input ∈ n.examples) : n.disowns input = false := by
  cases hpattern : n.pattern with
  | none => simp [disowns, hpattern]
  | some p =>
    have hexample : input ∈ p.examples := by simpa [examples, hpattern] using h
    rw [disowns, hpattern, Option.any_some]
    cases p with
    | literal k => rfl
    | argument name type provider => exact (hfull name type provider hpattern).disowns_example hexample

end Node

/-! ## What is reported -/

lemma CommandTree.mem_distinctTexts {s : String} {texts : List String} :
    s ∈ CommandTree.distinctTexts texts ↔ s ∈ texts := by
  induction texts with
  | nil => rfl
  | cons t rest ih =>
    rw [CommandTree.distinctTexts, List.mem_cons, List.mem_cons, List.mem_filter, ih]
    by_cases hs : s = t <;> simp [hs]

namespace Ambiguity

/-- Two children of a node, and the examples of the first that the second accepts. -/
structure Reported (t : CommandTree σ) (a : Ambiguity) : Prop where
  child : a.child ∈ t.children a.parent
  sibling : a.sibling ∈ t.children a.parent
  apart : a.child ≠ a.sibling
  inputs : a.inputs = CommandTree.distinctTexts ((t.node a.child).examples.filter (t.node a.sibling).accepts)
  shared : a.inputs ≠ []

lemma Reported.mem_inputs {t : CommandTree σ} {a : Ambiguity} (h : a.Reported t) {input : String} :
    input ∈ a.inputs ↔ input ∈ (t.node a.child).examples ∧ (t.node a.sibling).accepts input = true := by
  rw [h.inputs, CommandTree.mem_distinctTexts, List.mem_filter]

/-- Both nodes accept every input that is reported. -/
def Genuine (t : CommandTree σ) (a : Ambiguity) : Prop :=
  ∀ input ∈ a.inputs, (t.node a.child).accepts input = true ∧ (t.node a.sibling).accepts input = true

end Ambiguity

namespace CommandTree

variable {t : CommandTree σ} {id c : NodeId} {a : Ambiguity}

lemma distinctTexts_eq_nil {texts : List String} : distinctTexts texts = [] ↔ texts = [] := by
  cases texts with
  | nil => exact Iff.rfl
  | cons s rest => simp [distinctTexts]

lemma mem_ambiguitiesOf (hc : c ∈ t.children id) :
    a ∈ t.ambiguitiesOf id c ↔ a.parent = id ∧ a.child = c ∧ a.Reported t := by
  rw [ambiguitiesOf, List.mem_filterMap]
  constructor
  · rintro ⟨sibling, hsibling, hreport⟩
    split at hreport
    · cases hreport
    · next happart =>
      simp only [Option.ite_none_left_eq_some, List.isEmpty_iff, Option.some.injEq] at hreport
      obtain ⟨hshared, rfl⟩ := hreport
      exact ⟨rfl, rfl, hc, hsibling, happart, rfl, fun hnil => hshared (distinctTexts_eq_nil.1 hnil)⟩
  · rintro ⟨rfl, rfl, h⟩
    refine ⟨a.sibling, h.sibling, ?_⟩
    have hshared : ((t.node a.child).examples.filter (t.node a.sibling).accepts).isEmpty = false :=
      List.isEmpty_eq_false_iff.2 fun hnil => h.shared (h.inputs.trans (distinctTexts_eq_nil.2 hnil))
    simp only [if_neg h.apart, hshared, ← h.inputs]
    rfl

/-- The search goes on below every child. -/
lemma WellShaped.ambiguitiesBelow_eq (ht : t.WellShaped) (id : NodeId) :
    t.ambiguitiesBelow id = (t.children id).flatMap fun c => t.ambiguitiesOf id c ++ t.ambiguitiesBelow c := by
  rw [ambiguitiesBelow, ← ht.map_later, List.flatMap_map]

lemma WellShaped.mem_ambiguitiesBelow (ht : t.WellShaped) :
    a ∈ t.ambiguitiesBelow id ↔ ∃ c ∈ t.children id,
      (a.parent = id ∧ a.child = c ∧ a.Reported t) ∨ a ∈ t.ambiguitiesBelow c := by
  rw [ht.ambiguitiesBelow_eq, List.mem_flatMap]
  refine exists_congr fun c => and_congr_right fun hc => ?_
  rw [List.mem_append, mem_ambiguitiesOf hc]

lemma WellShaped.reported_of_mem (ht : t.WellShaped) (h : a ∈ t.ambiguitiesBelow id) : a.Reported t := by
  induction id using ambiguitiesBelow.induct t with
  | case1 id ih =>
    obtain ⟨c, hc, ⟨-, -, hreported⟩ | hbelow⟩ := ht.mem_ambiguitiesBelow.1 h
    · exact hreported
    · obtain ⟨⟨k, d⟩, hmem, rfl⟩ := List.mem_map.1 hc
      exact ih d (ht.ordered hmem) hbelow

/-- Wherever names lead, the ambiguities there are among those below where they start. -/
lemma WellShaped.mem_of_findFrom? (ht : t.WellShaped) (h : a.Reported t) {names : List String}
    (hnames : t.findFrom? id names = some a.parent) : a ∈ t.ambiguitiesBelow id := by
  induction names generalizing id with
  | nil =>
    obtain rfl : id = a.parent := Option.some.inj hnames
    exact ht.mem_ambiguitiesBelow.2 ⟨a.child, h.child, .inl ⟨rfl, rfl, h⟩⟩
  | cons k names ih =>
    obtain ⟨c, hchild, hrest⟩ := Option.bind_eq_some_iff.1 hnames
    have hc : c ∈ t.children id := List.mem_map.2 ⟨(k, c), ht.child?_eq_some.1 hchild, rfl⟩
    exact ht.mem_ambiguitiesBelow.2 ⟨c, hc, .inr (ih hrest)⟩

/-- The search finds all there is to report, and nothing else. -/
lemma WellShaped.mem_ambiguities_iff (ht : t.WellShaped) : a ∈ t.ambiguities ↔ a.Reported t := by
  refine ⟨ht.reported_of_mem, fun h => ?_⟩
  obtain ⟨⟨k, d⟩, hmem, -⟩ := List.mem_map.1 h.child
  obtain ⟨hlt, hsize⟩ := ht.ordered hmem
  obtain ⟨names, hnames⟩ := ht.exists_find? (Nat.lt_trans hlt hsize)
  exact ht.mem_of_findFrom? h hnames

/-- What the reports of a tree say, and when they are right. -/
structure ReportsAmbiguities (t : CommandTree σ) : Prop where
  /-- All pairs are reported that there are. -/
  complete : ∀ a, a ∈ t.ambiguities ↔ a.Reported t
  /-- What is reported are the examples of the child that the sibling accepts. -/
  inputs : ∀ a ∈ t.ambiguities, ∀ input, input ∈ a.inputs ↔
    input ∈ (t.node a.child).examples ∧ (t.node a.sibling).accepts input = true
  /-- The child refuses those of them that it disowns, and no others. -/
  child : ∀ a ∈ t.ambiguities, ∀ input ∈ a.inputs,
    (t.node a.child).accepts input = !(t.node a.child).disowns input
  genuine_iff : ∀ a ∈ t.ambiguities, a.Genuine t ↔ ∀ input ∈ a.inputs, (t.node a.child).disowns input = false
  /-- If no number has bounds and all types are built in, then all reports are genuine. -/
  unbounded : (∀ id name type provider, (t.node id).pattern = some (.argument name type provider) → type.Unbounded) →
    ∀ a ∈ t.ambiguities, a.Genuine t

/-- Reports are genuine but for examples that their own type refuses. -/
theorem reportsAmbiguities (ht : t.Reachable) : t.ReportsAmbiguities := by
  have hreported : ∀ {a}, a ∈ t.ambiguities ↔ a.Reported t := ht.wellShaped.mem_ambiguities_iff
  have hchild : ∀ a ∈ t.ambiguities, ∀ input ∈ a.inputs,
      (t.node a.child).accepts input = !(t.node a.child).disowns input := fun a ha input hinput =>
    Node.accepts_example ((hreported.1 ha).mem_inputs.1 hinput).1
  have hgenuine : ∀ a ∈ t.ambiguities,
      (a.Genuine t ↔ ∀ input ∈ a.inputs, (t.node a.child).disowns input = false) := by
    intro a ha
    refine forall₂_congr fun input hinput => ?_
    rw [hchild a ha input hinput, Bool.not_eq_true']
    exact and_iff_left ((hreported.1 ha).mem_inputs.1 hinput).2
  refine ⟨fun a => hreported, fun a ha input => (hreported.1 ha).mem_inputs, hchild, hgenuine, fun hfull a ha => ?_⟩
  exact (hgenuine a ha).2 fun input hinput =>
    Node.disowns_example (hfull a.child) ((hreported.1 ha).mem_inputs.1 hinput).1

/-- A level within bounds, or else a name. -/
def gauge (bounds : Bounds Int32) : CommandTree Unit :=
  ⟨#[{ Node.root with children := [("set", 1)] },
    ⟨some (.literal "set"), [("level", 2), ("name", 3)], none, none, none⟩,
    ⟨some (.argument "level" (.integer bounds) none), [], none, none, none⟩,
    ⟨some (.argument "name" (.text .word) none), [], none, none, none⟩]⟩

lemma gauge_reachable (bounds : Bounds Int32) : (gauge bounds).Reachable :=
  .register (s := { NodeSpec.ofPattern (.literal "set") with
    children := [.ofPattern (.argument "level" (.integer bounds) none),
      .ofPattern (.argument "name" (.text .word) none)] }) .empty rfl

lemma gauge_reported (bounds : Bounds Int32) :
    (⟨1, 2, 3, ["0", "123", "-123"]⟩ : Ambiguity) ∈ (gauge bounds).ambiguities := by
  have hwords : Numeral.integerExamples.filter (Reader.accepts Scan.word) = ["0", "123", "-123"] := by decide +kernel
  have hname : ((gauge bounds).node 3).accepts = Reader.accepts Scan.word :=
    funext fun input => Reader.accepts_map Scan.word Value.string input
  refine (gauge_reachable bounds).wellShaped.mem_ambiguities_iff.2 ⟨?_, ?_, by decide, ?_, by simp⟩
  · exact List.mem_cons_self ..
  · exact List.mem_cons_of_mem _ (List.mem_cons_self ..)
  · have hexamples : ((gauge bounds).node 2).examples = Numeral.integerExamples := rfl
    rw [hname, hexamples, hwords]
    rfl

/-- Levels from five to ten: three inputs are reported, all of which are names and none of which is a level. -/
theorem not_genuine_gauge :
    (gauge ⟨5, 10⟩).Reachable ∧ (⟨1, 2, 3, ["0", "123", "-123"]⟩ : Ambiguity) ∈ (gauge ⟨5, 10⟩).ambiguities ∧
      (∀ input ∈ ["0", "123", "-123"], ((gauge ⟨5, 10⟩).node 2).accepts input = false) ∧
      ¬ ∀ t : CommandTree Unit, t.Reachable → ∀ a ∈ t.ambiguities, a.Genuine t := by
  have hreported := gauge_reported ⟨5, 10⟩
  have hlevel : ∀ input ∈ ["0", "123", "-123"], ((gauge ⟨5, 10⟩).node 2).accepts input = false := by decide +kernel
  refine ⟨gauge_reachable _, hreported, hlevel, fun hgenuine => ?_⟩
  have haccepts := (hgenuine _ (gauge_reachable _) _ hreported "0" (List.mem_cons_self ..)).1
  rw [hlevel "0" (List.mem_cons_self ..)] at haccepts
  cases haccepts

/-- Without bounds the same report is genuine. -/
theorem reportsAmbiguities_gauge :
    (gauge .full).Reachable ∧ (gauge .full).ReportsAmbiguities ∧
      Ambiguity.Genuine (gauge .full) ⟨1, 2, 3, ["0", "123", "-123"]⟩ := by
  have hreports := reportsAmbiguities (gauge_reachable .full)
  have hreported := gauge_reported .full
  refine ⟨gauge_reachable _, hreports, hreports.unbounded (fun id name type provider hpattern => ?_) _ hreported⟩
  match id, hpattern with
  | 0, hpattern => cases hpattern
  | 1, hpattern => cases hpattern
  | 2, rfl => rfl
  | 3, rfl => exact trivial
  | id + 4, hpattern =>
    rw [node_of_size_le (Nat.le_add_left 4 id)] at hpattern
    cases hpattern

end CommandTree
end CommandEngine
