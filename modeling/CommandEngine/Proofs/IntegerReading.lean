import CommandEngine.Proofs.Digits
import CommandEngine.Reader
import Mathlib.Algebra.Ring.Int.Defs
import Mathlib.Data.List.TakeWhile

/-!
# Reading integers within bounds

An integer is read from the longest run of digits, points and minus signs, which need not be the text of an integer.
What comes of it depends on the run, on the width of the number type and on the bounds, in this order
(`Scan.BoundedOutcome`): there may be no run at all, the run may spell no integer of the width, and the integer may lie
below or above the bounds.  `Scan.boundedOutcome` follows the scan through its branches, and since a run spells one
integer at most, no two of these cases meet (`Scan.BoundedOutcome.unique`).  Together they say for every input what is
read, and that a refusal leaves reading where it was (`Reader.readsInteger`).
-/

namespace CommandEngine

/-- The integers of a width, as two's complement has them. -/
def InWidth (bits : Nat) (v : Int) : Prop := -2 ^ (bits - 1) ≤ v ∧ v < 2 ^ (bits - 1)

/-! ## Number types of a width -/

/-- A number type has the integers of a width as its values, is read from the texts that spell them and written as
their decimal texts, and compares them by size. -/
structure Numeral.OfWidth (α : Type) [Numeral α] (toInt : α → Int) (bits : Nat) : Prop where
  injective : Function.Injective toInt
  range : ∀ v, (∃ n, toInt n = v) ↔ InWidth bits v
  ofText : ∀ w n, Numeral.ofText? w = some n ↔ Digits.integer? w = some (toInt n)
  text : ∀ n, Numeral.text n = Digits.ofInt (toInt n)
  below : ∀ a b, Numeral.below a b = decide (toInt a < toInt b)

namespace Numeral

/-- Reading the text of an integer and then making it fit a width. -/
lemma bind_fit_eq_some_iff {α : Type} {toInt : α → Int} {ofInt : Int → α} {low high : Int}
    (hrange : ∀ n, low ≤ toInt n ∧ toInt n ≤ high) (hofInt : ∀ v, low ≤ v → v ≤ high → toInt (ofInt v) = v)
    (hback : ∀ n, ofInt (toInt n) = n) (read : Option Int) (n : α) :
    (read.bind fun v => if low ≤ v ∧ v ≤ high then some (ofInt v) else none) = some n ↔ read = some (toInt n) := by
  constructor
  · intro h
    obtain ⟨v, rfl, hv⟩ := Option.bind_eq_some_iff.1 h
    obtain ⟨⟨hlow, hhigh⟩, heq⟩ := Option.ite_none_right_eq_some.1 hv
    rw [← Option.some.inj heq, hofInt v hlow hhigh]
  · rintro rfl
    rw [Option.bind_some, if_pos (hrange n), hback n]

lemma int32_ofWidth : OfWidth Int32 Int32.toInt 32 where
  injective _ _ := Int32.toInt_inj.1
  range v := by
    constructor
    · rintro ⟨n, rfl⟩
      exact ⟨n.le_toInt, n.toInt_lt⟩
    · rintro ⟨hlow, hhigh⟩
      exact ⟨Int32.ofInt v, Int32.toInt_ofInt_of_le hlow hhigh⟩
  ofText w n := by
    refine bind_fit_eq_some_iff (fun m => ⟨m.minValue_le_toInt, m.toInt_le⟩) (fun v hlow hhigh => ?_)
      Int32.ofInt_toInt _ n
    rw [Int32.toInt_minValue] at hlow
    rw [Int32.toInt_maxValue] at hhigh
    exact Int32.toInt_ofInt_of_le hlow (Int.lt_of_le_sub_one hhigh)
  text _ := rfl
  below _ _ := rfl

lemma int64_ofWidth : OfWidth Int64 Int64.toInt 64 where
  injective _ _ := Int64.toInt_inj.1
  range v := by
    constructor
    · rintro ⟨n, rfl⟩
      exact ⟨n.le_toInt, n.toInt_lt⟩
    · rintro ⟨hlow, hhigh⟩
      exact ⟨Int64.ofInt v, Int64.toInt_ofInt_of_le hlow hhigh⟩
  ofText w n := by
    refine bind_fit_eq_some_iff (fun m => ⟨m.minValue_le_toInt, m.toInt_le⟩) (fun v hlow hhigh => ?_)
      Int64.ofInt_toInt _ n
    rw [Int64.toInt_minValue] at hlow
    rw [Int64.toInt_maxValue] at hhigh
    exact Int64.toInt_ofInt_of_le hlow (Int.lt_of_le_sub_one hhigh)
  text _ := rfl
  below _ _ := rfl

end Numeral

/-! ## What a run of number characters is read as -/

namespace Scan

/-- The run of number characters that comes next. -/
def numberRun (text : List Char) : List Char := text.takeWhile isNumberChar

/-- What is read from a run: an integer, or the reason why there is none. -/
inductive BoundedOutcome (kind : ValueKind) (bits : Nat) (min max : Int) (run : List Char) : Except Reason Int → Prop
  /-- There is no run. -/
  | expected (hrun : run = []) : BoundedOutcome kind bits min max run (.error (.expectedValue kind))
  /-- The run spells no integer of the width. -/
  | invalid (hrun : run ≠ []) (hnone : ¬ ∃ v, Digits.Spells run v ∧ InWidth bits v) :
      BoundedOutcome kind bits min max run (.error (.invalidValue kind (String.ofList run)))
  /-- The integer lies below the bounds. -/
  | tooSmall {v : Int} (hspells : Digits.Spells run v) (hwidth : InWidth bits v) (hmin : v < min) :
      BoundedOutcome kind bits min max run (.error (.tooSmall kind (Digits.ofInt v) (Digits.ofInt min)))
  /-- The integer lies above the bounds. -/
  | tooBig {v : Int} (hspells : Digits.Spells run v) (hwidth : InWidth bits v) (hmin : min ≤ v) (hmax : max < v) :
      BoundedOutcome kind bits min max run (.error (.tooBig kind (Digits.ofInt v) (Digits.ofInt max)))
  /-- The integer lies within the bounds. -/
  | taken {v : Int} (hspells : Digits.Spells run v) (hwidth : InWidth bits v) (hmin : min ≤ v) (hmax : v ≤ max) :
      BoundedOutcome kind bits min max run (.ok v)

lemma isNumberChar_of_mem_numberRun {text : List Char} {c : Char} (hc : c ∈ numberRun text) :
    isNumberChar c = true := List.mem_takeWhile_imp hc

lemma plus_notMem_numberRun (text : List Char) : '+' ∉ numberRun text := fun hplus =>
  absurd (isNumberChar_of_mem_numberRun hplus) (by decide)

section Bounded

variable {α : Type} [Numeral α] {toInt : α → Int} {bits : Nat} {text : List Char}

lemma number_of_nil (h : numberRun text = []) :
    (number text : Scanned α) = .failed (.expectedValue (Numeral.kind α)) 0 := by
  unfold numberRun at h
  simp only [number, h, if_true]

lemma number_of_some {n : α} (hrun : numberRun text ≠ []) (hread : Numeral.ofText? (numberRun text) = some n) :
    number text = .found n (numberRun text).length := by
  unfold numberRun at hrun hread ⊢
  simp only [number, hrun, if_false, hread]

lemma number_of_none (hrun : numberRun text ≠ []) (hread : (Numeral.ofText? (numberRun text) : Option α) = none) :
    (number text : Scanned α) = .failed (.invalidValue (Numeral.kind α) (String.ofList (numberRun text))) 0 := by
  unfold numberRun at hrun hread ⊢
  simp only [number, hrun, if_false, hread]

/-- A run is read as the value whose integer it spells. -/
lemma ofText?_numberRun (hα : Numeral.OfWidth α toInt bits) (n : α) :
    Numeral.ofText? (numberRun text) = some n ↔ Digits.Spells (numberRun text) (toInt n) :=
  (hα.ofText _ n).trans (Digits.integer?_eq_some_iff (plus_notMem_numberRun text))

/-- The scan of a bounded integer in its branches: the outcome is that of the run, and the run is passed if it is
taken. -/
lemma boundedOutcome (hα : Numeral.OfWidth α toInt bits) (b : Bounds α) (text : List Char) :
    BoundedOutcome (Numeral.kind α) bits (toInt b.min) (toInt b.max) (numberRun text)
        ((bounded b text).outcome.map toInt) ∧
      (bounded b text).passed = match (bounded b text).outcome with
        | .ok _ => (numberRun text).length
        | .error _ => 0 := by
  by_cases hrun : numberRun text = []
  · simp only [bounded, number_of_nil hrun, Scanned.failed, Except.map]
    exact ⟨.expected hrun, trivial⟩
  cases hread : (Numeral.ofText? (numberRun text) : Option α) with
  | none =>
    have hnone : ¬ ∃ v, Digits.Spells (numberRun text) v ∧ InWidth bits v := by
      rintro ⟨v, hspells, hwidth⟩
      obtain ⟨n, rfl⟩ := (hα.range v).2 hwidth
      rw [(ofText?_numberRun hα n).2 hspells] at hread
      cases hread
    simp only [bounded, number_of_none hrun hread, Scanned.failed, Except.map]
    exact ⟨.invalid hrun hnone, trivial⟩
  | some n =>
    have hspells := (ofText?_numberRun hα n).1 hread
    have hwidth := (hα.range (toInt n)).1 ⟨n, rfl⟩
    simp only [bounded, number_of_some hrun hread, Scanned.found, hα.below, decide_eq_true_eq]
    split
    · next hmin =>
      simp only [Scanned.failed, Except.map, hα.text]
      exact ⟨.tooSmall hspells hwidth hmin, trivial⟩
    · next hmin =>
      have hmin' := Int.not_lt.1 hmin
      split
      · next hmax =>
        simp only [Scanned.failed, Except.map, hα.text]
        exact ⟨.tooBig hspells hwidth hmin' hmax, trivial⟩
      · next hmax => exact ⟨.taken hspells hwidth hmin' (Int.not_lt.1 hmax), rfl⟩

end Bounded

/-- A run has one outcome only. -/
lemma BoundedOutcome.unique {kind : ValueKind} {bits : Nat} {min max : Int} {run : List Char}
    {o o' : Except Reason Int} (h : BoundedOutcome kind bits min max run o)
    (h' : BoundedOutcome kind bits min max run o') : o = o' := by
  cases h <;> cases h' <;> grind [Digits.Spells.unique, Digits.Spells.ne_nil]

/-- The outcomes of runs are those of the scan. -/
lemma boundedOutcome_iff {α : Type} [Numeral α] {toInt : α → Int} {bits : Nat} (hα : Numeral.OfWidth α toInt bits)
    {b : Bounds α} {text : List Char} {o : Except Reason Int} :
    BoundedOutcome (Numeral.kind α) bits (toInt b.min) (toInt b.max) (numberRun text) o ↔
      (bounded b text).outcome.map toInt = o := by
  have houtcome := (boundedOutcome hα b text).1
  constructor
  · intro h
    exact houtcome.unique h
  · rintro rfl
    exact houtcome

lemma utf8Size_of_isNumberChar {c : Char} (h : isNumberChar c = true) : c.utf8Size = 1 := by
  simp only [isNumberChar, Bool.or_eq_true, beq_iff_eq, Digits.isDigit_eq] at h
  rcases h with (hdigit | rfl) | rfl
  · have hle : c.val ≤ '9'.val := (by simpa [Char.isDigit] using hdigit : _ ∧ _).2
    exact Char.utf8Size_eq_one_iff.2 (UInt32.le_trans hle (by decide))
  · rfl
  · rfl

/-- A run is as many bytes as it has characters. -/
lemma width_of_isNumberChar {run : List Char} (h : ∀ c ∈ run, isNumberChar c = true) :
    Text.width run = run.length := by
  induction run with
  | nil => rfl
  | cons c run ih =>
    obtain ⟨hc, hrun⟩ := List.forall_mem_cons.1 h
    rw [Text.width_cons, ih hrun, utf8Size_of_isNumberChar hc, List.length_cons, Nat.add_comm]

lemma isNumberChar_of_mem_ofInt {v : Int} {c : Char} (hc : c ∈ (Digits.ofInt v).toList) : isNumberChar c = true := by
  have hdigit : ∀ {c}, c ∈ Digits.ofNat v.natAbs → isNumberChar c = true := by
    intro c hc
    rw [isNumberChar, Digits.isDigit_eq, Digits.isDigit_of_mem_ofNat hc]
    rfl
  rw [Digits.toList_ofInt] at hc
  split at hc
  · rcases List.mem_cons.1 hc with rfl | hc
    · rfl
    · exact hdigit hc
  · exact hdigit hc

/-- The decimal text of an integer is a run, if no number character follows it. -/
lemma numberRun_ofInt (v : Int) {more : List Char} (hmore : ∀ c ∈ more.head?, isNumberChar c = false) :
    numberRun ((Digits.ofInt v).toList ++ more) = (Digits.ofInt v).toList := by
  have hstop : more.takeWhile isNumberChar = [] := by
    cases more with
    | nil => rfl
    | cons c more => rw [List.takeWhile_cons, hmore c rfl, if_neg Bool.false_ne_true]
  rw [numberRun, List.takeWhile_append_of_pos fun c hc => isNumberChar_of_mem_ofInt hc, hstop, List.append_nil]

end Scan

/-! ## Reading -/

namespace Reader

variable {α : Type} [Numeral α] {toInt : α → Int} {bits : Nat} {b : Bounds α} {r : Reader}

/-- What is read of a bounded integer, and where reading stands then. -/
structure ReadsInteger (toInt : α → Int) (kind : ValueKind) (bits : Nat) (b : Bounds α) (r : Reader) : Prop where
  /-- A value is read where the run spells an integer within the bounds, and reading goes on behind the run. -/
  taken : ∀ v next, (∃ n, toInt n = v ∧ r.run (Scan.bounded b) = (.ok n, next)) ↔
    Scan.BoundedOutcome kind bits (toInt b.min) (toInt b.max) (Scan.numberRun r.rest) (.ok v) ∧
      next = r.advance (Scan.numberRun r.rest).length
  /-- In every other case reading stays where it was, and the error is there. -/
  refused : ∀ e next, r.run (Scan.bounded b) = (.error e, next) ↔
    (∃ reason, Scan.BoundedOutcome kind bits (toInt b.min) (toInt b.max) (Scan.numberRun r.rest) (.error reason) ∧
      e = r.error reason) ∧ next = r
  /-- A run is as many bytes as it has characters. -/
  cursor : (r.advance (Scan.numberRun r.rest).length).cursor = r.cursor + (Scan.numberRun r.rest).length
  /-- The decimal text of a value within the bounds is read back where no number character follows it. -/
  written : ∀ n more, toInt b.min ≤ toInt n → toInt n ≤ toInt b.max →
    (∀ c ∈ more.head?, Scan.isNumberChar c = false) → r.rest = (Digits.ofInt (toInt n)).toList ++ more →
    r.run (Scan.bounded b) = (.ok n, ⟨r.past ++ (Digits.ofInt (toInt n)).toList, more⟩)

lemma run_bounded (hα : Numeral.OfWidth α toInt bits) :
    r.run (Scan.bounded b) = match (Scan.bounded b r.rest).outcome with
      | .ok n => (.ok n, r.advance (Scan.numberRun r.rest).length)
      | .error reason => (.error (r.error reason), r) := by
  have hpassed := (Scan.boundedOutcome hα b r.rest).2
  simp only [run, hpassed]
  cases (Scan.bounded b r.rest).outcome with
  | ok n => rfl
  | error reason => simp only [advance_zero, Except.mapError]

lemma readsInteger_of_width (hα : Numeral.OfWidth α toInt bits) (b : Bounds α) (r : Reader) :
    r.ReadsInteger toInt (Numeral.kind α) bits b := by
  have htaken : ∀ v next, (∃ n, toInt n = v ∧ r.run (Scan.bounded b) = (.ok n, next)) ↔
      Scan.BoundedOutcome (Numeral.kind α) bits (toInt b.min) (toInt b.max) (Scan.numberRun r.rest) (.ok v) ∧
        next = r.advance (Scan.numberRun r.rest).length := by
    intro v next
    rw [Scan.boundedOutcome_iff hα, run_bounded hα]
    cases (Scan.bounded b r.rest).outcome with
    | ok n => simp [Except.map, eq_comm]
    | error reason => simp [Except.map]
  refine ⟨htaken, fun e next => ?_, ?_, fun n more hmin hmax hmore hrest => ?_⟩
  · rw [run_bounded hα]
    simp only [Scan.boundedOutcome_iff hα]
    cases (Scan.bounded b r.rest).outcome with
    | ok n => simp [Except.map]
    | error reason => simp [Except.map, eq_comm]
  · have hrun : r.rest.take (Scan.numberRun r.rest).length = Scan.numberRun r.rest :=
      (List.prefix_iff_eq_take.1 (List.takeWhile_prefix _)).symm
    rw [cursor_advance, hrun, Scan.width_of_isNumberChar fun c hc => Scan.isNumberChar_of_mem_numberRun hc]
  · have hrun : Scan.numberRun r.rest = (Digits.ofInt (toInt n)).toList := by
      rw [hrest, Scan.numberRun_ofInt _ hmore]
    have hspells : Digits.Spells (Scan.numberRun r.rest) (toInt n) := hrun ▸ Digits.spells_ofInt _
    have hwidth := (hα.range (toInt n)).1 ⟨n, rfl⟩
    obtain ⟨m, hm, hread⟩ := (htaken _ _).2 ⟨.taken hspells hwidth hmin hmax, rfl⟩
    obtain ⟨past, ahead⟩ := r
    obtain rfl : ahead = (Digits.ofInt (toInt n)).toList ++ more := hrest
    rw [hread, hα.injective hm, hrun, advance_append]

/-- What is read of integers of both widths, for all bounds and every text ahead. -/
theorem readsInteger (r : Reader) :
    (∀ b : Bounds Int32, r.ReadsInteger Int32.toInt .integer 32 b) ∧
      ∀ b : Bounds Int64, r.ReadsInteger Int64.toInt .long 64 b :=
  ⟨fun b => readsInteger_of_width Numeral.int32_ofWidth b r, fun b => readsInteger_of_width Numeral.int64_ofWidth b r⟩

-- leading zeros are read, and a run is taken whole even where a part of it spells an integer
example : (ofString "-007 x").run (Scan.bounded (⟨-10, 10⟩ : Bounds Int32)) =
    (.ok (-7), ⟨"-007".toList, " x".toList⟩) := by decide +kernel

example : (ofString "7-3").run (Scan.bounded (⟨-10, 10⟩ : Bounds Int32)) =
    (.error (.located (.invalidValue .integer "7-3") "7-3" 0), ofString "7-3") := by decide +kernel

end Reader
end CommandEngine
