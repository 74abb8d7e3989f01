import CommandEngine.Number.Decimal
import Mathlib.Data.List.Basic

/-!
# Decimal texts of integers

An integer has one decimal text, and other texts spell it too: zeros may stand in front, and `-0` is zero.
`Digits.Spells` says which texts spell which integer, and for texts without a plus sign `Digits.integer?` decides it
(`Digits.integer?_eq_some_iff`).  The decimal text is one of those that spell an integer (`Digits.spells_ofInt`), and
different integers have different decimal texts (`Digits.ofInt_injective`).
-/

namespace CommandEngine
namespace Digits

/-! ## The decimal text -/

lemma ofNat_injective : Function.Injective ofNat := by
  intro m n h
  have hvalue := congrArg (Nat.ofDigitChars 10 · 0) h
  simpa only [ofNat, Nat.ofDigitChars_ten_toDigits] using hvalue

lemma isDigit_of_mem_ofNat {n : Nat} {c : Char} (h : c ∈ ofNat n) : c.isDigit = true :=
  Nat.isDigit_of_mem_toDigits (by decide) (by decide) h

lemma minus_notMem_ofNat (n : Nat) : '-' ∉ ofNat n := fun h => absurd (isDigit_of_mem_ofNat h) (by decide)

lemma toList_ofInt (n : Int) : (ofInt n).toList = if n < 0 then '-' :: ofNat n.natAbs else ofNat n.natAbs := by
  unfold ofInt
  split <;> simp

/-- Different integers have different texts. -/
lemma ofInt_injective : Function.Injective ofInt := by
  intro m n h
  have hchars := congrArg String.toList h
  rw [toList_ofInt, toList_ofInt] at hchars
  split at hchars <;> split at hchars
  · have habs := ofNat_injective (List.cons_injective hchars)
    omega
  · exact absurd (hchars ▸ List.mem_cons_self ..) (minus_notMem_ofNat n.natAbs)
  · exact absurd (hchars ▸ List.mem_cons_self ..) (minus_notMem_ofNat m.natAbs)
  · have habs := ofNat_injective hchars
    omega

/-! ## Texts that spell an integer -/

/-- A text is at least one digit, with or without a minus sign in front, and the integer is its value. -/
inductive Spells : List Char → Int → Prop
  | plain {ds : List Char} (hne : ds ≠ []) (hdigits : ∀ c ∈ ds, c.isDigit = true) :
      Spells ds (Nat.ofDigitChars 10 ds 0)
  | negative {ds : List Char} (hne : ds ≠ []) (hdigits : ∀ c ∈ ds, c.isDigit = true) :
      Spells ('-' :: ds) (-(Nat.ofDigitChars 10 ds 0 : Int))

lemma Spells.ne_nil {w : List Char} {n : Int} (h : Spells w n) : w ≠ [] := by
  cases h with
  | plain hne _ => exact hne
  | negative _ _ => exact List.cons_ne_nil _ _

/-- The decimal text of an integer spells it. -/
lemma spells_ofInt (n : Int) : Spells (ofInt n).toList n := by
  have hne : ofNat n.natAbs ≠ [] := Nat.toDigits_ne_nil
  have hdigits : ∀ c ∈ ofNat n.natAbs, c.isDigit = true := fun c hc => isDigit_of_mem_ofNat hc
  have hvalue : Nat.ofDigitChars 10 (ofNat n.natAbs) 0 = n.natAbs := Nat.ofDigitChars_ten_toDigits
  rw [toList_ofInt]
  split
  · next hneg =>
    have hspells := Spells.negative hne hdigits
    rwa [hvalue, show -(n.natAbs : Int) = n by omega] at hspells
  · next hneg =>
    have hspells := Spells.plain hne hdigits
    rwa [hvalue, show (n.natAbs : Int) = n by omega] at hspells

lemma isDigit_eq (c : Char) : isDigit c = c.isDigit := by
  unfold isDigit value? Char.isDigit
  split
  · next h => simpa [Char.le_def] using h
  · next h => simpa [Char.le_def] using h

lemma all_isDigit_iff {ds : List Char} : ds.all isDigit = true ↔ ∀ c ∈ ds, c.isDigit = true := by
  simp only [List.all_eq_true, isDigit_eq]

lemma value?_of_isDigit {c : Char} (h : c.isDigit = true) : value? c = some (c.toNat - '0'.toNat) := by
  rw [← isDigit_eq, isDigit] at h
  unfold value? at h ⊢
  split
  · rfl
  · next hnot => simp [hnot] at h

lemma valueFrom_eq {ds : List Char} (h : ∀ c ∈ ds, c.isDigit = true) (acc : Nat) :
    valueFrom acc ds = Nat.ofDigitChars 10 ds acc := by
  induction ds generalizing acc with
  | nil => rfl
  | cons c ds ih =>
    obtain ⟨hc, hds⟩ := List.forall_mem_cons.1 h
    rw [valueFrom, ih hds, value?_of_isDigit hc, Option.getD_some, Nat.ofDigitChars_cons]

lemma value_eq {ds : List Char} (h : ∀ c ∈ ds, c.isDigit = true) : value ds = Nat.ofDigitChars 10 ds 0 :=
  valueFrom_eq h 0

lemma Spells.integer? {w : List Char} {n : Int} (h : Spells w n) : integer? w = some n := by
  cases h with
  | negative hne hdigits =>
    rw [Digits.integer?, if_pos ⟨hne, all_isDigit_iff.2 hdigits⟩, value_eq hdigits]
  | plain hne hdigits =>
    unfold Digits.integer?
    split
    -- a sign is no digit
    · exact absurd (hdigits '-' (List.mem_cons_self ..)) (by decide)
    · exact absurd (hdigits '+' (List.mem_cons_self ..)) (by decide)
    · rw [if_pos ⟨hne, all_isDigit_iff.2 hdigits⟩, value_eq hdigits]

lemma spells_of_integer? {w : List Char} {n : Int} (hplus : '+' ∉ w) (h : Digits.integer? w = some n) :
    Spells w n := by
  unfold Digits.integer? at h
  split at h
  · next ds =>
    obtain ⟨⟨hne, hdigits⟩, heq⟩ := Option.ite_none_right_eq_some.1 h
    have hds := all_isDigit_iff.1 hdigits
    rw [← Option.some.inj heq, value_eq hds]
    exact .negative hne hds
  · exact absurd (List.mem_cons_self ..) hplus
  · obtain ⟨⟨hne, hdigits⟩, heq⟩ := Option.ite_none_right_eq_some.1 h
    have hds := all_isDigit_iff.1 hdigits
    rw [← Option.some.inj heq, value_eq hds]
    exact .plain hne hds

/-- Without a plus sign, a text is read as the integer that it spells, if it spells one. -/
lemma integer?_eq_some_iff {w : List Char} {n : Int} (hplus : '+' ∉ w) : integer? w = some n ↔ Spells w n :=
  ⟨spells_of_integer? hplus, Spells.integer?⟩

/-- A text spells one integer at most. -/
lemma Spells.unique {w : List Char} {m n : Int} (hm : Spells w m) (hn : Spells w n) : m = n :=
  Option.some.inj (hm.integer?.symm.trans hn.integer?)

end Digits
end CommandEngine
