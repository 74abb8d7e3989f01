/-!
# Text measured in bytes

Inputs are Unicode text, while every offset the library reports is a UTF-8 byte offset.  Text is
handled as a list of characters, and this file relates the two views:

* `Text.width` is the number of bytes a list of characters takes in UTF-8;
* `Text.splitAt?` cuts a text at a byte offset and refuses offsets inside a character;
* `Text.slice?` is the part of a text between two byte offsets;
* `Text.order` is the order of the UTF-8 encodings, which is the order by code point.

The two laws `append_of_splitAt?` and `width_of_splitAt?` say that a cut loses nothing and stands at
the offset that was asked for.
-/

namespace CommandEngine
namespace Text

/-- The number of bytes that `cs` takes in UTF-8. -/
def width : List Char → Nat
  | [] => 0
  | c :: cs => c.utf8Size + width cs

@[simp] theorem width_nil : width [] = 0 := rfl

@[simp] theorem width_cons (c : Char) (cs : List Char) :
    width (c :: cs) = c.utf8Size + width cs := rfl

@[simp] theorem width_append (as bs : List Char) : width (as ++ bs) = width as + width bs := by
  induction as with
  | nil => simp
  | cons a as ih => simp [ih, Nat.add_assoc]

/-- A text takes at least as many bytes as it has characters. -/
theorem length_le_width (cs : List Char) : cs.length ≤ width cs := by
  induction cs with
  | nil => exact Nat.le_refl 0
  | cons c cs ih =>
    have hpos := c.utf8Size_pos
    rw [List.length_cons, width_cons]
    omega

/-- Cuts a text at a byte offset: the characters before it and those after it.  There is no cut past
the end, nor inside a character that takes several bytes. -/
def splitAt? : List Char → Nat → Option (List Char × List Char)
  | cs, 0 => some ([], cs)
  | [], _ + 1 => none
  | c :: cs, n + 1 =>
    if c.utf8Size ≤ n + 1 then
      (splitAt? cs (n + 1 - c.utf8Size)).map fun (before, after) => (c :: before, after)
    else none

/-- A cut loses no character. -/
theorem append_of_splitAt? {cs before after : List Char} {n : Nat}
    (h : splitAt? cs n = some (before, after)) : before ++ after = cs := by
  induction cs generalizing n before after with
  | nil =>
    cases n with
    | zero => simp [splitAt?] at h; simp [h.1, h.2]
    | succ n => simp [splitAt?] at h
  | cons c cs ih =>
    cases n with
    | zero => simp [splitAt?] at h; simp [h.1, h.2]
    | succ n =>
      simp only [splitAt?] at h
      split at h
      · obtain ⟨⟨a, b⟩, hab, heq⟩ := Option.map_eq_some_iff.1 h
        simp only [Prod.mk.injEq] at heq
        obtain ⟨rfl, rfl⟩ := heq
        simp [ih hab]
      · simp at h

/-- A cut stands at the offset that was asked for. -/
theorem width_of_splitAt? {cs before after : List Char} {n : Nat}
    (h : splitAt? cs n = some (before, after)) : width before = n := by
  induction cs generalizing n before after with
  | nil =>
    cases n with
    | zero => simp [splitAt?] at h; simp [h.1]
    | succ n => simp [splitAt?] at h
  | cons c cs ih =>
    cases n with
    | zero => simp [splitAt?] at h; simp [h.1]
    | succ n =>
      simp only [splitAt?] at h
      split at h
      · obtain ⟨⟨a, b⟩, hab, heq⟩ := Option.map_eq_some_iff.1 h
        simp only [Prod.mk.injEq] at heq
        obtain ⟨rfl, rfl⟩ := heq
        have := ih hab
        simp only [width_cons]
        omega
      · simp at h

/-- Between two characters there is a cut. -/
theorem splitAt?_append (before after : List Char) :
    splitAt? (before ++ after) (width before) = some (before, after) := by
  induction before with
  | nil => cases after <;> rfl
  | cons c before ih =>
    obtain ⟨n, hn⟩ := Nat.exists_eq_add_of_lt c.utf8Size_pos
    have hwidth : width (c :: before) = n + width before + 1 := by
      simp only [width_cons]
      omega
    have hrest : n + width before + 1 - c.utf8Size = width before := by omega
    rw [hwidth, List.cons_append, splitAt?, if_pos (by omega), hrest, ih]
    rfl

/-- The part of a text between two byte offsets, where both stand between characters. -/
def slice? (cs : List Char) (start stop : Nat) : Option (List Char) :=
  if start ≤ stop then do
    let (_, after) ← splitAt? cs start
    let (part, _) ← splitAt? after (stop - start)
    return part
  else none

/-- The part of a text after `before` and before `after`. -/
theorem slice?_append (before part after : List Char) :
    slice? (before ++ (part ++ after)) (width before) (width before + width part) = some part := by
  have hcut := splitAt?_append before (part ++ after)
  have hpart := splitAt?_append part after
  simp [slice?, hcut, hpart]

/-- The order of two texts by code point, which is also the order of their UTF-8 encodings. -/
def order : List Char → List Char → Ordering
  | [], [] => .eq
  | [], _ :: _ => .lt
  | _ :: _, [] => .gt
  | a :: as, b :: bs =>
    if a.val < b.val then .lt else if b.val < a.val then .gt else order as bs

/-- Joins texts with a separator between neighbours. -/
def join (separator : String) : List String → String
  | [] => ""
  | [s] => s
  | s :: t :: rest => s ++ separator ++ join separator (t :: rest)

end Text
end CommandEngine
