import CommandEngine.Proofs.Quoting

/-!
# Text up to a terminator

What stands before a terminator is a row of items: a character that stands for itself, or an escape, which is the
escape character before a terminator or another escape character and stands for the second of the two
(`QuotedItem`).  Reading takes items as long as there are any (`Scan.untilChars_append`), and there are only four ways
to go on after the last one (`Scan.exists_leftover`): the terminator, an escape of something else, and the end of the
input, which may come in the middle of an escape.

So the outcome of reading up to a terminator is told by the text ahead alone, as `Reader.readsUpTo` does.  The
terminator must not be the escape character, which would otherwise end the text and escape what follows at once.
-/

namespace CommandEngine

/-! ## Items -/

/-- One item of a text that ends with a terminator. -/
inductive QuotedItem
  /-- A character that stands for itself. -/
  | plain (c : Char)
  /-- The escape character and a character that it makes part of the text. -/
  | escaped (c : Char)

namespace QuotedItem

/-- Whether an item may stand before a terminator. -/
def Allowed (terminator : Char) : QuotedItem → Prop
  | plain c => c ≠ terminator ∧ c ≠ Scan.escape
  | escaped c => c = terminator ∨ c = Scan.escape

/-- The characters of an item. -/
def written : QuotedItem → List Char
  | plain c => [c]
  | escaped c => [Scan.escape, c]

/-- The character that an item stands for. -/
def meant : QuotedItem → Char
  | plain c => c
  | escaped c => c

end QuotedItem

/-- A row of items that may stand before a terminator. -/
def IsBody (terminator : Char) (body : List QuotedItem) : Prop := ∀ item ∈ body, item.Allowed terminator

/-- The characters of a row of items. -/
def bodyText (body : List QuotedItem) : List Char := body.flatMap QuotedItem.written

/-- What a row of items stands for: every escape is replaced by its second character. -/
def bodyValue (body : List QuotedItem) : List Char := body.map QuotedItem.meant

namespace Scanned

variable {α β γ : Type}

lemma after_zero (s : Scanned α) : s.after 0 = s := by
  rw [after, Nat.zero_add]

lemma map_after (s : Scanned α) (f : α → β) (n : Nat) : (s.after n).map f = (s.map f).after n := by
  obtain ⟨outcome, passed⟩ := s
  cases outcome <;> rfl

lemma map_map (s : Scanned α) (f : α → β) (g : β → γ) : (s.map f).map g = s.map (g ∘ f) := by
  obtain ⟨outcome, passed⟩ := s
  cases outcome <;> rfl

lemma map_id (s : Scanned α) : s.map id = s := by
  obtain ⟨outcome, passed⟩ := s
  cases outcome <;> rfl

end Scanned

/-! ## Taking items -/

namespace Scan

variable {terminator : Char} {body : List QuotedItem}

lemma untilChars_item {item : QuotedItem} (h : item.Allowed terminator) (rest : List Char) :
    untilChars terminator (item.written ++ rest) =
      ((untilChars terminator rest).map (item.meant :: ·)).after item.written.length := by
  cases item with
  | plain c =>
    obtain ⟨hterminator, hescape⟩ := h
    rw [QuotedItem.written, List.singleton_append, untilChars_of_ne hescape, if_neg hterminator]
    rfl
  | escaped c =>
    have hspecial : c = terminator ∨ c = escape := h
    rw [QuotedItem.written, List.cons_append, List.singleton_append, untilChars_escape, if_pos hspecial]
    rfl

/-- A body is taken item by item, whatever comes after it. -/
lemma untilChars_append (h : IsBody terminator body) (rest : List Char) :
    untilChars terminator (bodyText body ++ rest) =
      ((untilChars terminator rest).map (bodyValue body ++ ·)).after (bodyText body).length := by
  induction body with
  | nil =>
    have hbare : untilChars terminator rest = ((untilChars terminator rest).map id).after 0 := by
      rw [Scanned.map_id, Scanned.after_zero]
    exact hbare
  | cons item body ih =>
    obtain ⟨hitem, hbody⟩ := List.forall_mem_cons.1 h
    have htext : bodyText (item :: body) = item.written ++ bodyText body := List.flatMap_cons
    rw [htext, List.append_assoc, untilChars_item hitem, ih hbody, Scanned.map_after, Scanned.map_map,
      Scanned.after_after, List.length_append]
    rfl

/-- What may be left where no further item comes next. -/
inductive Leftover (terminator : Char) : List Char → Prop
  /-- The terminator. -/
  | closed (more : List Char) : Leftover terminator (terminator :: more)
  /-- An escape of a character that needs none. -/
  | badEscape {c : Char} (hterminator : c ≠ terminator) (hescape : c ≠ escape) (more : List Char) :
      Leftover terminator (escape :: c :: more)
  /-- Nothing. -/
  | ended : Leftover terminator []
  /-- The first half of an escape. -/
  | endedInEscape : Leftover terminator [escape]

/-- Every text is a body and what is left after it. -/
lemma exists_leftover (terminator : Char) (text : List Char) :
    ∃ body rest, IsBody terminator body ∧ text = bodyText body ++ rest ∧ Leftover terminator rest := by
  -- an item in front of a text that has been taken apart
  have hcons : ∀ (item : QuotedItem) {text : List Char}, item.Allowed terminator →
      (∃ body rest, IsBody terminator body ∧ text = bodyText body ++ rest ∧ Leftover terminator rest) →
      ∃ body rest, IsBody terminator body ∧ item.written ++ text = bodyText body ++ rest ∧
        Leftover terminator rest := by
    rintro item _ hitem ⟨body, rest, hbody, rfl, hrest⟩
    refine ⟨item :: body, rest, List.forall_mem_cons.2 ⟨hitem, hbody⟩, ?_, hrest⟩
    rw [bodyText, bodyText, List.flatMap_cons, List.append_assoc]
  have hnone : ∀ {rest : List Char}, Leftover terminator rest →
      ∃ body rest', IsBody terminator body ∧ rest = bodyText body ++ rest' ∧ Leftover terminator rest' :=
    fun hrest => ⟨[], _, by simp [IsBody], rfl, hrest⟩
  fun_induction untilChars terminator text with
  | case1 => exact hnone .ended
  | case2 => exact hnone .endedInEscape
  | case3 d more hd ih => exact hcons (.escaped d) hd ih
  | case4 d more hd =>
    obtain ⟨hterminator, hescape⟩ := not_or.1 hd
    exact hnone (.badEscape hterminator hescape more)
  | case5 rest _ => exact hnone (.closed rest)
  | case6 c rest hescape hterminator ih => exact hcons (.plain c) ⟨hterminator, hescape⟩ ih

/-! ## Reading up to the terminator -/

/-- A body ends with the terminator. -/
def Closes (terminator : Char) (text : List Char) (body : List QuotedItem) (more : List Char) : Prop :=
  IsBody terminator body ∧ text = bodyText body ++ terminator :: more

/-- After a body there is an escape of a character that needs none. -/
def Misescapes (terminator : Char) (text : List Char) (body : List QuotedItem) (c : Char) (more : List Char) : Prop :=
  IsBody terminator body ∧ text = bodyText body ++ escape :: c :: more ∧ c ≠ terminator ∧ c ≠ escape

variable {text more : List Char} {c : Char}

lemma upTo_of_closes (ht : terminator ≠ escape) (h : Closes terminator text body more) :
    upTo terminator text = .found (String.ofList (bodyValue body)) ((bodyText body).length + 1) := by
  obtain ⟨hbody, rfl⟩ := h
  rw [upTo, untilChars_append hbody, untilChars_of_ne ht, if_pos rfl, Scanned.map_after, Scanned.map_map]
  simp only [Scanned.map, Scanned.found, Scanned.after, Function.comp_apply, List.append_nil]

lemma upTo_of_misescapes (h : Misescapes terminator text body c more) :
    upTo terminator text = .failed (.invalidEscape c) ((bodyText body).length + 1) := by
  obtain ⟨hbody, rfl, hterminator, hescape⟩ := h
  rw [upTo, untilChars_append hbody, untilChars_escape, if_neg (not_or.2 ⟨hterminator, hescape⟩)]
  rfl

lemma upTo_of_ended (hbody : IsBody terminator body) :
    upTo terminator (bodyText body) = .failed .expectedEndOfQuote (bodyText body).length := by
  have happend := untilChars_append hbody []
  rw [List.append_nil] at happend
  rw [upTo, happend]
  rfl

lemma upTo_of_endedInEscape (hbody : IsBody terminator body) :
    upTo terminator (bodyText body ++ [escape]) = .failed .expectedEndOfQuote ((bodyText body).length + 1) := by
  rw [upTo, untilChars_append hbody]
  rfl

/-- A text is closed, or has an escape of a character that needs none, or is not closed. -/
lemma upTo_cases (terminator : Char) (text : List Char) :
    (∃ body more, Closes terminator text body more) ∨ (∃ body c more, Misescapes terminator text body c more) ∨
      upTo terminator text = .failed .expectedEndOfQuote text.length := by
  obtain ⟨body, rest, hbody, rfl, hleft⟩ := exists_leftover terminator text
  cases hleft with
  | closed more => exact .inl ⟨body, more, hbody, rfl⟩
  | badEscape hterminator hescape more => exact .inr (.inl ⟨body, _, more, hbody, rfl, hterminator, hescape⟩)
  | ended =>
    rw [List.append_nil]
    exact .inr (.inr (upTo_of_ended hbody))
  | endedInEscape =>
    rw [upTo_of_endedInEscape hbody, List.length_append, List.length_singleton]
    exact .inr (.inr rfl)

end Scan

namespace Reader

variable {α : Type} {r : Reader} {terminator : Char} {body : List QuotedItem} {more : List Char} {c : Char}

/-- Where a scan leads to, and where its error is, told by the characters that it passed. -/
lemma run_of_passed {scan : Scan α} {o : Except Reason α} {token rest : List Char}
    (hrest : r.rest = token ++ rest) (h : scan r.rest = ⟨o, token.length⟩) :
    r.run scan = (o.mapError (Reader.error ⟨r.past ++ token, rest⟩), ⟨r.past ++ token, rest⟩) := by
  obtain ⟨past, ahead⟩ := r
  obtain rfl : ahead = token ++ rest := hrest
  simp only [run, h, advance_append]

/-- The place after a body and one more character. -/
def behind (r : Reader) (body : List QuotedItem) (c : Char) (more : List Char) : Reader :=
  ⟨r.past ++ (bodyText body ++ [c]), more⟩

lemma run_upTo_of_closes (ht : terminator ≠ Scan.escape) (h : Scan.Closes terminator r.rest body more) :
    r.run (Scan.upTo terminator) = (.ok (String.ofList (bodyValue body)), r.behind body terminator more) := by
  refine run_of_passed (o := .ok _) ?_ ?_
  · rw [h.2, List.append_assoc, List.singleton_append]
  · rw [Scan.upTo_of_closes ht h, List.length_append, List.length_singleton]
    rfl

lemma run_upTo_of_misescapes (h : Scan.Misescapes terminator r.rest body c more) :
    r.run (Scan.upTo terminator) =
      (.error ((r.behind body Scan.escape (c :: more)).error (.invalidEscape c)),
        r.behind body Scan.escape (c :: more)) := by
  refine run_of_passed (o := .error _) ?_ ?_
  · rw [h.2.1, List.append_assoc, List.singleton_append]
  · rw [Scan.upTo_of_misescapes h, List.length_append, List.length_singleton]
    rfl

lemma run_upTo_of_unclosed (h : Scan.upTo terminator r.rest = .failed .expectedEndOfQuote r.rest.length) :
    r.run (Scan.upTo terminator) = (.error (r.atEnd.error .expectedEndOfQuote), r.atEnd) :=
  run_of_passed (o := .error _) (List.append_nil _).symm h

lemma run_upTo_cases (terminator : Char) (r : Reader) :
    (∃ body more, Scan.Closes terminator r.rest body more) ∨
      (∃ body c more, Scan.Misescapes terminator r.rest body c more) ∨
      r.run (Scan.upTo terminator) = (.error (r.atEnd.error .expectedEndOfQuote), r.atEnd) :=
  (Scan.upTo_cases terminator r.rest).imp_right (Or.imp_right run_upTo_of_unclosed)

/-- What is read up to a terminator, and where reading stands then. -/
structure ReadsUpTo (terminator : Char) (r : Reader) : Prop where
  /-- The value is that of a body that the terminator ends, and the place is just past the terminator. -/
  closed : ∀ value next, r.run (Scan.upTo terminator) = (.ok value, next) ↔
    ∃ body more, Scan.Closes terminator r.rest body more ∧ value = String.ofList (bodyValue body) ∧
      next = r.behind body terminator more
  /-- An escape of a character that needs none is refused, at that character. -/
  badEscape : ∀ c next, r.run (Scan.upTo terminator) = (.error (next.error (.invalidEscape c)), next) ↔
    ∃ body more, Scan.Misescapes terminator r.rest body c more ∧ next = r.behind body Scan.escape (c :: more)
  /-- In every other case the end of the input is reached, and the terminator was expected there. -/
  unclosed : r.run (Scan.upTo terminator) = (.error (r.atEnd.error .expectedEndOfQuote), r.atEnd) ↔
    (¬ ∃ body more, Scan.Closes terminator r.rest body more) ∧
      ¬ ∃ body c more, Scan.Misescapes terminator r.rest body c more

/-- The outcome of reading up to a terminator, for every text ahead. -/
theorem readsUpTo (ht : terminator ≠ Scan.escape) (r : Reader) : r.ReadsUpTo terminator := by
  have hclosed : ∀ {body more}, Scan.Closes terminator r.rest body more → r.run (Scan.upTo terminator) = _ :=
    fun h => run_upTo_of_closes ht h
  have hbad : ∀ {body c more}, Scan.Misescapes terminator r.rest body c more → r.run (Scan.upTo terminator) = _ :=
    fun h => run_upTo_of_misescapes h
  -- the three outcomes differ in the value or in the reason, so each tells which case it is
  refine ⟨fun value next => ⟨fun hrun => ?_, ?_⟩, fun c next => ⟨fun hrun => ?_, ?_⟩, fun hrun => ⟨?_, ?_⟩, ?_⟩
  · rcases run_upTo_cases terminator r with ⟨body, more, h⟩ | ⟨body, c, more, h⟩ | h
    · obtain ⟨hvalue, hnext⟩ := Prod.mk.inj ((hclosed h).symm.trans hrun)
      exact ⟨body, more, h, (Except.ok.inj hvalue).symm, hnext.symm⟩
    · cases (Prod.mk.inj ((hbad h).symm.trans hrun)).1
    · cases (Prod.mk.inj (h.symm.trans hrun)).1
  · rintro ⟨body, more, h, rfl, rfl⟩
    exact hclosed h
  · rcases run_upTo_cases terminator r with ⟨body, more, h⟩ | ⟨body, d, more, h⟩ | h
    · cases (Prod.mk.inj ((hclosed h).symm.trans hrun)).1
    · obtain ⟨herror, hnext⟩ := Prod.mk.inj ((hbad h).symm.trans hrun)
      have hreason := congrArg SyntaxError.reason (Except.error.inj herror)
      obtain rfl : d = c := Reason.invalidEscape.inj hreason
      exact ⟨body, more, h, hnext.symm⟩
    · have hreason := congrArg SyntaxError.reason (Except.error.inj (Prod.mk.inj (h.symm.trans hrun)).1)
      cases hreason
  · rintro ⟨body, more, h, rfl⟩
    exact hbad h
  · rintro ⟨body, more, h⟩
    cases (Prod.mk.inj ((hclosed h).symm.trans hrun)).1
  · rintro ⟨body, c, more, h⟩
    have hreason := congrArg SyntaxError.reason (Except.error.inj (Prod.mk.inj ((hbad h).symm.trans hrun)).1)
    cases hreason
  · rintro ⟨hopen, hplain⟩
    rcases run_upTo_cases terminator r with ⟨body, more, h⟩ | ⟨body, c, more, h⟩ | h
    · exact absurd ⟨body, more, h⟩ hopen
    · exact absurd ⟨body, c, more, h⟩ hplain
    · exact h

/-- Inside double quotes: a body with two escapes and a character of several bytes, the same up to an escape of a
letter, and a body that breaks off in an escape. -/
theorem readsUpTo_phrase :
    '"' ≠ Scan.escape ∧
      (Reader.mk ['"'] "a\\\"é\\\\\" b".toList).run (Scan.upTo '"') =
        (.ok "a\"é\\", ⟨"\"a\\\"é\\\\\"".toList, " b".toList⟩) ∧
      (Reader.mk ['"'] "a\\\"é\\n\"".toList).run (Scan.upTo '"') =
        (.error (.located (.invalidEscape 'n') "\"a\\\"é\\n\"" 7), ⟨"\"a\\\"é\\".toList, "n\"".toList⟩) ∧
      (Reader.mk ['"'] "a\\".toList).run (Scan.upTo '"') =
        (.error (.located .expectedEndOfQuote "\"a\\" 3), ⟨"\"a\\".toList, []⟩) ∧
      ¬ ∃ body c more, Scan.Misescapes '"' "a\\".toList body c more := by
  have hquote : '"' ≠ Scan.escape := by decide
  have hunclosed : (Reader.mk ['"'] "a\\".toList).run (Scan.upTo '"') =
      (.error (.located .expectedEndOfQuote "\"a\\" 3), ⟨"\"a\\".toList, []⟩) := by decide +kernel
  have hplace : Reader.error ⟨"\"a\\\"é\\".toList, "n\"".toList⟩ (.invalidEscape 'n') =
      .located (.invalidEscape 'n') "\"a\\\"é\\n\"" 7 := by decide +kernel
  refine ⟨hquote, ((readsUpTo hquote _).closed _ _).2 ?_, hplace ▸ ((readsUpTo hquote _).badEscape _ _).2 ?_,
    hunclosed, ((readsUpTo hquote _).unclosed.1 hunclosed).2⟩
  · refine ⟨[.plain 'a', .escaped '"', .plain 'é', .escaped '\\'], " b".toList, ⟨?_, rfl⟩, rfl, rfl⟩
    simp [IsBody, QuotedItem.Allowed, Scan.escape]
  · refine ⟨[.plain 'a', .escaped '"', .plain 'é'], "\"".toList, ⟨?_, rfl, by decide, by decide⟩, rfl⟩
    simp [IsBody, QuotedItem.Allowed, Scan.escape]

end Reader
end CommandEngine
