import CommandEngine.Proofs.Tree.Shape
import CommandEngine.Proofs.Walk

/-!
# Tokens that are settled

A token that is followed by a separator is settled: what comes after the separator has no influence on
whether it matches and what it is read as.  This is not true of any scan, since a scan may look as far ahead as
it likes; but it is true of the scans of the built-in types of arguments (`ArgumentType.scan_settles`), and of any
type that keeps to its token.

Candidates are chosen by the text up to the first separator, so in a tree of such types a settled token is picked
whatever comes after it (`CommandTree.mem_picks_of_settled`).
-/

namespace CommandEngine

variable {σ : Type}

/-- What the scan finds in front of a separator does not depend on what comes after the separator. -/
def Scan.Settles {α : Type} (scan : Scan α) : Prop :=
  ∀ (token x y : List Char) (value : α), scan (token ++ separator :: x) = .found value token.length →
    scan (token ++ separator :: y) = .found value token.length

/-- A run of characters that ends before a separator. -/
lemma takeWhile_append_separator {p : Char → Bool} (hp : p separator = false) (token x : List Char) :
    (token ++ separator :: x).takeWhile p = token.takeWhile p := by
  induction token with
  | nil => simp [hp]
  | cons c token ih => by_cases hc : p c <;> simp [hc, ih]

namespace Scanned

variable {α β : Type}

lemma map_eq_found {f : α → β} {s : Scanned α} {b : β} {n : Nat} :
    s.map f = .found b n ↔ ∃ a, s = .found a n ∧ f a = b := by
  obtain ⟨outcome, passed⟩ := s
  cases outcome with
  | error e => simp [map, found, failed]
  | ok a =>
    simp only [map, found, mk.injEq, Except.ok.injEq]
    constructor
    · rintro ⟨hb, hn⟩
      exact ⟨a, ⟨rfl, hn⟩, hb⟩
    · rintro ⟨a', ⟨rfl, hn⟩, hb⟩
      exact ⟨hb, hn⟩

lemma after_eq_found {s : Scanned α} {a : α} {k n : Nat} :
    s.after k = .found a n ↔ ∃ m, s = .found a m ∧ k + m = n := by
  obtain ⟨outcome, passed⟩ := s
  simp only [after, found, mk.injEq]
  constructor
  · rintro ⟨houtcome, hn⟩
    exact ⟨passed, ⟨houtcome, rfl⟩, hn⟩
  · rintro ⟨m, ⟨houtcome, rfl⟩, hn⟩
    exact ⟨houtcome, hn⟩

lemma eq_found {s : Scanned α} {a : α} {n : Nat} (houtcome : s.outcome = .ok a) (hpassed : s.passed = n) :
    s = .found a n := by
  rw [found, ← houtcome, ← hpassed]

end Scanned

/-! ## The scans of single tokens -/

namespace Scan

variable {α β : Type}

lemma Settles.map {scan : Scan α} (h : Settles scan) (f : α → β) :
    Settles fun text => (scan text).map f := by
  intro token x y b hx
  obtain ⟨a, ha, rfl⟩ := Scanned.map_eq_found.1 hx
  exact Scanned.map_eq_found.2 ⟨a, h token x y a ha, rfl⟩

/-- A scan that gives the same for all texts after the separator. -/
lemma settles_of_eq {scan : Scan α}
    (h : ∀ token x y, scan (token ++ separator :: x) = scan (token ++ separator :: y)) : Settles scan := by
  intro token x y value hx
  rw [h token y x]
  exact hx

lemma number_append [Numeral α] (token x y : List Char) :
    number (α := α) (token ++ separator :: x) = number (token ++ separator :: y) := by
  simp only [number, takeWhile_append_separator (p := isNumberChar) rfl]

lemma bounded_settles [Numeral α] (b : Bounds α) : Settles (bounded b) := by
  refine settles_of_eq fun token x y => ?_
  simp only [bounded, number_append token x y]

lemma word_append (token x y : List Char) :
    word (token ++ separator :: x) = word (token ++ separator :: y) := by
  simp only [word, takeWhile_append_separator (p := isBareChar) rfl]

lemma untilChars_escape (c d : Char) (more : List Char) :
    untilChars c (escape :: d :: more) =
      if d = c ∨ d = escape then ((untilChars c more).map (d :: ·)).after 2
      else .failed (.invalidEscape d) 1 := by
  rw [untilChars]
  simp

lemma untilChars_of_ne {c d : Char} (hd : d ≠ escape) (rest : List Char) :
    untilChars c (d :: rest) =
      if d = c then .found [] 1 else ((untilChars c rest).map (d :: ·)).after 1 := by
  rw [untilChars.eq_def]
  simp [hd]

/-- What is found up to a terminator does not depend on what comes after it. -/
lemma untilChars_take {c : Char} {text value : List Char} {n : Nat}
    (h : untilChars c text = .found value n) (y : List Char) :
    untilChars c (text.take n ++ y) = .found value n := by
  fun_induction untilChars c text generalizing value n with
  | case1 => cases h
  | case2 => cases h
  | case3 d more hd ih =>
    obtain ⟨m, hm, rfl⟩ := Scanned.after_eq_found.1 h
    obtain ⟨rest, hrest, rfl⟩ := Scanned.map_eq_found.1 hm
    have htake : (escape :: d :: more).take (2 + m) ++ y = escape :: d :: (more.take m ++ y) := by
      rw [Nat.add_comm 2 m]
      rfl
    rw [htake, untilChars_escape, if_pos hd, ih hrest]
    rfl
  | case4 => cases h
  | case5 rest hc =>
    cases h
    rw [List.take_succ_cons, List.take_zero, List.singleton_append, untilChars_of_ne hc, if_pos rfl]
  | case6 d rest hd hc ih =>
    obtain ⟨m, hm, rfl⟩ := Scanned.after_eq_found.1 h
    obtain ⟨chars, hchars, rfl⟩ := Scanned.map_eq_found.1 hm
    have htake : (d :: rest).take (1 + m) ++ y = d :: (rest.take m ++ y) := by
      rw [Nat.add_comm 1 m]
      rfl
    rw [htake, untilChars_of_ne hd, if_neg hc, ih hchars]
    rfl

lemma phrase_settles : Settles phrase := by
  intro token x y value h
  cases token with
  | nil => exact (word_append [] y x).trans h
  | cons c token =>
    simp only [List.cons_append, phrase] at h ⊢
    split at h
    · next hc =>
      rw [if_pos hc]
      obtain ⟨n, hn, hlength⟩ := Scanned.after_eq_found.1 h
      obtain ⟨chars, hchars, rfl⟩ := Scanned.map_eq_found.1 hn
      obtain rfl : n = token.length := by
        rw [List.length_cons] at hlength
        omega
      have hfound := untilChars_take hchars (separator :: y)
      rw [List.take_left] at hfound
      refine Scanned.after_eq_found.2 ⟨token.length, ?_, hlength⟩
      exact Scanned.map_eq_found.2 ⟨chars, hfound, rfl⟩
    · next hc =>
      rw [if_neg hc]
      exact (word_append (c :: token) y x).trans h

/-- A truth value is read from a phrase of the same length. -/
lemma phrase_of_boolean {text : List Char} {b : Bool} {n : Nat} (h : boolean text = .found b n) :
    ∃ value, phrase text = .found value n := by
  rcases boolean_cases text with ⟨reason, -, hfailed⟩ | ⟨-, hfailed⟩ | ⟨value, -, hfailed⟩ | ⟨value, c, hvalue, hfound⟩
  · cases hfailed.symm.trans h
  · cases hfailed.symm.trans h
  · cases hfailed.symm.trans h
  · exact ⟨value, Scanned.eq_found hvalue (congrArg Scanned.passed (hfound.symm.trans h))⟩

lemma boolean_settles : Settles boolean := by
  intro token x y b h
  obtain ⟨value, hx⟩ := phrase_of_boolean h
  have hy := phrase_settles token x y value hx
  unfold boolean at h ⊢
  rw [hx] at h
  rw [hy]
  exact h

lemma remainder_settles : Settles remainder := by
  intro token x y value h
  have hlength := congrArg Scanned.passed h
  simp only [remainder, Scanned.found, List.length_append, List.length_cons] at hlength
  omega

lemma keyword_settles (name : String) : Settles (keyword name) := by
  intro token x y value h
  unfold keyword at h ⊢
  split at h
  · next hfound =>
    have hlength : name.toList.length = token.length := congrArg Scanned.passed h
    rw [Bool.and_eq_true, List.isPrefixOf_iff_prefix] at hfound
    -- a beginning of the text that is as long as the token is the token
    have htoken : name.toList = token := by
      rw [List.prefix_iff_eq_take.1 hfound.1, hlength, List.take_left]
    have hprefix : token.isPrefixOf (token ++ separator :: y) = true :=
      List.isPrefixOf_iff_prefix.2 (List.prefix_append ..)
    rw [htoken, hprefix, List.drop_left]
    rfl
  · cases h

end Scan

lemma TextKind.scan_settles (kind : TextKind) : Scan.Settles kind.scan := by
  cases kind with
  | word => exact Scan.settles_of_eq Scan.word_append
  | phrase => exact Scan.phrase_settles
  | greedy => exact Scan.remainder_settles

/-- Whether a type is one of the built-in ones. -/
def ArgumentType.isBuiltIn : ArgumentType σ → Bool
  | .custom _ => false
  | _ => true

lemma ArgumentType.scan_settles {type : ArgumentType σ} (h : type.isBuiltIn = true) (source : Option σ) :
    Scan.Settles (type.scan source) := by
  cases type with
  | bool => exact Scan.boolean_settles.map Value.bool
  | integer b => exact (Scan.bounded_settles b).map Value.int
  | long b => exact (Scan.bounded_settles b).map Value.long
  | float b => exact (Scan.bounded_settles b).map Value.float
  | double b => exact (Scan.bounded_settles b).map Value.double
  | text kind => exact kind.scan_settles.map Value.string
  | custom own => cases h

/-- Whether a pattern is a keyword or an argument of a built-in type. -/
def Pattern.isBuiltIn : Pattern σ → Bool
  | .literal _ => true
  | .argument _ type _ => type.isBuiltIn

namespace CommandTree

variable {t : CommandTree σ}

/-- All arguments of the tree are of built-in types. -/
def BuiltIn (t : CommandTree σ) : Prop :=
  ∀ id < t.size, (t.node id).pattern.all Pattern.isBuiltIn = true

lemma BuiltIn.type (h : t.BuiltIn) {id : NodeId} {name : String} {type : ArgumentType σ}
    {provider : Option (Provider σ)} (hpattern : (t.node id).pattern = some (.argument name type provider)) :
    type.isBuiltIn = true := by
  have hid : id < t.size := by
    by_contra hge
    rw [node_of_size_le (Nat.le_of_not_lt hge)] at hpattern
    cases hpattern
  have hall := h id hid
  rw [hpattern] at hall
  exact hall

/-- Every argument of the tree is read from its token alone, if a separator follows it. -/
def Settling (t : CommandTree σ) : Prop :=
  ∀ id name type provider, (t.node id).pattern = some (.argument name type provider) →
    ∀ source, Scan.Settles (type.scan (some source))

lemma BuiltIn.settling (h : t.BuiltIn) : t.Settling :=
  fun _ _ _ _ hpattern source => ArgumentType.scan_settles (h.type hpattern) (some source)

/-! ## Settled tokens -/

section Settled

variable {id : NodeId} {past token : List Char} {hop : Hop σ}

/-- Candidates are chosen by the text up to the first separator. -/
lemma candidates_append (t : CommandTree σ) (id : NodeId) (token x y : List Char) :
    t.candidates id (token ++ separator :: x) = t.candidates id (token ++ separator :: y) := by
  simp only [candidates, takeWhile_append_separator (p := (· ≠ separator)) (by simp)]

/-- The span of a token is the same, whatever comes after it. -/
lemma ahead_append (past token x y : List Char) :
    (⟨past, token ++ x⟩ : Reader).ahead token.length = (⟨past, token ++ y⟩ : Reader).ahead token.length := by
  have hstop : ∀ z : List Char, ((⟨past, token ++ z⟩ : Reader).advance token.length).cursor =
      Text.width past + Text.width token := by
    intro z
    rw [Reader.cursor_advance]
    simp [Reader.cursor]
  simp only [Reader.ahead, hstop]
  rfl

/-- A node that matches in front of a separator matches whatever comes after the separator. -/
lemma matchNode_of_settled (ht : t.Settling) {c : NodeId} {x : List Char} {reached : Hop σ}
    (h : t.matchNode ⟨past, token ++ separator :: x⟩ hop c = .ok (reached, token.length)) (y : List Char) :
    t.matchNode ⟨past, token ++ separator :: y⟩ hop c = .ok (reached, token.length) := by
  have hahead := ahead_append past token (separator :: x) (separator :: y)
  unfold matchNode at h ⊢
  cases hpattern : (t.node c).pattern with
  | none =>
    simp only [hpattern] at h ⊢
    exact h
  | some p =>
    cases p with
    | literal k =>
      simp only [hpattern] at h ⊢
      split at h
      · cases h
      · next hfound =>
        obtain ⟨hreached, hpassed⟩ := Prod.mk.inj (Except.ok.inj h)
        have hscan := Scan.keyword_settles k token x y () (Scanned.eq_found hfound hpassed)
        rw [hpassed, hahead] at hreached
        simp only [hscan, Scanned.found, hreached]
    | argument name type provider =>
      simp only [hpattern] at h ⊢
      split at h
      · cases h
      · next value hfound =>
        obtain ⟨hreached, hpassed⟩ := Prod.mk.inj (Except.ok.inj h)
        have hsettles := ht c name type provider hpattern hop.source
        have hscan := hsettles token x y value (Scanned.eq_found hfound hpassed)
        rw [hpassed, hahead] at hreached
        simp only [hscan, Scanned.found, hreached]

lemma matchToken_of_settled (ht : t.Settling) {c : NodeId} {x : List Char} {reached : Hop σ}
    (h : t.matchToken ⟨past, token ++ separator :: x⟩ hop c = .ok (reached, token.length)) (y : List Char) :
    t.matchToken ⟨past, token ++ separator :: y⟩ hop c = .ok (reached, token.length) := by
  unfold matchToken at h ⊢
  split at h
  · cases h
  · next taken passed hmatch =>
    split at h
    · obtain ⟨rfl, rfl⟩ := Prod.mk.inj (Except.ok.inj h)
      have hends : endsToken ((token ++ separator :: y).drop token.length) = true := by
        rw [List.drop_left]
        rfl
      simp only [matchNode_of_settled ht hmatch y, hends, if_true]
    · cases h

/-- A settled token is picked whatever comes after the separator. -/
theorem mem_picks_of_settled (ht : t.Settling) {x : List Char} {p : Pick σ}
    (hp : p ∈ t.picks id ⟨past, token ++ separator :: x⟩ hop) (hpassed : p.passed = token.length)
    (y : List Char) : p ∈ t.picks id ⟨past, token ++ separator :: y⟩ hop := by
  obtain ⟨husable, hmatch⟩ := mem_picks.1 hp
  rw [hpassed] at hmatch
  refine mem_picks.2 ⟨?_, ?_⟩
  · rwa [usable, candidates_append t id token y x]
  · rw [hpassed]
    exact matchToken_of_settled ht hmatch y

end Settled
end CommandTree
end CommandEngine
