import RangeCalc.Token.Scan

/-!
# Patterns

A pattern describes texts, and says in which order the ways to match it are tried: of two
alternatives the first one first, and of a repetition the longest first. From a place in a text it
may match up to several other places; `Pattern.ends` lists them in that order, and the first of them
is the match.

* `Pattern.ends`: the places up to which a pattern matches, in the order in which they are tried;
* `Pattern.match?`: what a pattern matches at a position of a text;
* `Pattern.Takes`: a function on texts takes from the front what the pattern matches there.
-/

namespace RangeCalc.Token

/-! ## Places in a text -/

/-- A place in a text: the characters before it, the nearest first, and those behind it. -/
structure Cursor where
  before : Text
  after : Text

namespace Cursor

/-- The place at a position of a text. -/
def ofPosition (source : Text) (pos : Nat) : Cursor := ⟨(source.take pos).reverse, source.drop pos⟩

/-- The place `n` characters further on. -/
def advance (c : Cursor) (n : Nat) : Cursor :=
  ⟨(c.after.take n).reverse ++ c.before, c.after.drop n⟩

@[simp]
theorem advance_zero (c : Cursor) : c.advance 0 = c := rfl

@[simp]
theorem advance_cons (before after : Text) (x : Char) (n : Nat) :
    advance ⟨before, x :: after⟩ (n + 1) = advance ⟨x :: before, after⟩ n := by
  simp [advance]

@[simp]
theorem advance_advance (c : Cursor) (m n : Nat) : (c.advance m).advance n = c.advance (m + n) := by
  simp [advance, List.take_add]

/-- Whether one of the characters beside a place is a word character, and the other is not. The ends
of the text count as characters that are none. -/
def atBoundary (c : Cursor) : Bool := c.before.head?.any isWord != c.after.head?.any isWord

end Cursor

/-! ## Matching -/

/-- A pattern. -/
inductive Pattern
  /-- Nothing. -/
  | empty
  /-- A character of a class. -/
  | char (p : Char → Bool)
  /-- Nothing, where a word begins or ends. -/
  | boundary
  /-- One pattern after another. -/
  | seq (first second : Pattern)
  /-- One pattern, or else another. -/
  | alt (first second : Pattern)
  /-- A pattern again and again, as often as possible. -/
  | star (body : Pattern)

namespace Pattern

/-- The places that are reached by a step that is repeated as often as possible, the last ones
first. A step that takes no character is not repeated. -/
def starEnds (step : Cursor → List Cursor) (c : Cursor) : List Cursor :=
  ((step c).flatMap fun d => if d.after.length < c.after.length then starEnds step d else []) ++ [c]
termination_by c.after.length

/-- The places up to which a pattern matches, in the order in which they are tried. -/
def ends : Pattern → Cursor → List Cursor
  | empty, c => [c]
  | char p, c =>
    match c.after with
    | [] => []
    | x :: after => if p x then [⟨x :: c.before, after⟩] else []
  | boundary, c => if c.atBoundary then [c] else []
  | seq first second, c => (first.ends c).flatMap second.ends
  | alt first second, c => first.ends c ++ second.ends c
  | star body, c => starEnds body.ends c

/-- Where a pattern matches up to. -/
def last? (p : Pattern) (c : Cursor) : Option Cursor := (p.ends c).head?

/-- What a pattern matches at a position of a text. -/
def match? (p : Pattern) (source : Text) (pos : Nat) : Option Text :=
  (p.last? (.ofPosition source pos)).map fun last =>
    (source.drop pos).take (last.before.length - pos)

/-- A pattern, or else nothing. -/
def opt (p : Pattern) : Pattern := alt p empty

/-- A pattern at least once, and as often as possible. -/
def plus (p : Pattern) : Pattern := seq p (star p)

/-- Exactly the given character. -/
def one (x : Char) : Pattern := char (· == x)

/-- Exactly the given characters. -/
def literal : Text → Pattern
  | [] => empty
  | x :: word => seq (one x) (literal word)

/-! ## The first match -/

section

variable {a b : Pattern} {c d : Cursor} {p : Char → Bool}

theorem last?_seq (a b : Pattern) (c : Cursor) :
    (seq a b).last? c = (a.ends c).findSome? b.last? := by
  simp only [last?, ends]
  exact List.head?_flatMap

theorem last?_alt (a b : Pattern) (c : Cursor) : (alt a b).last? c = (a.last? c).or (b.last? c) :=
  List.head?_append

/-- If the first pattern matches in one way only, the second goes on from there. -/
theorem last?_seq_of_ends (h : a.ends c = [d]) : (seq a b).last? c = b.last? d := by
  rw [last?_seq, h, List.findSome?_singleton]

/-- If the first pattern does not match, neither do the two. -/
theorem last?_seq_of_none (h : a.ends c = []) : (seq a b).last? c = none := by
  rw [last?_seq, h, List.findSome?_nil]

theorem last?_seq_assoc (a b b' : Pattern) (c : Cursor) :
    (seq (seq a b) b').last? c = (seq a (seq b b')).last? c := by
  simp only [last?, ends, List.flatMap_assoc]

theorem ends_char_cons (p : Char → Bool) (before after : Text) (x : Char) :
    (char p).ends ⟨before, x :: after⟩ = if p x then [⟨x :: before, after⟩] else [] :=
  rfl

/-- Where its body does not match, a repetition takes nothing. -/
theorem ends_star_of_none (h : a.ends c = []) : (star a).ends c = [c] := by
  rw [ends, starEnds, h]
  rfl

/-- Where its body matches in one way, a repetition goes on from there before it gives up. -/
theorem ends_star_of_ends (h : a.ends c = [d]) (lt : d.after.length < c.after.length) :
    (star a).ends c = (star a).ends d ++ [c] := by
  rw [ends, starEnds, h]
  simp only [List.flatMap_cons, List.flatMap_nil, List.append_nil, lt, if_true]
  rw [ends]

/-- A repetition that stops is followed by the rest. -/
theorem last?_star_seq_of_none (h : a.ends c = []) : (seq (star a) b).last? c = b.last? c :=
  last?_seq_of_ends (ends_star_of_none h)

/-- A repetition that can go on does so, if the rest does not match where it stands. -/
theorem last?_star_seq_of_ends (h : a.ends c = [d]) (lt : d.after.length < c.after.length)
    (none : b.last? c = none) : (seq (star a) b).last? c = (seq (star a) b).last? d := by
  rw [last?_seq, last?_seq, ends_star_of_ends h lt, List.findSome?_append, List.findSome?_singleton,
    none, Option.or_none]

/-- A run of characters of a class goes on as far as it can, if what follows does not begin with one
of them. -/
theorem last?_star_char_seq (blocked : ∀ before x after, p x = true →
      b.last? ⟨before, x :: after⟩ = none) (c : Cursor) :
    (seq (star (char p)) b).last? c = b.last? (c.advance (c.after.takeWhile p).length) := by
  obtain ⟨before, after⟩ := c
  induction after generalizing before with
  | nil => exact last?_star_seq_of_none rfl
  | cons x after ih =>
    cases hx : p x with
    | true =>
      rw [last?_star_seq_of_ends (by rw [ends_char_cons, hx]; rfl) (Nat.lt_succ_self _)
        (blocked before x after hx), ih, List.takeWhile_cons_of_pos hx, List.length_cons,
        Cursor.advance_cons]
    | false =>
      rw [last?_star_seq_of_none (by rw [ends_char_cons, hx]; rfl),
        List.takeWhile_cons_of_neg (by simp [hx])]
      rfl

/-- A run of characters of a class goes on as far as it can. -/
theorem last?_star_char (p : Char → Bool) (c : Cursor) :
    (star (char p)).last? c = some (c.advance (c.after.takeWhile p).length) := by
  obtain ⟨before, after⟩ := c
  induction after generalizing before with
  | nil => rw [last?, ends_star_of_none rfl]; rfl
  | cons x after ih =>
    cases hx : p x with
    | true =>
      rw [last?, ends_star_of_ends (by rw [ends_char_cons, hx]; rfl) (Nat.lt_succ_self _),
        List.head?_append, ← last?, ih, List.takeWhile_cons_of_pos hx, List.length_cons,
        Cursor.advance_cons]
      rfl
    | false =>
      rw [last?, ends_star_of_none (by rw [ends_char_cons, hx]; rfl),
        List.takeWhile_cons_of_neg (by simp [hx])]
      rfl

end

/-! ## What a rule takes -/

/-- A function on texts takes from the front what the pattern matches there, wherever the text
stands. -/
def Takes (p : Pattern) (take : Text → Text) : Prop :=
  ∀ c : Cursor, p.last? c =
    if take c.after = [] then none else some (c.advance (take c.after).length)

/-- What a pattern matches at a position is what is taken there. -/
theorem Takes.match? {p : Pattern} {take : Text → Text} (h : p.Takes take)
    (front : ∀ text, take text <+: text) (source : Text) (pos : Nat) :
    p.match? source pos =
      if take (source.drop pos) = [] then none else some (take (source.drop pos)) := by
  rw [Pattern.match?, h, Cursor.ofPosition]
  split
  · rfl
  · rename_i some_taken
    have fits := (front (source.drop pos)).length_le
    have pos_lt : 0 < (take (source.drop pos)).length := List.length_pos_iff.2 some_taken
    have length : (Cursor.advance ⟨(source.take pos).reverse, source.drop pos⟩
        (take (source.drop pos)).length).before.length - pos =
          (take (source.drop pos)).length := by
      simp only [Cursor.advance, List.length_append, List.length_reverse, List.length_take,
        List.length_drop] at fits ⊢
      omega
    rw [Option.map_some, length, ← List.prefix_iff_eq_take.1 (front (source.drop pos))]

end Pattern

end RangeCalc.Token
