import RangeCalc.Proofs.Highlight.Line
import RangeCalc.Proofs.Token.Lines

/-!
# The lines of a document

A document is highlighted line by line, and a line does not know of the others. Still it is shown as
the tokens of the whole document say, as long as none of these runs over several lines.

* `shown`: the characters of spans and their styles;
* `shown_line`: how a character of a line is shown;
* `shown_documentLine`: how a character of a line of a document is shown.
-/

namespace RangeCalc

/-- The token stands where the character at a position is. -/
def Token.Covers (token : Token) (i : Nat) : Prop :=
  token.pos ≤ i ∧ i < token.pos + token.text.length

instance (token : Token) (i : Nat) : Decidable (token.Covers i) :=
  inferInstanceAs (Decidable (token.pos ≤ i ∧ i < token.pos + token.text.length))

namespace Highlight

open Text (lineStart)
open Token (isGap scan scanLines)

/-- The characters that spans show, each in the style that it is shown in. -/
def shown (spans : List Span) : List (Char × Text) :=
  spans.flatMap fun span => span.text.map (·, span.style)

/-! ## Characters and spans -/

variable {spans : List Span} {start i : Nat} {c : Char} {text : Text}

theorem map_fst_shown (spans : List Span) :
    (shown spans).map Prod.fst = spans.flatMap Span.text := by
  rw [shown, List.map_flatMap]
  congr 1
  funext span
  rw [List.map_map]
  exact List.map_id _

/-- A character is shown in the style of the span that it is in. -/
theorem exists_placed_of_shown (start : Nat) {style : Text}
    (h : (shown spans)[i]? = some (c, style)) :
    ∃ p ∈ placed start spans, ∃ j, start + i = p.1 + j ∧ p.2.text[j]? = some c ∧
      p.2.style = style := by
  induction spans generalizing start i with
  | nil => cases h
  | cons span spans ih =>
    rw [shown, List.flatMap_cons] at h
    by_cases here : i < span.text.length
    · rw [List.getElem?_append_left (by rwa [List.length_map]), List.getElem?_map] at h
      obtain ⟨d, found, eq⟩ := Option.map_eq_some_iff.1 h
      cases eq
      exact ⟨(start, span), List.mem_cons_self, i, rfl, found, rfl⟩
    · rw [List.getElem?_append_right (by rw [List.length_map]; omega), List.length_map] at h
      obtain ⟨p, mem, j, place, found⟩ := ih (start + span.text.length) h
      exact ⟨p, List.mem_cons_of_mem _ mem, j, by omega, found⟩

theorem le_of_mem_placed : ∀ p ∈ placed start spans, start ≤ p.1 := by
  induction spans generalizing start with
  | nil => exact nofun
  | cons span spans ih =>
    rw [placed, List.forall_mem_cons]
    exact ⟨Nat.le_refl _, fun p mem => Nat.le_of_add_right_le (ih p mem)⟩

/-- Two spans that are at the same place are the same. -/
theorem eq_of_mem_placed {p q : Nat × Span} (hp : p ∈ placed start spans)
    (hq : q ∈ placed start spans) (p_covers : p.1 ≤ i ∧ i < p.1 + p.2.text.length)
    (q_covers : q.1 ≤ i ∧ i < q.1 + q.2.text.length) : p = q := by
  induction spans generalizing start with
  | nil => cases hp
  | cons span spans ih =>
    rcases List.mem_cons.1 hp with rfl | hp <;> rcases List.mem_cons.1 hq with rfl | hq
    · rfl
    · have lt := Nat.lt_of_le_of_lt q_covers.1 p_covers.2
      exact absurd (le_of_mem_placed q hq) (Nat.not_le_of_lt lt)
    · have lt := Nat.lt_of_le_of_lt p_covers.1 q_covers.2
      exact absurd (le_of_mem_placed p hp) (Nat.not_le_of_lt lt)
    · exact ih hp hq

/-! ## Characters and tokens -/

/-- A character of a line is shown in the style of the token that it is in. A character in no token
is one of a gap, and is shown without a style. -/
theorem shown_line (found : text[i]? = some c) :
    ∃ style, (shown (line text))[i]? = some (c, style) ∧
      (∀ token ∈ scan text, token.Covers i → style = Highlight.style token.kind) ∧
      ((∀ token ∈ scan text, ¬ token.Covers i) → style = [] ∧ isGap c = true) := by
  obtain ⟨whole, -, each, tokens⟩ := line_covers text
  rw [← whole, ← map_fst_shown, List.getElem?_map] at found
  obtain ⟨⟨_, style⟩, shown_here, rfl⟩ := Option.map_eq_some_iff.1 found
  obtain ⟨p, mem, j, place, inside, rfl⟩ := exists_placed_of_shown 0 shown_here
  rw [Nat.zero_add] at place
  have lt := (List.getElem?_eq_some_iff.1 inside).1
  refine ⟨p.2.style, shown_here, fun token scanned covers => ?_, fun uncovered => ?_⟩
  · rw [eq_of_mem_placed mem (tokens token scanned) ⟨by omega, by omega⟩ covers]
  · rcases each p mem with ⟨token, scanned, pos, is_token⟩ | ⟨none, run⟩
    · refine absurd ?_ (uncovered token scanned)
      have lt : j < token.text.length := by
        rw [is_token] at lt
        exact lt
      exact ⟨by omega, by omega⟩
    · exact ⟨none, run.gap _ (List.mem_of_getElem? inside)⟩

/-- The tokens of lines that are scanned one by one and stand at a character of a line are the tokens
of that line that stand there. -/
theorem covers_lineStart_iff {lines : List Text} {k : Nat} (line_at : lines[k]? = some text)
    (lt : i < text.length) (token : Token) :
    token ∈ scanLines 0 lines ∧ token.Covers (lineStart lines k + i) ↔
      ∃ token' ∈ scan text, token'.Covers i ∧ token = token'.shift (lineStart lines k) := by
  rw [Token.mem_scanLines_iff]
  constructor
  · rintro ⟨⟨k', other, other_at, token', mem, rfl⟩, after, before⟩
    have le := (Token.tokenizes_scan other).end_le_length mem
    simp only [Token.shift, Nat.zero_add] at after before
    -- The token ends in its own line, and that is the line of the character.
    obtain lt' | rfl | lt' := Nat.lt_trichotomy k k'
    · have apart := Text.lineStart_lt line_at lt'
      omega
    · rw [line_at] at other_at
      cases other_at
      exact ⟨token', mem, ⟨by omega, by omega⟩, by rw [Nat.zero_add]⟩
    · have apart := Text.lineStart_lt other_at lt'
      omega
  · rintro ⟨token', mem, ⟨after, before⟩, rfl⟩
    refine ⟨⟨k, text, line_at, token', mem, by rw [Nat.zero_add]⟩, ?_, ?_⟩
    · show token'.pos + lineStart lines k ≤ lineStart lines k + i
      omega
    · show lineStart lines k + i < token'.pos + lineStart lines k + token'.text.length
      omega

/-- A line that is counted from the last one back is the one that stands there. -/
theorem documentLine?_negSucc {text : Text} {back : Nat} (h : back < text.lines.length) :
    documentLine? text (.negSucc back) =
      some (documentLine text (text.lines.length - 1 - back)) := by
  have inside : text.lines.length - 1 - back < text.lines.length := by omega
  rw [documentLine?, documentLine, List.getElem?_reverse h, List.getElem?_eq_getElem inside]
  rfl

/-- The tokens of the lines of a document, each line scanned by itself, are the tokens of the document
if and only if none of these contains a line feed. If so, every character of every line is shown in
the style of the token of the document that it is in, and a character in no token is one of a gap
and is shown without a style. -/
theorem documentLine_agrees (text : Text) :
    (scanLines 0 text.lines = scan text ↔ ∀ token ∈ scan text, '\n' ∉ token.text) ∧
    ((∀ token ∈ scan text, '\n' ∉ token.text) →
      ∀ k row, text.lines[k]? = some row → ∀ i c, row[i]? = some c →
        text[lineStart text.lines k + i]? = some c ∧
        ∃ style, (shown (documentLine text k))[i]? = some (c, style) ∧
          (∀ token ∈ scan text, token.Covers (lineStart text.lines k + i) →
            style = Highlight.style token.kind) ∧
          ((∀ token ∈ scan text, ¬ token.Covers (lineStart text.lines k + i)) →
            style = [] ∧ isGap c = true)) := by
  refine ⟨Token.scanLines_eq_iff text, fun whole k row row_at i c found => ?_⟩
  have lt := (List.getElem?_eq_some_iff.1 found).1
  have tokens := covers_lineStart_iff row_at lt
  rw [(Token.scanLines_eq_iff text).2 whole] at tokens
  obtain ⟨style, shown_here, covered, uncovered⟩ := shown_line found
  rw [documentLine, row_at]
  refine ⟨(Text.getElem?_lineStart row_at lt).trans found, style, shown_here, ?_, ?_⟩
  · intro token mem covers
    obtain ⟨token', mem', covers', rfl⟩ := (tokens token).1 ⟨mem, covers⟩
    exact covered token' mem' covers'
  · intro none
    refine uncovered fun token mem covers => ?_
    obtain ⟨mem', covers'⟩ := (tokens _).2 ⟨token, mem, covers, rfl⟩
    exact none _ mem' covers'

/-- On the second line a keyword and a string are shown as such, and the blank between them without a
style. A string that goes on on the second line is not found by scanning the lines. -/
theorem documentLine_agrees_of_two_lines :
    let text : Text := "out 1\nprint \"a\""
    let broken : Text := "out \"a\nb\""
    (∀ token ∈ scan text, '\n' ∉ token.text) ∧ scanLines 0 text.lines = scan text ∧
      (shown (documentLine text 1))[1]? = some ('r', ("bold ansicyan" : Text)) ∧
      (shown (documentLine text 1))[5]? = some (' ', ([] : Text)) ∧
      (shown (documentLine text 1))[7]? = some ('a', ("ansigreen" : Text)) ∧
      scanLines 0 broken.lines ≠ scan broken := by
  intro text broken
  have whole : ∀ token ∈ scan text, '\n' ∉ token.text := by decide
  let row : Text := "print \"a\""
  have second : text.lines[1]? = some row := by decide
  obtain ⟨agree, shown_as⟩ := documentLine_agrees text
  obtain ⟨-, keyword, shown_keyword, covered, -⟩ := shown_as whole 1 row second 1 'r' rfl
  obtain rfl := covered ⟨.print, "print", 6⟩ (by decide) ⟨by decide, by decide⟩
  obtain ⟨-, blank, shown_blank, -, uncovered⟩ := shown_as whole 1 row second 5 ' ' rfl
  obtain ⟨rfl, -⟩ := uncovered (by decide)
  obtain ⟨-, string, shown_string, covered, -⟩ := shown_as whole 1 row second 7 'a' rfl
  obtain rfl := covered ⟨.string, "\"a\"", 12⟩ (by decide) ⟨by decide, by decide⟩
  have across : ¬ ∀ token ∈ scan broken, '\n' ∉ token.text := by decide
  exact ⟨whole, agree.2 whole, shown_keyword, shown_blank, shown_string,
    fun same => across ((documentLine_agrees broken).1.1 same)⟩

end Highlight

end RangeCalc
