import RangeCalc.Highlight
import RangeCalc.Proofs.Token.Partition
import RangeCalc.Proofs.Token.WellFormed

/-!
# The spans of a line

A line is highlighted by cutting it into spans. What is shown is the line: the texts of the spans are
put side by side, and nothing is lost, doubled or moved. And the cuts are where the tokens are: a
span is either a token in the style of its kind, or all that stands between two tokens, before the
first one or after the last one, without a style.

A token neither starts nor ends with a gap character. So the gap characters between two tokens are as
long a run of them as there is at that place.

* `placed`: spans, and where they stand;
* `Token.Tokenizes.not_gap_at_pos`, `Token.Tokenizes.not_gap_before_end`: the ends of a token;
* `flatMap_text_spansFrom`, `mem_placed_spansFrom`: the spans of a text that starts at a position;
* `line_covers`: the spans of a line.
-/

namespace RangeCalc

/-! ## The ends of a token -/

namespace Token.Tokenizes

variable {source : Text} {start : Nat} {tokens : List Token} {token : Token} {c : Char}

/-- A token is among those that scanning finds. -/
theorem mem_scanFrom (tokenizes : Tokenizes source start tokens) (mem : token ∈ tokens) :
    token ∈ scanFrom 0 start (source.drop start) :=
  (tokenizes_iff source start tokens).1 tokenizes ▸ mem

/-- The characters of a token are those of the text from its position on. -/
theorem getElem?_text (tokenizes : Tokenizes source start tokens) (mem : token ∈ tokens) {i : Nat}
    (lt : i < token.text.length) : token.text[i]? = source[token.pos + i]? := by
  obtain ⟨behind, at_pos⟩ := (tokenizes.slice token mem).2
  rw [← List.getElem?_drop, ← at_pos, List.getElem?_append_left lt]

/-- A token ends within the text. -/
theorem end_le_length (tokenizes : Tokenizes source start tokens) (mem : token ∈ tokens) :
    token.pos + token.text.length ≤ source.length := by
  obtain ⟨ne, front⟩ := tokenizes.slice token mem
  have pos := List.length_pos_iff.2 ne
  have le := front.length_le
  rw [List.length_drop] at le
  omega

/-- A token starts with no gap character. -/
theorem not_gap_at_pos (tokenizes : Tokenizes source start tokens) (mem : token ∈ tokens)
    (h : source[token.pos]? = some c) : isGap c = false := by
  have scanned := tokenizes.mem_scanFrom mem
  have pos := List.length_pos_iff.2 (tokenizes.slice token mem).1
  have first : token.text[0]? = some c := by rw [tokenizes.getElem?_text mem pos, Nat.add_zero, h]
  by_cases string : token.kind = .string
  · obtain ⟨inner, spelled⟩ := (wellFormed_of_mem_scanFrom scanned).2 string
    rw [spelled] at first
    cases first
    rfl
  · exact not_gap_of_mem_text scanned string c (List.mem_of_getElem? first)

/-- A token ends with no gap character. -/
theorem not_gap_before_end (tokenizes : Tokenizes source start tokens) (mem : token ∈ tokens)
    {i : Nat} (last : i + 1 = token.pos + token.text.length) (h : source[i]? = some c) :
    isGap c = false := by
  have scanned := tokenizes.mem_scanFrom mem
  have pos := List.length_pos_iff.2 (tokenizes.slice token mem).1
  have final : token.text[token.text.length - 1]? = some c := by
    rw [tokenizes.getElem?_text mem (Nat.sub_lt pos Nat.one_pos), ← h]
    congr 1
    omega
  by_cases string : token.kind = .string
  · obtain ⟨inner, spelled⟩ := (wellFormed_of_mem_scanFrom scanned).2 string
    rw [spelled, ← List.getLast?_eq_getElem?, ← List.cons_append, List.getLast?_concat] at final
    cases final
    rfl
  · exact not_gap_of_mem_text scanned string c (List.mem_of_getElem? final)

end Token.Tokenizes

namespace Highlight

open Token (Tokenizes isGap scan)

/-- Spans that stand side by side from a position on, each with its own position. -/
def placed : (pos : Nat) → List Span → List (Nat × Span)
  | _, [] => []
  | pos, span :: spans => (pos, span) :: placed (pos + span.text.length) spans

/-- A run of gap characters that stands at a position and goes on at neither of its ends. -/
structure IsGapRun (source : Text) (pos : Nat) (run : Text) : Prop where
  slice : run <+: source.drop pos
  gap : ∀ c ∈ run, isGap c = true
  before : ∀ i c, i + 1 = pos → source[i]? = some c → isGap c = false
  after : ∀ c, source[pos + run.length]? = some c → isGap c = false

/-! ## Gaps -/

variable {source text : Text} {start : Nat} {tokens : List Token} {token : Token}

theorem flatMap_text_gap (text : Text) : (gap text).flatMap Span.text = text := by
  cases text with
  | nil => rfl
  | cons c text => exact List.append_nil _

/-- There is a span for a gap if there is anything in it. -/
theorem mem_gap {span : Span} : span ∈ gap text ↔ text ≠ [] ∧ span = ⟨[], text⟩ := by
  cases text with
  | nil => simp [gap]
  | cons c text => simp [gap]

theorem placed_gap_append (pos : Nat) (text : Text) (spans : List Span) :
    placed pos (gap text ++ spans) =
      (gap text).map (pos, ·) ++ placed (pos + text.length) spans := by
  cases text with
  | nil => rfl
  | cons c text => rfl

/-! ## From a position on -/

/-- The spans up to the first token, the token, and the spans behind it. -/
theorem spansFrom_cons (le : start ≤ token.pos) (source : Text) (later : List Token) :
    spansFrom start (source.drop start) (token :: later) =
      gap ((source.drop start).take (token.pos - start)) ++ ⟨style token.kind, token.text⟩ ::
        spansFrom (token.pos + token.text.length)
          (source.drop (token.pos + token.text.length)) later := by
  rw [spansFrom, List.drop_drop, ← Nat.add_assoc, Nat.add_sub_cancel' le]

theorem placed_spansFrom_cons {later : List Token}
    (tokenizes : Tokenizes source start (token :: later)) :
    placed start (spansFrom start (source.drop start) (token :: later)) =
      (gap ((source.drop start).take (token.pos - start))).map (start, ·) ++
        (token.pos, ⟨style token.kind, token.text⟩) ::
          placed (token.pos + token.text.length) (spansFrom (token.pos + token.text.length)
            (source.drop (token.pos + token.text.length)) later) := by
  have le := tokenizes.le_pos token List.mem_cons_self
  have within := tokenizes.end_le_length List.mem_cons_self
  rw [spansFrom_cons le, placed_gap_append, List.length_take, List.length_drop,
    Nat.min_eq_left (by omega), Nat.add_sub_cancel' le, placed]

/-- The spans show the texts of the tokens and what stands between them. -/
theorem flatMap_text_spansFrom (tokenizes : Tokenizes source start tokens) :
    (spansFrom start (source.drop start) tokens).flatMap Span.text =
      Token.rejoin source start tokens := by
  induction tokens generalizing start with
  | nil => rw [spansFrom, flatMap_text_gap, Token.rejoin]
  | cons token later ih =>
    rw [spansFrom_cons (tokenizes.le_pos token List.mem_cons_self), List.flatMap_append,
      flatMap_text_gap, List.flatMap_cons, ih tokenizes.tail, Token.rejoin, List.append_assoc]

/-- No span is empty. -/
theorem text_ne_nil_of_mem_spansFrom (tokenizes : Tokenizes source start tokens) :
    ∀ span ∈ spansFrom start (source.drop start) tokens, span.text ≠ [] := by
  induction tokens generalizing start with
  | nil =>
    intro span mem
    obtain ⟨ne, rfl⟩ := mem_gap.1 mem
    exact ne
  | cons token later ih =>
    rw [spansFrom_cons (tokenizes.le_pos token List.mem_cons_self), List.forall_mem_append,
      List.forall_mem_cons]
    refine ⟨fun span mem => ?_, (tokenizes.slice token List.mem_cons_self).1, ih tokenizes.tail⟩
    obtain ⟨ne, rfl⟩ := mem_gap.1 mem
    exact ne

/-- Up to the first token there is nothing but a run of gap characters. -/
theorem isGapRun_take (tokenizes : Tokenizes source start tokens)
    (edge : ∀ i c, i + 1 = start → source[i]? = some c → isGap c = false) (stop : Nat)
    (free : ∀ token ∈ tokens, stop ≤ token.pos)
    (ends : ∀ c, source[stop]? = some c → isGap c = false) (le : start ≤ stop)
    (within : stop ≤ source.length) :
    IsGapRun source start ((source.drop start).take (stop - start)) where
  slice := List.take_prefix _ _
  gap := by
    intro c mem
    obtain ⟨i, found⟩ := List.mem_iff_getElem?.1 mem
    rw [List.getElem?_take] at found
    split at found
    · rw [List.getElem?_drop] at found
      refine tokenizes.gap (start + i) c (Nat.le_add_right _ _) found fun token mem covers => ?_
      have behind := free token mem
      omega
    · cases found
  before := edge
  after := by
    intro c
    rw [List.length_take, List.length_drop, Nat.min_eq_left (by omega), Nat.add_sub_cancel' le]
    exact ends c

/-- A span is a token or a run of gap characters. -/
theorem mem_placed_spansFrom (tokenizes : Tokenizes source start tokens)
    (edge : ∀ i c, i + 1 = start → source[i]? = some c → isGap c = false) :
    ∀ p ∈ placed start (spansFrom start (source.drop start) tokens),
      (∃ token ∈ tokens, token.pos = p.1 ∧ p.2 = ⟨style token.kind, token.text⟩) ∨
        p.2.style = [] ∧ IsGapRun source p.1 p.2.text := by
  -- By induction on the tokens; no gap character stands before the position that is come to, so that
  -- a run which starts there starts as early as it can.
  induction tokens generalizing start with
  | nil =>
    intro p mem
    rw [spansFrom, ← List.append_nil (gap _), placed_gap_append, placed, List.append_nil] at mem
    obtain ⟨span, inside, rfl⟩ := List.mem_map.1 mem
    obtain ⟨ne, rfl⟩ := mem_gap.1 inside
    have lt : start < source.length := by
      by_contra past
      exact ne (List.drop_eq_nil_of_le (Nat.le_of_not_lt past))
    have run := isGapRun_take tokenizes edge source.length nofun (by simp) (Nat.le_of_lt lt)
      (Nat.le_refl _)
    rw [List.take_of_length_le (Nat.le_of_eq List.length_drop)] at run
    exact .inr ⟨rfl, run⟩
  | cons token later ih =>
    rw [placed_spansFrom_cons tokenizes]
    simp only [List.forall_mem_append, List.forall_mem_cons]
    refine ⟨fun p mem => ?_, .inl ⟨token, List.mem_cons_self, rfl, rfl⟩, fun p mem => ?_⟩
    · obtain ⟨span, inside, rfl⟩ := List.mem_map.1 mem
      obtain ⟨-, rfl⟩ := mem_gap.1 inside
      refine .inr ⟨rfl, isGapRun_take tokenizes edge token.pos ?_ ?_
        (tokenizes.le_pos token List.mem_cons_self)
        (Nat.le_of_add_right_le (tokenizes.end_le_length List.mem_cons_self))⟩
      · refine List.forall_mem_cons.2 ⟨Nat.le_refl _, fun other mem => ?_⟩
        exact Nat.le_of_add_right_le (tokenizes.tail.le_pos other mem)
      · exact fun c => tokenizes.not_gap_at_pos List.mem_cons_self
    · -- Behind the token no gap goes on, since the token does not end with a gap character.
      have edge (i : Nat) (c : Char) (last : i + 1 = token.pos + token.text.length) :
          source[i]? = some c → isGap c = false :=
        tokenizes.not_gap_before_end List.mem_cons_self last
      rcases ih tokenizes.tail edge p mem with ⟨other, mem, is_token⟩ | run
      · exact .inl ⟨other, List.mem_cons_of_mem _ mem, is_token⟩
      · exact .inr run

/-- Every token is among the spans, at its position. -/
theorem mem_placed_of_mem (tokenizes : Tokenizes source start tokens) :
    ∀ token ∈ tokens, (token.pos, ⟨style token.kind, token.text⟩) ∈
      placed start (spansFrom start (source.drop start) tokens) := by
  induction tokens generalizing start with
  | nil => exact nofun
  | cons token later ih =>
    rw [placed_spansFrom_cons tokenizes, List.forall_mem_cons]
    refine ⟨List.mem_append_right _ List.mem_cons_self, fun other mem => ?_⟩
    exact List.mem_append_right _ (List.mem_cons_of_mem _ (ih tokenizes.tail other mem))

/-! ## A line -/

/-- A line that is not empty has the spans of a text that starts at the front. -/
theorem line_of_ne_nil (ne : text ≠ []) : line text = spansFrom 0 text (scan text) := by
  have tokenizes := Token.tokenizes_scan text
  rw [line]
  split
  · rename_i none
    have shown := flatMap_text_spansFrom tokenizes
    rw [tokenizes.rejoin_eq, List.drop_zero, none] at shown
    exact absurd shown.symm ne
  · rfl

/-- The spans of a line, put side by side, are the line. None of them is empty, unless the line is.
Each is a token at its position in the style of its kind, or a run of gap characters without a style
that is as long as it can be there. And there is one for each token of the line. -/
theorem line_covers (text : Text) :
    (line text).flatMap Span.text = text ∧
    (text ≠ [] → ∀ span ∈ line text, span.text ≠ []) ∧
    (∀ p ∈ placed 0 (line text),
      (∃ token ∈ scan text, token.pos = p.1 ∧ p.2 = ⟨style token.kind, token.text⟩) ∨
        p.2.style = [] ∧ IsGapRun text p.1 p.2.text) ∧
    ∀ token ∈ scan text, (token.pos, ⟨style token.kind, token.text⟩) ∈ placed 0 (line text) := by
  cases text with
  | nil =>
    refine ⟨rfl, fun ne => absurd rfl ne, List.forall_mem_singleton.2 (.inr ⟨rfl, ?_⟩), nofun⟩
    exact ⟨List.nil_prefix, nofun, nofun, nofun⟩
  | cons c text =>
    have tokenizes := Token.tokenizes_scan (c :: text)
    rw [line_of_ne_nil (List.cons_ne_nil c text)]
    refine ⟨?_, fun _ => text_ne_nil_of_mem_spansFrom tokenizes,
      mem_placed_spansFrom tokenizes nofun, mem_placed_of_mem tokenizes⟩
    exact (flatMap_text_spansFrom tokenizes).trans tokenizes.rejoin_eq

/-- A quote that is not closed is a span of its own, and what is behind it is read as usual. -/
theorem line_covers_of_open_quote :
    let text : Text := "out map 1 \"b\" \"a "
    text ≠ [] ∧ (∀ span ∈ line text, span.text ≠ []) ∧
      (0, ⟨"bold ansicyan", "out"⟩) ∈ placed 0 (line text) ∧
      (4, ⟨"bold ansiyellow", "map"⟩) ∈ placed 0 (line text) ∧
      (8, ⟨"ansimagenta", "1"⟩) ∈ placed 0 (line text) ∧
      (10, ⟨"ansigreen", "\"b\""⟩) ∈ placed 0 (line text) ∧
      (14, ⟨"bold ansired", "\""⟩) ∈ placed 0 (line text) ∧
      (15, ⟨"", "a"⟩) ∈ placed 0 (line text) := by
  intro text
  have ne : text ≠ [] := by decide
  obtain ⟨-, some_text, -, tokens⟩ := line_covers text
  exact ⟨ne, some_text ne, tokens ⟨.out, "out", 0⟩ (by decide), tokens ⟨.map, "map", 4⟩ (by decide),
    tokens ⟨.number, "1", 8⟩ (by decide), tokens ⟨.string, "\"b\"", 10⟩ (by decide),
    tokens ⟨.error, "\"", 14⟩ (by decide), tokens ⟨.ident, "a", 15⟩ (by decide)⟩

end Highlight

end RangeCalc
