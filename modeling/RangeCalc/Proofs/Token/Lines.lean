import RangeCalc.Proofs.Token.Concatenation

/-!
# Tokens line by line

A text can be scanned as a whole or one line after the other. The only tokens that can tell the
difference are strings, since no other token has a line feed in it. A string that runs over several
lines is lost when its lines are scanned by themselves, and nothing else can go wrong: as long as no
string of the whole text contains a line feed, a quote that has no partner in its line has none in
the text either, so it is a stray character there as well.

* `Text.lines_induction`: a text is its first line, or that line, a line feed and the rest;
* `Text.lineStart`: where a line of a text stands in it;
* `scanLines`: the tokens of lines that are scanned one by one;
* `mem_scanLines_iff`: the tokens of a line, seen from the text;
* `scanLines_eq_iff`: when these are the tokens of the text.
-/

namespace RangeCalc

/-! ## Lines of a text -/

namespace Text

variable {line rest text : Text}

theorem lines_of_no_newline (h : '\n' ∉ line) : lines line = [line] :=
  List.splitOnP_eq_singleton fun _ mem => beq_false_of_ne (ne_of_mem_of_not_mem mem h)

theorem lines_append_newline (h : '\n' ∉ line) (rest : Text) :
    lines (line ++ '\n' :: rest) = line :: lines rest :=
  List.splitOnP_append_cons_of_forall_mem
    (fun _ mem => beq_false_of_ne (ne_of_mem_of_not_mem mem h)) '\n' (beq_self_eq_true _) rest

/-- A text is its first line, or that line, a line feed and the rest. -/
@[elab_as_elim]
theorem lines_induction {motive : Text → Prop} (last : ∀ line, '\n' ∉ line → motive line)
    (more : ∀ line rest, '\n' ∉ line → motive rest → motive (line ++ '\n' :: rest)) (text : Text) :
    motive text := by
  induction length : text.length using Nat.strongRecOn generalizing text with
  | ind length' ih =>
    subst length
    by_cases newline : '\n' ∈ text
    · obtain ⟨line, rest, rfl, no_newline⟩ := List.eq_append_cons_of_mem newline
      refine more line rest no_newline (ih _ ?_ rest rfl)
      rw [List.length_append, List.length_cons]
      omega
    · exact last text newline

theorem not_newline_of_mem_lines (text : Text) : ∀ line ∈ text.lines, '\n' ∉ line := by
  induction text using lines_induction with
  | last line h => rwa [lines_of_no_newline h, List.forall_mem_singleton]
  | more line rest h ih =>
    rw [lines_append_newline h, List.forall_mem_cons]
    exact ⟨h, ih⟩

/-- How many characters come before a line. Every line before it ends with a line feed. -/
def lineStart : List Text → (k : Nat) → Nat
  | _, 0 => 0
  | [], _ + 1 => 0
  | line :: lines, k + 1 => line.length + 1 + lineStart lines k

/-- A character of a line is a character of the text. -/
theorem getElem?_lineStart {row : Text} {k i : Nat} (found : text.lines[k]? = some row)
    (lt : i < row.length) : text[lineStart text.lines k + i]? = row[i]? := by
  induction text using lines_induction generalizing k with
  | last first h =>
    rw [lines_of_no_newline h] at found ⊢
    cases k with
    | zero =>
      cases found
      rw [lineStart, Nat.zero_add]
    | succ k => cases found
  | more first rest h ih =>
    rw [lines_append_newline h] at found ⊢
    cases k with
    | zero =>
      cases found
      rw [lineStart, Nat.zero_add, List.getElem?_append_left lt]
    | succ k =>
      have behind : first.length + 1 + lineStart rest.lines k + i - first.length =
          lineStart rest.lines k + i + 1 := by
        omega
      rw [lineStart, List.getElem?_append_right (by omega), behind, List.getElem?_cons_succ,
        ih found]

/-- A line ends before the lines behind it start. -/
theorem lineStart_lt {lines : List Text} {k k' : Nat} (found : lines[k]? = some line)
    (lt : k < k') : lineStart lines k + line.length < lineStart lines k' := by
  induction lines generalizing k k' with
  | nil => cases found
  | cons first lines ih =>
    obtain ⟨k', rfl⟩ := Nat.exists_eq_add_one_of_ne_zero (Nat.ne_zero_of_lt lt)
    cases k with
    | zero =>
      cases found
      rw [lineStart, lineStart]
      omega
    | succ k =>
      have later := ih found (Nat.lt_of_succ_lt_succ lt)
      rw [lineStart, lineStart]
      omega

end Text

namespace Token

open Text (lineStart)

/-- The tokens of lines that are scanned one by one, where the first line starts at a position and
there is a line feed between neighbours. -/
def scanLines : (start : Nat) → List Text → List Token
  | _, [] => []
  | start, line :: lines => (scan line).map (shift start) ++ scanLines (start + line.length + 1) lines

variable {start : Nat} {lines : List Text} {text : Text} {token : Token}

/-- The tokens of lines that are scanned one by one are those of the lines, moved to where the line
stands. -/
theorem mem_scanLines_iff : token ∈ scanLines start lines ↔
    ∃ k line, lines[k]? = some line ∧ ∃ token' ∈ scan line,
      token = shift (start + lineStart lines k) token' := by
  induction lines generalizing start with
  | nil => simp [scanLines]
  | cons line lines ih =>
    rw [scanLines, List.mem_append, List.mem_map, ih]
    constructor
    · rintro (⟨token', mem, rfl⟩ | ⟨k, line', found, token', mem, rfl⟩)
      · exact ⟨0, line, rfl, token', mem, rfl⟩
      · exact ⟨k + 1, line', found, token', mem, by simp only [lineStart, Nat.add_assoc]⟩
    · rintro ⟨_ | k, line', found, token', mem, rfl⟩
      · cases found
        exact .inl ⟨token', mem, rfl⟩
      · exact .inr ⟨k, line', found, token', mem, by simp only [lineStart, Nat.add_assoc]⟩

/-- A token of a text consists of characters of the text. -/
theorem subset_of_mem_scan (h : token ∈ scan text) : token.text ⊆ text := by
  obtain ⟨-, front⟩ := (tokenizes_scan text).slice token h
  exact fun c mem => List.mem_of_mem_drop (front.subset mem)

/-- Up to its first line feed a text is scanned as if it ended there, unless one of its tokens
contains a line feed. -/
theorem scanFrom_append_newline {line rest : Text}
    (h : ∀ token ∈ scanFrom 0 start (line ++ '\n' :: rest), '\n' ∉ token.text) :
    scanFrom 0 start (line ++ '\n' :: rest) =
      (scan line).map (shift start) ++ scanFrom 0 (start + line.length + 1) rest := by
  rcases scanFrom_append_gap_or (g := '\n') rfl rest start line with
    split | ⟨-, token, mem, -, newline⟩
  · rw [split, scanFrom_gap rfl, scan, ← scanFrom_add, Nat.zero_add]
  · exact absurd newline (h token mem)

/-- A text none of whose tokens contains a line feed can be scanned line by line. -/
theorem scanLines_lines (h : ∀ token ∈ scanFrom 0 start text, '\n' ∉ token.text) :
    scanLines start text.lines = scanFrom 0 start text := by
  induction text using Text.lines_induction generalizing start with
  | last line no_newline =>
    rw [Text.lines_of_no_newline no_newline, scanLines, scanLines, List.append_nil, scan,
      ← scanFrom_add, Nat.zero_add]
  | more line rest no_newline ih =>
    have split := scanFrom_append_newline h
    rw [split] at h ⊢
    rw [Text.lines_append_newline no_newline, scanLines, ih (List.forall_mem_append.1 h).2]

/-- The tokens of the lines of a text, each scanned by itself and moved to where the line stands, are
the tokens of the text if and only if none of these contains a line feed. -/
theorem scanLines_eq_iff (text : Text) :
    scanLines 0 text.lines = scan text ↔ ∀ token ∈ scan text, '\n' ∉ token.text := by
  constructor
  · intro same token mem newline
    rw [← same, mem_scanLines_iff] at mem
    obtain ⟨k, line, found, token', mem, rfl⟩ := mem
    exact Text.not_newline_of_mem_lines text line (List.mem_of_getElem? found)
      (subset_of_mem_scan mem newline)
  · exact scanLines_lines

end Token

end RangeCalc
