import Mathlib
import RangeCalc.CommandLine
import RangeCalc.Proofs.Event.Stream
import RangeCalc.Proofs.Prompt.Printer

/-!
# The prompt and the command line

A program that is typed at the prompt line by line is submitted by an Enter on an empty line, as a
whole and not before, and then the prompt writes what the command line writes for it. While lines
are typed the cursor stands at the end of the buffer, whose last line is the one that is being
typed. When Enter is pressed on it, it is not blank, so a new line starts; and the text is no
command, since its first line is none.

* `Prompt.Buffer.atEnd`: the buffer while lines are typed;
* `Prompt.answerAll_typing`: the prompt waits while lines are typed;
* `Prompt.submit_eq`: what a submission that is no command writes;
* `Prompt.answerAll_lines`: what a program writes that is typed at the prompt.
-/

namespace RangeCalc

/-! ## Lines -/

namespace Text

theorem unlines_cons (line : Text) (lines : List Text) :
    unlines (line :: lines) = line ++ lines.flatMap ('\n' :: ·) := by
  induction lines generalizing line with
  | nil => simp [unlines]
  | cons next lines ih =>
    rw [unlines, List.intercalate_cons_cons, ← unlines, ih, List.flatMap_cons, List.append_assoc]
    rfl

/-- What is written behind the last line continues it. -/
theorem unlines_concat_append (done : List Text) (line more : Text) :
    unlines (done ++ [line]) ++ more = unlines (done ++ [line ++ more]) := by
  cases done with
  | nil => simp [unlines]
  | cons first done => simp [unlines_cons]

/-- A line feed starts an empty line. -/
theorem unlines_concat_newline (done : List Text) (line : Text) :
    unlines (done ++ [line]) ++ ['\n'] = unlines (done ++ [line] ++ [[]]) := by
  cases done with
  | nil => simp [unlines_cons]
  | cons first done => simp [unlines_cons]

theorem lines_unlines {lines : List Text} (some_line : lines ≠ [])
    (no_newline : ∀ line ∈ lines, '\n' ∉ line) : (unlines lines).lines = lines :=
  List.splitOn_intercalate '\n' no_newline some_line

theorem forall_mem_unlines {P : Char → Prop} {lines : List Text} (newline : P '\n')
    (h : ∀ line ∈ lines, ∀ c ∈ line, P c) : ∀ c ∈ unlines lines, P c := by
  cases lines with
  | nil => exact List.forall_mem_nil _
  | cons line lines =>
    obtain ⟨first, others⟩ := List.forall_mem_cons.1 h
    rw [unlines_cons]
    refine List.forall_mem_append.2 ⟨first, fun c mem => ?_⟩
    obtain ⟨next, inside, mem⟩ := List.mem_flatMap.1 mem
    rcases List.mem_cons.1 mem with rfl | mem
    · exact newline
    · exact others next inside c mem

/-- A text that is trimmed starts with its first character that is not blank. -/
theorem head?_trim (text : Text) : text.trim.head? = (text.dropWhile isBlank).head? := by
  rw [trim]
  cases start : text.dropWhile isBlank with
  | nil => rfl
  | cons c rest =>
    have visible : isBlank c = false := by
      have := List.head?_dropWhile_not isBlank text
      rw [start] at this
      simpa using this
    rw [List.reverse_cons, List.dropWhile_append]
    split
    · rw [List.dropWhile_cons_of_neg (by simp [visible])]
      rfl
    · rw [List.reverse_append]
      rfl

/-- What follows a text that is not blank does not matter for how it starts. -/
theorem head?_trim_append {text : Text} (not_blank : text.isBlankText = false) (more : Text) :
    (text ++ more).trim.head? = text.trim.head? := by
  have some_left : text.dropWhile isBlank ≠ [] := by
    intro empty
    rw [List.dropWhile_eq_nil_iff] at empty
    rw [isBlankText, List.all_eq_true.2 empty] at not_blank
    cases not_blank
  rw [head?_trim, head?_trim, List.dropWhile_append,
    if_neg (fun empty => some_left (List.isEmpty_iff.1 empty)),
    List.head?_append_of_ne_nil _ some_left]

/-- A text that starts with a character that is not blank is not trimmed there. -/
theorem head?_trim_of_head? {text : Text} {c : Char} (h : text.head? = some c)
    (visible : isBlank c = false) : text.trim.head? = some c := by
  cases text with
  | nil => cases h
  | cons first rest =>
    cases h
    rw [head?_trim, List.dropWhile_cons_of_neg (by simp [visible])]
    rfl

end Text

namespace Prompt

/-! ## Typing -/

/-- The buffer with a text and the cursor behind it. -/
def Buffer.atEnd (text : Text) : Buffer := ⟨text, text.length, 0⟩

theorem Buffer.insert_atEnd (text more : Text) :
    (atEnd text).insert more = atEnd (text ++ more) := by
  simp [insert, atEnd]

/-- The inputs by which lines are typed, each in pieces and ended by Enter. -/
def typing (keys : List (List Text)) : List Input :=
  keys.flatMap fun pieces => pieces.map .typed ++ [.enter]

/-- The lines that are typed. -/
def typedLines (keys : List (List Text)) : List Text := keys.map List.flatten

variable (switches : Switches)

/-- The prompt waits while a line is typed. -/
theorem answerAll_pieces (text : Text) (pieces : List Text) (inputs : List Input) :
    ∃ waits : List Buffer, waits.length = pieces.length ∧
      answerAll ⟨switches, .atEnd text⟩ (pieces.map .typed ++ inputs) =
        waits.map .waiting ++ answerAll ⟨switches, .atEnd (text ++ pieces.flatten)⟩ inputs := by
  induction pieces generalizing text with
  | nil => exact ⟨[], rfl, by simp⟩
  | cons piece pieces ih =>
    obtain ⟨waits, length, later⟩ := ih (text ++ piece)
    refine ⟨.atEnd (text ++ piece) :: waits, congrArg Nat.succ length, ?_⟩
    have first : answer ⟨switches, .atEnd text⟩ (.typed piece) =
        (.waiting (.atEnd (text ++ piece)), ⟨switches, .atEnd (text ++ piece)⟩) := by
      rw [answer, Buffer.insert_atEnd]
      rfl
    rw [List.map_cons, List.cons_append, answerAll, first, List.flatten_cons, ← List.append_assoc]
    exact congrArg _ later

/-- Enter on a blank last line submits the lines above it, and on any other it starts a new line,
unless the text is a command. -/
theorem enter_atEnd {done : List Text} {line : Text}
    (no_newline : ∀ line' ∈ done ++ [line], '\n' ∉ line')
    (no_command : (Text.unlines (done ++ [line])).head? ≠ some '/') :
    (Buffer.atEnd (Text.unlines (done ++ [line]))).enter =
      if line.isBlankText then .ok (Text.unlines done)
      else .error (.atEnd (Text.unlines (done ++ [line] ++ [[]]))) := by
  have lines := Text.lines_unlines (by simp) no_newline
  rw [Buffer.enter, if_neg (by simp [Buffer.atEnd, no_command]), ← Text.unlines_concat_newline,
    ← Buffer.insert_atEnd]
  simp only [Buffer.atEnd, lines, List.getLastD_concat, List.dropLast_concat]

/-- A text is no command if its first line does not start with a slash. -/
theorem head?_unlines_ne {lines : List Text} (some_line : lines ≠ [])
    (first : ∀ line ∈ lines.head?, ∃ c, c ≠ '/' ∧ line.head? = some c) :
    (Text.unlines lines).head? ≠ some '/' := by
  obtain ⟨line, lines, rfl⟩ := List.exists_cons_of_ne_nil some_line
  obtain ⟨c, no_slash, start⟩ := first line rfl
  rw [Text.unlines_cons, List.head?_append, start, Option.some_or]
  exact fun eq => no_slash (Option.some.inj eq)

/-- The prompt waits while lines are typed, and the buffer holds those behind the ones before. -/
theorem answerAll_typing (done : List Text) (keys : List (List Text)) (inputs : List Input)
    (no_newline : ∀ line ∈ done ++ typedLines keys, '\n' ∉ line)
    (not_blank : ∀ line ∈ typedLines keys, line.isBlankText = false)
    (first : ∀ line ∈ (done ++ typedLines keys).head?, ∃ c, c ≠ '/' ∧ line.head? = some c) :
    ∃ waits : List Buffer, waits.length = (typing keys).length ∧
      answerAll ⟨switches, .atEnd (Text.unlines (done ++ [[]]))⟩ (typing keys ++ inputs) =
        waits.map .waiting ++
          answerAll ⟨switches, .atEnd (Text.unlines (done ++ typedLines keys ++ [[]]))⟩ inputs := by
  induction keys generalizing done with
  | nil => exact ⟨[], rfl, by simp [typing, typedLines]⟩
  | cons pieces keys ih =>
    -- The line that these pieces make up joins those that are done.
    have lines : done ++ typedLines (pieces :: keys) =
        done ++ [pieces.flatten] ++ typedLines keys :=
      List.append_cons _ _ _
    rw [lines] at no_newline first ⊢
    obtain ⟨here, later⟩ := List.forall_mem_cons.1 not_blank
    have no_command : (Text.unlines (done ++ [pieces.flatten])).head? ≠ some '/' := by
      have some_line : done ++ [pieces.flatten] ≠ [] := by simp
      rw [List.head?_append_of_ne_nil _ some_line] at first
      exact head?_unlines_ne some_line first
    have enter := enter_atEnd
      (fun line mem => no_newline line (List.mem_append_left _ mem)) no_command
    have answered : answer ⟨switches, .atEnd (Text.unlines (done ++ [pieces.flatten]))⟩ .enter =
        (.waiting (.atEnd (Text.unlines (done ++ [pieces.flatten] ++ [[]]))),
          ⟨switches, .atEnd (Text.unlines (done ++ [pieces.flatten] ++ [[]]))⟩) := by
      rw [answer, enter, here]
      rfl
    obtain ⟨waits, length, typed⟩ := answerAll_pieces switches (Text.unlines (done ++ [[]])) pieces
      (.enter :: (typing keys ++ inputs))
    obtain ⟨waits', length', others⟩ := ih (done ++ [pieces.flatten]) no_newline later first
    refine ⟨waits ++ .atEnd (Text.unlines (done ++ [pieces.flatten] ++ [[]])) :: waits', ?_, ?_⟩
    · simp only [typing, List.flatMap_cons, List.length_append, List.length_cons, List.length_map,
        List.length_nil] at length' ⊢
      omega
    · have inputs_eq : typing (pieces :: keys) ++ inputs =
          pieces.map .typed ++ .enter :: (typing keys ++ inputs) := by
        simp [typing]
      rw [inputs_eq, typed, Text.unlines_concat_append, List.nil_append, answerAll, answered]
      dsimp only
      rw [others, List.map_append, List.append_assoc (waits.map Reply.waiting)]
      rfl

/-! ## Submissions -/

/-- What a submission writes that is no command. -/
theorem submit_eq {text : Text} (visible : ∀ c ∈ text, isInvisible c = false)
    (not_blank : text.isBlankText = false) (no_command : text.trim.head? ≠ some '/') :
    submit .off text = ⟨runText text, false, .off⟩ := by
  have normal : normalize text = text := List.filter_eq_self.2 fun c mem => by simp [visible c mem]
  have program : command? .off text = none := by rw [command?, if_pos no_command]
  have unseen : preview .off text = .blank := rfl
  have untraced : Run.traceOf Switches.off.trace text = .blank := rfl
  simp only [submit, normal, not_blank, program, unseen, untraced, Screen.blank_append]
  rfl

/-- The prompt writes the events of a run. -/
theorem runText_eq (text : Text) : runText text = .ofEvents (Run.eventsOf text) :=
  (Streaming.conclude_interpret .never text).2

end Prompt

/-- A subscription to a whole run has received all of its events. -/
theorem CommandLine.collect_eq (text : Text) : collect text = Run.eventsOf text := by
  have still : (EventStream.fresh 0).closed = false := rfl
  obtain ⟨after, emitted, received⟩ := EventStream.emitAll?_subscribe still (Run.eventsOf text)
  have queue : (after.unsubscribe 0).subscriptions[0]? =
      some ⟨(Run.eventsOf text).map .event ++ [.closed], false⟩ := by
    have attached : after.subscriptions[0]? = some ⟨(Run.eventsOf text).map .event, true⟩ :=
      received
    rw [EventStream.unsubscribe, List.getElem?_modify, attached]
    rfl
  rw [collect, emitted]
  dsimp only
  rw [EventStream.drain_of_getElem? queue, EventStream.takeEvents_append]
  exact List.append_nil _

namespace Prompt

/-! ## A program at the prompt -/

/-- A line that is neither blank nor a command starts with a character that is no slash. -/
theorem exists_head? {line : Text} (not_blank : line.isBlankText = false)
    (no_command : line.trim.head? ≠ some '/') : ∃ c, c ≠ '/' ∧ line.head? = some c := by
  cases line with
  | nil => cases not_blank
  | cons c rest =>
    refine ⟨c, fun slash => no_command ?_, rfl⟩
    subst slash
    exact Text.head?_trim_of_head? rfl rfl

/-- Lines of which the first is neither blank nor a command make up a text that is neither. -/
theorem submit_unlines {line : Text} {lines : List Text}
    (visible : ∀ line' ∈ line :: lines, ∀ c ∈ line', isInvisible c = false)
    (not_blank : line.isBlankText = false) (no_command : line.trim.head? ≠ some '/') :
    submit .off (Text.unlines (line :: lines)) =
      ⟨runText (Text.unlines (line :: lines)), false, .off⟩ := by
  refine submit_eq (Text.forall_mem_unlines rfl visible) ?_ ?_
  · rw [Text.unlines_cons, Text.isBlankText, List.all_append]
    rw [Text.isBlankText] at not_blank
    rw [not_blank, Bool.false_and]
  · rwa [Text.unlines_cons, Text.head?_trim_append not_blank]

/-- Lines that are typed at a fresh prompt, each in pieces and ended by Enter: the prompt waits as
long as they are typed. One more Enter submits them, with line feeds between them, and then the
prompt writes what the command line writes for that text. -/
theorem answerAll_lines {keys : List (List Text)} {lines : List Text}
    (typed : typedLines keys = lines) (some_line : lines ≠ [])
    (no_newline : ∀ line ∈ lines, '\n' ∉ line)
    (visible : ∀ line ∈ lines, ∀ c ∈ line, isInvisible c = false)
    (not_blank : ∀ line ∈ lines, line.isBlankText = false)
    (no_command : (lines.head some_line).trim.head? ≠ some '/') :
    ∃ waits : List Buffer, waits.length = (typing keys).length ∧
      answerAll .fresh (typing keys ++ [.enter]) =
        waits.map .waiting ++
          [.ended (CommandLine.runProgram (Text.unlines lines)).screen false
            (some (Text.unlines lines))] := by
  obtain ⟨line, rest, rfl⟩ := List.exists_cons_of_ne_nil some_line
  have line_not_blank := not_blank line List.mem_cons_self
  have first : ∀ line' ∈ (line :: rest).head?, ∃ c, c ≠ '/' ∧ line'.head? = some c := by
    rintro _ ⟨⟩
    exact exists_head? line_not_blank no_command
  have waiting := answerAll_typing .off [] keys [.enter]
  rw [List.nil_append, List.nil_append, typed] at waiting
  obtain ⟨waits, length, waited⟩ := waiting no_newline not_blank first
  refine ⟨waits, length, waited.trans ?_⟩
  -- The cursor is on an empty line now, and Enter submits what stands above it.
  have enter : (Buffer.atEnd (Text.unlines (line :: rest ++ [[]]))).enter =
      .ok (Text.unlines (line :: rest)) := by
    refine enter_atEnd ?_ (head?_unlines_ne (List.cons_ne_nil _ _) first)
    exact List.forall_mem_append.2 ⟨no_newline, List.forall_mem_singleton.2 List.not_mem_nil⟩
  have answered : answer ⟨.off, .atEnd (Text.unlines (line :: rest ++ [[]]))⟩ .enter =
      (.ended (runText (Text.unlines (line :: rest))) false (some (Text.unlines (line :: rest))),
        ⟨.off, .empty⟩) := by
    rw [answer, enter]
    dsimp only [answer.conclude]
    rw [submit_unlines visible line_not_blank no_command]
  rw [CommandLine.runProgram, CommandLine.collect_eq, ← runText_eq, answerAll, answered]
  rfl

/-- Two lines, the first of them typed in two pieces. The second has two operands that fail, each in
a task of its own, and the printer has its first turn before theirs. -/
theorem answerAll_lines_of_failing_sum :
    ∃ waits : List Buffer, waits.length = 5 ∧
      answerAll .fresh
          [.typed "print ", .typed "\"a\"", .enter, .typed "out -x + -y", .enter, .enter] =
        waits.map .waiting ++
          [.ended (CommandLine.runProgram "print \"a\"\nout -x + -y").screen false
            (some "print \"a\"\nout -x + -y")] := by
  have typed : typedLines [["print ", "\"a\""], ["out -x + -y"]] =
      ["print \"a\"", "out -x + -y"] := rfl
  have all_visible : (["print \"a\"", "out -x + -y"] : List Text).all
      (·.all (!isInvisible ·)) = true := by decide +kernel
  refine answerAll_lines typed (List.cons_ne_nil _ _) (by decide +kernel)
    (fun line mem c inside => ?_) (by decide +kernel) (by decide +kernel)
  have line_visible := List.all_eq_true.1 all_visible line mem
  exact Bool.not_eq_eq_eq_not.1 (List.all_eq_true.1 line_visible c inside)

end Prompt

end RangeCalc
