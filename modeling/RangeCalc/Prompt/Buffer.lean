import RangeCalc.Text.Blank

/-!
# The input buffer

A program is typed at the prompt into a buffer with a cursor. Enter starts a new line, until it is
pressed on an empty last line: that submits what stands above it. A command is submitted at once.
-/

namespace RangeCalc.Prompt

/-- The text typed so far, the position of the cursor, and how often completion was started. -/
structure Buffer where
  text : Text
  cursor : Nat
  completions : Nat
  deriving DecidableEq

namespace Buffer

/-- Nothing has been typed. -/
def empty : Buffer := ⟨[], 0, 0⟩

/-- Types a text at the cursor. -/
def insert (buffer : Buffer) (text : Text) : Buffer :=
  { buffer with
    text := buffer.text.take buffer.cursor ++ text ++ buffer.text.drop buffer.cursor
    cursor := buffer.cursor + text.length }

/-- Moves the cursor, within the text. -/
def moveTo (buffer : Buffer) (position : Int) : Buffer :=
  { buffer with cursor := min position.toNat buffer.text.length }

/-- Deletes the character before the cursor. If the text is a command then, completion is started. -/
def backspace (buffer : Buffer) : Buffer :=
  let text := buffer.text.take (buffer.cursor - 1) ++ buffer.text.drop buffer.cursor
  { text := text
    cursor := buffer.cursor - 1
    completions := buffer.completions + (if text.head? = some '/' then 1 else 0) }

/-- Enter: submits a text, or goes on with a new line. -/
def enter (buffer : Buffer) : Except Buffer Text :=
  if buffer.text.head? = some '/' && !buffer.text.contains '\n' then .ok buffer.text
  else
    let lines := buffer.text.lines
    if (lines.getLastD []).isBlankText then .ok (Text.unlines lines.dropLast)
    else .error (buffer.insert ['\n'])

end Buffer

end RangeCalc.Prompt
