import RangeCalc.Run
import RangeCalc.Program.Outline
import RangeCalc.Token.Listing
import RangeCalc.Prompt.Buffer
import RangeCalc.Prompt.Command
import RangeCalc.Prompt.Printer

/-!
# The prompt

At the prompt a program is typed, submitted and run, each one over a fresh global frame. Only the
switches are carried over from one submission to the next.

* `Prompt.submit` says what a submission writes and which switches it leaves;
* `Prompt.answerAll` answers a whole series of keys and submissions.
-/

namespace RangeCalc.Prompt

/-- The characters that are taken out of a submission: they cannot be seen. -/
def isInvisible (c : Char) : Bool :=
  c.toNat = 0x200b || c.toNat = 0x200c || c.toNat = 0x200d || c.toNat = 0xfeff ||
    c.toNat = 0xa0 || c = '\r'

/-- A submission without the characters that cannot be seen. -/
def normalize (text : Text) : Text := text.filter (!isInvisible ·)

/-- What is shown before a run, as the switches say. A program that does not parse has no outline. -/
def preview (switches : Switches) (text : Text) : Screen :=
  ⟨(if switches.tokens then Token.listingOf text else []) ++
    (if switches.outline then
      match Program.ofText text with
      | .ok program => program.outline
      | .error _ => []
    else []), [], 0⟩

/-- What running a text writes: the screen of the printer when it has come to its end. -/
def runText (text : Text) : Screen := (Streaming.interpret .never text).conclude.screen

/-- What a submission does. -/
def submit (switches : Switches) (submission : Text) : Effect :=
  let text := normalize submission
  if text.isBlankText then ⟨.blank, false, switches⟩
  else
    match command? switches text with
    | some effect => effect
    | none =>
      ⟨preview switches text ++ (Run.traceOf switches.trace text ++ runText text), false, switches⟩

/-- What the prompt says first. -/
def banner : Screen :=
  .outLine "seqlang: empty line runs the program, Ctrl-C cancels a run, Ctrl-D exits"

/-- What the prompt says when it is interrupted. -/
def interruption : Screen := .outLine "KeyboardInterrupt"

/-- What the prompt says when the input ends. -/
def farewell : Screen := .outLine []

/-- What happens at the prompt. -/
inductive Input
  | typed (text : Text)
  | cursor (position : Int)
  | enter
  | backspace
  | interrupt
  /-- A text is submitted directly. -/
  | submitted (text : Text)

/-- What comes of it. -/
inductive Reply
  /-- The prompt waits for more. -/
  | waiting (buffer : Buffer)
  /-- The prompt is over, and this was written before the next; `submitted` is the text that a key
  submitted. -/
  | ended (screen : Screen) (cleared : Bool) (submitted : Option Text)

/-- The prompt between two inputs. -/
structure State where
  switches : Switches
  buffer : Buffer

/-- The prompt at its start. -/
def State.fresh : State := ⟨.off, .empty⟩

/-- Answers an input. -/
def answer (state : State) : Input → Reply × State
  | .typed text => wait (state.buffer.insert text)
  | .cursor position => wait (state.buffer.moveTo position)
  | .backspace => wait state.buffer.backspace
  | .enter =>
    match state.buffer.enter with
    | .error buffer => wait buffer
    | .ok text => conclude text (some text)
  | .interrupt => (.ended interruption false none, { state with buffer := .empty })
  | .submitted text => conclude text none
where
  /-- The prompt goes on with this buffer. -/
  wait (buffer : Buffer) : Reply × State := (.waiting buffer, { state with buffer := buffer })
  /-- The prompt ends with this submission. -/
  conclude (text : Text) (submitted : Option Text) : Reply × State :=
    let effect := submit state.switches text
    (.ended effect.screen effect.cleared submitted, ⟨effect.switches, .empty⟩)

/-- Answers inputs one after the other. -/
def answerAll (state : State) : List Input → List Reply
  | [] => []
  | input :: inputs =>
    let (reply, state) := answer state input
    reply :: answerAll state inputs

end RangeCalc.Prompt
