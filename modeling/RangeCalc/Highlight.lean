import RangeCalc.Token.Scan

/-!
# Highlighting

At the prompt a program is shown in colours, line by line: every token has the style of its kind, and
the gaps between tokens have none.

* `Highlight.line` cuts a line into styled spans;
* `Highlight.documentLine` gives the spans of a line of a document.
-/

namespace RangeCalc.Highlight

/-- A piece of a line and its style. -/
structure Span where
  style : Text
  text : Text
  deriving DecidableEq

/-- The style of a kind of tokens. -/
def style : Token.Kind → Text
  | .var => "bold ansicyan"
  | .out => "bold ansicyan"
  | .print => "bold ansicyan"
  | .map => "bold ansiyellow"
  | .reduce => "bold ansiyellow"
  | .number => "ansimagenta"
  | .string => "ansigreen"
  | .error => "bold ansired"
  | _ => ""

/-- A span without style, if there is any text for it. -/
def gap : Text → List Span
  | [] => []
  | text => [⟨[], text⟩]

/-- The spans of a text that starts at `pos` and holds the given tokens. -/
def spansFrom (pos : Nat) (text : Text) : List Token → List Span
  | [] => gap text
  | token :: tokens =>
    let before := token.pos - pos
    gap (text.take before) ++ ⟨style token.kind, token.text⟩ ::
      spansFrom (token.pos + token.text.length) (text.drop (before + token.text.length)) tokens

/-- The spans of a line. An empty line has one empty span. -/
def line (text : Text) : List Span :=
  match spansFrom 0 text (Token.scan text) with
  | [] => [⟨[], text⟩]
  | spans => spans

/-- The spans of a line of a document, which are those of an empty line past its end. -/
def documentLine (text : Text) (number : Nat) : List Span :=
  match text.lines[number]? with
  | some text => line text
  | none => [⟨[], []⟩]

/-- The spans of a line of a document, where a number below zero counts from the last line back. Before
the first line there is none. -/
def documentLine? (text : Text) : Int → Option (List Span)
  | .ofNat number => some (documentLine text number)
  | .negSucc back => text.lines.reverse[back]?.map line

end RangeCalc.Highlight
