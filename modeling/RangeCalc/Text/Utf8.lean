import RangeCalc.Text
import RangeCalc.Text.Quoted

/-!
# Reading files

A program file is a sequence of bytes in UTF-8. Decoding stops at the first bytes that no text has,
and says where they are and what is wrong with them. Every line end of a file, be it a line feed, a
carriage return or both in a row, is read as a line feed.

* `Utf8.decode` decodes bytes;
* `Text.universalLines` makes all line ends alike.
-/

namespace RangeCalc

/-- What is wrong with bytes that are no UTF-8. -/
inductive Utf8.Flaw
  /-- No character starts with this byte. -/
  | start
  /-- The character cannot go on as it does. -/
  | continuation
  /-- The character goes on, but the bytes end. -/
  | truncated
  deriving DecidableEq

/-- Why bytes are no text: the place of the wrong bytes, their number, the first of them, and what is
wrong. -/
structure Utf8.Error where
  position : Nat
  length : Nat
  byte : UInt8
  flaw : Utf8.Flaw
  deriving DecidableEq

namespace Utf8

/-- The wording of a flaw. -/
def Flaw.message : Flaw → Text
  | start => "invalid start byte"
  | continuation => "invalid continuation byte"
  | truncated => "unexpected end of data"

/-- The wording of a decoding error. -/
def Error.message (e : Error) : Text :=
  "'utf-8' codec can't decode " ++
    (if e.length = 1 then
      "byte 0x" ++ Text.hexadecimal 2 e.byte.toNat ++ " in position " ++ Text.ofNat e.position
    else
      "bytes in position " ++ Text.ofNat e.position ++ "-" ++
        Text.ofNat (e.position + e.length - 1)) ++
    ": " ++ e.flaw.message

/-- How many bytes follow a first byte, and between which bounds the second has to lie; `none` for a
byte with which no character starts. -/
def followers? (first : Nat) : Option (Nat × Nat × Nat) :=
  if first < 0x80 then some (0, 0x80, 0xbf)
  else if first < 0xc2 then none
  else if first < 0xe0 then some (1, 0x80, 0xbf)
  else if first = 0xe0 then some (2, 0xa0, 0xbf)
  else if first = 0xed then some (2, 0x80, 0x9f)
  else if first < 0xf0 then some (2, 0x80, 0xbf)
  else if first = 0xf0 then some (3, 0x90, 0xbf)
  else if first < 0xf4 then some (3, 0x80, 0xbf)
  else if first = 0xf4 then some (3, 0x80, 0x8f)
  else none

/-- The bits that a first byte with the given number of followers contributes. -/
def leadingBits (count first : Nat) : Nat :=
  match count with
  | 0 => first
  | 1 => first - 0xc0
  | 2 => first - 0xe0
  | _ => first - 0xf0

/-- Decodes bytes. `owed` further bytes belong to the character whose first byte is `first` and stood
at `start`; the next of them lies between `low` and `high`; `bits` are the bits of the character so
far. -/
def decodeFrom (position start owed low high bits : Nat) (first : UInt8) :
    List UInt8 → Except Error Text
  | [] => if owed = 0 then .ok [] else .error ⟨start, position - start, first, .truncated⟩
  | byte :: bytes =>
    if owed = 0 then
      match followers? byte.toNat with
      | none => .error ⟨position, 1, byte, .start⟩
      | some (0, _, _) => do
        let rest ← decodeFrom (position + 1) (position + 1) 0 low high 0 byte bytes
        return Char.ofNat byte.toNat :: rest
      | some (count, low, high) =>
        decodeFrom (position + 1) position count low high (leadingBits count byte.toNat) byte bytes
    else if byte.toNat < low ∨ high < byte.toNat then
      .error ⟨start, position - start, first, .continuation⟩
    else if owed = 1 then do
      let rest ← decodeFrom (position + 1) (position + 1) 0 0x80 0xbf 0 byte bytes
      return Char.ofNat (bits * 64 + (byte.toNat - 0x80)) :: rest
    else
      decodeFrom (position + 1) start (owed - 1) 0x80 0xbf (bits * 64 + (byte.toNat - 0x80)) first
        bytes

/-- The text that bytes in UTF-8 stand for. -/
def decode (bytes : List UInt8) : Except Error Text := decodeFrom 0 0 0 0x80 0xbf 0 0 bytes

end Utf8

/-- The text with every line end made a line feed. -/
def Text.universalLines : Text → Text
  | [] => []
  | '\r' :: '\n' :: rest => '\n' :: universalLines rest
  | '\r' :: rest => '\n' :: universalLines rest
  | c :: rest => c :: universalLines rest

end RangeCalc
