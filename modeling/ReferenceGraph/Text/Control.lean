/-!
# Control sequences

A terminal does not show every character that is written to it: control characters, and the
sequences that an escape character opens, are orders to the terminal. `Control.strip` takes them
out of a text. A filter goes through the text and holds the kind of sequence that is under way
(`Mode`); a sequence that is never ended takes away all that follows it.

White space inside an escape sequence or a control sequence is shown all the same. The filter then
shows the text behind it too, up to the next control character, and only there goes on with the
sequence.
-/

namespace ReferenceGraph

namespace Control

/-- The kind of sequence that is under way. -/
inductive Mode where
  /-- No sequence is under way. -/
  | text
  /-- Behind an escape character. -/
  | escape
  /-- In an escape sequence of more than two characters. -/
  | intermediate
  /-- In a control sequence. -/
  | control
  /-- At the start of a device control string. -/
  | device
  /-- In the parameters of a device control string. -/
  | deviceParameter
  /-- Behind the parameters of a device control string, in front of its content. -/
  | deviceIntermediate
  /-- In the content of a control string. -/
  | content
  /-- In an operating system command. -/
  | command
deriving DecidableEq, Repr

/-- The character that opens a sequence. -/
def escapeChar : Char := '\x1b'

/-- The characters that break a sequence off. -/
def isBreak (c : Char) : Bool := c = '\x18' || c = '\x1a'

/-- White space that moves the place of writing. -/
def isMotion (c : Char) : Bool := c = '\t' || c = '\n' || c = '\x0c' || c = '\x0d'

/-- The characters that a terminal shows outside of a sequence. -/
def isPlain (c : Char) : Bool := decide (' ' ≤ c) && c != '\x7f'

/-- Whether the character is one of those from `first` to `last`. -/
def isBetween (first last c : Char) : Bool := decide (first ≤ c) && decide (c ≤ last)

/-- Whether the character ends the content of a control string: the byte 9C does, also as a part of
a longer character. -/
def isTerminator (c : Char) : Bool := (String.utf8EncodeChar c).contains 0x9C

namespace Mode

/-- The mode after a character that is not shown. -/
def next (m : Mode) (c : Char) : Mode :=
  if c = escapeChar then escape
  else if isBreak c then text
  else match m with
    | text => text
    | escape =>
      if c = '[' then control
      else if c = ']' then command
      else if c = 'P' then device
      else if c = 'X' || c = '^' || c = '_' then content
      else if isBetween ' ' '/' c then intermediate
      else if isBetween '0' '~' c then text
      else escape
    | intermediate => if isBetween '0' '~' c then text else intermediate
    | control => if isBetween '@' '~' c then text else control
    | device =>
      if isBetween ' ' '/' c then deviceIntermediate
      else if isBetween '0' '?' c then deviceParameter
      else if isBetween '@' '~' c then content
      else device
    | deviceParameter =>
      if isBetween ' ' '/' c then deviceIntermediate
      else if isBetween '<' '~' c then content
      else deviceParameter
    | deviceIntermediate => if isBetween '0' '~' c then content else deviceIntermediate
    | content => if isTerminator c then text else content
    | command => if c = '\x07' then text else command

/-- Whether the character is shown in the mode. -/
def shows : Mode → Char → Bool
  | text, c => isPlain c || isMotion c
  | escape, c => isMotion c
  | intermediate, c => isMotion c
  | control, c => isMotion c
  | _, _ => false

end Mode

/-- A filter between two characters. -/
structure Filter where
  mode : Mode := .text
  /-- Whether the last character was shown. Then the next one is taken as text in any mode. -/
  showing : Bool := false
deriving DecidableEq, Repr

namespace Filter

/-- Whether the filter shows the character. -/
def shows (f : Filter) (c : Char) : Bool := (if f.showing then Mode.text else f.mode).shows c

/-- The filter after the character. A sequence that is under way is given up at a character beyond
ASCII that is shown. -/
def next (f : Filter) (c : Char) : Filter :=
  if f.shows c then ⟨if c.toNat < 0x80 then f.mode else .text, true⟩ else ⟨f.mode.next c, false⟩

/-- What the filter shows of a text. -/
def run : Filter → List Char → List Char
  | _, [] => []
  | f, c :: cs => if f.shows c then c :: (f.next c).run cs else (f.next c).run cs

end Filter

/-- The text without control characters and sequences. -/
def strip (s : String) : String := String.ofList (Filter.run {} s.toList)

end Control

end ReferenceGraph
