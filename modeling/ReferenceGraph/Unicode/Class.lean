import ReferenceGraph.Unicode.Alphabetic
import ReferenceGraph.Unicode.Later
import ReferenceGraph.Unicode.Mark
import ReferenceGraph.Unicode.Number

/-!
# Character classes

The classes that decide where a name may begin and end in a text. Two of them look alike and are
not the same: `isWord` takes marks and joiners and only decimal digits, `isAlphanumeric` takes
numbers of every kind and no marks as such. They also follow different editions of the standard:
word characters are those of Unicode 16.0, and alphanumeric ones those of Unicode 17.0.
-/

namespace ReferenceGraph.Unicode

/-- The ranges of the property White_Space. -/
def blankRanges : List CodeRange :=
  [⟨0x9, 0xD⟩, ⟨0x20, 0x20⟩, ⟨0x85, 0x85⟩, ⟨0xA0, 0xA0⟩, ⟨0x1680, 0x1680⟩, ⟨0x2000, 0x200A⟩,
   ⟨0x2028, 0x2029⟩, ⟨0x202F, 0x202F⟩, ⟨0x205F, 0x205F⟩, ⟨0x3000, 0x3000⟩]

/-- The ranges of the general category Connector_Punctuation. -/
def connectorRanges : List CodeRange :=
  [⟨0x5F, 0x5F⟩, ⟨0x203F, 0x2040⟩, ⟨0x2054, 0x2054⟩, ⟨0xFE33, 0xFE34⟩, ⟨0xFE4D, 0xFE4F⟩,
   ⟨0xFF3F, 0xFF3F⟩]

/-- Whether the character has the property White_Space. -/
def isBlank (c : Char) : Bool := CodeRange.covers blankRanges c.toNat

/-- Whether the character is a connector such as the low line. -/
def isConnector (c : Char) : Bool := CodeRange.covers connectorRanges c.toNat

/-- Whether the character is one of the two joiners, of width zero. -/
def isJoiner (c : Char) : Bool := c = '\u200C' || c = '\u200D'

/-- Word characters: alphabetic ones, marks, decimal digits, connectors and joiners. -/
def isWord (c : Char) : Bool :=
  isAlphabetic c || isMark c || isDecimal c || isConnector c || isJoiner c

/-- Alphanumeric characters: alphabetic ones and numbers of any kind, those of the later edition
included. -/
def isAlphanumeric (c : Char) : Bool := isAlphabetic c || isNumber c || isLater c

end ReferenceGraph.Unicode
