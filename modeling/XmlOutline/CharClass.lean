/-!
# Character classes of markup

The classes of characters that the grammar of XML 1.0 distinguishes: the four
spaces, the characters of names, and the characters that may occur at all.
-/

namespace XmlOutline.CharClass

/-- The four characters that separate parts of markup. -/
def isSpace (c : Char) : Bool := c == ' ' || c == '\t' || c == '\n' || c == '\r'

/-- Is the code point between two others, both included? -/
def isWithin (low high : Nat) (c : Char) : Bool := low ≤ c.toNat && c.toNat ≤ high

/-- Characters that a name can start with. -/
def isNameStart (c : Char) : Bool :=
  isWithin 0x41 0x5A c || isWithin 0x61 0x7A c || c == ':' || c == '_' ||
    isWithin 0xC0 0xD6 c || isWithin 0xD8 0xF6 c || isWithin 0xF8 0x2FF c ||
    isWithin 0x370 0x37D c || isWithin 0x37F 0x1FFF c || isWithin 0x200C 0x200D c ||
    isWithin 0x2070 0x218F c || isWithin 0x2C00 0x2FEF c || isWithin 0x3001 0xD7FF c ||
    isWithin 0xF900 0xFDCF c || isWithin 0xFDF0 0xFFFD c || isWithin 0x10000 0xEFFFF c

/-- Characters that a name can go on with. -/
def isNameChar (c : Char) : Bool :=
  isNameStart c || isWithin 0x30 0x39 c || c == '-' || c == '.' || c == '\u00B7' ||
    isWithin 0x300 0x36F c || isWithin 0x203F 0x2040 c

/-- Characters that may occur in a document.  Below the space these are tab,
line feed and carriage return; above it all but U+FFFE and U+FFFF. -/
def isXmlChar (c : Char) : Bool :=
  if c.toNat < 0x20 then isSpace c else c.toNat != 0xFFFE && c.toNat != 0xFFFF

/-- Characters of the name of an encoding. -/
def isEncodingChar (c : Char) : Bool :=
  isWithin 0x41 0x5A c || isWithin 0x61 0x7A c || isWithin 0x30 0x39 c ||
    c == '.' || c == '_' || c == '-'

/-- The ASCII digits. -/
def isDigit (c : Char) : Bool := isWithin 0x30 0x39 c

theorem isNameChar_of_isNameStart {c : Char} (h : isNameStart c = true) :
    isNameChar c = true := by
  simp [isNameChar, h]

/-- A space may occur in a document. -/
theorem isXmlChar_of_isSpace {c : Char} (h : isSpace c = true) : isXmlChar c = true := by
  simp only [isSpace, Bool.or_eq_true, beq_iff_eq] at h
  rcases h with ((rfl | rfl) | rfl) | rfl <;> decide

end XmlOutline.CharClass
