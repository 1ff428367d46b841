/-!
# Blank text

The characters that carry the White_Space property, and the texts made of
nothing else.  The class is wider than `Char.isWhitespace`, which knows ASCII
only.
-/

namespace MetadataLabels

def whiteSpaceCodes : List Nat :=
  [0x09, 0x0A, 0x0B, 0x0C, 0x0D, 0x20, 0x85, 0xA0, 0x1680, 0x2000, 0x2001, 0x2002,
    0x2003, 0x2004, 0x2005, 0x2006, 0x2007, 0x2008, 0x2009, 0x200A, 0x2028, 0x2029,
    0x202F, 0x205F, 0x3000]

def isWhiteSpace (c : Char) : Bool :=
  whiteSpaceCodes.contains c.toNat

/-- A text without a visible character; the empty text is blank. -/
def isBlank (text : String) : Bool :=
  text.toList.all isWhiteSpace

example : whiteSpaceCodes.length = 25 := rfl

end MetadataLabels
