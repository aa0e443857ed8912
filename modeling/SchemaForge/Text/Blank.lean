import SchemaForge.Text.CodeRanges
import SchemaForge.Text.Pieces

/-!
# Blank and control characters

Names are trimmed of white space before they are checked, and control characters are refused in
most of them. Both classes are those of Unicode: the property White_Space and the category Cc.
-/

namespace SchemaForge.Text

/-- The code points with the property White_Space. -/
def whiteSpace : CodeRanges := [
    (0x9, 0xD), (0x20, 0x20), (0x85, 0x85), (0xA0, 0xA0), (0x1680, 0x1680), (0x2000, 0x200A),
    (0x2028, 0x2029), (0x202F, 0x202F), (0x205F, 0x205F), (0x3000, 0x3000)]

/-- Does the character have the property White_Space? -/
def isBlank (c : Char) : Bool := whiteSpace.holds c

/-- Is the character a control character, of category Cc? -/
def isControl (c : Char) : Bool := c.toNat < 0x20 || (0x7F ≤ c.toNat && c.toNat ≤ 0x9F)

/-- The characters without the white space at either end. -/
def trimmed (cs : List Char) : List Char := stripped isBlank cs

/-- The text without the white space at either end. -/
def trim (s : String) : String := String.ofList (trimmed s.toList)

end SchemaForge.Text
