import SchemaForge.Text.EscapeTable

/-!
# Quoted text in messages

A message shows a character or a text it complains about in quotes. What would break the line or
cannot be seen is written as an escape: a backslash and a letter where there is one, the code point
in hexadecimal otherwise.
-/

namespace SchemaForge.Text

/-- The lower-case hexadecimal digits of a number, without leading zeros. -/
def hexDigits (n : Nat) : List Char := Nat.toDigits 16 n

/-- The character as it stands between two `quote` characters. -/
def shownIn (quote c : Char) : List Char :=
  if c = '\x00' then ['\\', '0']
  else if c = '\t' then ['\\', 't']
  else if c = '\n' then ['\\', 'n']
  else if c = '\r' then ['\\', 'r']
  else if c = '\\' || c = quote then ['\\', c]
  else if shownByNumber.holds c then ['\\', 'u', '\x7b'] ++ hexDigits c.toNat ++ ['\x7d']
  else [c]

/-- The character between apostrophes. -/
def quotedChar (c : Char) : String := String.ofList ('\'' :: shownIn '\'' c ++ ['\''])

/-- The text between quotation marks. -/
def quoted (s : String) : String := String.ofList ('"' :: s.toList.flatMap (shownIn '"') ++ ['"'])

end SchemaForge.Text
