import TypedImp.Text.Unprintable

/-!
# Quoted characters and texts

A quoted form shows a character as itself where that is readable, and as an escape where
it is not.  A mark that extends the character before it is escaped, because it would
merge with what stands there.
-/

namespace TypedImp.Text

/-- The escape by code point, in lower-case hexadecimal digits. -/
def codePointEscape (c : Char) : List Char :=
  ['\\', 'u', '{'] ++ Nat.toDigits 16 c.toNat ++ ['}']

/-- The form of a character between two quotes of the kind `quote`. -/
def escape (quote c : Char) : List Char :=
  if c = '\x00' then ['\\', '0']
  else if c = '\t' then ['\\', 't']
  else if c = '\r' then ['\\', 'r']
  else if c = '\n' then ['\\', 'n']
  else if c = '\\' ∨ c = quote then ['\\', c]
  else if isPrintable c && !isExtending c then [c]
  else codePointEscape c

/-- A character in single quotes. -/
def quoteCharacter (c : Char) : String :=
  String.ofList (['\''] ++ escape '\'' c ++ ['\''])

/-- A text in double quotes. -/
def quoteText (text : String) : String :=
  String.ofList (['"'] ++ text.toList.flatMap (escape '"') ++ ['"'])

end TypedImp.Text
