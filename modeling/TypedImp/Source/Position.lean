import TypedImp.Source.Span

/-!
# Lines and columns

A position counts lines and columns from one; a column is a character, whatever its
number of bytes, and a newline ends its line.
-/

namespace TypedImp

/-- A line and a column, both counted from one. -/
structure Position where
  line : Nat
  column : Nat
  deriving DecidableEq

namespace Position

/-- The position of the first character of a text. -/
def start : Position :=
  ⟨1, 1⟩

/-- The position behind one more character. -/
def advance (position : Position) (c : Char) : Position :=
  if c = '\n' then ⟨position.line + 1, 1⟩ else ⟨position.line, position.column + 1⟩

/-- The position behind a text. -/
def behind (text : List Char) : Position :=
  text.foldl advance start

/-- The position of an offset, which is cut to the length of the source. -/
def ofOffset (offset : Nat) (source : List Char) : Position :=
  behind (Source.before offset source)

/-- Write a position as line and column. -/
def text (position : Position) : String :=
  s!"{position.line}:{position.column}"

end Position

namespace Source

/-- The characters behind the last newline of a text. -/
def lastLine (text : List Char) : List Char :=
  (text.reverse.takeWhile (· != '\n')).reverse

/-- The characters before the first newline of a text. -/
def firstLine (text : List Char) : List Char :=
  text.takeWhile (· != '\n')

end Source

end TypedImp
