/-!
# Outlines

An outline is a tree of labels.  It is written with one label in each line, and two
spaces more for every level.
-/

namespace TypedImp.Text

/-- A label with the items below it. -/
inductive Outline where
  | item (label : String) (below : List Outline)

namespace Outline

/-- An item with nothing below it. -/
def leaf (label : String) : Outline :=
  item label []

/-- A label at its depth. -/
def line (depth : Nat) (label : String) : String :=
  String.ofList (List.replicate (2 * depth) ' ') ++ label

mutual

/-- The lines of an item at a depth. -/
def lines (depth : Nat) : Outline → List String
  | item label below => line depth label :: linesOfAll (depth + 1) below

/-- The lines of items at a depth, one item after the other. -/
def linesOfAll (depth : Nat) : List Outline → List String
  | [] => []
  | first :: rest => lines depth first ++ linesOfAll depth rest

end

/-- Write items; every line ends with a newline. -/
def write (items : List Outline) : String :=
  String.join ((linesOfAll 0 items).map (· ++ "\n"))

end Outline

end TypedImp.Text
