/-!
# Byte offsets into a text

A text is a list of characters, and a place in it is the number of bytes that its
UTF-8 form takes before that place.  Cutting at an offset keeps whole characters, and
the two parts of a cut make up the text.
-/

namespace TypedImp.Source

/-- Count the bytes of a text in UTF-8. -/
def byteLength : List Char → Nat
  | [] => 0
  | c :: text => c.utf8Size + byteLength text

@[simp]
theorem byteLength_nil : byteLength [] = 0 :=
  rfl

@[simp]
theorem byteLength_cons (c : Char) (text : List Char) :
    byteLength (c :: text) = c.utf8Size + byteLength text :=
  rfl

@[simp]
theorem byteLength_append (first second : List Char) :
    byteLength (first ++ second) = byteLength first + byteLength second := by
  induction first with
  | nil => simp
  | cons c first ih => simp [ih, Nat.add_assoc]

/-- The characters that end at or before a byte offset. -/
def before : Nat → List Char → List Char
  | _, [] => []
  | offset, c :: text =>
    if c.utf8Size ≤ offset then c :: before (offset - c.utf8Size) text else []

/-- The characters that end after a byte offset. -/
def after : Nat → List Char → List Char
  | _, [] => []
  | offset, c :: text =>
    if c.utf8Size ≤ offset then after (offset - c.utf8Size) text else c :: text

theorem before_append_after (offset : Nat) (text : List Char) :
    before offset text ++ after offset text = text := by
  induction text generalizing offset with
  | nil => rfl
  | cons c text ih =>
    by_cases fits : c.utf8Size ≤ offset
    · simp [before, after, fits, ih]
    · simp [before, after, fits]

/-- Nothing lies behind an offset that a text does not reach. -/
theorem before_eq_self {offset : Nat} {text : List Char} (within : byteLength text ≤ offset) :
    before offset text = text := by
  induction text generalizing offset with
  | nil => rfl
  | cons c text ih =>
    rw [byteLength_cons] at within
    rw [before, if_pos (by omega), ih (by omega)]

/-- An offset is on a boundary if it cuts no character and lies in the text. -/
def isBoundary (offset : Nat) (text : List Char) : Bool :=
  byteLength (before offset text) == offset

theorem before_byteLength (first second : List Char) :
    before (byteLength first) (first ++ second) = first := by
  induction first with
  | nil =>
    cases second with
    | nil => rfl
    | cons c second => simp [before, Nat.ne_of_gt c.utf8Size_pos]
  | cons c first ih => simp [before, ih]

theorem after_byteLength (first second : List Char) :
    after (byteLength first) (first ++ second) = second := by
  have whole := before_append_after (byteLength first) (first ++ second)
  rw [before_byteLength] at whole
  exact List.append_cancel_left whole

end TypedImp.Source
