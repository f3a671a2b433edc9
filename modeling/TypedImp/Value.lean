import TypedImp.Binary32.Text
import TypedImp.Text.Quoted
import TypedImp.Ty

/-!
# Values

A variable that has been declared and not yet assigned holds an undefined value, which
knows its type and has no content.  Reading the content of a value fails if it has none
or is of another type: `asInt_eq_ok_iff` and its companions say when it succeeds.
-/

namespace TypedImp

/-- What a variable holds and an expression gives. -/
inductive Value where
  | int (number : Int32)
  | bool (truth : Bool)
  | char (character : Char)
  | float (number : Float32)
  | undefined (ty : Ty)
  deriving DecidableEq

/-- Why the content of a value cannot be read. -/
inductive ValueError where
  | undefined (ty : Ty)
  | mismatch (expected actual : Ty)
  deriving DecidableEq

namespace ValueError

/-- Say what is wrong. -/
def message : ValueError → String
  | .undefined ty => s!"read of undefined {ty.name} value"
  | .mismatch expected actual => s!"expected {expected.name} value, but got {actual.name}"

end ValueError

namespace Value

/-- The type of a value; an undefined one has the type of its variable. -/
def ty : Value → Ty
  | .int _ => .int
  | .bool _ => .bool
  | .char _ => .char
  | .float _ => .float
  | .undefined ty => ty

/-- Whether a value has no content. -/
def isUndefined : Value → Bool
  | .undefined _ => true
  | _ => false

/-- Why a value has no content of the expected type. -/
def accessError (expected : Ty) : Value → ValueError
  | .undefined ty => .undefined ty
  | value => .mismatch expected value.ty

/-- The content of an integer. -/
def asInt : Value → Except ValueError Int32
  | .int number => .ok number
  | value => .error (accessError .int value)

/-- The content of a truth value. -/
def asBool : Value → Except ValueError Bool
  | .bool truth => .ok truth
  | value => .error (accessError .bool value)

/-- The content of a character. -/
def asChar : Value → Except ValueError Char
  | .char character => .ok character
  | value => .error (accessError .char value)

/-- The content of a float. -/
def asFloat : Value → Except ValueError Float32
  | .float number => .ok number
  | value => .error (accessError .float value)

@[simp]
theorem asInt_eq_ok_iff {value : Value} {number : Int32} :
    value.asInt = .ok number ↔ value = .int number := by
  cases value <;> simp [asInt]

@[simp]
theorem asBool_eq_ok_iff {value : Value} {truth : Bool} :
    value.asBool = .ok truth ↔ value = .bool truth := by
  cases value <;> simp [asBool]

@[simp]
theorem asChar_eq_ok_iff {value : Value} {character : Char} :
    value.asChar = .ok character ↔ value = .char character := by
  cases value <;> simp [asChar]

@[simp]
theorem asFloat_eq_ok_iff {value : Value} {number : Float32} :
    value.asFloat = .ok number ↔ value = .float number := by
  cases value <;> simp [asFloat]

/-- Whether a value is equal to another as the language compares values: a float that is
not a number is not even equal to itself. -/
def isEqual : Value → Value → Bool
  | .float first, .float second => first == second
  | first, second => first = second

/-- Write a value. -/
def text : Value → String
  | .int number => toString number.toInt
  | .bool truth => if truth then "true" else "false"
  | .char character => Text.quoteCharacter character
  | .float number => Binary32.text number
  | .undefined ty => s!"undef {ty.name}"

end Value

end TypedImp
