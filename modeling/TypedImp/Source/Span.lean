import TypedImp.Source.Offset

/-!
# Spans

A span is a region of a source text in byte offsets.  It is stored as its start and its
length, so that its end is never before its start.  The length has 32 bits: of a longer
region a span covers the first `Span.maxLength` bytes.

`hi_ofBounds` and `hi_cover` say where a region ends.
-/

namespace TypedImp

/-- The largest length of a span. -/
def Span.maxLength : Nat :=
  4294967295

/-- The region of `length` bytes from the offset `lo` on. -/
structure Span where
  lo : Nat
  length : Nat
  length_le : length ≤ Span.maxLength
  deriving DecidableEq

namespace Span

/-- The offset just behind the region. -/
def hi (span : Span) : Nat :=
  span.lo + span.length

/-- The region between two offsets, or the part of it that a span can cover. -/
def ofBounds (lo hi : Nat) : Span :=
  ⟨lo, min (hi - lo) maxLength, Nat.min_le_right ..⟩

/-- The empty region at an offset. -/
def emptyAt (offset : Nat) : Span :=
  ⟨offset, 0, Nat.zero_le _⟩

instance : Inhabited Span :=
  ⟨emptyAt 0⟩

/-- The smallest region that covers both, or the part of it that a span can cover. -/
def cover (first second : Span) : Span :=
  ofBounds (min first.lo second.lo) (max first.hi second.hi)

/-- Write a span as its two bounds. -/
def text (span : Span) : String :=
  s!"{span.lo}..{span.hi}"

/-- Write a span as its two bounds and its length. -/
def detailedText (span : Span) : String :=
  s!"Span({span.text}, len: {span.length})"

/-- The source text of a span, if the span lies in the source and cuts no character. -/
def slice? (span : Span) (source : List Char) : Option (List Char) :=
  if Source.isBoundary span.lo source && Source.isBoundary span.hi source then
    some (Source.before span.length (Source.after span.lo source))
  else
    none

theorem ext_bounds {first second : Span} (loEq : first.lo = second.lo)
    (hiEq : first.hi = second.hi) : first = second := by
  cases first
  cases second
  simp only [hi] at loEq hiEq
  simp only [mk.injEq]
  omega

theorem lo_le_hi (span : Span) : span.lo ≤ span.hi :=
  Nat.le_add_right ..

@[simp]
theorem lo_ofBounds (lo hi : Nat) : (ofBounds lo hi).lo = lo :=
  rfl

@[simp]
theorem length_ofBounds (lo hi : Nat) : (ofBounds lo hi).length = min (hi - lo) maxLength :=
  rfl

/-- The region between two offsets ends at the second one, unless it is too long. -/
theorem hi_ofBounds {lo hi : Nat} (ordered : lo ≤ hi) :
    (ofBounds lo hi).hi = min hi (lo + maxLength) := by
  simp only [Span.hi, lo_ofBounds, length_ofBounds]
  omega

@[simp]
theorem lo_cover (first second : Span) : (first.cover second).lo = min first.lo second.lo :=
  rfl

/-- A covering region ends where the later one of the two ends, unless it is too long. -/
theorem hi_cover (first second : Span) :
    (first.cover second).hi =
      min (max first.hi second.hi) (min first.lo second.lo + maxLength) := by
  refine hi_ofBounds ?_
  have firstOrder := first.lo_le_hi
  have secondOrder := second.lo_le_hi
  omega

end Span

/-- Something found at a span. -/
structure Spanned (α : Type) where
  span : Span
  content : α
  deriving DecidableEq

namespace Spanned

variable {α β : Type}

/-- Change what was found and keep where. -/
def map (f : α → β) (found : Spanned α) : Spanned β :=
  ⟨found.span, f found.content⟩

end Spanned

end TypedImp
