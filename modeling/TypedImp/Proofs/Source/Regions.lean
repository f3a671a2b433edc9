import TypedImp.Source.Span

/-!
# Regions of a text

A span covers a region of a text if both ends of the region cut no character.  Of a region that is
too long it covers the first part, which may end anywhere.
-/

namespace TypedImp

namespace Source

end Source

/-- A span covers a region of a text, as far as a span reaches. -/
def Span.Covers (span : Span) (text : List Char) : Prop :=
  Source.isBoundary span.lo text = true ∧ ∃ stop, Source.isBoundary stop text = true ∧
    span.lo ≤ stop ∧ span.hi = min stop (span.lo + Span.maxLength)

namespace Span.Covers

variable {text : List Char} {first second span : Span}

theorem emptyAt {offset : Nat} (boundary : Source.isBoundary offset text = true) :
    (Span.emptyAt offset).Covers text :=
  ⟨boundary, offset, boundary, Nat.le_refl _, (Nat.min_eq_left (Nat.le_add_right _ _)).symm⟩

theorem ofBounds {lo hi : Nat} (begins : Source.isBoundary lo text = true)
    (ends : Source.isBoundary hi text = true) (ordered : lo ≤ hi) :
    (Span.ofBounds lo hi).Covers text :=
  ⟨begins, hi, ends, ordered, hi_ofBounds ordered⟩

/-- What covers two regions covers a region. -/
theorem cover (covers : first.Covers text) (others : second.Covers text) :
    (first.cover second).Covers text := by
  obtain ⟨begins, stop, ends, ordered, hi⟩ := covers
  obtain ⟨begins', stop', ends', ordered', hi'⟩ := others
  refine ⟨?_, max stop stop', ?_, ?_, ?_⟩
  · rw [lo_cover]
    rcases Nat.le_total first.lo second.lo with le | le
    · rwa [Nat.min_eq_left le]
    · rwa [Nat.min_eq_right le]
  · rcases Nat.le_total stop stop' with le | le
    · rwa [Nat.max_eq_right le]
    · rwa [Nat.max_eq_left le]
  · rw [lo_cover]
    omega
  · rw [hi_cover, lo_cover, hi, hi']
    omega

end Span.Covers

end TypedImp
