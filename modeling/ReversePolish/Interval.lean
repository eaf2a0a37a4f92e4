import ReversePolish.Decimal

set_option autoImplicit false

/-! # Integer intervals

Closed intervals of 32-bit integers. The result of intersecting two intervals without a common
integer is one marked interval, `empty`, whose bounds are both the least integer; it is an
ordinary interval for every other purpose. -/

namespace ReversePolish

attribute [local instance] corePow

/-- The least bound. -/
def minBound : Int := -(2 ^ (31 : Nat))

/-- The greatest bound. -/
def maxBound : Int := 2 ^ (31 : Nat) - 1

/-- The integers from `lower` to `upper`. -/
structure Interval where
  lower : Int
  upper : Int
  minBound_le : minBound ≤ lower
  lower_le_upper : lower ≤ upper
  le_maxBound : upper ≤ maxBound
deriving DecidableEq, Repr

namespace Interval

/-- The interval with these bounds, if they are in range and in order. -/
def ofBounds? (lower upper : Int) : Option Interval :=
  if h : minBound ≤ lower ∧ lower ≤ upper ∧ upper ≤ maxBound then
    some ⟨lower, upper, h.1, h.2.1, h.2.2⟩
  else none

/-- The marked interval that stands for no integer at all. -/
def empty : Interval :=
  ⟨minBound, minBound, Int.le_refl _, Int.le_refl _, by decide⟩

/-- Whether the interval is the marked one. -/
def isEmpty (i : Interval) : Bool :=
  i.lower == minBound && i.upper == minBound

/-- The least interval that holds both. -/
def hull (a b : Interval) : Interval where
  lower := min a.lower b.lower
  upper := max a.upper b.upper
  minBound_le := by have := a.minBound_le; have := b.minBound_le; omega
  lower_le_upper := by have := a.lower_le_upper; omega
  le_maxBound := by have := a.le_maxBound; have := b.le_maxBound; omega

/-- The common integers of both; `empty` when there are none. -/
def meet (a b : Interval) : Interval :=
  if h : max a.lower b.lower ≤ min a.upper b.upper then
    { lower := max a.lower b.lower
      upper := min a.upper b.upper
      minBound_le := by have := a.minBound_le; omega
      lower_le_upper := h
      le_maxBound := by have := a.le_maxBound; omega }
  else empty

@[simp] theorem upper_hull (a b : Interval) : (a.hull b).upper = max a.upper b.upper := rfl

theorem ofBounds?_eq_some_iff {lower upper : Int} {i : Interval} :
    ofBounds? lower upper = some i ↔ i.lower = lower ∧ i.upper = upper := by
  obtain ⟨l, u, hl, hlu, hu⟩ := i
  unfold ofBounds?
  split
  · simp [eq_comm]
  · rename_i h
    -- the bounds of `i` would be in range and in order
    simp only [reduceCtorEq, false_iff]
    rintro ⟨rfl, rfl⟩
    exact h ⟨hl, hlu, hu⟩

theorem eq_of_bounds {i j : Interval} (hlower : i.lower = j.lower) (hupper : i.upper = j.upper) :
    i = j := by
  have hi : ofBounds? i.lower i.upper = some i := ofBounds?_eq_some_iff.2 ⟨rfl, rfl⟩
  have hj : ofBounds? i.lower i.upper = some j :=
    ofBounds?_eq_some_iff.2 ⟨hlower.symm, hupper.symm⟩
  exact Option.some.inj (hi.symm.trans hj)

theorem meet_eq_empty {a b : Interval} (h : min a.upper b.upper < max a.lower b.lower) :
    a.meet b = empty := by
  unfold meet
  rw [dif_neg]
  omega

theorem lower_meet {a b : Interval} (h : max a.lower b.lower ≤ min a.upper b.upper) :
    (a.meet b).lower = max a.lower b.lower := by
  unfold meet
  rw [dif_pos h]

theorem upper_meet {a b : Interval} (h : max a.lower b.lower ≤ min a.upper b.upper) :
    (a.meet b).upper = min a.upper b.upper := by
  unfold meet
  rw [dif_pos h]

/-- The canonical text: the bounds with a comma between. -/
def chars (i : Interval) : List Char :=
  Decimal.intDigits i.lower ++ ',' :: Decimal.intDigits i.upper

/-- The canonical text as a string. -/
def text (i : Interval) : String :=
  String.ofList i.chars

end Interval

end ReversePolish
