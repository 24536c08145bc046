import Mathlib

/-!
# Ranges of numbers under keys

Each range has a key, a first number and a count, such as the ports that a machine reserves
for one purpose. Its points are its numbers, each with the key. The points of a list of ranges
are all different exactly if no two of the ranges overlap under one key.
-/

namespace KeyedRanges

universe u

structure KeyedRange (Key : Type u) where
  key : Key
  first : ℤ
  count : ℕ

variable {Key : Type u}

namespace KeyedRange

def points (range : KeyedRange Key) : List (Key × ℤ) :=
  (List.range range.count).map fun i : ℕ => (range.key, range.first + i)

/-- The ranges do not overlap under one key; an empty one overlaps with nothing. -/
def Apart (left right : KeyedRange Key) : Prop :=
  left.key = right.key → left.count = 0 ∨ right.count = 0 ∨
    left.first + left.count ≤ right.first ∨ right.first + right.count ≤ left.first

instance [DecidableEq Key] (left right : KeyedRange Key) : Decidable (left.Apart right) :=
  inferInstanceAs (Decidable (_ → _))

variable {range left right : KeyedRange Key} {key : Key} {number : ℤ}

@[simp]
theorem mem_points :
    (key, number) ∈ range.points ↔
      key = range.key ∧ range.first ≤ number ∧ number < range.first + range.count := by
  simp only [points, List.mem_map, List.mem_range, Prod.mk.injEq]
  constructor
  · rintro ⟨i, inside, rfl, rfl⟩
    exact ⟨rfl, by omega, by omega⟩
  · rintro ⟨rfl, lower, upper⟩
    exact ⟨(number - range.first).toNat, by omega, rfl, by omega⟩

theorem nodup_points (range : KeyedRange Key) : range.points.Nodup := by
  apply List.nodup_range.map
  intro i j same
  simpa using same

theorem disjoint_points_iff : left.points.Disjoint right.points ↔ left.Apart right := by
  constructor
  · intro disjoint sameKey
    by_contra overlap
    simp only [not_or, not_le] at overlap
    rcases overlap with ⟨leftSome, rightSome, leftReaches, rightReaches⟩
    -- The greater of the two first numbers is in both ranges.
    refine @disjoint (left.key, max left.first right.first) ?_ ?_
    · apply mem_points.mpr
      exact ⟨rfl, le_max_left _ _, by omega⟩
    · apply mem_points.mpr
      exact ⟨sameKey, le_max_right _ _, by omega⟩
  · rintro apart ⟨key, number⟩ inLeft inRight
    simp only [mem_points] at inLeft inRight
    have separate := apart (inLeft.1.symm.trans inRight.1)
    omega

/-- All points are different exactly if the ranges are pairwise apart. -/
theorem nodup_flatMap_points_iff {ranges : List (KeyedRange Key)} :
    (ranges.flatMap points).Nodup ↔ ranges.Pairwise Apart := by
  rw [List.nodup_flatMap, and_iff_right fun range _ => range.nodup_points]
  apply List.Pairwise.iff
  intro left right
  exact disjoint_points_iff

end KeyedRange

end KeyedRanges
