import Mathlib

/-!
# Lists by parts

A key splits a list into parts. The order of a list within its parts, and that of the parts
among each other, do not matter for a permutation.
-/

namespace Parts

variable {Item Key : Type} [DecidableEq Key]

/-- Lists with the same parts up to order are the same up to order. -/
theorem perm_of_filter [DecidableEq Item] (key : Item → Key) {first second : List Item}
    (parts : ∀ wanted, (first.filter (key · = wanted)).Perm (second.filter (key · = wanted))) :
    first.Perm second := by
  apply List.perm_iff_count.mpr
  intro item
  have inPart : ∀ items : List Item,
      (items.filter (key · = key item)).count item = items.count item := by
    intro items
    exact List.count_filter (decide_eq_true rfl)
  rw [← inPart first, ← inPart second]
  exact (parts (key item)).count_eq item

/-- The part of one key in a list put together from the parts of different keys. -/
theorem filter_flatMap {key : Item → Option Key} {items : Key → List Item}
    (own : ∀ source, ∀ item ∈ items source, key item = some source) {sources : List Key}
    (distinct : sources.Nodup) {wanted : Key} (present : wanted ∈ sources) :
    (sources.flatMap items).filter (key · = some wanted) = items wanted := by
  have others : ∀ {part : List Key}, wanted ∉ part →
      (part.flatMap items).filter (key · = some wanted) = [] := by
    intro part absent
    apply List.filter_eq_nil_iff.mpr
    intro item mem
    rcases List.mem_flatMap.mp mem with ⟨source, sourceMem, itemMem⟩
    rw [own source item itemMem, decide_eq_true_eq, Option.some.injEq]
    rintro rfl
    exact absent sourceMem
  have whole : (items wanted).filter (key · = some wanted) = items wanted := by
    apply List.filter_eq_self.mpr
    intro item mem
    exact decide_eq_true (own wanted item mem)
  rcases List.append_of_mem present with ⟨before, after, rfl⟩
  rw [List.nodup_middle, List.nodup_cons, List.mem_append, not_or] at distinct
  rw [List.flatMap_append, List.flatMap_cons, List.filter_append, List.filter_append,
    others distinct.1.1, others distinct.1.2, whole, List.append_nil, List.nil_append]

end Parts
