import ScopedSignatures.Listing

/-!
# Sorted rows and blocks

Where a comparison is a total order, rows can be sorted by it. In a sorted row the items
with a property follow on one another if whatever lies between two of them has it too.

## Main definitions

* `OrdersTotally` — the comparison of a type is a total order
* `InOneBlock` — the items with a property follow on one another in a row

## Main results

* `Listing.ascending_sorted` — sorting sorts
* `inOneBlock_of_pairwise` — a property that holds between any two items with it is one block
* `InOneBlock.filterMap` — leaving items out does not split a block
-/

namespace ScopedSignatures

variable {α δ ε : Type}

/-- The comparison is a total order, and only a value itself compares as equal to it. -/
structure OrdersTotally (α : Type) [Ord α] : Prop where
  eq_iff : ∀ first second : α, compare first second = .eq ↔ first = second
  swap : ∀ first second : α, compare second first = (compare first second).swap
  antisymm : ∀ first second : α, (compare first second).isLE → (compare second first).isLE →
    first = second
  trans : ∀ first second third : α, (compare first second).isLE → (compare second third).isLE →
    (compare first third).isLE
  total : ∀ first second : α, (compare first second).isLE ∨ (compare second first).isLE

section Ordered

variable [Ord α] [Std.TransOrd α]

theorem compare_isLE_total (first second : α) :
    (compare first second).isLE ∨ (compare second first).isLE := by
  rw [Std.OrientedOrd.eq_swap (a := second)]
  cases compare first second <;> simp

theorem ordersTotally [Std.LawfulEqOrd α] : OrdersTotally α where
  eq_iff _ _ := Std.LawfulEqOrd.compare_eq_iff_eq
  swap _ _ := Std.OrientedOrd.eq_swap
  antisymm _ _ hle hge := Std.LawfulEqOrd.eq_of_compare (Std.OrientedCmp.isLE_antisymm hle hge)
  trans _ _ _ := Std.TransOrd.isLE_trans
  total := compare_isLE_total

/-- Sorting leaves no item behind a greater one. -/
theorem Listing.ascending_sorted (items : List α) :
    (sorted items).Pairwise fun first second => (compare first.1 second.1).isLE := by
  apply List.pairwise_mergeSort
  · intro first second third
    exact Std.TransOrd.isLE_trans
  · intro first second
    exact Bool.or_eq_true_iff.2 (compare_isLE_total first.1 second.1)

end Ordered

/-! ## Blocks -/

/-- The items with a property follow on one another in the row, with no others between. -/
def InOneBlock (property : δ → Prop) (row : List δ) : Prop :=
  ∃ before block behind, row = before ++ block ++ behind ∧ (∀ item ∈ block, property item) ∧
    ∀ item ∈ before ++ behind, ¬ property item

/-- In a sorted row a property that holds between any two items that have it is one block. -/
theorem inOneBlock_of_pairwise {le : δ → δ → Prop} {property : δ → Prop} {row : List δ}
    (hsorted : row.Pairwise le) (hbetween : ∀ first middle last, le first middle →
      le middle last → property first → property last → property middle) :
    InOneBlock property row := by
  induction row with
  | nil => exact ⟨[], [], [], rfl, by simp, by simp⟩
  | cons item row ih =>
    obtain ⟨hitem, hrow⟩ := List.pairwise_cons.1 hsorted
    obtain ⟨before, block, behind, rfl, hblock, hothers⟩ := ih hrow
    by_cases hproperty : property item
    · cases block with
      | nil =>
        refine ⟨[], [item], before ++ behind, by simp, by simpa using hproperty, ?_⟩
        simpa using hothers
      | cons head block =>
        cases before with
        | nil =>
          refine ⟨[], item :: head :: block, behind, rfl, ?_, hothers⟩
          exact List.forall_mem_cons.2 ⟨hproperty, hblock⟩
        | cons other before =>
          -- the other one would lie between the item and the head of the block
          have hbelow := hitem other (by simp)
          have habove : le other head := (List.pairwise_cons.1 hrow).1 head (by simp)
          have hother := hbetween item other head hbelow habove hproperty (hblock head (by simp))
          exact absurd hother (hothers other (by simp))
    · refine ⟨item :: before, block, behind, rfl, hblock, ?_⟩
      exact List.forall_mem_cons.2 ⟨hproperty, hothers⟩

/-- A row that leaves items out, or shows them in another way, keeps the block. -/
theorem InOneBlock.filterMap {property : δ → Prop} {shown : ε → Prop} {row : List δ}
    {select : δ → Option ε} (h : InOneBlock property row)
    (hshown : ∀ item value, select item = some value → (shown value ↔ property item)) :
    InOneBlock shown (row.filterMap select) := by
  obtain ⟨before, block, behind, rfl, hblock, hothers⟩ := h
  refine ⟨before.filterMap select, block.filterMap select, behind.filterMap select, ?_, ?_, ?_⟩
  · rw [List.filterMap_append, List.filterMap_append]
  · intro value hvalue
    obtain ⟨item, hitem, hselect⟩ := List.mem_filterMap.1 hvalue
    exact (hshown item value hselect).2 (hblock item hitem)
  · intro value hvalue
    rw [← List.filterMap_append] at hvalue
    obtain ⟨item, hitem, hselect⟩ := List.mem_filterMap.1 hvalue
    exact mt (hshown item value hselect).1 (hothers item hitem)

end ScopedSignatures
