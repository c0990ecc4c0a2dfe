import Mathlib.Tactic.ByContra

/-!
# Rows in lexicographic order

Rows are compared item by item, and a row comes before those that it begins. A front
that two rows share does not decide between them, and what stands behind a front does
not decide against a row that lacks the front. So the rows with one front follow on one
another: a row between two of them has the front as well.

## Main results

* `Lexicographic.compare_eq_lt_iff` — a row goes on, or the first difference decides
* `Lexicographic.compare_append_of_not_front` — what a front does not share is not looked at
* `Lexicographic.prefix_of_between` — rows with one front follow on one another
* `Lexicographic.compare_flatMap_of_lt` — rows keep their order when their items are coded
-/

namespace ScopedSignatures.Lexicographic

variable {α β : Type}

section Fronts

variable [Ord α] {front first middle last other : List α}

/-! ## Fronts -/

theorem compare_nil_left (h : other ≠ []) : compare [] other = .lt := by
  cases other with
  | nil => exact absurd rfl h
  | cons head tail => rfl

/-- A front that both rows have does not decide. -/
theorem compare_append_left [Std.ReflOrd α] (front first second : List α) :
    compare (front ++ first) (front ++ second) = compare first second := by
  induction front with
  | nil => rfl
  | cons item front ih =>
    rw [List.cons_append, List.cons_append, List.compare_cons_cons, Std.compare_self, ih]
    rfl

/-- What stands behind a front does not decide against a row that lacks the front. -/
theorem compare_append_of_not_front [Std.LawfulEqOrd α] (h : ¬ front <+: other)
    (behind : List α) : compare (front ++ behind) other = compare front other := by
  induction front generalizing other with
  | nil => exact absurd List.nil_prefix h
  | cons item front ih =>
    cases other with
    | nil => rfl
    | cons head tail =>
      rw [List.cons_append, List.compare_cons_cons, List.compare_cons_cons]
      cases hitem : compare item head with
      | lt | gt => rfl
      | eq =>
        obtain rfl := Std.LawfulEqOrd.eq_of_compare hitem
        exact ih fun htail => h (List.cons_prefix_cons.2 ⟨rfl, htail⟩)

/-- Rows with one front follow on one another. -/
theorem prefix_of_between [Std.TransOrd α] [Std.LawfulEqOrd α] (hfirst : front <+: first)
    (hlast : front <+: last) (hbelow : (compare first middle).isLE)
    (habove : (compare middle last).isLE) : front <+: middle := by
  by_contra hlacks
  obtain ⟨behind, rfl⟩ := hfirst
  obtain ⟨behind', rfl⟩ := hlast
  -- the front has decided, so the last row is below the middle one, as the first is
  have hbelow' : (compare (front ++ behind') middle).isLE := by
    rwa [compare_append_of_not_front hlacks, ← compare_append_of_not_front hlacks behind]
  have hsame : middle = front ++ behind' :=
    Std.LawfulEqOrd.eq_of_compare (Std.OrientedCmp.isLE_antisymm habove hbelow')
  exact hlacks (hsame ▸ List.prefix_append front behind')

/-! ## The first difference -/

/-- A row comes before another if the other goes on where it ends, or if it has the
smaller item where they first differ. -/
theorem compare_eq_lt_iff [Std.LawfulEqOrd α] {first second : List α} :
    compare first second = .lt ↔
      (∃ item behind, second = first ++ item :: behind) ∨
      ∃ front item behind item' behind', first = front ++ item :: behind ∧
        second = front ++ item' :: behind' ∧ compare item item' = .lt := by
  constructor
  · intro h
    induction first generalizing second with
    | nil =>
      cases second with
      | nil => cases h
      | cons item behind => exact Or.inl ⟨item, behind, rfl⟩
    | cons head tail ih =>
      cases second with
      | nil => cases h
      | cons head' tail' =>
        rw [List.compare_cons_cons, Ordering.then_eq_lt] at h
        rcases h with hhead | ⟨hhead, htail⟩
        · exact Or.inr ⟨[], head, tail, head', tail', rfl, rfl, hhead⟩
        · obtain rfl := Std.LawfulEqOrd.eq_of_compare hhead
          rcases ih htail with ⟨item, behind, rfl⟩ |
            ⟨front, item, behind, item', behind', rfl, rfl, hitem⟩
          · exact Or.inl ⟨item, behind, rfl⟩
          · exact Or.inr ⟨head :: front, item, behind, item', behind', rfl, rfl, hitem⟩
  · rintro (⟨item, behind, rfl⟩ | ⟨front, item, behind, item', behind', rfl, rfl, hitem⟩)
    · have hgoes := compare_append_left first [] (item :: behind)
      rwa [List.append_nil] at hgoes
    · rw [compare_append_left, List.compare_cons_cons, hitem]
      rfl

end Fronts

/-! ## Codes -/

/-- Where the codes of items part in the order of the items, and before either of them
ends, rows that are coded item by item keep their order. -/
theorem compare_flatMap_of_lt [LT α] [Ord β] [Std.ReflOrd β] {code : α → List β}
    (hne : ∀ item, code item ≠ [])
    (hcode : ∀ {item item' : α}, item < item' → ∀ behind behind',
      compare (code item ++ behind) (code item' ++ behind') = .lt) {first second : List α}
    (h : first < second) : compare (first.flatMap code) (second.flatMap code) = .lt := by
  induction h with
  | nil => exact compare_nil_left (List.append_ne_nil_of_left_ne_nil (hne _) _)
  | rel hitem => exact hcode hitem _ _
  | cons _ ih => rwa [List.flatMap_cons, List.flatMap_cons, compare_append_left]

end ScopedSignatures.Lexicographic
