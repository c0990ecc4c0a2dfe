import ScopedSignatures.Namespace.Basic

/-!
# Enclosing namespaces

The namespaces around a scope, from the scope itself out to the path without
segments. All of them keep the anchor, so the last one is the root for an
absolute scope and the empty path for a relative one.

## Main definitions

* `Namespace.outermost` — the given number of shortest initial parts of a path
* `Namespace.enclosing` — a path and everything around it, innermost first

## Main results

* `Namespace.length_enclosing` — there is one more of them than there are segments
* `Namespace.enclosing_of_parent?` — the path comes first, then what encloses its parent
-/

namespace ScopedSignatures.Namespace

variable {ns parent scope : Namespace}

/-- The `count` shortest initial parts of a path, the longest of them first. -/
def outermost (ns : Namespace) : Nat → List Namespace
  | 0 => []
  | count + 1 => ns.take count :: ns.outermost count

/-- A path and the paths around it, innermost first. -/
def enclosing (ns : Namespace) : List Namespace := ns.outermost (ns.depth + 1)

@[simp] theorem length_outermost (ns : Namespace) (count : Nat) :
    (ns.outermost count).length = count := by
  induction count with
  | zero => rfl
  | succ count ih => rw [outermost, List.length_cons, ih]

@[simp] theorem length_enclosing (ns : Namespace) : ns.enclosing.length = ns.depth + 1 :=
  length_outermost ns _

/-- The initial parts in order: each has one segment fewer than the one before. -/
theorem getElem?_outermost (ns : Namespace) {count index : Nat} (h : index < count) :
    (ns.outermost count)[index]? = some (ns.take (count - 1 - index)) := by
  induction count generalizing index with
  | zero => omega
  | succ count ih =>
    cases index with
    | zero => simp [outermost]
    | succ index =>
      rw [outermost, List.getElem?_cons_succ, ih (by omega)]
      congr 2
      omega

theorem mem_outermost_iff {count : Nat} :
    scope ∈ ns.outermost count ↔ ∃ index < count, scope = ns.take index := by
  induction count with
  | zero => simp [outermost]
  | succ count ih =>
    rw [outermost, List.mem_cons, ih]
    constructor
    · rintro (rfl | ⟨index, hindex, rfl⟩)
      · exact ⟨count, by omega, rfl⟩
      · exact ⟨index, by omega, rfl⟩
    · rintro ⟨index, hindex, rfl⟩
      by_cases h : index = count
      · exact Or.inl (h ▸ rfl)
      · exact Or.inr ⟨index, by omega, rfl⟩

/-- Every enclosing path keeps the anchor. -/
theorem anchor_of_mem_enclosing (h : scope ∈ ns.enclosing) : scope.anchor = ns.anchor := by
  obtain ⟨index, -, rfl⟩ := mem_outermost_iff.1 h
  rfl

/-- Initial parts that are no longer than a first part of a path are initial parts of that part. -/
theorem outermost_take (ns : Namespace) {count limit : Nat} (h : count ≤ limit + 1) :
    (ns.take limit).outermost count = ns.outermost count := by
  induction count with
  | zero => rfl
  | succ count ih =>
    rw [outermost, outermost, ih (by omega)]
    congr 1
    simp only [take, List.take_take]
    congr 2
    omega

theorem parent?_eq_some_iff :
    ns.parent? = some parent ↔ ns.segments ≠ [] ∧ parent = ns.take (ns.depth - 1) := by
  simp only [parent?, take, depth, List.dropLast_eq_take]
  by_cases h : ns.segments = [] <;> simp [h, eq_comm]

/-- A path comes first among the paths around it; the others are those around its parent. -/
theorem enclosing_of_parent? (h : ns.parent? = some parent) :
    ns.enclosing = ns :: parent.enclosing := by
  obtain ⟨hne, rfl⟩ := parent?_eq_some_iff.1 h
  have hpos : 0 < ns.depth := List.length_pos_iff.2 hne
  have hdepth : (ns.take (ns.depth - 1)).depth = ns.depth - 1 := by
    simp only [take, depth, List.length_take]
    omega
  have hself : ns.take ns.depth = ns := by
    simp [take, depth]
  rw [enclosing, outermost, hself, enclosing, hdepth, outermost_take ns (by omega)]
  congr 2
  omega

/-- Nothing but the path itself encloses a path without segments. -/
theorem enclosing_of_parent?_eq_none (h : ns.parent? = none) : ns.enclosing = [ns] := by
  rcases ns with ⟨segments, anchor⟩
  obtain rfl : segments = [] := parent?_eq_none_iff.1 h
  rfl

end ScopedSignatures.Namespace
