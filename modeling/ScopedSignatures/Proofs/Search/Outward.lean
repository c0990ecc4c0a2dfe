import ScopedSignatures.Search

/-!
# The outward search

A relative name that is used in a scope has one candidate key for each initial
part of the scope: the segments of that part, then the segments of the name, all
starting at the root. The outward search tries the longest part first, so the
largest number of scope segments whose key is occupied decides. Whether the scope
itself is absolute makes no difference.

## Main definitions

* `Search.keyAt` — the key of a name behind the first segments of a scope
* `Search.IsInnermost` — a value stands at the innermost occupied key
* `Search.Trail.map` — a trail with another value made of what was found

## Main results

* `Search.found_outward_of_isAbsolute` — an absolute name is its own and only key
* `Search.found_outward_eq_some_iff`, `Search.found_outward_eq_none_iff` — what the search finds
* `Search.tryInOrder_map` — which keys are tried does not depend on what stands there
-/

namespace ScopedSignatures

namespace Namespace

variable {δ : Type} {ns : Namespace} {count : Nat} {value : δ}

/-- Of the initial parts of a path, the longest one with an answer decides. -/
theorem findSome?_outermost_eq_some_iff (probe : Namespace → Option δ) :
    (ns.outermost count).findSome? probe = some value ↔
      ∃ depth < count, probe (ns.take depth) = some value ∧
        ∀ deeper < count, depth < deeper → probe (ns.take deeper) = none := by
  induction count with
  | zero => simp [outermost]
  | succ count ih =>
    rw [outermost, List.findSome?_cons]
    cases hprobe : probe (ns.take count) with
    | some found =>
      constructor
      · intro h
        exact ⟨count, by omega, hprobe.trans h, fun deeper hlt hgt => by omega⟩
      · intro hdecides
        obtain ⟨depth, hdepth, hfound, hdeeper⟩ := hdecides
        by_cases h : depth = count
        · rw [← hfound, h, hprobe]
        · -- a shorter part decides only if there is nothing at `count`
          have hnone := hdeeper count (by omega) (by omega)
          rw [hprobe] at hnone
          cases hnone
    | none =>
      rw [ih]
      constructor
      · intro hdecides
        obtain ⟨depth, hdepth, hfound, hdeeper⟩ := hdecides
        refine ⟨depth, by omega, hfound, fun deeper hlt hgt => ?_⟩
        by_cases h : deeper = count
        · rw [h, hprobe]
        · exact hdeeper deeper (by omega) hgt
      · intro hdecides
        obtain ⟨depth, hdepth, hfound, hdeeper⟩ := hdecides
        have hne : depth ≠ count := by
          rintro rfl
          rw [hprobe] at hfound
          cases hfound
        exact ⟨depth, by omega, hfound, fun deeper hlt hgt => hdeeper deeper (by omega) hgt⟩

theorem findSome?_outermost_eq_none_iff (probe : Namespace → Option δ) :
    (ns.outermost count).findSome? probe = none ↔
      ∀ depth < count, probe (ns.take depth) = none := by
  rw [List.findSome?_eq_none_iff]
  constructor
  · intro h depth hdepth
    exact h _ (mem_outermost_iff.2 ⟨depth, hdepth, rfl⟩)
  · intro h scope hscope
    obtain ⟨depth, hdepth, rfl⟩ := mem_outermost_iff.1 hscope
    exact h depth hdepth

end Namespace

namespace Search

variable {vocabulary : Vocabulary} {δ : Type} {probe : QualifiedName vocabulary → Option δ}
  {name : QualifiedName vocabulary} {scope : Namespace} {value : δ}

/-- The key of a name behind the first `depth` segments of a scope. -/
def keyAt (name : QualifiedName vocabulary) (scope : Namespace) (depth : Nat) :
    QualifiedName vocabulary :=
  ⟨⟨scope.segments.take depth ++ name.qualifier.segments, .absolute⟩, name.last⟩

/-- The value stands at the innermost occupied key: behind the largest number of
scope segments behind which the name has anything at all. -/
def IsInnermost (probe : QualifiedName vocabulary → Option δ) (name : QualifiedName vocabulary)
    (scope : Namespace) (value : δ) : Prop :=
  ∃ depth ≤ scope.depth, probe (keyAt name scope depth) = some value ∧
    ∀ deeper ≤ scope.depth, depth < deeper → probe (keyAt name scope deeper) = none

/-- Reading a relative name in an initial part of the anchored scope gives its key there. -/
theorem qualify_take_anchored (h : name.qualifier.anchor = .relative) (scope : Namespace)
    (depth : Nat) : (scope.anchored.take depth).qualify name = keyAt name scope depth := by
  rw [Namespace.qualify_of_isRelative h]
  rfl

theorem outwardKeys_of_isAbsolute (h : name.isAbsolute = true) (scope : Namespace) :
    outwardKeys name scope = [name] := by
  rw [outwardKeys, if_pos h]

theorem directKey_of_isAbsolute (h : name.isAbsolute = true) (scope : Namespace) :
    directKey name scope = name := by
  rw [directKey, Namespace.qualify_of_isAbsolute (Namespace.isAbsolute_iff.1 h)]
  exact QualifiedName.anchored_eq_self_iff.2 h

/-- An absolute name is looked up as it is, from every scope. -/
theorem found_outward_of_isAbsolute (h : name.isAbsolute = true) (scope : Namespace) :
    (outward probe name scope).found = probe name := by
  rw [outward, found_tryInOrder, outwardKeys_of_isAbsolute h, List.findSome?_singleton]

theorem found_outward_of_isRelative (h : name.isRelative = true) (scope : Namespace) :
    (outward probe name scope).found =
      (scope.anchored.outermost (scope.depth + 1)).findSome? fun outer =>
        probe (outer.qualify name) := by
  have hnot : ¬ name.isAbsolute = true := by
    rw [QualifiedName.isRelative, Namespace.isRelative_eq_not, Bool.not_eq_true'] at h
    rw [QualifiedName.isAbsolute, h]
    exact Bool.false_ne_true
  rw [outward, found_tryInOrder, outwardKeys, if_neg hnot, List.findSome?_map]
  rfl

/-- The outward search for a relative name finds what stands at the innermost occupied key. -/
theorem found_outward_eq_some_iff (h : name.isRelative = true) :
    (outward probe name scope).found = some value ↔ IsInnermost probe name scope value := by
  have hanchor := Namespace.isRelative_iff.1 h
  rw [found_outward_of_isRelative h, Namespace.findSome?_outermost_eq_some_iff]
  simp only [qualify_take_anchored hanchor, Nat.lt_succ_iff]
  rfl

/-- The outward search for a relative name finds nothing exactly when every key is free. -/
theorem found_outward_eq_none_iff (h : name.isRelative = true) :
    (outward probe name scope).found = none ↔
      ∀ depth ≤ scope.depth, probe (keyAt name scope depth) = none := by
  have hanchor := Namespace.isRelative_iff.1 h
  rw [found_outward_of_isRelative h, Namespace.findSome?_outermost_eq_none_iff]
  simp only [qualify_take_anchored hanchor, Nat.lt_succ_iff]

/-! ## What is found, seen through a function -/

section Map

variable {κ ε : Type}

/-- The same keys tried, with another value made of what was found. -/
def Trail.map (f : δ → ε) (trail : Trail κ δ) : Trail κ ε := ⟨trail.tried, trail.found.map f⟩

/-- A search with other values at the same keys tries the same keys. -/
theorem tryInOrder_map (f : δ → ε) (probe : κ → Option δ) (keys : List κ) :
    tryInOrder (fun key => (probe key).map f) keys = (tryInOrder probe keys).map f := by
  induction keys with
  | nil => rfl
  | cons key keys ih =>
    rw [tryInOrder, tryInOrder]
    cases probe key with
    | some value => rfl
    | none =>
      simp only [Option.map_none, ih]
      rfl

end Map

end Search

end ScopedSignatures
