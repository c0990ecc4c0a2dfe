import ScopedSignatures.Proofs.Search.Path

/-!
# Where the two searches agree

The direct search reads a name in the scope and anchors the key that comes of it. The
outward search anchors the scope and reads the name in that. Both ways lead to one key,
whatever the anchors of the name and of the scope, so the outward search begins where
the direct search ends. It goes on only from a miss, and only where there are keys left:
for an absolute name and in a scope without segments there are none.

## Main results

* `Search.anchored_qualify` — reading and anchoring can change places
* `Search.outwardKeys_eq_singleton` — where the first key is the only one
* `Search.searches_begin_alike` — what each search says about the other
-/

namespace ScopedSignatures.Search

variable {vocabulary : Vocabulary} {δ : Type} {probe : QualifiedName vocabulary → Option δ}
  {name : QualifiedName vocabulary} {scope : Namespace}

/-- A name read in a scope and then at the root is the name read in the anchored scope. -/
theorem anchored_qualify (name : QualifiedName vocabulary) (scope : Namespace) :
    (scope.qualify name).anchored = scope.anchored.qualify name := by
  cases hanchor : name.qualifier.anchor with
  | absolute =>
    rw [Namespace.qualify_of_isAbsolute hanchor, Namespace.qualify_of_isAbsolute hanchor]
    exact QualifiedName.anchored_eq_self_iff.2 (Namespace.isAbsolute_iff.2 hanchor)
  | relative =>
    rw [Namespace.qualify_of_isRelative hanchor, Namespace.qualify_of_isRelative hanchor]
    rfl

/-! ## The keys that are tried -/

/-- Whatever there is at the first key, it is tried. -/
theorem head?_tried_tryInOrder {κ : Type} (probe : κ → Option δ) (keys : List κ) :
    (tryInOrder probe keys).tried.head? = keys.head? := by
  cases keys with
  | nil => rfl
  | cons key keys =>
    rw [tryInOrder]
    cases probe key with
    | some value => rfl
    | none => rfl

theorem tried_direct (probe : QualifiedName vocabulary → Option δ)
    (name : QualifiedName vocabulary) (scope : Namespace) :
    (direct probe name scope).tried = [directKey name scope] := by
  rw [direct, tryInOrder]
  cases probe (directKey name scope) with
  | some value => rfl
  | none => rfl

theorem found_direct (probe : QualifiedName vocabulary → Option δ)
    (name : QualifiedName vocabulary) (scope : Namespace) :
    (direct probe name scope).found = probe (directKey name scope) := by
  rw [direct, found_tryInOrder, List.findSome?_singleton]

/-- An absolute name has one key, and so has any name in a scope without segments. -/
theorem outwardKeys_eq_singleton (h : name.isAbsolute = true ∨ scope.segments = []) :
    outwardKeys name scope = [directKey name scope] := by
  by_cases habsolute : name.isAbsolute = true
  · rw [outwardKeys_of_isAbsolute habsolute, directKey_of_isAbsolute habsolute]
  · have hempty : scope.anchored.parent? = none :=
      Namespace.parent?_eq_none_iff.2 (h.resolve_left habsolute)
    rw [outwardKeys, if_neg habsolute, Namespace.enclosing_of_parent?_eq_none hempty,
      List.map_singleton, directKey, anchored_qualify]

/-! ## What is found -/

/-- A miss of the outward search is a miss at its first key. -/
theorem found_direct_eq_none (h : (outward probe name scope).found = none) :
    (direct probe name scope).found = none := by
  rw [Option.eq_none_iff_forall_ne_some] at h ⊢
  intro value hfound
  rw [found_direct] at hfound
  exact h value (found_outward_of_directKey hfound)

/-- **The searches begin alike.** The one key of the direct search, the name read in the
scope and then at the root, is the first that the outward search tries. Whatever stands
at the keys, a hit of the direct search is thus the answer of the outward search, and
where the outward search misses the direct search does. For an absolute name, and in a
scope without segments, they try the same key and give the same answer. -/
theorem searches_begin_alike (name : QualifiedName vocabulary) (scope : Namespace)
    (probe : QualifiedName vocabulary → Option δ) :
    (direct probe name scope).tried = [(scope.qualify name).anchored] ∧
    (outward probe name scope).tried.head? = some (scope.qualify name).anchored ∧
    (∀ value, (direct probe name scope).found = some value →
      (outward probe name scope).found = some value) ∧
    ((outward probe name scope).found = none → (direct probe name scope).found = none) ∧
    (name.isAbsolute = true ∨ scope.segments = [] →
      outward probe name scope = direct probe name scope) := by
  refine ⟨tried_direct probe name scope, ?_, fun value hfound => ?_, found_direct_eq_none,
    fun hone => ?_⟩
  · rw [outward, head?_tried_tryInOrder]
    exact head?_outwardKeys name scope
  · rw [found_direct] at hfound
    exact found_outward_of_directKey hfound
  · rw [outward, outwardKeys_eq_singleton hone]
    rfl

/-- Something stands at `::A::X`, and something else at `::X`. -/
def atBothDepths (key : ModuleName) : Option String :=
  if key = ⟨⟨["A"], .absolute⟩, "X"⟩ then some "inner"
  else if key = ⟨.root, "X"⟩ then some "outer"
  else none

theorem inner_hit_shared_outer_hit_not :
    (direct atBothDepths ⟨.empty, "X"⟩ ⟨["A"], .relative⟩).found = some "inner" ∧
      (outward atBothDepths ⟨.empty, "X"⟩ ⟨["A"], .relative⟩).found = some "inner" ∧
      (direct atBothDepths ⟨.empty, "X"⟩ ⟨["A", "B"], .absolute⟩).found = none ∧
      (outward atBothDepths ⟨.empty, "Y"⟩ ⟨["A"], .absolute⟩).found = none ∧
      (direct atBothDepths ⟨.empty, "Y"⟩ ⟨["A"], .absolute⟩).found = none ∧
      outward atBothDepths ⟨.root, "X"⟩ ⟨["A"], .relative⟩ =
        direct atBothDepths ⟨.root, "X"⟩ ⟨["A"], .relative⟩ ∧
      outward atBothDepths ⟨.empty, "X"⟩ .empty = direct atBothDepths ⟨.empty, "X"⟩ .empty := by
  obtain ⟨-, -, hhit, -⟩ := searches_begin_alike ⟨.empty, "X"⟩ ⟨["A"], .relative⟩ atBothDepths
  obtain ⟨-, -, -, hmiss, -⟩ := searches_begin_alike ⟨.empty, "Y"⟩ ⟨["A"], .absolute⟩ atBothDepths
  obtain ⟨-, -, -, -, habsolute⟩ :=
    searches_begin_alike ⟨.root, "X"⟩ ⟨["A"], .relative⟩ atBothDepths
  obtain ⟨-, -, -, -, hempty⟩ := searches_begin_alike ⟨.empty, "X"⟩ .empty atBothDepths
  have hdirect : (direct atBothDepths ⟨.empty, "X"⟩ ⟨["A"], .relative⟩).found = some "inner" := rfl
  have hnothing : (outward atBothDepths ⟨.empty, "Y"⟩ ⟨["A"], .absolute⟩).found = none := rfl
  exact ⟨hdirect, hhit _ hdirect, rfl, hnothing, hmiss hnothing, habsolute (Or.inl rfl),
    hempty (Or.inr rfl)⟩

end ScopedSignatures.Search
