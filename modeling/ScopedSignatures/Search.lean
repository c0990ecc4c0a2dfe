import ScopedSignatures.Namespace.Enclosing
import ScopedSignatures.QualifiedName.Basic

/-!
# Search

How a name that is used in a scope turns into keys to look for. The outward
search reads a relative name in the scope, then in each namespace around it, and
takes the first key that something is found at. The direct search reads the name
in the scope alone. Neither knows what is stored: both are given a probe, which
says what there is at a key.

## Main definitions

* `Search.Trail` — the keys that a search tried, and what it found
* `Search.tryInOrder` — tries keys until something is found
* `Search.outwardKeys`, `Search.outward` — the outward search
* `Search.directKey`, `Search.direct` — the direct search

## Main results

* `Search.found_tryInOrder` — the first key at which there is something decides
* `Search.tried_tryInOrder` — nothing is tried after that
* `Search.head?_outwardKeys` — both searches begin with the same key
-/

namespace ScopedSignatures.Search

/-- The keys that a search tried, in order, and what it found at the last of them. -/
structure Trail (κ δ : Type) where
  tried : List κ
  found : Option δ
  deriving DecidableEq, Repr

section Order

variable {κ δ : Type}

/-- Tries keys in order until something is found. -/
def tryInOrder (probe : κ → Option δ) : List κ → Trail κ δ
  | [] => ⟨[], none⟩
  | key :: keys =>
    match probe key with
    | some value => ⟨[key], some value⟩
    | none => ⟨key :: (tryInOrder probe keys).tried, (tryInOrder probe keys).found⟩

/-- The first key at which there is something decides. -/
theorem found_tryInOrder (probe : κ → Option δ) (keys : List κ) :
    (tryInOrder probe keys).found = keys.findSome? probe := by
  induction keys with
  | nil => rfl
  | cons key keys ih =>
    rw [tryInOrder, List.findSome?_cons]
    cases probe key with
    | some value => rfl
    | none => exact ih

/-- The keys tried are those before the first hit, and the hit. -/
theorem tried_tryInOrder (probe : κ → Option δ) (keys : List κ) :
    (tryInOrder probe keys).tried =
      keys.take ((keys.takeWhile fun key => (probe key).isNone).length + 1) := by
  induction keys with
  | nil => rfl
  | cons key keys ih =>
    rw [tryInOrder]
    cases h : probe key with
    | some value => simp [h]
    | none => simp [h, ih]

end Order

variable {vocabulary : Vocabulary} {δ : Type}

/-- The keys of the outward search, the innermost first. An absolute name is its own key. -/
def outwardKeys (name : QualifiedName vocabulary) (scope : Namespace) :
    List (QualifiedName vocabulary) :=
  if name.isAbsolute then [name] else scope.anchored.enclosing.map (·.qualify name)

/-- The outward search for a name used in a scope. -/
def outward (probe : QualifiedName vocabulary → Option δ) (name : QualifiedName vocabulary)
    (scope : Namespace) : Trail (QualifiedName vocabulary) δ :=
  tryInOrder probe (outwardKeys name scope)

/-- The one key of the direct search: the name read in the scope, at the root. -/
def directKey (name : QualifiedName vocabulary) (scope : Namespace) : QualifiedName vocabulary :=
  (scope.qualify name).anchored

/-- The direct search for a name used in a scope. -/
def direct (probe : QualifiedName vocabulary → Option δ) (name : QualifiedName vocabulary)
    (scope : Namespace) : Trail (QualifiedName vocabulary) δ :=
  tryInOrder probe [directKey name scope]

/-- Both searches begin with the same key. -/
theorem head?_outwardKeys (name : QualifiedName vocabulary) (scope : Namespace) :
    (outwardKeys name scope).head? = some (directKey name scope) := by
  rcases name with ⟨⟨segments, anchor⟩, last⟩
  cases anchor with
  | absolute => rfl
  | relative =>
    have htake : scope.anchored.take scope.anchored.depth = scope.anchored := by
      simp [Namespace.take, Namespace.depth]
    simp only [outwardKeys, QualifiedName.isAbsolute, Namespace.isAbsolute, Namespace.enclosing,
      Namespace.outermost, List.map_cons, htake, directKey]
    rw [if_neg (by decide), List.head?_cons, Namespace.qualify_of_isRelative rfl,
      Namespace.qualify_of_isRelative rfl]
    rfl

end ScopedSignatures.Search
