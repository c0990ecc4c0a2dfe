import ScopedSignatures.Proofs.Search.Outward

/-!
# Names on the path of a key

An absolute key can be written as a whole in every scope. In a namespace on its
path, one that the key begins with, it can be written as the segments that are
left. Either way the key is the first that a search tries, so nothing that stands
at another key can get in the way.

## Main definitions

* `Search.OnPath` — a name and a scope that spell a key out

## Main results

* `Search.OnPath.directKey_eq` — the first key tried is the one that is spelled out
* `Search.found_outward_of_directKey` — what stands there is found
-/

namespace ScopedSignatures.Search

variable {vocabulary : Vocabulary} {δ : Type} {probe : QualifiedName vocabulary → Option δ}
  {key name : QualifiedName vocabulary} {scope : Namespace} {value : δ}

/-- The name, used in the scope, spells the key out: it is the whole key, or it is
what the key has behind the segments of the scope. -/
inductive OnPath (key : QualifiedName vocabulary) :
    QualifiedName vocabulary → Namespace → Prop where
  | whole (scope : Namespace) : OnPath key key scope
  | behind {outer inner : List Symbol} (h : key.qualifier.segments = outer ++ inner)
      (anchor : Anchor) : OnPath key ⟨⟨inner, .relative⟩, key.last⟩ ⟨outer, anchor⟩

/-- A name that spells an absolute key out is read as that key. -/
theorem OnPath.directKey_eq (h : OnPath key name scope) (habsolute : key.isAbsolute = true) :
    directKey name scope = key := by
  cases h with
  | whole => exact directKey_of_isAbsolute habsolute scope
  | @behind outer inner hsegments anchor =>
    rw [directKey, Namespace.qualify_of_isRelative rfl]
    calc QualifiedName.anchored ⟨⟨outer ++ inner, anchor⟩, key.last⟩
        = key.anchored := by
          rw [← hsegments]
          rfl
      _ = key := QualifiedName.anchored_eq_self_iff.2 habsolute

/-- What stands at a declared name, read at the root, stands at the first key that is
tried for a name that spells it out. -/
theorem OnPath.probe_directKey (h : OnPath key name scope) (declared : QualifiedName vocabulary)
    (hkey : key = declared.anchored) (hfound : probe key = some value) :
    probe (directKey name scope) = some value := by
  rw [h.directKey_eq (hkey ▸ declared.isAbsolute_anchored), hfound]

/-- The outward search begins with the key of the direct search. -/
theorem found_outward_of_directKey (h : probe (directKey name scope) = some value) :
    (outward probe name scope).found = some value := by
  obtain ⟨further, hkeys⟩ := List.head?_eq_some_iff.1 (head?_outwardKeys name scope)
  rw [outward, found_tryInOrder, hkeys, List.findSome?_cons, h]

end ScopedSignatures.Search
