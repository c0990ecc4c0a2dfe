import ScopedSignatures.Namespace.Basic

/-!
# The order of namespaces

Namespaces are ordered by their segments, lexicographically, and then by their
anchor, the relative one first. So a namespace comes before everything nested in
it, whatever the anchors. Only equal namespaces compare as equal, which lets the
order serve as a key order.
-/

namespace ScopedSignatures.Namespace

instance instOrdNamespace : Ord Namespace :=
  ⟨compareLex (compareOn segments) (compareOn isAbsolute)⟩

instance instTransOrdNamespace : Std.TransOrd Namespace :=
  inferInstanceAs (Std.TransCmp (compareLex (compareOn segments) (compareOn isAbsolute)))

/-- Paths with the same segments and the same anchor are the same path. -/
theorem eq_of_segments_of_isAbsolute {first second : Namespace}
    (hsegments : first.segments = second.segments)
    (hanchor : first.isAbsolute = second.isAbsolute) : first = second := by
  rcases first with ⟨segments, anchor⟩
  rcases second with ⟨segments', anchor'⟩
  cases anchor <;> cases anchor' <;> simp_all [isAbsolute]

instance instLawfulEqOrdNamespace : Std.LawfulEqOrd Namespace where
  eq_of_compare {first second} h := by
    obtain ⟨hsegments, hanchor⟩ := Ordering.then_eq_eq.1 h
    exact eq_of_segments_of_isAbsolute (Std.LawfulEqOrd.eq_of_compare hsegments)
      (Std.LawfulEqOrd.eq_of_compare hanchor)

end ScopedSignatures.Namespace
