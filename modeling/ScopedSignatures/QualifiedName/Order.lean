import ScopedSignatures.Namespace.Order
import ScopedSignatures.QualifiedName.Basic

/-!
# The order of qualified names

Names are ordered by their qualifying namespaces and then by their last
segments. Under anchored names this keeps what is declared in one namespace
together. Only equal names compare as equal.
-/

namespace ScopedSignatures.QualifiedName

variable {vocabulary : Vocabulary}

instance instOrdQualifiedName : Ord (QualifiedName vocabulary) :=
  ⟨compareLex (compareOn qualifier) (compareOn last)⟩

instance instTransOrdQualifiedName : Std.TransOrd (QualifiedName vocabulary) :=
  inferInstanceAs (Std.TransCmp (compareLex
    (compareOn fun name : QualifiedName vocabulary => name.qualifier) (compareOn last)))

instance instLawfulEqOrdQualifiedName : Std.LawfulEqOrd (QualifiedName vocabulary) where
  eq_of_compare {first second} h := by
    obtain ⟨hqualifier, hlast⟩ := Ordering.then_eq_eq.1 h
    exact QualifiedName.ext (Std.LawfulEqOrd.eq_of_compare hqualifier)
      (Std.LawfulEqOrd.eq_of_compare hlast)

end ScopedSignatures.QualifiedName
