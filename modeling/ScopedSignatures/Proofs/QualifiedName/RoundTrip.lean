import ScopedSignatures.Proofs.Namespace.Grammar
import ScopedSignatures.Proofs.QualifiedName.Reading

/-!
# Reading back what was written

A path or a name that was built rather than read may hold segments that no text
denotes. Its text is then read as something else or not at all: reading gives
well-formed values only, so no value that is not well formed can come back. Those
that are well formed all come back.

## Main results

* `Namespace.parse_toString_iff`, `QualifiedName.parse_toString_iff` — what comes back
* `QualifiedName.comes_back_iff_wellFormed` — paths and names of every vocabulary, and what
  happens to the others
-/

namespace ScopedSignatures

/-- Where every result is well formed, a value that is not is missed: there is an
error in its place, or another value. -/
theorem missed_of_not_wellFormed {ε α : Type} {result : Except ε α} {WellFormed : α → Prop}
    (hresult : ∀ found, result = .ok found → WellFormed found) {value : α}
    (h : ¬ WellFormed value) :
    (∃ error, result = .error error) ∨
      ∃ other, result = .ok other ∧ WellFormed other ∧ other ≠ value := by
  cases result with
  | error error => exact Or.inl ⟨error, rfl⟩
  | ok other =>
    have hother := hresult other rfl
    refine Or.inr ⟨other, rfl, hother, ?_⟩
    rintro rfl
    exact h hother

namespace Namespace

variable {ns : Namespace}

theorem wellFormed_of_parse {input : String} (h : parse input = .ok ns) : ns.WellFormed :=
  (parse_eq_ok_iff.1 h).1

/-- Exactly the well-formed paths are read back from their text. -/
theorem parse_toString_iff : parse ns.toString = .ok ns ↔ ns.WellFormed := by
  constructor
  · exact wellFormed_of_parse
  · intro hwell
    exact parse_eq_ok_iff.2 ⟨hwell, Or.inl rfl⟩

end Namespace

namespace QualifiedName

variable {vocabulary : Vocabulary} {name : QualifiedName vocabulary}

theorem wellFormed_of_parse {input : String} (h : parse input = .ok name) : name.WellFormed :=
  (parse_eq_ok_iff.1 h).1

/-- Exactly the well-formed names are read back from their text. -/
theorem parse_toString_iff : parse name.toString = .ok name ↔ name.WellFormed := by
  constructor
  · exact wellFormed_of_parse
  · intro hwell
    exact parse_eq_ok_iff.2 ⟨hwell, Or.inl rfl⟩

/-- **What comes back is what is well formed.** A path is read back from its text
exactly if each of its segments is non-empty and has no colon, and so is a name,
whose last segment counts as well. The text of any other path or name is refused
or is read as a different one, which is well formed. -/
theorem comes_back_iff_wellFormed (vocabulary : Vocabulary) :
    (∀ ns : Namespace, Namespace.parse ns.toString = .ok ns ↔
      ∀ segment ∈ ns.segments, segment ≠ "" ∧ ':' ∉ segment.toList) ∧
    (∀ name : QualifiedName vocabulary, parse name.toString = .ok name ↔
      (∀ segment ∈ name.qualifier.segments, segment ≠ "" ∧ ':' ∉ segment.toList) ∧
        name.last ≠ "" ∧ ':' ∉ name.last.toList) ∧
    (∀ ns : Namespace, ¬ ns.WellFormed →
      (∃ error, Namespace.parse ns.toString = .error error) ∨
        ∃ other, Namespace.parse ns.toString = .ok other ∧ other.WellFormed ∧ other ≠ ns) ∧
    ∀ name : QualifiedName vocabulary, ¬ name.WellFormed →
      (∃ error, (parse name.toString : Except NameError (QualifiedName vocabulary)) =
        .error error) ∨
        ∃ other : QualifiedName vocabulary,
          parse name.toString = .ok other ∧ other.WellFormed ∧ other ≠ name := by
  have hsegment : ∀ segment : String,
      Separator.IsSegment segment.toList ↔ segment ≠ "" ∧ ':' ∉ segment.toList := by
    intro segment
    rw [Separator.IsSegment, ne_eq, String.toList_eq_nil_iff]
  refine ⟨fun ns => ?_, fun name => ?_, fun ns h => ?_, fun name h => ?_⟩
  · rw [Namespace.parse_toString_iff]
    simp only [Namespace.WellFormed, hsegment]
  · rw [parse_toString_iff]
    simp only [WellFormed, Namespace.WellFormed, hsegment]
  · exact missed_of_not_wellFormed (fun _ => Namespace.wellFormed_of_parse) h
  · exact missed_of_not_wellFormed (fun _ => wellFormed_of_parse) h

/-- A name that comes back, and a path of one empty segment that does not: its
text is that of the path without segments. -/
theorem name_comes_back_empty_segment_does_not :
    (parse "::a::B" : Except NameError ModuleName) = .ok ⟨⟨["a"], .absolute⟩, "B"⟩ ∧
      ∃ other, Namespace.parse (⟨[""], .relative⟩ : Namespace).toString = .ok other ∧
        other.WellFormed ∧ other ≠ ⟨[""], .relative⟩ := by
  obtain ⟨-, hname, hpath, -⟩ := comes_back_iff_wellFormed .moduleLike
  constructor
  · exact (hname ⟨⟨["a"], .absolute⟩, "B"⟩).2 (by decide)
  · rcases hpath ⟨[""], .relative⟩ (by decide) with ⟨error, herror⟩ | hother
    · cases herror
    · exact hother

end QualifiedName

end ScopedSignatures
