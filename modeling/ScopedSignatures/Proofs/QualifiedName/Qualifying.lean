import ScopedSignatures.Proofs.QualifiedName.Action
import ScopedSignatures.Proofs.QualifiedName.Body
import ScopedSignatures.Proofs.QualifiedName.RoundTrip

/-!
# Qualifying on paper

A relative path or name can be qualified before it is written or afterwards: the text
of the qualified one is the text of the scope, a separator, and the text of what is
qualified. Only a scope without segments is written differently: the root is nothing but
a separator, so no second one follows it, and the empty path is not written at all. The
texts agree whatever the segments are; that the qualified path or name is read back from
them is a matter of the segments alone.

## Main results

* `Namespace.toString_append`, `QualifiedName.toString_qualify` — behind a scope with segments
* `Namespace.toString_root_append`, `QualifiedName.toString_root_qualify` — at the root
* `Namespace.wellFormed_append_iff`, `QualifiedName.wellFormed_qualify_iff` — what can be read
* `QualifiedName.qualifying_is_writing_in_front` — qualified texts, read
-/

namespace ScopedSignatures

namespace Namespace

variable {outer inner : Namespace}

/-- A relative path is written in a scope behind the text of the scope and a separator. -/
theorem toString_append (h : inner.isRelative = true) (houter : outer.segments ≠ [])
    (hinner : inner.segments ≠ []) :
    (outer ++ inner).toString = outer.toString ++ Separator.text ++ inner.toString := by
  have hanchor := isRelative_iff.1 h
  rw [append_of_isRelative hanchor, Namespace.toString, Namespace.toString, Namespace.toString,
    hanchor, String.intercalate_append_of_ne_nil houter hinner]
  simp only [Anchor.text, String.empty_append, String.append_assoc]

/-- At the root a relative path has only its anchor in front, also if it has no segments. -/
theorem toString_root_append (h : inner.isRelative = true) :
    (root ++ inner).toString = Separator.text ++ inner.toString := by
  have hanchor := isRelative_iff.1 h
  rw [append_of_isRelative hanchor, Namespace.toString, Namespace.toString, hanchor]
  simp only [root, List.nil_append, Anchor.text, String.empty_append]

theorem wellFormed_append_iff (h : inner.isRelative = true) :
    (outer ++ inner).WellFormed ↔ outer.WellFormed ∧ inner.WellFormed := by
  rw [WellFormed, append_of_isRelative (isRelative_iff.1 h)]
  exact List.forall_mem_append

theorem wellFormed_root : root.WellFormed := fun _ hmem => absurd hmem List.not_mem_nil

/-- The text of a path behind that of a scope is read as the path in the scope exactly
if both can be read. -/
theorem parse_append_iff (h : inner.isRelative = true) (houter : outer.segments ≠ [])
    (hinner : inner.segments ≠ []) :
    parse (outer.toString ++ Separator.text ++ inner.toString) = .ok (outer ++ inner) ↔
      outer.WellFormed ∧ inner.WellFormed := by
  rw [← toString_append h houter hinner, parse_toString_iff, wellFormed_append_iff h]

theorem parse_root_append_iff (h : inner.isRelative = true) :
    parse (Separator.text ++ inner.toString) = .ok (root ++ inner) ↔ inner.WellFormed := by
  rw [← toString_root_append h, parse_toString_iff, wellFormed_append_iff h]
  exact and_iff_right wellFormed_root

end Namespace

namespace QualifiedName

variable {vocabulary : Vocabulary} {name : QualifiedName vocabulary} {scope : Namespace}

/-- The path that the last segment of a qualified name completes, in terms of the scope. -/
theorem push_qualify (scope : Namespace) (name : QualifiedName vocabulary) :
    (scope.qualify name).qualifier.push (scope.qualify name).last =
      scope ++ name.qualifier.push name.last := by
  rw [Namespace.qualify_eq, Namespace.append_push]

/-- A relative name is written in a scope behind the text of the scope and a separator. -/
theorem toString_qualify (h : name.isRelative = true) (hscope : scope.segments ≠ []) :
    (scope.qualify name).toString = scope.toString ++ Separator.text ++ name.toString := by
  have hlast : (name.qualifier.push name.last).segments ≠ [] :=
    List.append_ne_nil_of_right_ne_nil _ (List.cons_ne_nil _ _)
  rw [toString_eq_push, push_qualify, toString_eq_push name]
  exact Namespace.toString_append h hscope hlast

theorem toString_root_qualify (h : name.isRelative = true) :
    (Namespace.root.qualify name).toString = Separator.text ++ name.toString := by
  rw [toString_eq_push, push_qualify, toString_eq_push name]
  exact Namespace.toString_root_append h

theorem wellFormed_qualify_iff (h : name.isRelative = true) :
    (scope.qualify name).WellFormed ↔ scope.WellFormed ∧ name.WellFormed := by
  rw [Namespace.qualify_eq, WellFormed, WellFormed, Namespace.wellFormed_append_iff h, and_assoc]

/-- The text of a name behind that of a scope is read as the name in the scope exactly
if both can be read. -/
theorem parse_qualify_iff (h : name.isRelative = true) (hscope : scope.segments ≠ []) :
    parse (scope.toString ++ Separator.text ++ name.toString) = .ok (scope.qualify name) ↔
      scope.WellFormed ∧ name.WellFormed := by
  rw [← toString_qualify h hscope, parse_toString_iff, wellFormed_qualify_iff h]

theorem parse_root_qualify_iff (h : name.isRelative = true) :
    parse (Separator.text ++ name.toString) = .ok (Namespace.root.qualify name) ↔
      name.WellFormed := by
  rw [← toString_root_qualify h, parse_toString_iff, wellFormed_qualify_iff h]
  exact and_iff_right Namespace.wellFormed_root

/-- **Qualifying is writing in front.** Take a relative path or name, write it behind
the text of a scope that has segments, with a separator between, or behind a separator
alone. What is written so is read as the path or the name, qualified by the scope or by
the root, exactly if every segment in it is non-empty and has no colon. -/
theorem qualifying_is_writing_in_front (vocabulary : Vocabulary) :
    (∀ outer inner : Namespace, outer.segments ≠ [] → inner.isRelative = true →
      inner.segments ≠ [] →
        (Namespace.parse (outer.toString ++ Separator.text ++ inner.toString) =
          .ok (outer ++ inner) ↔ outer.WellFormed ∧ inner.WellFormed)) ∧
    (∀ (outer : Namespace) (name : QualifiedName vocabulary), outer.segments ≠ [] →
      name.isRelative = true →
        (parse (outer.toString ++ Separator.text ++ name.toString) = .ok (outer.qualify name) ↔
          outer.WellFormed ∧ name.WellFormed)) ∧
    (∀ inner : Namespace, inner.isRelative = true →
      (Namespace.parse (Separator.text ++ inner.toString) = .ok (Namespace.root ++ inner) ↔
        inner.WellFormed)) ∧
    ∀ name : QualifiedName vocabulary, name.isRelative = true →
      (parse (Separator.text ++ name.toString) = .ok (Namespace.root.qualify name) ↔
        name.WellFormed) := by
  refine ⟨fun outer inner houter hrelative hinner => ?_, fun outer name houter hrelative => ?_,
    fun inner hrelative => ?_, fun name hrelative => ?_⟩
  · exact Namespace.parse_append_iff hrelative houter hinner
  · exact parse_qualify_iff hrelative houter
  · exact Namespace.parse_root_append_iff hrelative
  · exact parse_root_qualify_iff hrelative

/-- Two paths and a name, written one behind the other, and a name behind a separator. -/
theorem written_behind_scope :
    Namespace.parse "::a::b::c" = .ok ⟨["a", "b", "c"], .absolute⟩ ∧
      parse "::a::b::C" = .ok (⟨⟨["a", "b"], .absolute⟩, "C"⟩ : ModuleName) ∧
      Namespace.parse "::b" = .ok ⟨["b"], .absolute⟩ ∧
      parse "::b::C" = .ok (⟨⟨["b"], .absolute⟩, "C"⟩ : ModuleName) := by
  obtain ⟨hpath, hname, hroot, hanchored⟩ := qualifying_is_writing_in_front .moduleLike
  refine ⟨?_, ?_, ?_, ?_⟩
  · exact (hpath ⟨["a"], .absolute⟩ ⟨["b", "c"], .relative⟩ (by decide) (by decide)
      (by decide)).2 (by decide)
  · exact (hname ⟨["a"], .absolute⟩ ⟨⟨["b"], .relative⟩, "C"⟩ (by decide) (by decide)).2 (by decide)
  · exact (hroot ⟨["b"], .relative⟩ (by decide)).2 (by decide)
  · exact (hanchored ⟨⟨["b"], .relative⟩, "C"⟩ (by decide)).2 (by decide)

end QualifiedName

end ScopedSignatures
