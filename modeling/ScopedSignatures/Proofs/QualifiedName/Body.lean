import Mathlib.Data.Set.Function
import ScopedSignatures.Proofs.Namespace.Grammar
import ScopedSignatures.Proofs.QualifiedName.Reading

/-!
# Module names and the scopes of their bodies

The name of a module and the scope of its body hold the same segments; the name sets
the last one apart. Nothing is lost on the way from one to the other, whatever the
segments are, so module names are as good as paths that have segments. They are also
written alike, although a name is written with a separator behind each qualifying
segment and a path with one between neighbours.

## Main results

* `QualifiedName.toString_eq_push` — a name is written as the path with its last segment pushed
* `Namespace.exists_parent?_of_ne_nil` — a path with segments is a parent and a last segment
* `ModuleName.bijOn_toNamespace` — each path with segments is the scope of one module's body
* `ModuleName.names_are_paths_with_segments` — texts, parents and last segments as well
-/

namespace ScopedSignatures

variable {vocabulary : Vocabulary}

/-- The text of a name is that of the path that its last segment completes. -/
theorem QualifiedName.toString_eq_push (name : QualifiedName vocabulary) :
    name.toString = (name.qualifier.push name.last).toString := by
  apply String.toList_inj.1
  rw [toList_toString, Namespace.toList_toString, Namespace.push, List.map_append,
    List.map_singleton]

namespace Namespace

variable {ns : Namespace}

/-- Only the root and the empty path have no parent. -/
theorem parent?_eq_none_iff_root_or_empty : ns.parent? = none ↔ ns = root ∨ ns = empty := by
  rw [parent?_eq_none_iff]
  rcases ns with ⟨segments, anchor⟩
  constructor
  · intro hnil
    cases anchor with
    | absolute => exact Or.inl (Namespace.ext hnil rfl)
    | relative => exact Or.inr (Namespace.ext hnil rfl)
  · rintro (hroot | hempty)
    · exact congrArg Namespace.segments hroot
    · exact congrArg Namespace.segments hempty

/-- A path with segments is a parent with a last segment pushed. -/
theorem exists_parent?_of_ne_nil (h : ns.segments ≠ []) :
    ∃ parent last, ns.parent? = some parent ∧ ns.last? = some last ∧ parent.push last = ns := by
  have hparent : ns.parent? ≠ none := mt parent?_eq_none_iff.1 h
  have hlast : ns.last? ≠ none := mt List.getLast?_eq_none_iff.1 h
  obtain ⟨parent, hparent⟩ := Option.ne_none_iff_exists'.1 hparent
  obtain ⟨last, hlast⟩ := Option.ne_none_iff_exists'.1 hlast
  exact ⟨parent, last, hparent, hlast, push_parent? hparent hlast⟩

end Namespace

namespace ModuleName

theorem parent?_toNamespace (name : ModuleName) :
    name.toNamespace.parent? = some name.qualifier :=
  Namespace.parent?_push name.qualifier name.last

theorem last?_toNamespace (name : ModuleName) : name.toNamespace.last? = some name.last :=
  Namespace.last?_push name.qualifier name.last

/-- A name is made up of the parent and the last segment of its body's scope. -/
theorem toNamespace_injective : Function.Injective ModuleName.toNamespace := by
  intro first second hsame
  have hqualifier := congrArg Namespace.parent? hsame
  have hlast := congrArg Namespace.last? hsame
  rw [parent?_toNamespace, parent?_toNamespace, Option.some.injEq] at hqualifier
  rw [last?_toNamespace, last?_toNamespace, Option.some.injEq] at hlast
  exact QualifiedName.ext hqualifier hlast

/-- Each path with segments is the scope of exactly one module's body. -/
theorem bijOn_toNamespace :
    Set.BijOn ModuleName.toNamespace Set.univ {ns | ns.segments ≠ []} := by
  refine ⟨fun name _ => ?_, toNamespace_injective.injOn, fun ns hsegments => ?_⟩
  · exact List.append_ne_nil_of_right_ne_nil _ (List.cons_ne_nil _ _)
  · obtain ⟨parent, last, -, -, hpush⟩ := Namespace.exists_parent?_of_ne_nil hsegments
    exact ⟨⟨parent, last⟩, Set.mem_univ _, hpush⟩

/-- **Module names are paths with segments.** The name of a module and the scope of
its body have the same text and the same anchor, and the scope has the name's qualifier
as its parent and the name's last segment as its own. Conversely a path with segments
is the scope of the body of the module that is named by its parent and its last
segment. The root and the empty path alone have no parent, and they are the only
paths that are not the scope of a module's body. -/
theorem names_are_paths_with_segments :
    (∀ name : ModuleName, name.toString = name.toNamespace.toString ∧
      name.toNamespace.anchor = name.qualifier.anchor ∧
      name.toNamespace.parent? = some name.qualifier ∧
      name.toNamespace.last? = some name.last) ∧
    (∀ ns : Namespace, ns.segments ≠ [] →
      ∃ parent last, ns.parent? = some parent ∧ ns.last? = some last ∧
        ModuleName.toNamespace ⟨parent, last⟩ = ns) ∧
    (∀ ns : Namespace, ns.parent? = none ↔ ns = .root ∨ ns = .empty) ∧
    Set.BijOn ModuleName.toNamespace Set.univ {ns | ns.segments ≠ []} := by
  refine ⟨fun name => ⟨name.toString_eq_push, rfl, name.parent?_toNamespace,
    name.last?_toNamespace⟩, fun ns hsegments => ?_, fun ns => ?_, bijOn_toNamespace⟩
  · exact Namespace.exists_parent?_of_ne_nil hsegments
  · exact Namespace.parent?_eq_none_iff_root_or_empty

/-- A path that no text denotes, since one segment has a separator in it and one is empty. -/
theorem unreadable_path_is_body :
    Namespace.segments ⟨["a::b", ""], .relative⟩ ≠ [] ∧
      ∃ parent last, Namespace.parent? ⟨["a::b", ""], .relative⟩ = some parent ∧
        Namespace.last? ⟨["a::b", ""], .relative⟩ = some last ∧
        ModuleName.toNamespace ⟨parent, last⟩ = ⟨["a::b", ""], .relative⟩ := by
  obtain ⟨-, hbody, -⟩ := names_are_paths_with_segments
  exact ⟨List.cons_ne_nil _ _, hbody ⟨["a::b", ""], .relative⟩ (List.cons_ne_nil _ _)⟩

end ModuleName

end ScopedSignatures
