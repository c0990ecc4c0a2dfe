import ScopedSignatures.QualifiedName.Basic

/-!
# Namespaces acting on names

Reading paths inside paths is associative, and the empty relative path changes
nothing on either side, so namespaces form a monoid. Qualification is written with
a shortcut for absolute names, but it is the same join under every anchor; hence
it is an action of that monoid on names. Anchoring is the action of the root, and
the scope of a module's body moves along with the module's name.

## Main results

* `Namespace.append_assoc`, `Namespace.empty_append`, `Namespace.append_empty` — the monoid
* `Namespace.qualify_eq` — qualifying a name joins the scope and the name's qualifier
* `Namespace.qualify_qualify` — qualifying twice is qualifying by the join
* `Namespace.namespaces_act_on_names` — all laws together
-/

namespace ScopedSignatures.Namespace

variable {vocabulary : Vocabulary}

@[simp] theorem append_empty (ns : Namespace) : ns ++ empty = ns := by
  rw [append_of_isRelative rfl, empty, List.append_nil]

@[simp] theorem empty_append (ns : Namespace) : empty ++ ns = ns := by
  rcases ns with ⟨segments, anchor⟩
  cases anchor with
  | absolute => exact append_of_isAbsolute rfl
  | relative => exact append_of_isRelative rfl

/-- Joining is associative: an absolute part cuts off all that is in front of it, however that
is grouped. -/
theorem append_assoc (outer middle inner : Namespace) :
    outer ++ (middle ++ inner) = outer ++ middle ++ inner := by
  cases hinner : inner.anchor with
  | absolute =>
    rw [append_of_isAbsolute hinner, append_of_isAbsolute hinner, append_of_isAbsolute hinner]
  | relative =>
    rw [append_of_isRelative hinner, append_of_isRelative hinner]
    rcases middle with ⟨between, anchor⟩
    cases anchor with
    | absolute =>
      -- the middle path cuts the outer one off, whether the inner one was joined to it or not
      rw [append_of_isAbsolute rfl, append_of_isAbsolute rfl]
    | relative =>
      rw [append_of_isRelative rfl, append_of_isRelative rfl]
      exact Namespace.ext (List.append_assoc _ _ _).symm rfl

/-- Anchoring a path is reading it at the root. -/
theorem anchored_eq_append (ns : Namespace) : ns.anchored = root ++ ns := by
  rcases ns with ⟨segments, anchor⟩
  cases anchor with
  | absolute =>
    rw [append_of_isAbsolute rfl]
    rfl
  | relative =>
    rw [append_of_isRelative rfl]
    rfl

/-- An innermost segment may be added before or after a join. -/
theorem append_push (outer inner : Namespace) (segment : Symbol) :
    outer ++ inner.push segment = (outer ++ inner).push segment := by
  rcases inner with ⟨segments, anchor⟩
  cases anchor with
  | absolute => rw [append_of_isAbsolute rfl, append_of_isAbsolute rfl]
  | relative =>
    rw [append_of_isRelative rfl, append_of_isRelative rfl]
    exact Namespace.ext (List.append_assoc _ _ _).symm rfl

/-- The shortcut for absolute names agrees with the join: an absolute qualifier wins anyway. -/
theorem qualify_eq (scope : Namespace) (name : QualifiedName vocabulary) :
    scope.qualify name = ⟨scope ++ name.qualifier, name.last⟩ := by
  cases hanchor : name.qualifier.anchor with
  | absolute => rw [qualify_of_isAbsolute hanchor, append_of_isAbsolute hanchor]
  | relative => rw [qualify_of_isRelative hanchor, append_of_isRelative hanchor]

/-- A name that is read in an inner scope, which is read in an outer one. -/
theorem qualify_qualify (outer inner : Namespace) (name : QualifiedName vocabulary) :
    outer.qualify (inner.qualify name) = (outer ++ inner).qualify name := by
  rw [qualify_eq, qualify_eq, qualify_eq, append_assoc]

@[simp] theorem empty_qualify (name : QualifiedName vocabulary) : empty.qualify name = name := by
  rw [qualify_eq, empty_append]

/-- The body of a module that is read in a scope is its body, read in that scope. -/
theorem toNamespace_qualify (scope : Namespace) (name : ModuleName) :
    ModuleName.toNamespace (scope.qualify name) = scope ++ name.toNamespace := by
  rw [ModuleName.toNamespace, ModuleName.toNamespace, qualify_eq, append_push]

/-- **Namespaces act on names.** Whatever the anchors, joining paths is associative
and has the empty relative path as its identity on both sides; qualifying a name by
two scopes in turn is qualifying it by their join, and the empty path qualifies
nothing. Paths and names are anchored by reading them at the root, and the scope of
a module's body is qualified as the module's name is. -/
theorem namespaces_act_on_names (vocabulary : Vocabulary) :
    (∀ outer middle inner : Namespace, outer ++ (middle ++ inner) = outer ++ middle ++ inner) ∧
    (∀ ns : Namespace, empty ++ ns = ns ∧ ns ++ empty = ns) ∧
    (∀ (outer inner : Namespace) (name : QualifiedName vocabulary),
      outer.qualify (inner.qualify name) = (outer ++ inner).qualify name) ∧
    (∀ name : QualifiedName vocabulary, empty.qualify name = name) ∧
    (∀ ns : Namespace, ns.anchored = root ++ ns) ∧
    (∀ name : QualifiedName vocabulary, name.anchored = root.qualify name) ∧
    ∀ (outer : Namespace) (name : ModuleName),
      ModuleName.toNamespace (outer.qualify name) = outer ++ name.toNamespace := by
  refine ⟨append_assoc, fun ns => ⟨?_, ?_⟩, qualify_qualify, empty_qualify, anchored_eq_append,
    QualifiedName.anchored_eq_qualify, toNamespace_qualify⟩
  · exact empty_append ns
  · exact append_empty ns

end ScopedSignatures.Namespace
