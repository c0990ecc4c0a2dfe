import ScopedSignatures.Namespace.Basic

/-!
# Qualified names

A qualified name is a last segment together with the namespace that qualifies
it. Three vocabularies share this form: modules (with classes and constants),
interfaces and type aliases. The vocabulary is part of the type, so a name of
one is never taken for a name of another.

## Main definitions

* `Vocabulary` — the three kinds of names
* `QualifiedName` — a qualifying namespace and a last segment
* `Namespace.qualify` — a name read inside a namespace
* `QualifiedName.anchored` — the name read at the root
* `ModuleName.toNamespace` — the scope of a module's body

## Main results

* `Namespace.qualify_of_isAbsolute` — an absolute name is read the same everywhere
* `QualifiedName.anchored_eq_qualify` — anchoring is reading at the root
-/

namespace ScopedSignatures

/-- What a name can stand for. -/
inductive Vocabulary where
  /-- Classes, modules and constants. -/
  | moduleLike
  | interface
  | typeAlias
  deriving DecidableEq, Repr

/-- A last segment and the namespace that qualifies it. Equality is structural:
names that are written alike may still differ in where their segments end. -/
@[ext]
structure QualifiedName (vocabulary : Vocabulary) where
  qualifier : Namespace
  last : Symbol
  deriving DecidableEq, Repr

/-- The name of a class, a module or a constant. -/
abbrev ModuleName := QualifiedName .moduleLike

/-- The name of an interface. -/
abbrev InterfaceName := QualifiedName .interface

/-- The name of a type alias. -/
abbrev AliasName := QualifiedName .typeAlias

variable {vocabulary : Vocabulary}

/-- A name read inside a scope. An absolute name stays as it is. -/
def Namespace.qualify (scope : Namespace) (name : QualifiedName vocabulary) :
    QualifiedName vocabulary :=
  match name.qualifier.anchor with
  | .absolute => name
  | .relative => ⟨scope ++ name.qualifier, name.last⟩

namespace QualifiedName

variable {name : QualifiedName vocabulary}

/-- Whether the name starts at the root. -/
def isAbsolute (name : QualifiedName vocabulary) : Bool := name.qualifier.isAbsolute

/-- Whether the name starts wherever it is read. -/
def isRelative (name : QualifiedName vocabulary) : Bool := name.qualifier.isRelative

/-- The same segments, starting at the root. -/
def anchored (name : QualifiedName vocabulary) : QualifiedName vocabulary :=
  ⟨name.qualifier.anchored, name.last⟩

@[simp] theorem isAbsolute_anchored (name : QualifiedName vocabulary) :
    name.anchored.isAbsolute = true := rfl

@[simp] theorem anchored_anchored (name : QualifiedName vocabulary) :
    name.anchored.anchored = name.anchored := rfl

/-- Anchoring changes nothing exactly on absolute names. -/
theorem anchored_eq_self_iff : name.anchored = name ↔ name.isAbsolute = true := by
  rcases name with ⟨⟨segments, anchor⟩, last⟩
  cases anchor <;> simp [anchored, isAbsolute, Namespace.anchored, Namespace.isAbsolute]

end QualifiedName

namespace Namespace

variable {scope : Namespace} {name : QualifiedName vocabulary}

/-- An absolute name is read the same everywhere. -/
theorem qualify_of_isAbsolute (h : name.qualifier.anchor = .absolute) :
    scope.qualify name = name := by
  rw [qualify, h]

/-- A relative name takes the segments and the anchor of the scope it is read in. -/
theorem qualify_of_isRelative (h : name.qualifier.anchor = .relative) :
    scope.qualify name =
      ⟨⟨scope.segments ++ name.qualifier.segments, scope.anchor⟩, name.last⟩ := by
  rw [qualify, h]
  exact congrArg (QualifiedName.mk · name.last) (append_of_isRelative h)

end Namespace

/-- Anchoring is reading at the root. -/
theorem QualifiedName.anchored_eq_qualify (name : QualifiedName vocabulary) :
    name.anchored = Namespace.root.qualify name := by
  rcases name with ⟨⟨segments, anchor⟩, last⟩
  cases anchor
  · rw [Namespace.qualify_of_isRelative rfl]
    rfl
  · rfl

/-- The namespace that a module's name denotes: the scope of its body. -/
def ModuleName.toNamespace (name : ModuleName) : Namespace := name.qualifier.push name.last

/-- Whether an interface's name follows the custom of starting with an underscore. -/
def InterfaceName.isCustomary (name : InterfaceName) : Bool := Symbol.beginsWith name.last '_'

end ScopedSignatures
