import ScopedSignatures.NameError
import ScopedSignatures.QualifiedName.Basic

/-!
# Edits of a module name

A module name that is worked on step by step. Every step that is understood is
possible; one whose text is malformed leaves the name as it was.

## Main definitions

* `ModuleName.Edit` — the steps
* `ModuleName.edit` — the name after one step
* `ModuleName.Outcome`, `ModuleName.outcomes` — what is reported about a row of steps
-/

namespace ScopedSignatures.ModuleName

/-- One step on a module name. -/
inductive Edit where
  | anchor
  | unanchor
  /-- Reads the name inside a scope. -/
  | qualify (scope : Namespace)
  /-- Reads the name inside the parent of its own qualifier, at the root if there is none. -/
  | qualifyByParent
  /-- Goes to a name directly inside the module. -/
  | enter (last : Symbol)
  /-- Goes to another name, read inside the module. -/
  | enterName (name : ModuleName)
  /-- Puts another last segment. -/
  | rename (last : Symbol)
  deriving DecidableEq, Repr

/-- The name after a step. -/
def edit (name : ModuleName) : Edit → ModuleName
  | .anchor => name.anchored
  | .unanchor => ⟨name.qualifier.unanchored, name.last⟩
  | .qualify scope => scope.qualify name
  | .qualifyByParent => (name.qualifier.parent?.getD .root).qualify name
  | .enter last => ⟨name.toNamespace, last⟩
  | .enterName inner => name.toNamespace.qualify inner
  | .rename last => ⟨name.qualifier, last⟩

/-- What is reported about one step. -/
inductive Outcome where
  /-- The name after the step, and whether it is another one than before. -/
  | now (name : ModuleName) (changed : Bool)
  /-- The step names a malformed path or name. -/
  | malformed (error : NameError)
  deriving DecidableEq, Repr

/-- The reports of a row of steps, each applied to the name that the ones before it left. -/
def outcomes (name : ModuleName) : List (Except NameError Edit) → List Outcome
  | [] => []
  | .error error :: rest => .malformed error :: outcomes name rest
  | .ok step :: rest =>
    .now (name.edit step) (name.edit step != name) :: outcomes (name.edit step) rest

end ScopedSignatures.ModuleName
