import ScopedSignatures.NameError
import ScopedSignatures.Namespace.Basic

/-!
# Edits of a namespace

A namespace that is worked on step by step. A step may be impossible (a path
without segments has no parent) or may never have been understood (the text of
its other path is malformed); either way the path stays as it was.

## Main definitions

* `Namespace.Edit` — the steps
* `Namespace.edit?` — the path after one step
* `Namespace.Outcome` — what is reported about a step
* `Namespace.outcomes` — the reports of a row of steps
-/

namespace ScopedSignatures.Namespace

/-- One step on a namespace. -/
inductive Edit where
  /-- Adds an innermost segment. -/
  | push (segment : Symbol)
  /-- Reads another path inside the present one. -/
  | extend (inner : Namespace)
  /-- Reads the present path inside another one. -/
  | nest (outer : Namespace)
  /-- Leaves the innermost segment. -/
  | leave
  | anchor
  | unanchor
  | toRoot
  | toEmpty
  deriving DecidableEq, Repr

/-- The path after a step. Only leaving a path without segments is impossible. -/
def edit? (ns : Namespace) : Edit → Option Namespace
  | .push segment => some (ns.push segment)
  | .extend inner => some (ns ++ inner)
  | .nest outer => some (outer ++ ns)
  | .leave => ns.parent?
  | .anchor => some ns.anchored
  | .unanchor => some ns.unanchored
  | .toRoot => some root
  | .toEmpty => some empty

/-- What is reported about one step. -/
inductive Outcome where
  /-- The path after the step, and whether it is another one than before. -/
  | now (ns : Namespace) (changed : Bool)
  /-- The step is impossible here. -/
  | impossible
  /-- The step names a malformed path. -/
  | malformed (error : NameError)
  deriving DecidableEq, Repr

/-- The reports of a row of steps, each applied to the path that the ones before it left. -/
def outcomes (ns : Namespace) : List (Except NameError Edit) → List Outcome
  | [] => []
  | .error error :: rest => .malformed error :: outcomes ns rest
  | .ok step :: rest =>
    match ns.edit? step with
    | none => .impossible :: outcomes ns rest
    | some next => .now next (next != ns) :: outcomes next rest

end ScopedSignatures.Namespace
