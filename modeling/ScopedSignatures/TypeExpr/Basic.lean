import ScopedSignatures.QualifiedName.Basic

/-!
# Type expressions

The types that declarations carry. They are kept as they were written: names in
them are not resolved, unions are not flattened, and an empty list of arguments
is the same as none.

## Main definitions

* `BaseType` — the types that a keyword denotes
* `TypeExpr` — type expressions
* `TypeExpr.same` — structural equality, decided

## Main results

* `TypeExpr.same_iff` — `same` decides equality
-/

namespace ScopedSignatures

/-- The types that a keyword denotes. -/
inductive BaseType where
  | any
  | nil
  | bool
  | void
  | bottom
  | top
  | selfType
  | instanceType
  deriving DecidableEq, Repr

/-- A type as it is written in a signature. -/
inductive TypeExpr where
  | base (type : BaseType)
  | var (name : Symbol)
  | ofClass (name : ModuleName) (args : List TypeExpr)
  | singleton (name : ModuleName)
  | ofInterface (name : InterfaceName) (args : List TypeExpr)
  | ofAlias (name : AliasName)
  | union (members : List TypeExpr)
  | optional (inner : TypeExpr)
  | tuple (items : List TypeExpr)
  | proc (params : List TypeExpr) (result : TypeExpr)
  deriving Repr

namespace TypeExpr

instance : Inhabited TypeExpr := ⟨.base .any⟩

mutual

/-- Whether two type expressions are the same in every part. -/
def same : TypeExpr → TypeExpr → Bool
  | base type, base type' => type == type'
  | var name, var name' => name == name'
  | ofClass name args, ofClass name' args' => name == name' && sameAll args args'
  | singleton name, singleton name' => name == name'
  | ofInterface name args, ofInterface name' args' => name == name' && sameAll args args'
  | ofAlias name, ofAlias name' => name == name'
  | union members, union members' => sameAll members members'
  | optional inner, optional inner' => same inner inner'
  | tuple items, tuple items' => sameAll items items'
  | proc params result, proc params' result' => sameAll params params' && same result result'
  | _, _ => false

/-- Whether two lists hold the same type expressions in the same order. -/
def sameAll : List TypeExpr → List TypeExpr → Bool
  | [], [] => true
  | type :: types, type' :: types' => same type type' && sameAll types types'
  | _, _ => false

end

mutual

theorem same_iff : (first second : TypeExpr) → (same first second = true ↔ first = second)
  | base _, second => by cases second <;> simp [same]
  | var _, second => by cases second <;> simp [same]
  | ofClass _ args, second => by cases second <;> simp [same, sameAll_iff args]
  | singleton _, second => by cases second <;> simp [same]
  | ofInterface _ args, second => by cases second <;> simp [same, sameAll_iff args]
  | ofAlias _, second => by cases second <;> simp [same]
  | union members, second => by cases second <;> simp [same, sameAll_iff members]
  | optional inner, second => by cases second <;> simp [same, same_iff inner]
  | tuple items, second => by cases second <;> simp [same, sameAll_iff items]
  | proc params result, second => by
    cases second <;> simp [same, sameAll_iff params, same_iff result]

theorem sameAll_iff :
    (first second : List TypeExpr) → (sameAll first second = true ↔ first = second)
  | [], second => by cases second <;> simp [sameAll]
  | type :: types, second => by
    cases second <;> simp [sameAll, same_iff type, sameAll_iff types]

end

instance : DecidableEq TypeExpr := fun first second => decidable_of_iff _ (same_iff first second)

end TypeExpr

end ScopedSignatures
