import ScopedSignatures.QualifiedName.Written
import ScopedSignatures.TypeExpr.Basic

/-!
# Written type expressions

How a type expression is shown. A postfix question mark would bind only to the
last part of a union or of a procedure's result, so those two are put between
parentheses under it. Nothing else is.

## Main definitions

* `BaseType.keyword` — the keyword of a base type
* `TypeExpr.isOpen` — whether a type's text goes on to the right without a bracket
* `TypeExpr.toString` — the text of a type expression
-/

namespace ScopedSignatures

/-- The keyword that denotes a base type. -/
def BaseType.keyword : BaseType → String
  | any => "any"
  | nil => "nil"
  | bool => "bool"
  | void => "void"
  | bottom => "bot"
  | top => "top"
  | selfType => "self"
  | instanceType => "instance"

namespace TypeExpr

/-- Whether a postfix after the type's text would be read as part of its last component. -/
def isOpen : TypeExpr → Bool
  | union _ | proc _ _ => true
  | _ => false

/-- Texts between square brackets, with commas. -/
def bracketed (texts : List String) : String := "[" ++ ", ".intercalate texts ++ "]"

/-- The text of a generic type's arguments; without arguments there are no brackets. -/
def argumentText (texts : List String) : String :=
  if texts.isEmpty then "" else bracketed texts

mutual

/-- The text of a type expression. -/
protected def toString : TypeExpr → String
  | base type => type.keyword
  | var name => name
  | ofClass name args => name.toString ++ argumentText (texts args)
  | singleton name => "singleton(" ++ name.toString ++ ")"
  | ofInterface name args => name.toString ++ argumentText (texts args)
  | ofAlias name => name.toString
  | union members => " | ".intercalate (texts members)
  | optional inner =>
    if inner.isOpen then "(" ++ inner.toString ++ ")?" else inner.toString ++ "?"
  | tuple items => bracketed (texts items)
  | proc params result => "^(" ++ ", ".intercalate (texts params) ++ ") -> " ++ result.toString

/-- The texts of type expressions, in order. -/
def texts : List TypeExpr → List String
  | [] => []
  | type :: types => type.toString :: texts types

end

instance : ToString TypeExpr := ⟨TypeExpr.toString⟩

theorem texts_eq_map (types : List TypeExpr) : texts types = types.map TypeExpr.toString := by
  induction types with
  | nil => rfl
  | cons type types ih => rw [texts, ih, List.map_cons]

end TypeExpr

end ScopedSignatures
