import ScopedSignatures.SourceRange
import ScopedSignatures.TypeExpr.Basic

/-!
# Members

What stands in the body of a class, a module, an interface or an extension.

## Main definitions

* `ModuleRef` — a module or class applied to type arguments
* `Receiver` — on which objects a method can be called
* `MemberBody`, `Member` — a member, without and with the range it was read from
-/

namespace ScopedSignatures

/-- A reference to a module or class with its type arguments. -/
structure ModuleRef where
  name : ModuleName
  args : List TypeExpr
  deriving DecidableEq, Repr

/-- The objects on which a method can be called. -/
inductive Receiver where
  /-- The instances of the class. -/
  | instances
  /-- The class itself. -/
  | classObject
  | both
  deriving DecidableEq, Repr

namespace Receiver

/-- Where nothing is said, a method is called on instances. -/
instance : Inhabited Receiver := ⟨instances⟩

/-- Whether instances have the method. -/
def onInstances : Receiver → Bool
  | instances | both => true
  | classObject => false

/-- Whether the class itself has the method. -/
def onClassObject : Receiver → Bool
  | classObject | both => true
  | instances => false

end Receiver

/-- Where the methods of a mixed-in module go. -/
inductive MixinTarget where
  /-- To the instances: the module is included. -/
  | instances
  /-- To the class itself: it is extended by the module. -/
  | classObject
  deriving DecidableEq, Repr

/-- What an attribute lets one do. -/
inductive Access where
  | reader
  | accessor
  deriving DecidableEq, Repr

/-- A member without its range. -/
inductive MemberBody where
  | method (name : Symbol) (receiver : Receiver) (overloads : List TypeExpr)
  | mixin (target : MixinTarget) (mixed : ModuleRef)
  | instanceVariable (name : Symbol) (type : TypeExpr)
  | attribute (access : Access) (name : Symbol) (type : TypeExpr)
  deriving DecidableEq, Repr

/-- A member and the range it was read from. -/
structure Member where
  body : MemberBody
  range : SourceRange
  deriving DecidableEq, Repr

/-- The method's name, of a member that is a method. -/
def Member.methodName? (member : Member) : Option Symbol :=
  match member.body with
  | .method name _ _ => some name
  | _ => none

end ScopedSignatures
