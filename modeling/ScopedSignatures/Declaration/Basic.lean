import ScopedSignatures.Declaration.Member

/-!
# Declarations, kind by kind

The seven things that a signature file declares. Each keeps the name that it was
declared under, which may be relative, and the range that it was read from.

## Main definitions

* `Kind` — the seven kinds
* `ClassDef`, `ModuleDef`, `InterfaceDef`, `Extension`, `Constant`, `Global`, `TypeAlias`
* `ClassOrModule` — what a module name can stand for besides a constant
-/

namespace ScopedSignatures

/-- What a declaration declares. -/
inductive Kind where
  | classDef
  | moduleDef
  | interface
  | extension
  | constant
  | global
  | typeAlias
  deriving DecidableEq, Repr

/-- The word for a kind. -/
def Kind.word : Kind → String
  | classDef => "class"
  | moduleDef => "module"
  | interface => "interface"
  | extension => "extension"
  | constant => "constant"
  | global => "global"
  | typeAlias => "alias"

instance : ToString Kind := ⟨Kind.word⟩

/-- A class, with its superclass if one is given. -/
structure ClassDef where
  name : ModuleName
  typeParams : List Symbol
  superclass : Option ModuleRef
  members : List Member
  range : SourceRange
  deriving DecidableEq, Repr

/-- A module, with the type of the objects that it may be mixed into. -/
structure ModuleDef where
  name : ModuleName
  typeParams : List Symbol
  selfType : Option TypeExpr
  members : List Member
  range : SourceRange
  deriving DecidableEq, Repr

/-- An interface: members that other classes may happen to have. -/
structure InterfaceDef where
  name : InterfaceName
  typeParams : List Symbol
  members : List Member
  range : SourceRange
  deriving DecidableEq, Repr

/-- More members for a module or class that is declared elsewhere, under a label. -/
structure Extension where
  target : ModuleName
  label : Symbol
  typeParams : List Symbol
  members : List Member
  range : SourceRange
  deriving DecidableEq, Repr

/-- A constant and its type. -/
structure Constant where
  name : ModuleName
  type : TypeExpr
  range : SourceRange
  deriving DecidableEq, Repr

/-- A global variable, named by a symbol with its sigil. -/
structure Global where
  name : Symbol
  type : TypeExpr
  range : SourceRange
  deriving DecidableEq, Repr

/-- A name for a type expression, which may have parameters. -/
structure TypeAlias where
  name : AliasName
  typeParams : List Symbol
  type : TypeExpr
  range : SourceRange
  deriving DecidableEq, Repr

/-- A class or a module. The two share their names: a name stands for one of them at most. -/
inductive ClassOrModule where
  | ofClass (definition : ClassDef)
  | ofModule (definition : ModuleDef)
  deriving DecidableEq, Repr

namespace ClassOrModule

/-- The class, if it is one. -/
def asClass? : ClassOrModule → Option ClassDef
  | ofClass definition => some definition
  | ofModule _ => none

/-- The module, if it is one. -/
def asModule? : ClassOrModule → Option ModuleDef
  | ofClass _ => none
  | ofModule definition => some definition

/-- The name as declared. -/
def name : ClassOrModule → ModuleName
  | ofClass definition => definition.name
  | ofModule definition => definition.name

/-- Which of the two it is. -/
def kind : ClassOrModule → Kind
  | ofClass _ => .classDef
  | ofModule _ => .moduleDef

/-- The range that the declaration was read from. -/
def range : ClassOrModule → SourceRange
  | ofClass definition => definition.range
  | ofModule definition => definition.range

/-- It is a class exactly when it is no module. -/
theorem isSome_asClass? (entry : ClassOrModule) :
    entry.asClass?.isSome = !entry.asModule?.isSome := by
  cases entry <;> rfl

end ClassOrModule

end ScopedSignatures
