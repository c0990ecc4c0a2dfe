import ScopedSignatures.Declaration.Basic
import ScopedSignatures.QualifiedName.Order
import ScopedSignatures.QualifiedName.Written

/-!
# Families of declarations

Declarations of one family compete for keys: each key has room for one of them.
Classes and modules are one family. The key of a declaration is its name read at
the root, so it does not matter whether it was declared under a relative or an
absolute name; the key of a global variable is its symbol. Extensions belong to
no family, since a module can have any number of them.

## Main definitions

* `Family` — the five families
* `Family.Key`, `Family.Entry` — what a family is keyed by and what it holds
* `Family.key` — the key that an entry claims
* `Site` — what a report says about a declaration: its kind and its range
* `Declaration` — an entry of a family, or an extension
-/

namespace ScopedSignatures

/-- The declarations that compete for keys. -/
inductive Family where
  | classOrModule
  | interface
  | constant
  | global
  | typeAlias
  deriving DecidableEq, Repr

/-- What a declaration is, and where it was read. -/
structure Site where
  kind : Kind
  range : SourceRange
  deriving DecidableEq, Repr

namespace Family

/-- What the entries of a family are found by. -/
abbrev Key : Family → Type
  | classOrModule | constant => ModuleName
  | interface => InterfaceName
  | global => Symbol
  | typeAlias => AliasName

/-- The declarations of a family. -/
abbrev Entry : Family → Type
  | classOrModule => ClassOrModule
  | interface => InterfaceDef
  | constant => Constant
  | global => Global
  | typeAlias => TypeAlias

instance instOrdKey : (family : Family) → Ord family.Key
  | classOrModule | constant => inferInstanceAs (Ord ModuleName)
  | interface => inferInstanceAs (Ord InterfaceName)
  | global => inferInstanceAs (Ord Symbol)
  | typeAlias => inferInstanceAs (Ord AliasName)

instance instTransOrdKey : (family : Family) → Std.TransOrd family.Key
  | classOrModule | constant => inferInstanceAs (Std.TransOrd ModuleName)
  | interface => inferInstanceAs (Std.TransOrd InterfaceName)
  | global => inferInstanceAs (Std.TransOrd Symbol)
  | typeAlias => inferInstanceAs (Std.TransOrd AliasName)

instance instLawfulEqOrdKey : (family : Family) → Std.LawfulEqOrd family.Key
  | classOrModule | constant => inferInstanceAs (Std.LawfulEqOrd ModuleName)
  | interface => inferInstanceAs (Std.LawfulEqOrd InterfaceName)
  | global => inferInstanceAs (Std.LawfulEqOrd Symbol)
  | typeAlias => inferInstanceAs (Std.LawfulEqOrd AliasName)

instance instDecidableEqKey : (family : Family) → DecidableEq family.Key
  | classOrModule | constant => inferInstanceAs (DecidableEq ModuleName)
  | interface => inferInstanceAs (DecidableEq InterfaceName)
  | global => inferInstanceAs (DecidableEq Symbol)
  | typeAlias => inferInstanceAs (DecidableEq AliasName)

instance instDecidableEqEntry : (family : Family) → DecidableEq family.Entry
  | classOrModule => inferInstanceAs (DecidableEq ClassOrModule)
  | interface => inferInstanceAs (DecidableEq InterfaceDef)
  | constant => inferInstanceAs (DecidableEq Constant)
  | global => inferInstanceAs (DecidableEq Global)
  | typeAlias => inferInstanceAs (DecidableEq TypeAlias)

/-- The key that an entry claims. -/
def key : (family : Family) → family.Entry → family.Key
  | classOrModule, entry => entry.name.anchored
  | interface, entry => entry.name.anchored
  | constant, entry => entry.name.anchored
  | global, entry => entry.name
  | typeAlias, entry => entry.name.anchored

/-- A key as a reader sees it. -/
def keyText : (family : Family) → family.Key → String
  | classOrModule, key | constant, key => key.toString
  | interface, key => key.toString
  | global, key => key
  | typeAlias, key => key.toString

/-- The kind and the range of an entry. -/
def site : (family : Family) → family.Entry → Site
  | classOrModule, entry => ⟨entry.kind, entry.range⟩
  | interface, entry => ⟨.interface, entry.range⟩
  | constant, entry => ⟨.constant, entry.range⟩
  | global, entry => ⟨.global, entry.range⟩
  | typeAlias, entry => ⟨.typeAlias, entry.range⟩

end Family

/-- A declaration: an entry of a family, which claims a key of its own, or an extension. -/
inductive Declaration where
  | keyed (family : Family) (entry : family.Entry)
  | extension (added : Extension)
  deriving DecidableEq

namespace Declaration

/-- The kind and the range of a declaration. -/
def site : Declaration → Site
  | keyed family entry => family.site entry
  | extension added => ⟨.extension, added.range⟩

/-- What is declared. -/
def kind (declaration : Declaration) : Kind := declaration.site.kind

/-- Where it was read. -/
def range (declaration : Declaration) : SourceRange := declaration.site.range

/-! ## Entries as declarations -/

/-- The declaration of a class. -/
def ofClass (definition : ClassDef) : Declaration := keyed .classOrModule (.ofClass definition)

/-- The declaration of a module. -/
def ofModule (definition : ModuleDef) : Declaration := keyed .classOrModule (.ofModule definition)

/-- The declaration of an interface. -/
def ofInterface (definition : InterfaceDef) : Declaration := keyed .interface definition

/-- The declaration of a constant. -/
def ofConstant (definition : Constant) : Declaration := keyed .constant definition

/-- The declaration of a global variable. -/
def ofGlobal (definition : Global) : Declaration := keyed .global definition

/-- The declaration of a type alias. -/
def ofTypeAlias (definition : TypeAlias) : Declaration := keyed .typeAlias definition

end Declaration

end ScopedSignatures
