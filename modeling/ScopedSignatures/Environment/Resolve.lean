import ScopedSignatures.Environment.Basic
import ScopedSignatures.Journal.Journaled
import ScopedSignatures.Search

/-!
# Resolving names

What a name that is used in a scope stands for. Classes, modules and constants
are searched outward; interfaces and type aliases are looked up in the scope
alone; globals and extensions are found by their exact keys. Only an alias that
is not there is an error, since the others may be asked for on trial.

A class search that hits a module first finds nothing: the module hides every
class further out.

## Main definitions

* `Environment.resolveClassOrModule`, `resolveClass`, `resolveModule`, `resolveConstant`
* `Environment.lookUpInterface`, `Environment.lookUpAlias`, `UnknownAlias`
* `Environment.global?`, `Environment.extensionsOf`
* `Environment.isClass`, `Environment.isModule`, `Environment.isConstant`

## Main results

* `Environment.value_resolveClassOrModule`, `Environment.value_resolveConstant` — the first
  occupied key decides
* `Environment.value_lookUpInterface`, `Environment.value_lookUpAlias` — one key decides
-/

namespace ScopedSignatures

/-- No type alias is declared under the key that an alias name denotes. -/
structure UnknownAlias where
  key : AliasName
  deriving DecidableEq, Repr

/-- The sentence shown to a reader. -/
def UnknownAlias.message (miss : UnknownAlias) : String :=
  "unknown type alias `" ++ miss.key.toString ++ "`"

namespace Environment

open Journal (Entry)

variable {δ : Type}

/-- The notes on the keys of an outward search. An absolute name is looked up without a note. -/
def candidateNotes (name : ModuleName) (tried : List ModuleName) : List Entry :=
  if name.isAbsolute then [] else tried.map Entry.candidate

/-! ## Outward -/

/-- The class or module that a name used in a scope stands for. -/
def resolveClassOrModule (env : Environment) (name : ModuleName) (scope : Namespace) :
    Journaled (Option ClassOrModule) :=
  let trail := Search.outward (env.table .classOrModule).find? name scope
  ⟨trail.found, .classOrModuleSearch name scope :: candidateNotes name trail.tried⟩

/-- The class that a name stands for, unless it stands for a module. -/
def resolveClass (env : Environment) (name : ModuleName) (scope : Namespace) :
    Journaled (Option ClassDef) :=
  (env.resolveClassOrModule name scope).map (·.bind ClassOrModule.asClass?)

/-- The module that a name stands for, unless it stands for a class. -/
def resolveModule (env : Environment) (name : ModuleName) (scope : Namespace) :
    Journaled (Option ModuleDef) :=
  (env.resolveClassOrModule name scope).map (·.bind ClassOrModule.asModule?)

/-- The constant that a name used in a scope stands for. -/
def resolveConstant (env : Environment) (name : ModuleName) (scope : Namespace) :
    Journaled (Option Constant) :=
  let trail := Search.outward (env.table .constant).find? name scope
  ⟨trail.found, .constantSearch name scope :: candidateNotes name trail.tried⟩

/-! ## In one scope -/

/-- The interface that a name used in a scope stands for. -/
def lookUpInterface (env : Environment) (name : InterfaceName) (scope : Namespace) :
    Journaled (Option InterfaceDef) :=
  let trail := Search.direct (env.table .interface).find? name scope
  ⟨trail.found, .interfaceLookup name scope :: trail.tried.map Entry.interfaceKey⟩

/-- The type alias that a name used in a scope stands for. A miss names the key. -/
def lookUpAlias (env : Environment) (name : AliasName) (scope : Namespace) :
    Journaled (Except UnknownAlias TypeAlias) :=
  let trail := Search.direct (env.table .typeAlias).find? name scope
  let result := match trail.found with
    | some definition => .ok definition
    | none => .error ⟨Search.directKey name scope⟩
  ⟨result, .aliasLookup name scope :: trail.tried.map Entry.aliasKey⟩

/-! ## By exact key -/

/-- The global variable of this symbol. -/
def global? (env : Environment) (name : Symbol) : Option Global := (env.table .global).find? name

/-- The extensions listed under exactly this name. A relative name has none. -/
def extensionsOf (env : Environment) (name : ModuleName) : List Extension :=
  env.extensions.find name

/-- Whether the name, read at the root, is that of a class. -/
def isClass (env : Environment) (name : ModuleName) : Bool :=
  ((env.table .classOrModule).find? name.anchored).any (·.asClass?.isSome)

/-- Whether the name, read at the root, is that of a module. -/
def isModule (env : Environment) (name : ModuleName) : Bool :=
  ((env.table .classOrModule).find? name.anchored).any (·.asModule?.isSome)

/-- Whether the name, read at the root, is that of a constant. -/
def isConstant (env : Environment) (name : ModuleName) : Bool :=
  ((env.table .constant).find? name.anchored).isSome

/-! ## What decides -/

variable (env : Environment)

/-- The first occupied key of the outward search decides. -/
theorem value_resolveClassOrModule (name : ModuleName) (scope : Namespace) :
    (env.resolveClassOrModule name scope).value =
      (Search.outwardKeys name scope).findSome? (env.table .classOrModule).find? :=
  Search.found_tryInOrder _ _

theorem value_resolveConstant (name : ModuleName) (scope : Namespace) :
    (env.resolveConstant name scope).value =
      (Search.outwardKeys name scope).findSome? (env.table .constant).find? :=
  Search.found_tryInOrder _ _

theorem value_lookUpInterface (name : InterfaceName) (scope : Namespace) :
    (env.lookUpInterface name scope).value =
      (env.table .interface).find? (Search.directKey name scope) := by
  simp only [lookUpInterface, Search.direct, Search.found_tryInOrder, List.findSome?_singleton]

theorem value_lookUpAlias (name : AliasName) (scope : Namespace) :
    (env.lookUpAlias name scope).value =
      match (env.table .typeAlias).find? (Search.directKey name scope) with
      | some definition => .ok definition
      | none => .error ⟨Search.directKey name scope⟩ := by
  simp only [lookUpAlias, Search.direct, Search.found_tryInOrder, List.findSome?_singleton]

end Environment

end ScopedSignatures
