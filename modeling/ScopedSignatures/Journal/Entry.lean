import ScopedSignatures.Table.Conflict

/-!
# Journal entries

What an environment notes while it works. An entry that opens a task is followed
by the notes made during the task: a batch by its insertions, a search by the
keys it tries.

## Main definitions

* `Journal.Entry` — the things that are noted
* `Journal.Record` — the form in which an entry is shown
* `Journal.Entry.record` — an entry in that form
-/

namespace ScopedSignatures.Journal

/-- One note. -/
inductive Entry where
  /-- A declaration is about to be entered. -/
  | insertion (incoming : Site)
  /-- The declaration was refused. -/
  | rejection (conflict : Conflict)
  /-- A batch of declarations is about to be entered. -/
  | batch
  /-- The whole batch was accepted; the environment now has this size. -/
  | batchAccepted (size : Nat)
  | classOrModuleSearch (name : ModuleName) (scope : Namespace)
  | constantSearch (name : ModuleName) (scope : Namespace)
  | interfaceLookup (name : InterfaceName) (scope : Namespace)
  | aliasLookup (name : AliasName) (scope : Namespace)
  /-- A key that an outward search tries. -/
  | candidate (key : ModuleName)
  /-- The key of an interface lookup. -/
  | interfaceKey (key : InterfaceName)
  /-- The key of an alias lookup. -/
  | aliasKey (key : AliasName)
  deriving DecidableEq, Repr

/-- Whether a record opens a task or reports something inside one. -/
inductive Shape where
  | task
  | event
  deriving DecidableEq, Repr

/-- How detailed a record is. -/
inductive Level where
  | debug
  | trace
  deriving DecidableEq, Repr

/-- An entry as it is shown: a title with named texts. -/
structure Record where
  shape : Shape
  level : Level
  title : String
  fields : List (String × String)
  deriving DecidableEq, Repr

/-- An entry as it is shown. -/
def Entry.record : Entry → Record
  | insertion incoming => ⟨.task, .debug, "insert",
      [("kind", toString incoming.kind), ("span", toString incoming.range)]⟩
  | rejection conflict => ⟨.event, .debug, "declaration rejected", [("err", conflict.message)]⟩
  | batch => ⟨.task, .debug, "add_all", []⟩
  | batchAccepted size => ⟨.event, .debug, "batch registered", [("declarations", toString size)]⟩
  | classOrModuleSearch name scope => ⟨.task, .trace, "find_class_or_module",
      [("name", toString name), ("current_module", toString scope)]⟩
  | constantSearch name scope => ⟨.task, .trace, "find_const",
      [("name", toString name), ("current_module", toString scope)]⟩
  | interfaceLookup name scope => ⟨.task, .trace, "find_interface",
      [("name", toString name), ("namespace", toString scope)]⟩
  | aliasLookup name scope => ⟨.task, .trace, "find_alias",
      [("name", toString name), ("namespace", toString scope)]⟩
  | candidate key => ⟨.event, .trace, "probing", [("candidate", toString key)]⟩
  | interfaceKey key => ⟨.event, .trace, "probing", [("key", toString key)]⟩
  | aliasKey key => ⟨.event, .trace, "probing", [("key", toString key)]⟩

end ScopedSignatures.Journal
