import ScopedSignatures.Declaration.Family
import ScopedSignatures.Journal.Journaled

/-!
# Journals as they are shown

A reader who is shown everything sees a row of records, one for each note and in the
order of the notes.

## Main definitions

* `Record.batch`, `Record.insertion`, `Record.rejection`, `Record.batchAccepted` — the records
  of declarations and batches
* `Record.search`, `Record.probing` — the records of searches
* `Journaled.shown` — what is shown of the way to a value
* `Journal.occurrences` — how many records have a title
-/

namespace ScopedSignatures

namespace Journal

namespace Record

/-- A batch begins. -/
def batch : Record := ⟨.task, .debug, "add_all", []⟩

/-- A declaration is about to be entered. -/
def insertion (declaration : Declaration) : Record :=
  ⟨.task, .debug, "insert",
    [("kind", declaration.kind.word), ("span", declaration.range.toString)]⟩

/-- It was refused. -/
def rejection (conflict : Conflict) : Record :=
  ⟨.event, .debug, "declaration rejected", [("err", conflict.message)]⟩

/-- The whole batch was accepted. -/
def batchAccepted (size : Nat) : Record :=
  ⟨.event, .debug, "batch registered", [("declarations", toString size)]⟩

/-- A search begins, for a name that is used in a scope. -/
def search {vocabulary : Vocabulary} (title scopeField : String)
    (name : QualifiedName vocabulary) (scope : Namespace) : Record :=
  ⟨.task, .trace, title, [("name", name.toString), (scopeField, scope.toString)]⟩

/-- A key is about to be tried. -/
def probing {vocabulary : Vocabulary} (field : String) (key : QualifiedName vocabulary) : Record :=
  ⟨.event, .trace, "probing", [(field, key.toString)]⟩

end Record

/-- How many of the records have a title. -/
def occurrences (title : String) (records : List Record) : Nat :=
  (records.map Record.title).count title

end Journal

/-- All that is shown of the way to a value. -/
def Journaled.shown {α : Type} (result : Journaled α) : List Journal.Record :=
  result.journal.map Journal.Entry.record

/-- Making another value of a value shows nothing more. -/
@[simp] theorem Journaled.shown_map {α β : Type} (f : α → β) (result : Journaled α) :
    (result.map f).shown = result.shown := rfl

end ScopedSignatures
