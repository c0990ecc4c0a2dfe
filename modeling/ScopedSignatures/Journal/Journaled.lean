import ScopedSignatures.Journal.Entry

/-!
# Journaled values

A value together with what was noted while it was made.

## Main definitions

* `Journaled` — a value with its journal
* `Journaled.map`, `Journaled.after` — another value, and earlier notes put in front
-/

namespace ScopedSignatures

/-- A value and the notes made on the way to it, the earliest first. -/
@[ext]
structure Journaled (α : Type) where
  value : α
  journal : List Journal.Entry

namespace Journaled

variable {α β : Type}

/-- A value for which nothing is noted. -/
def silent (value : α) : Journaled α := ⟨value, []⟩

/-- Another value made of this one, with nothing more noted. -/
def map (f : α → β) (result : Journaled α) : Journaled β := ⟨f result.value, result.journal⟩

/-- The same value with earlier notes in front. -/
def after (earlier : List Journal.Entry) (result : Journaled α) : Journaled α :=
  ⟨result.value, earlier ++ result.journal⟩

@[simp] theorem value_map (f : α → β) (result : Journaled α) :
    (result.map f).value = f result.value := rfl

@[simp] theorem value_after (earlier : List Journal.Entry) (result : Journaled α) :
    (result.after earlier).value = result.value := rfl

@[simp] theorem journal_after (earlier : List Journal.Entry) (result : Journaled α) :
    (result.after earlier).journal = earlier ++ result.journal := rfl

end Journaled

end ScopedSignatures
