import ScopedSignatures.Environment.Basic
import ScopedSignatures.Journal.Journaled

/-!
# Declaring

Declarations enter an environment one by one or in batches. A batch stops at its
first conflict and keeps what it had entered before. To build an environment
from a batch, the whole batch has to be accepted.

## Main definitions

* `Environment.declare` — enters one declaration
* `Environment.declareAll` — enters a batch
* `Environment.ofDeclarations` — the environment that a batch makes

## Main results

* `Environment.value_declareAll_cons` — what a batch does with its first declaration
* `Environment.value_declareAll_append` — a batch in two parts
-/

namespace ScopedSignatures

namespace Environment

/-- Enters one declaration. -/
def declare (env : Environment) (declaration : Declaration) : Journaled (Attempt Environment) :=
  match env.enter declaration with
  | ⟨result, none⟩ => ⟨⟨result, none⟩, [.insertion declaration.site]⟩
  | ⟨result, some conflict⟩ =>
    ⟨⟨result, some conflict⟩, [.insertion declaration.site, .rejection conflict]⟩

/-- Enters declarations in order, up to the first conflict. -/
def declareEach (env : Environment) : List Declaration → Journaled (Attempt Environment)
  | [] => ⟨⟨env, none⟩, [.batchAccepted env.size]⟩
  | declaration :: later =>
    match env.declare declaration with
    | ⟨⟨result, none⟩, journal⟩ => (declareEach result later).after journal
    | ⟨⟨result, some conflict⟩, journal⟩ => ⟨⟨result, some conflict⟩, journal⟩

/-- Enters a batch of declarations, up to the first conflict. -/
def declareAll (env : Environment) (declarations : List Declaration) :
    Journaled (Attempt Environment) :=
  (env.declareEach declarations).after [.batch]

/-- The environment made of a batch, if nothing in the batch conflicts. -/
def ofDeclarations (declarations : List Declaration) : Journaled (Except Conflict Environment) :=
  (empty.declareAll declarations).map fun
    | ⟨result, none⟩ => .ok result
    | ⟨_, some conflict⟩ => .error conflict

@[simp] theorem value_declare (env : Environment) (declaration : Declaration) :
    (env.declare declaration).value = env.enter declaration := by
  rw [declare]
  rcases env.enter declaration with ⟨result, _ | conflict⟩ <;> rfl

/-- A batch goes on after its first declaration only if that one is accepted. -/
theorem value_declareAll_cons (env : Environment) (declaration : Declaration)
    (later : List Declaration) :
    (env.declareAll (declaration :: later)).value =
      match env.enter declaration with
      | ⟨result, none⟩ => (result.declareAll later).value
      | ⟨result, some conflict⟩ => ⟨result, some conflict⟩ := by
  simp only [declareAll, Journaled.value_after, declareEach, declare]
  rcases env.enter declaration with ⟨result, _ | conflict⟩ <;> rfl

/-- The second part of a batch is entered only if the whole first part is accepted. -/
theorem value_declareAll_append (env : Environment) (earlier later : List Declaration) :
    (env.declareAll (earlier ++ later)).value =
      match (env.declareAll earlier).value with
      | ⟨result, none⟩ => (result.declareAll later).value
      | ⟨result, some conflict⟩ => ⟨result, some conflict⟩ := by
  induction earlier generalizing env with
  | nil => rfl
  | cons declaration earlier ih =>
    rw [List.cons_append, value_declareAll_cons, value_declareAll_cons]
    rcases env.enter declaration with ⟨result, _ | conflict⟩
    · exact ih result
    · rfl

end Environment

end ScopedSignatures
