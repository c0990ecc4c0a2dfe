import ScopedSignatures.Declaration.Family

/-!
# Conflicts

Two declarations of one family claim the same key. The one that came first keeps
it; the report names the key and both sites.

## Main definitions

* `Conflict` — the key's text, the site that holds it and the site that is refused
* `Conflict.between` — the conflict of two entries of a family
* `Conflict.message` — the sentence shown to a reader
* `Attempt` — what is there after an attempt to enter something, and the conflict it met
-/

namespace ScopedSignatures

/-- A key that is held by one declaration and claimed by another. -/
@[ext]
structure Conflict where
  keyText : String
  existing : Site
  incoming : Site
  deriving DecidableEq, Repr

namespace Conflict

/-- The conflict over the key that an incoming entry claims. -/
def between {family : Family} (existing incoming : family.Entry) : Conflict :=
  ⟨family.keyText (family.key incoming), family.site existing, family.site incoming⟩

/-- The sentence shown to a reader. -/
def message (conflict : Conflict) : String :=
  "`" ++ conflict.keyText ++ "` is already declared as " ++ toString conflict.existing.kind ++
    " at " ++ toString conflict.existing.range ++ "; cannot declare it as " ++
    toString conflict.incoming.kind ++ " at " ++ toString conflict.incoming.range

end Conflict

/-- What an attempt to enter something leaves: a state, and the conflict for which it was
refused or stopped, if there was one. There is a state in either case. -/
structure Attempt (σ : Type) where
  state : σ
  conflict : Option Conflict

namespace Attempt

variable {σ τ : Type} {f : σ → τ} {attempt : Attempt σ} {state : τ} {conflict : Option Conflict}

/-- The attempt as it shows in a state that the other one is a part of. -/
def map (f : σ → τ) (attempt : Attempt σ) : Attempt τ := ⟨f attempt.state, attempt.conflict⟩

theorem map_eq_iff :
    attempt.map f = ⟨state, conflict⟩ ↔ ∃ part, attempt = ⟨part, conflict⟩ ∧ state = f part := by
  constructor
  · rintro ⟨rfl, rfl⟩
    exact ⟨attempt.state, rfl, rfl⟩
  · rintro ⟨part, rfl, rfl⟩
    rfl

end Attempt

end ScopedSignatures
