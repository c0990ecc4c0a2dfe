import ScopedSignatures.Declaration.Family
import ScopedSignatures.Table.Conflict
import ScopedSignatures.Table.ExtensionIndex

/-!
# Claims

A declaration that is an entry of a family claims a key of that family for
itself; an extension claims nothing. A claim is the family together with the
key, so claims of different families never meet, even under one name. Which
declaration of a row makes a claim first is a question about the row alone; the
environment that the row was entered into has no part in it.

## Main definitions

* `Family.claimed` — the key that an entry claims, spelled out
* `Claim` — a family and one of its keys
* `Declaration.claim?` — what a declaration claims
* `Claim.firstIn?` — the first declaration of a row that makes a claim
* `Claim.conflict` — the report on a declaration whose claim is taken

## Main results

* `Family.key_eq_claimed` — an entry is filed under what it claims
* `Claim.firstIn?_append` — the first claimant of two rows, one after the other
* `Claim.firstIn?_eq_some_iff_mem` — a claim that is made once is made by its only claimant
-/

namespace ScopedSignatures

namespace Family

/-- The key that an entry claims, spelled out: its name, read at the root. A global
claims its symbol. -/
def claimed : (family : Family) → family.Entry → family.Key
  | classOrModule, entry => entry.name.anchored
  | interface, entry => entry.name.anchored
  | constant, entry => entry.name.anchored
  | global, entry => entry.name
  | typeAlias, entry => entry.name.anchored

/-- An entry is filed under what it claims. -/
theorem key_eq_claimed (family : Family) (entry : family.Entry) :
    family.key entry = family.claimed entry := by
  cases family <;> rfl

end Family

/-- A family and one of its keys. -/
structure Claim where
  family : Family
  key : family.Key
  deriving DecidableEq

namespace Declaration

/-- What a declaration claims for itself. An extension claims nothing. -/
def claim? : Declaration → Option Claim
  | keyed family entry => some ⟨family, family.claimed entry⟩
  | extension _ => none

/-- The extension itself, of a declaration that extends this target. -/
def extensionOf? (target : ModuleName) : Declaration → Option Extension
  | keyed _ _ => none
  | extension added => if added.target.anchored = target then some added else none

/-- A declaration claims the key that its entry is filed under. -/
@[simp] theorem claim?_keyed (family : Family) (entry : family.Entry) :
    (keyed family entry).claim? = some ⟨family, family.key entry⟩ := by
  rw [claim?, Family.key_eq_claimed]

@[simp] theorem claim?_extension (added : Extension) : (extension added).claim? = none := rfl

@[simp] theorem extensionOf?_keyed (target : ModuleName) (family : Family) (entry : family.Entry) :
    (keyed family entry).extensionOf? target = none := rfl

end Declaration

namespace Claim

variable {claim : Claim} {first : Declaration} {declarations : List Declaration}

/-- The key as a reader sees it. -/
def text (claim : Claim) : String := claim.family.keyText claim.key

/-- The report on a declaration whose claim another one holds. -/
def conflict (claim : Claim) (existing incoming : Declaration) : Conflict :=
  ⟨claim.text, existing.site, incoming.site⟩

/-- The first declaration of a row that makes the claim. -/
def firstIn? (claim : Claim) (declarations : List Declaration) : Option Declaration :=
  declarations.find? fun declaration => declaration.claim? = some claim

@[simp] theorem firstIn?_nil (claim : Claim) : claim.firstIn? [] = none := rfl

theorem firstIn?_cons (claim : Claim) (declaration : Declaration)
    (later : List Declaration) :
    claim.firstIn? (declaration :: later) =
      if declaration.claim? = some claim then some declaration else claim.firstIn? later := by
  rw [firstIn?, List.find?_cons]
  by_cases h : declaration.claim? = some claim <;> simp [h, firstIn?]

/-- A row that comes later has a say only if the earlier one does not make the claim. -/
theorem firstIn?_append (claim : Claim) (earlier later : List Declaration) :
    claim.firstIn? (earlier ++ later) = (claim.firstIn? earlier).or (claim.firstIn? later) :=
  List.find?_append

theorem claim?_of_firstIn? (h : claim.firstIn? declarations = some first) :
    first.claim? = some claim := by
  simpa using List.find?_some h

theorem mem_of_firstIn? (h : claim.firstIn? declarations = some first) : first ∈ declarations :=
  List.mem_of_find?_eq_some h

theorem isSome_firstIn?_iff :
    (claim.firstIn? declarations).isSome ↔
      ∃ declaration ∈ declarations, declaration.claim? = some claim := by
  simp [firstIn?, List.find?_isSome]

theorem firstIn?_eq_none_iff :
    claim.firstIn? declarations = none ↔ claim ∉ declarations.filterMap Declaration.claim? := by
  simp [firstIn?, List.find?_eq_none, List.mem_filterMap]

/-- Where no claim is made twice, the first claimant is the only one. -/
theorem firstIn?_eq_some_iff_mem (distinct : (declarations.filterMap Declaration.claim?).Nodup) :
    claim.firstIn? declarations = some first ↔
      first ∈ declarations ∧ first.claim? = some claim := by
  refine ⟨fun h => ⟨mem_of_firstIn? h, claim?_of_firstIn? h⟩, ?_⟩
  intro honly
  obtain ⟨hmem, hclaim⟩ := honly
  -- by induction on the row: an earlier claimant would make the claim a second time
  induction declarations with
  | nil => exact absurd hmem List.not_mem_nil
  | cons declaration later ih =>
    rw [firstIn?_cons]
    by_cases h : declaration.claim? = some claim
    · rw [if_pos h]
      rw [List.filterMap_cons_some h, List.nodup_cons] at distinct
      rcases List.mem_cons.1 hmem with rfl | hlater
      · rfl
      · exact absurd (List.mem_filterMap.2 ⟨first, hlater, hclaim⟩) distinct.1
    · rw [if_neg h]
      have hlater : first ∈ later := by
        rcases List.mem_cons.1 hmem with rfl | hlater
        · exact absurd hclaim h
        · exact hlater
      exact ih (distinct.sublist ((List.sublist_cons_self declaration later).filterMap _)) hlater

/-- Where no claim is made twice, the order of a row has no say in who makes it. -/
theorem firstIn?_perm {others : List Declaration} (h : declarations.Perm others)
    (distinct : (declarations.filterMap Declaration.claim?).Nodup) :
    claim.firstIn? declarations = claim.firstIn? others := by
  have hothers := (h.filterMap Declaration.claim?).nodup_iff.1 distinct
  refine Option.ext fun first => ?_
  rw [firstIn?_eq_some_iff_mem distinct, firstIn?_eq_some_iff_mem hothers, h.mem_iff]

end Claim

end ScopedSignatures
