import ScopedSignatures.Environment.Basic
import ScopedSignatures.Proofs.Declaration.Claim

/-!
# Who holds a claim

The five tables of an environment seen as one: from claims to the declarations
that hold them. What entering a declaration does is said once in this view, for
all families together, and later modules use nothing else about it.

## Main definitions

* `Environment.holder?` — the declaration that holds a claim

## Main results

* `Environment.table_eq_of_holder?_eq` — the holders determine the tables
* `Environment.enter_refused_iff` — a declaration is refused exactly when its claim is held,
  and leaves the environment as it was
* `Environment.holder?_of_enter_accepted` — an accepted declaration holds its claim from then on
* `Environment.find_of_enter_accepted` — an accepted extension comes last among those of its
  target
-/

namespace ScopedSignatures.Environment

variable {env other result : Environment} {family : Family} {key : family.Key}
  {entry : family.Entry} {declaration : Declaration} {claim : Claim} {conflict : Conflict}

/-- The declaration that holds a claim. -/
def holder? (env : Environment) (claim : Claim) : Option Declaration :=
  ((env.table claim.family).find? claim.key).map (.keyed claim.family)

@[simp] theorem holder?_empty (claim : Claim) : empty.holder? claim = none := by
  simp [holder?]

theorem holder?_mk (env : Environment) (family : Family) (key : family.Key) :
    env.holder? ⟨family, key⟩ = ((env.table family).find? key).map (.keyed family) := rfl

theorem holder?_eq_some_keyed_iff :
    env.holder? ⟨family, key⟩ = some (.keyed family entry) ↔
      (env.table family).find? key = some entry := by
  simp [holder?_mk]

/-- Environments with the same holders have the same tables. -/
theorem table_eq_of_holder?_eq (h : ∀ claim, env.holder? claim = other.holder? claim)
    (family : Family) : env.table family = other.table family := by
  refine Table.ext_find? fun key => ?_
  have hkeyed := h ⟨family, key⟩
  rw [holder?_mk, holder?_mk] at hkeyed
  cases hfound : (env.table family).find? key with
  | none =>
    rw [hfound, Option.map_none] at hkeyed
    exact (Option.map_eq_none_iff.1 hkeyed.symm).symm
  | some entry =>
    rw [hfound, Option.map_some] at hkeyed
    exact (holder?_eq_some_keyed_iff.1 hkeyed.symm).symm

/-! ## Entering a declaration -/

/-- A declaration is refused exactly when its claim is held. The report names the
holder, and the environment is left as it was. -/
theorem enter_refused_iff :
    env.enter declaration = ⟨result, some conflict⟩ ↔
      result = env ∧ ∃ claim holder, declaration.claim? = some claim ∧
        env.holder? claim = some holder ∧ conflict = claim.conflict holder declaration := by
  cases declaration with
  | keyed family entry =>
    rw [enter_keyed_refused_iff, Declaration.claim?_keyed]
    refine and_congr_right fun _ => ?_
    constructor
    · intro htaken
      obtain ⟨existing, hexisting, rfl⟩ := htaken
      exact ⟨⟨family, family.key entry⟩, .keyed family existing, rfl,
        holder?_eq_some_keyed_iff.2 hexisting, rfl⟩
    · intro hheld
      obtain ⟨claim, holder, hclaim, hholder, rfl⟩ := hheld
      obtain rfl := Option.some.inj hclaim
      obtain ⟨existing, hexisting, rfl⟩ := Option.map_eq_some_iff.1 hholder
      exact ⟨existing, hexisting, rfl⟩
  | extension added => simp

/-- Replacing one family's table by one with an entry more gives that entry its
claim and leaves all other holders. -/
theorem holder?_withTable_file (env : Environment) (family : Family) (entry : family.Entry)
    (claim : Claim) :
    (env.withTable family ((env.table family).file entry)).holder? claim =
      if Claim.mk family (family.key entry) = claim then some (.keyed family entry)
      else env.holder? claim := by
  rcases claim with ⟨other, key⟩
  -- under a key of another family nothing changes, even where the keys read alike
  by_cases hfamily : other = family
  · subst hfamily
    rw [holder?_mk, table_withTable_self, Table.find?_file]
    by_cases hkey : other.key entry = key
    · rw [if_pos hkey, if_pos (by rw [hkey]), Option.map_some]
    · rw [if_neg hkey, if_neg (by simpa using hkey), holder?_mk]
  · rw [holder?_mk, table_withTable_of_ne hfamily, if_neg, holder?_mk]
    intro h
    exact hfamily (congrArg Claim.family h).symm

theorem holder?_eq_none_of_enter_accepted (h : env.enter declaration = ⟨result, none⟩)
    (hclaim : declaration.claim? = some claim) : env.holder? claim = none := by
  cases hheld : env.holder? claim with
  | none => rfl
  | some holder =>
    have hrefused := enter_refused_iff.2 ⟨rfl, claim, holder, hclaim, hheld, rfl⟩
    rw [h] at hrefused
    cases hrefused

/-- An accepted declaration holds its claim; all other holders stay. -/
theorem holder?_of_enter_accepted (h : env.enter declaration = ⟨result, none⟩) (claim : Claim) :
    result.holder? claim =
      if declaration.claim? = some claim then some declaration else env.holder? claim := by
  cases declaration with
  | keyed family entry =>
    obtain ⟨-, rfl⟩ := enter_keyed_accepted_iff.1 h
    simp only [holder?_withTable_file, Declaration.claim?_keyed, Option.some.injEq]
  | extension added =>
    cases h
    rfl

/-- An accepted extension comes last among those of its target; nothing else
changes what a target is extended by. -/
theorem find_of_enter_accepted (h : env.enter declaration = ⟨result, none⟩)
    (target : ModuleName) :
    result.extensions.find target =
      env.extensions.find target ++ (declaration.extensionOf? target).toList := by
  cases declaration with
  | keyed family entry =>
    obtain ⟨-, rfl⟩ := enter_keyed_accepted_iff.1 h
    simp
  | extension added =>
    cases h
    rw [ExtensionIndex.find_add, Extension.key, Declaration.extensionOf?]
    split <;> simp

end ScopedSignatures.Environment
