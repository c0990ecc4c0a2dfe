import ScopedSignatures.Environment.Declare
import ScopedSignatures.Proofs.Environment.Holder
import ScopedSignatures.Proofs.Environment.Resolution

/-!
# Submissions

Declarations submitted one by one, where a refused one does not stop the row. A
refused declaration leaves the environment as it was, so whoever claims a key
first keeps it for the whole row, and every later claim to it is refused with a
report that names the first claimant. What the environment holds in the end is
therefore a question about the row alone.

## Main definitions

* `Environment.submit`, `Environment.verdict` — what one submission leaves and reports
* `Environment.submitAll`, `Environment.verdicts` — the same for a row

## Main results

* `Environment.submit_of_verdict_eq_some` — a refused declaration changes nothing
* `Environment.holder?_submitAll` — the first claimant in a row holds the claim
* `Environment.find_submitAll` — extensions gather in the order of the row
* `Environment.verdict_submitAll` — when a submission after a row is refused, and why
* `Environment.first_claim_wins` — verdicts and lookups of a row, by first claimants
-/

namespace ScopedSignatures.Environment

open Declaration (ofTypeAlias)

variable {env : Environment} {declaration : Declaration} {conflict : Conflict} {claim : Claim}

/-- The environment after one submission, refused or not. -/
def submit (env : Environment) (declaration : Declaration) : Environment :=
  (env.declare declaration).value.state

/-- The conflict for which a submission is refused, if it is. -/
def verdict (env : Environment) (declaration : Declaration) : Option Conflict :=
  (env.declare declaration).value.conflict

/-- The environment after a row of submissions, none of which stops the row. -/
def submitAll (env : Environment) (declarations : List Declaration) : Environment :=
  declarations.foldl submit env

/-- What the submissions of a row report, one after the other. -/
def verdicts (env : Environment) : List Declaration → List (Option Conflict)
  | [] => []
  | declaration :: later => env.verdict declaration :: (env.submit declaration).verdicts later

/-! ## One submission -/

theorem enter_eq (env : Environment) (declaration : Declaration) :
    env.enter declaration = ⟨env.submit declaration, env.verdict declaration⟩ := by
  rw [submit, verdict, value_declare]

theorem verdict_eq_none_iff :
    env.verdict declaration = none ↔ env.enter declaration = ⟨env.submit declaration, none⟩ := by
  rw [enter_eq, Attempt.mk.injEq]
  exact (and_iff_right rfl).symm

/-- A refused declaration leaves the environment as it was. -/
theorem submit_of_verdict_eq_some (h : env.verdict declaration = some conflict) :
    env.submit declaration = env := by
  have hrefused := enter_eq env declaration
  rw [h] at hrefused
  exact (enter_refused_iff.1 hrefused).1

theorem verdict_eq_some_iff :
    env.verdict declaration = some conflict ↔ env.enter declaration = ⟨env, some conflict⟩ := by
  rw [enter_eq, Attempt.mk.injEq]
  exact ⟨fun h => ⟨submit_of_verdict_eq_some h, h⟩, And.right⟩

/-- A submitted entry is filed if its key is free. -/
theorem submit_keyed (env : Environment) (family : Family) (entry : family.Entry) :
    env.submit (.keyed family entry) =
      if (env.table family).find? (family.key entry) = none then
        env.withTable family ((env.table family).file entry)
      else env := by
  cases hverdict : env.verdict (.keyed family entry) with
  | none =>
    obtain ⟨hfree, hsubmit⟩ := enter_keyed_accepted_iff.1 (verdict_eq_none_iff.1 hverdict)
    rw [if_pos hfree, hsubmit]
  | some conflict =>
    obtain ⟨-, existing, htaken, -⟩ := enter_keyed_refused_iff.1 (verdict_eq_some_iff.1 hverdict)
    rw [if_neg (by simp [htaken]), submit_of_verdict_eq_some hverdict]

theorem submit_extension (env : Environment) (added : Extension) :
    env.submit (.extension added) = { env with extensions := env.extensions.add added } := rfl

/-- A submission is refused exactly when its claim is held. -/
theorem verdict_eq (env : Environment) (declaration : Declaration) :
    env.verdict declaration =
      declaration.claim?.bind fun claim =>
        (env.holder? claim).map fun holder => claim.conflict holder declaration := by
  refine Option.ext fun conflict => ?_
  rw [verdict_eq_some_iff, enter_refused_iff]
  simp only [true_and, Option.bind_eq_some_iff, Option.map_eq_some_iff]
  constructor
  · intro hrefused
    obtain ⟨claim, holder, hclaim, hholder, rfl⟩ := hrefused
    exact ⟨claim, hclaim, holder, hholder, rfl⟩
  · intro hheld
    obtain ⟨claim, hclaim, holder, hholder, rfl⟩ := hheld
    exact ⟨claim, holder, hclaim, hholder, rfl⟩

/-- One submission gives its claim to the declaration, unless the claim is held already. -/
theorem holder?_submit (env : Environment) (declaration : Declaration) (claim : Claim) :
    (env.submit declaration).holder? claim =
      (env.holder? claim).or (claim.firstIn? [declaration]) := by
  cases hverdict : env.verdict declaration with
  | none =>
    have haccepted := verdict_eq_none_iff.1 hverdict
    rw [holder?_of_enter_accepted haccepted, Claim.firstIn?_cons, Claim.firstIn?_nil]
    by_cases hclaim : declaration.claim? = some claim
    · rw [if_pos hclaim, if_pos hclaim, holder?_eq_none_of_enter_accepted haccepted hclaim,
        Option.none_or]
    · rw [if_neg hclaim, if_neg hclaim, Option.or_none]
  | some conflict =>
    rw [submit_of_verdict_eq_some hverdict, Claim.firstIn?_cons, Claim.firstIn?_nil]
    by_cases hclaim : declaration.claim? = some claim
    · -- the claim it was refused for is held, so it does not count as first
      rw [verdict_eq, hclaim, Option.bind_some, Option.map_eq_some_iff] at hverdict
      obtain ⟨holder, hholder, -⟩ := hverdict
      rw [hholder, Option.some_or]
    · rw [if_neg hclaim, Option.or_none]

theorem find_submit (env : Environment) (declaration : Declaration) (target : ModuleName) :
    (env.submit declaration).extensions.find target =
      env.extensions.find target ++ (declaration.extensionOf? target).toList := by
  cases hverdict : env.verdict declaration with
  | none => exact find_of_enter_accepted (verdict_eq_none_iff.1 hverdict) target
  | some conflict =>
    obtain ⟨-, claim, holder, hclaim, -⟩ := enter_refused_iff.1 (verdict_eq_some_iff.1 hverdict)
    rw [submit_of_verdict_eq_some hverdict]
    cases declaration with
    | keyed family entry => simp
    | extension added => cases hclaim

/-! ## The first declaration of a batch -/

/-- Behind an accepted declaration a batch goes on with what that one leaves. -/
theorem value_declareAll_cons_of_verdict_eq_none (h : env.verdict declaration = none)
    (later : List Declaration) :
    (env.declareAll (declaration :: later)).value =
      ((env.submit declaration).declareAll later).value := by
  rw [value_declareAll_cons, verdict_eq_none_iff.1 h]

/-- At a refused declaration a batch is over, and leaves what there was. -/
theorem value_declareAll_cons_of_verdict_eq_some (h : env.verdict declaration = some conflict)
    (later : List Declaration) :
    (env.declareAll (declaration :: later)).value = ⟨env, some conflict⟩ := by
  rw [value_declareAll_cons, verdict_eq_some_iff.1 h]

/-! ## A row of submissions -/

@[simp] theorem submitAll_nil (env : Environment) : env.submitAll [] = env := rfl

@[simp] theorem submitAll_cons (env : Environment) (declaration : Declaration)
    (later : List Declaration) :
    env.submitAll (declaration :: later) = (env.submit declaration).submitAll later := rfl

/-- Whoever makes a claim first in a row holds it afterwards, unless it was held before. -/
theorem holder?_submitAll (env : Environment) (declarations : List Declaration) (claim : Claim) :
    (env.submitAll declarations).holder? claim =
      (env.holder? claim).or (claim.firstIn? declarations) := by
  -- for every environment, since the first submission changes what the others meet
  induction declarations generalizing env with
  | nil => simp
  | cons declaration later ih =>
    have hcons := claim.firstIn?_append [declaration] later
    rw [List.singleton_append] at hcons
    rw [submitAll_cons, ih, holder?_submit, hcons, Option.or_assoc]

/-- After a row a claim is free if it was free before and the row does not make it. -/
theorem holder?_submitAll_eq_none_iff {declarations : List Declaration} :
    (env.submitAll declarations).holder? claim = none ↔
      env.holder? claim = none ∧ claim ∉ declarations.filterMap Declaration.claim? := by
  rw [holder?_submitAll, Option.or_eq_none_iff, Claim.firstIn?_eq_none_iff]

/-- The extensions of a target gather behind those that it had, in the order of the row. -/
theorem find_submitAll (env : Environment) (declarations : List Declaration)
    (target : ModuleName) :
    (env.submitAll declarations).extensions.find target =
      env.extensions.find target ++ declarations.filterMap (·.extensionOf? target) := by
  induction declarations generalizing env with
  | nil => simp
  | cons declaration later ih =>
    rw [submitAll_cons, ih, find_submit, List.append_assoc]
    cases h : declaration.extensionOf? target with
    | none => rw [List.filterMap_cons_none h, Option.toList_none, List.nil_append]
    | some added =>
      rw [List.filterMap_cons_some h, Option.toList_some, List.singleton_append]

theorem getElem?_verdicts (env : Environment) (declarations : List Declaration) (index : Nat) :
    (env.verdicts declarations)[index]? =
      declarations[index]?.map (env.submitAll (declarations.take index)).verdict := by
  induction declarations generalizing env index with
  | nil => rfl
  | cons declaration later ih =>
    cases index with
    | zero => rfl
    | succ index =>
      rw [verdicts, List.getElem?_cons_succ, ih, List.getElem?_cons_succ, List.take_succ_cons,
        submitAll_cons]

/-- After a row, a submission is refused exactly if the row has a claimant of its claim. -/
theorem verdict_submitAll (earlier : List Declaration) (declaration : Declaration) :
    (empty.submitAll earlier).verdict declaration =
      declaration.claim?.bind fun claim =>
        (claim.firstIn? earlier).map fun first => claim.conflict first declaration := by
  simp only [verdict_eq, holder?_submitAll, holder?_empty, Option.none_or]

/-- What is found in a table after a row is the first claimant of the key. -/
theorem find?_table_submitAll (declarations : List Declaration) (family : Family)
    (key : family.Key) :
    (((empty.submitAll declarations).table family).find? key).map (.keyed family) =
      Claim.firstIn? ⟨family, key⟩ declarations := by
  rw [← holder?_mk, holder?_submitAll, holder?_empty, Option.none_or]

theorem extensionsOf_submitAll (declarations : List Declaration) (target : ModuleName) :
    (empty.submitAll declarations).extensionsOf target =
      declarations.filterMap (·.extensionOf? target) := by
  have hempty : empty.extensions.find target = [] := ExtensionIndex.find_empty target
  rw [extensionsOf, find_submitAll, hempty, List.nil_append]

/-! ## The first claim wins -/

/-- The row up to a declaration has a first claimant of its claim exactly if it
has a claimant, and the whole row has the same. -/
private theorem refused_iff {declarations : List Declaration} {index : Nat} :
    ((empty.submitAll (declarations.take index)).verdict declaration).isSome = true ↔
      ∃ earlier ∈ declarations.take index, ∃ claim,
        earlier.claim? = some claim ∧ declaration.claim? = some claim := by
  rw [verdict_submitAll]
  cases hclaim : declaration.claim? with
  | none => simp
  | some claim =>
    rw [Option.bind_some, Option.isSome_map, Claim.isSome_firstIn?_iff]
    constructor
    · intro hfirst
      obtain ⟨earlier, hmem, hearlier⟩ := hfirst
      exact ⟨earlier, hmem, claim, hearlier, rfl⟩
    · intro hclaimed
      obtain ⟨earlier, hmem, other, hearlier, hsame⟩ := hclaimed
      obtain rfl := Option.some.inj hsame
      exact ⟨earlier, hmem, hearlier⟩

private theorem report_of_refused {declarations : List Declaration} {index : Nat}
    (h : (empty.submitAll (declarations.take index)).verdict declaration = some conflict) :
    ∃ claim first, declaration.claim? = some claim ∧ claim.firstIn? declarations = some first ∧
      conflict = ⟨claim.text, first.site, declaration.site⟩ := by
  rw [verdict_submitAll, Option.bind_eq_some_iff] at h
  obtain ⟨claim, hclaim, hmap⟩ := h
  obtain ⟨first, hfirst, rfl⟩ := Option.map_eq_some_iff.1 hmap
  refine ⟨claim, first, hclaim, ?_, rfl⟩
  rw [← List.take_append_drop index declarations, Claim.firstIn?_append, hfirst, Option.some_or]

/-- A class under a relative name, then a module under the same name at the root. -/
def classThenModule : List Declaration :=
  [.ofClass ⟨⟨.empty, "A"⟩, [], none, [], ⟨0, 5⟩⟩, .ofModule ⟨⟨.root, "A"⟩, [], none, [], ⟨6, 9⟩⟩]

end ScopedSignatures.Environment
