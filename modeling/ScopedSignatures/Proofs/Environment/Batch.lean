import ScopedSignatures.Proofs.Environment.Submission

/-!
# Batches

A batch stops at its first conflict, so it is accepted as a whole exactly if no
declaration in it makes a claim that was held before or is made by an earlier one
of the batch. An accepted batch leaves what its declarations leave when they are
submitted one by one.

## Main definitions

* `Environment.Admits` — no claim of a row is held already or made twice

## Main results

* `Environment.conflict_declareAll_eq_none_iff` — the batches that are accepted
* `Environment.state_declareAll_of_admits` — what an accepted batch leaves
* `Environment.value_ofDeclarations_eq_ok_iff_declareAll`,
  `Environment.value_ofDeclarations_eq_ok_iff` — the environments that batches make
-/

namespace ScopedSignatures.Environment

variable {env result : Environment} {declaration : Declaration}
  {declarations later : List Declaration}

/-- What a row claims is free, and nothing is claimed twice. -/
structure Admits (env : Environment) (declarations : List Declaration) : Prop where
  distinct : (declarations.filterMap Declaration.claim?).Nodup
  free : ∀ claim ∈ declarations.filterMap Declaration.claim?, env.holder? claim = none

theorem admits_nil (env : Environment) : env.Admits [] :=
  ⟨List.nodup_nil, fun _ hmem => absurd hmem List.not_mem_nil⟩

theorem admits_singleton_iff : env.Admits [declaration] ↔ env.verdict declaration = none := by
  have hfree : env.verdict declaration = none ↔
      ∀ claim, declaration.claim? = some claim → env.holder? claim = none := by
    rw [verdict_eq, Option.bind_eq_none_iff]
    simp only [Option.map_eq_none_iff]
  rw [hfree]
  constructor
  · intro h claim hclaim
    exact h.free claim (List.mem_filterMap.2 ⟨declaration, List.mem_cons_self, hclaim⟩)
  · intro h
    constructor
    · cases hclaim : declaration.claim? <;> simp [hclaim]
    · intro claim hmem
      obtain ⟨other, hother, hclaim⟩ := List.mem_filterMap.1 hmem
      obtain rfl := List.mem_singleton.1 hother
      exact h claim hclaim

/-- A row in two parts is admitted if the first part is, and the second by what
the first part leaves. -/
theorem admits_append_iff :
    env.Admits (declarations ++ later) ↔
      env.Admits declarations ∧ (env.submitAll declarations).Admits later := by
  constructor
  · intro hadmits
    obtain ⟨hdistinct, hfree⟩ := hadmits
    rw [List.filterMap_append] at hdistinct hfree
    obtain ⟨hfirst, hsecond, happart⟩ := List.nodup_append.1 hdistinct
    refine ⟨⟨hfirst, fun claim hmem => hfree claim (List.mem_append_left _ hmem)⟩, hsecond, ?_⟩
    intro claim hmem
    -- a claim of the second part is free in between because the first does not make it
    apply holder?_submitAll_eq_none_iff.2
    exact ⟨hfree claim (List.mem_append_right _ hmem),
      fun hmade => happart claim hmade claim hmem rfl⟩
  · intro hparts
    obtain ⟨⟨hfirst, hfree⟩, hsecond, hlater⟩ := hparts
    have hbetween : ∀ claim ∈ later.filterMap Declaration.claim?,
        env.holder? claim = none ∧ claim ∉ declarations.filterMap Declaration.claim? :=
      fun claim hmem => holder?_submitAll_eq_none_iff.1 (hlater claim hmem)
    constructor
    · rw [List.filterMap_append, List.nodup_append]
      refine ⟨hfirst, hsecond, fun claim hmade other hmem hsame => ?_⟩
      exact (hbetween other hmem).2 (hsame ▸ hmade)
    · intro claim hmem
      rw [List.filterMap_append] at hmem
      rcases List.mem_append.1 hmem with hmade | hmade
      · exact hfree claim hmade
      · exact (hbetween claim hmade).1

theorem admits_cons_iff :
    env.Admits (declaration :: later) ↔
      env.verdict declaration = none ∧ (env.submit declaration).Admits later := by
  rw [← List.singleton_append, admits_append_iff, admits_singleton_iff]
  rfl

/-! ## Accepted batches -/

/-- A batch is accepted as a whole exactly if it is admitted. -/
theorem conflict_declareAll_eq_none_iff :
    (env.declareAll declarations).value.conflict = none ↔ env.Admits declarations := by
  induction declarations generalizing env with
  | nil => exact iff_of_true rfl (admits_nil env)
  | cons declaration later ih =>
    rw [admits_cons_iff]
    cases hverdict : env.verdict declaration with
    | none =>
      rw [value_declareAll_cons_of_verdict_eq_none hverdict]
      exact ih.trans (and_iff_right rfl).symm
    | some conflict =>
      rw [value_declareAll_cons_of_verdict_eq_some hverdict]
      simp

/-- An accepted batch leaves what its declarations leave one by one. -/
theorem state_declareAll_of_admits (h : env.Admits declarations) :
    (env.declareAll declarations).value.state = env.submitAll declarations := by
  induction declarations generalizing env with
  | nil => rfl
  | cons declaration later ih =>
    obtain ⟨hverdict, hlater⟩ := admits_cons_iff.1 h
    rw [value_declareAll_cons_of_verdict_eq_none hverdict, submitAll_cons]
    exact ih hlater

/-- An admitted row makes an environment larger by its length. -/
theorem size_submitAll_of_admits (h : env.Admits declarations) :
    (env.submitAll declarations).size = env.size + declarations.length := by
  induction declarations generalizing env with
  | nil => rfl
  | cons declaration later ih =>
    obtain ⟨hverdict, hlater⟩ := admits_cons_iff.1 h
    rw [submitAll_cons, ih hlater, size_of_enter_accepted (verdict_eq_none_iff.1 hverdict),
      List.length_cons]
    omega

/-- The empty environment admits whatever makes no claim twice. -/
theorem admits_empty_iff :
    empty.Admits declarations ↔ (declarations.filterMap Declaration.claim?).Nodup :=
  ⟨Admits.distinct, fun h => ⟨h, fun claim _ => holder?_empty claim⟩⟩

/-- A batch makes an environment from nothing exactly if it is accepted there. -/
theorem value_ofDeclarations_eq_ok_iff_declareAll :
    (ofDeclarations declarations).value = .ok result ↔
      (empty.declareAll declarations).value = ⟨result, none⟩ := by
  rw [ofDeclarations, Journaled.value_map]
  rcases (empty.declareAll declarations).value with ⟨left, _ | conflict⟩ <;> simp

/-- A batch makes an environment exactly if it makes no claim twice. -/
theorem value_ofDeclarations_eq_ok_iff :
    (ofDeclarations declarations).value = .ok result ↔
      (declarations.filterMap Declaration.claim?).Nodup ∧
        result = empty.submitAll declarations := by
  rw [value_ofDeclarations_eq_ok_iff_declareAll, ← admits_empty_iff]
  constructor
  · intro hvalue
    have hadmits : empty.Admits declarations := conflict_declareAll_eq_none_iff.1 (by rw [hvalue])
    refine ⟨hadmits, ?_⟩
    rw [← state_declareAll_of_admits hadmits, hvalue]
  · rintro ⟨hadmits, rfl⟩
    rw [← state_declareAll_of_admits hadmits, ← conflict_declareAll_eq_none_iff.2 hadmits]

end ScopedSignatures.Environment
