import ScopedSignatures.Proofs.Environment.Batch

/-!
# Where a batch stops

A declaration of a batch collides if its claim is held before the batch, or is made
earlier in it. A batch without collisions is accepted. Any other stops at its first
collision: what comes before is entered as if by itself, the rest is left out.

## Main definitions

* `Environment.CollidesAt` — the declaration at a position collides
* `Environment.StopsAt` — a batch has come to its end at a position

## Main results

* `Environment.collidesAt_iff_refused` — a declaration that collides is refused by what is there
* `Environment.exists_stopsAt` — a batch that reports a conflict stops at its first collision
* `Environment.batch_stops_at_first_collision` — batches as wholes, in parts, and from nothing
-/

namespace ScopedSignatures.Environment

variable {env : Environment} {declarations : List Declaration} {index : Nat}
  {conflict : Conflict}

/-- The claim of the declaration at a position is held already, or one of those
before it in the row makes it. -/
def CollidesAt (env : Environment) (declarations : List Declaration) (index : Nat) : Prop :=
  ∃ declaration claim, declarations[index]? = some declaration ∧
    declaration.claim? = some claim ∧
      ((env.holder? claim).isSome = true ∨
        ∃ earlier ∈ declarations.take index, earlier.claim? = some claim)

/-- A batch has come to its end at a position. -/
structure StopsAt (env : Environment) (declarations : List Declaration) (index : Nat)
    (batch : Attempt Environment) : Prop where
  collides : env.CollidesAt declarations index
  /-- There is no collision before. -/
  first : ∀ earlier < index, ¬ env.CollidesAt declarations earlier
  /-- The report sets the declaration against whoever holds its claim by then. -/
  report : ∃ declaration claim holder, declarations[index]? = some declaration ∧
    declaration.claim? = some claim ∧
      (env.holder? claim).or (claim.firstIn? (declarations.take index)) = some holder ∧
        batch.conflict = some ⟨claim.text, holder.site, declaration.site⟩
  /-- The declarations before it are entered as if one by one. -/
  state_eq : batch.state = env.submitAll (declarations.take index)
  /-- Each of them is accepted, so each counts. -/
  size_eq : batch.state.size = env.size + index
  /-- Neither the declaration nor a later one holds anything. -/
  holder?_eq : ∀ claim, batch.state.holder? claim =
    (env.holder? claim).or (claim.firstIn? (declarations.take index))
  /-- Neither the declaration nor a later one extends anything. -/
  extensionsOf_eq : ∀ target, batch.state.extensionsOf target =
    env.extensionsOf target ++ (declarations.take index).filterMap (·.extensionOf? target)

/-! ## Collisions -/

/-- A declaration collides exactly if what the ones before it leave refuses it. -/
theorem collidesAt_iff_refused :
    env.CollidesAt declarations index ↔
      ∃ declaration, declarations[index]? = some declaration ∧
        ((env.submitAll (declarations.take index)).verdict declaration).isSome = true := by
  have hheld : ∀ claim : Claim,
      ((env.submitAll (declarations.take index)).holder? claim).isSome = true ↔
        (env.holder? claim).isSome = true ∨
          ∃ earlier ∈ declarations.take index, earlier.claim? = some claim := by
    intro claim
    rw [holder?_submitAll, Option.isSome_or, Bool.or_eq_true, Claim.isSome_firstIn?_iff]
  constructor
  · intro hcollides
    obtain ⟨declaration, claim, hindex, hclaim, htaken⟩ := hcollides
    refine ⟨declaration, hindex, ?_⟩
    rw [verdict_eq, hclaim, Option.bind_some, Option.isSome_map]
    exact (hheld claim).2 htaken
  · intro hrefused
    obtain ⟨declaration, hindex, hverdict⟩ := hrefused
    rw [verdict_eq] at hverdict
    cases hclaim : declaration.claim? with
    | none =>
      rw [hclaim] at hverdict
      cases hverdict
    | some claim =>
      rw [hclaim, Option.bind_some, Option.isSome_map] at hverdict
      exact ⟨declaration, claim, hindex, hclaim, (hheld claim).1 hverdict⟩

/-- What an admitted row begins with is admitted. -/
theorem Admits.take (h : env.Admits declarations) (count : Nat) :
    env.Admits (declarations.take count) := by
  rw [← List.take_append_drop count declarations] at h
  exact (admits_append_iff.1 h).1

/-- No declaration collides in the part of a row that is admitted. -/
theorem Admits.not_collidesAt (h : env.Admits (declarations.take index)) {earlier : Nat}
    (hearlier : earlier < index) : ¬ env.CollidesAt declarations earlier := by
  intro hcollides
  obtain ⟨declaration, hdeclaration, hrefused⟩ := collidesAt_iff_refused.1 hcollides
  -- the row up to and with the declaration is admitted too, so it is not refused
  have hwith := h.take (earlier + 1)
  rw [List.take_take, Nat.min_eq_left hearlier, List.take_add_one, hdeclaration,
    Option.toList_some, admits_append_iff, admits_singleton_iff] at hwith
  obtain ⟨-, haccepted⟩ := hwith
  rw [haccepted] at hrefused
  cases hrefused

/-! ## The end of a batch -/

/-- A batch with a conflict was admitted up to a declaration that is refused. -/
theorem exists_refused_of_conflict
    (h : (env.declareAll declarations).value.conflict = some conflict) :
    ∃ index declaration, declarations[index]? = some declaration ∧
      env.Admits (declarations.take index) ∧
      (env.submitAll (declarations.take index)).verdict declaration = some conflict ∧
      (env.declareAll declarations).value.state = env.submitAll (declarations.take index) := by
  induction declarations generalizing env with
  | nil => cases h
  | cons declaration later ih =>
    cases hverdict : env.verdict declaration with
    | none =>
      rw [value_declareAll_cons_of_verdict_eq_none hverdict] at h ⊢
      obtain ⟨index, refused, hindex, hadmits, hrefused, hstate⟩ := ih h
      refine ⟨index + 1, refused, hindex, ?_, hrefused, hstate⟩
      rw [List.take_succ_cons, admits_cons_iff]
      exact ⟨hverdict, hadmits⟩
    | some reported =>
      rw [value_declareAll_cons_of_verdict_eq_some hverdict] at h ⊢
      obtain rfl : reported = conflict := Option.some.inj h
      exact ⟨0, declaration, rfl, admits_nil env, hverdict, rfl⟩

/-- A batch that reports a conflict stops at its first collision. -/
theorem exists_stopsAt (h : (env.declareAll declarations).value.conflict = some conflict) :
    ∃ index, env.StopsAt declarations index (env.declareAll declarations).value := by
  obtain ⟨index, declaration, hindex, hadmits, hrefused, hstate⟩ := exists_refused_of_conflict h
  refine ⟨index, ?_⟩
  constructor
  case collides =>
    apply collidesAt_iff_refused.2
    refine ⟨declaration, hindex, ?_⟩
    rw [hrefused, Option.isSome_some]
  case first =>
    intro earlier hearlier
    exact hadmits.not_collidesAt hearlier
  case report =>
    rw [verdict_eq, Option.bind_eq_some_iff] at hrefused
    obtain ⟨claim, hclaim, hreport⟩ := hrefused
    obtain ⟨holder, hholder, rfl⟩ := Option.map_eq_some_iff.1 hreport
    rw [holder?_submitAll] at hholder
    exact ⟨declaration, claim, holder, hindex, hclaim, hholder, h⟩
  case state_eq => exact hstate
  case size_eq =>
    have hlength : (declarations.take index).length = index := by
      obtain ⟨hlt, -⟩ := List.getElem?_eq_some_iff.1 hindex
      rw [List.length_take, Nat.min_eq_left (Nat.le_of_lt hlt)]
    rw [hstate, size_submitAll_of_admits hadmits, hlength]
  case holder?_eq =>
    intro claim
    rw [hstate, holder?_submitAll]
  case extensionsOf_eq =>
    intro target
    rw [hstate]
    exact find_submitAll env (declarations.take index) target

/-! ## Batches -/

/-- **A batch stops at its first collision.** It is accepted exactly if nothing that
it claims is held already or claimed in it twice. If it is not, it stops at the
first declaration that collides, with a report on that one, and leaves what those
before it leave one by one. So the second part of a batch is entered only if the
first is accepted, and a batch makes an environment from nothing exactly if it is
accepted by the empty one. -/
theorem batch_stops_at_first_collision (env : Environment) (declarations : List Declaration) :
    ((env.declareAll declarations).value.conflict = none ↔ env.Admits declarations) ∧
    (∀ conflict, (env.declareAll declarations).value.conflict = some conflict →
      ∃ index, env.StopsAt declarations index (env.declareAll declarations).value) ∧
    (∀ later, (env.declareAll (declarations ++ later)).value =
      match (env.declareAll declarations).value with
      | ⟨result, none⟩ => (result.declareAll later).value
      | ⟨result, some conflict⟩ => ⟨result, some conflict⟩) ∧
    ∀ result, (ofDeclarations declarations).value = .ok result ↔
      (empty.declareAll declarations).value = ⟨result, none⟩ := by
  refine ⟨conflict_declareAll_eq_none_iff, ?_, ?_, ?_⟩
  · intro conflict hconflict
    exact exists_stopsAt hconflict
  · intro later
    exact value_declareAll_append env declarations later
  · intro result
    exact value_ofDeclarations_eq_ok_iff_declareAll

/-- An environment with one class. -/
def withHeldClass : Environment := empty.submit (.ofClass ⟨⟨.root, "A"⟩, [], none, [], ⟨0, 5⟩⟩)

/-- A batch with two collisions: a module meets the class, and a constant meets
the one that the batch begins with. -/
def collidingBatch : List Declaration :=
  [.ofConstant ⟨⟨.root, "A"⟩, .base .any, ⟨6, 9⟩⟩, .extension ⟨⟨.root, "A"⟩, "x", [], [], ⟨10, 15⟩⟩,
    .ofModule ⟨⟨.empty, "A"⟩, [], none, [], ⟨16, 20⟩⟩,
    .ofConstant ⟨⟨.empty, "A"⟩, .base .nil, ⟨21, 25⟩⟩]

theorem batch_stopped_by_held_class :
    (withHeldClass.declareAll collidingBatch).value.conflict =
        some ⟨"::A", ⟨.classDef, ⟨0, 5⟩⟩, ⟨.moduleDef, ⟨16, 20⟩⟩⟩ ∧
      withHeldClass.StopsAt collidingBatch 2 (withHeldClass.declareAll collidingBatch).value := by
  have hconflict : (withHeldClass.declareAll collidingBatch).value.conflict =
    some ⟨"::A", ⟨.classDef, ⟨0, 5⟩⟩, ⟨.moduleDef, ⟨16, 20⟩⟩⟩ := rfl
  obtain ⟨-, hstops, -⟩ := batch_stops_at_first_collision withHeldClass collidingBatch
  obtain ⟨index, hindex⟩ := hstops _ hconflict
  -- the class, the constant and the extension are left, so two declarations were entered
  have hsize : 3 = 1 + index := hindex.size_eq
  obtain rfl : index = 2 := by omega
  exact ⟨hconflict, hindex⟩

end ScopedSignatures.Environment
