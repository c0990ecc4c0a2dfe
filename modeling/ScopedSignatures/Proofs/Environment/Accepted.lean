import ScopedSignatures.Proofs.Environment.Growth

/-!
# What a row has accepted

The declarations of a row of submissions that are accepted, in the order of the row.
Each of them makes the environment larger by one, and the refused ones do not, so
the size of an environment tells how many there were.

## Main definitions

* `Environment.accepted` — the declarations of a row on which nothing is reported

## Main results

* `Environment.accepted_cons` — the first declaration of a row, and the others
* `Environment.size_submitAll` — the size grows by what is accepted
* `Environment.reachable_submitAll` — a row is a way to reach an environment
-/

namespace ScopedSignatures.Environment

variable {env : Environment} {declaration : Declaration} {declarations : List Declaration}

/-- The declarations of a row that are accepted: nothing is reported on them. -/
def accepted (env : Environment) (declarations : List Declaration) : List Declaration :=
  ((declarations.zip (env.verdicts declarations)).filter fun report =>
    report.2.isNone).map Prod.fst

theorem accepted_singleton_of_verdict_eq_none (h : env.verdict declaration = none) :
    env.accepted [declaration] = [declaration] := by
  simp [accepted, verdicts, h]

theorem accepted_singleton_of_verdict_eq_some {conflict : Conflict}
    (h : env.verdict declaration = some conflict) : env.accepted [declaration] = [] := by
  simp [accepted, verdicts, h]

/-- The others of a row meet what the first declaration leaves. -/
theorem accepted_cons (env : Environment) (declaration : Declaration)
    (later : List Declaration) :
    env.accepted (declaration :: later) =
      env.accepted [declaration] ++ (env.submit declaration).accepted later := by
  simp only [accepted, verdicts, List.zip_cons_cons, List.zip_nil_left, List.filter_cons]
  split <;> simp

/-- As many declarations are accepted as submissions report nothing. -/
theorem length_accepted (env : Environment) (declarations : List Declaration) :
    (env.accepted declarations).length = (env.verdicts declarations).count none := by
  induction declarations generalizing env with
  | nil => rfl
  | cons declaration later ih =>
    rw [accepted_cons, List.length_append, ih, verdicts, List.count_cons, Nat.add_comm]
    congr 1
    cases hverdict : env.verdict declaration with
    | none =>
      rw [accepted_singleton_of_verdict_eq_none hverdict]
      rfl
    | some conflict =>
      rw [accepted_singleton_of_verdict_eq_some hverdict]
      rfl

theorem size_submit (env : Environment) (declaration : Declaration) :
    (env.submit declaration).size = env.size + (env.accepted [declaration]).length := by
  cases hverdict : env.verdict declaration with
  | none =>
    rw [size_of_enter_accepted (verdict_eq_none_iff.1 hverdict),
      accepted_singleton_of_verdict_eq_none hverdict, List.length_singleton]
  | some conflict =>
    rw [submit_of_verdict_eq_some hverdict, accepted_singleton_of_verdict_eq_some hverdict,
      List.length_nil, Nat.add_zero]

/-- A row makes an environment larger by the declarations that are accepted. -/
theorem size_submitAll (env : Environment) (declarations : List Declaration) :
    (env.submitAll declarations).size = env.size + (env.accepted declarations).length := by
  induction declarations generalizing env with
  | nil => rfl
  | cons declaration later ih =>
    rw [submitAll_cons, ih, size_submit, accepted_cons env declaration later, List.length_append,
      Nat.add_assoc]

theorem Grows.submitAll {later : Environment} (h : env.Grows later)
    (declarations : List Declaration) : env.Grows (later.submitAll declarations) := by
  induction declarations generalizing later with
  | nil => exact h
  | cons declaration others ih => exact ih (h.submit declaration)

theorem reachable_submitAll (declarations : List Declaration) :
    (empty.submitAll declarations).Reachable :=
  Grows.submitAll .refl declarations

end ScopedSignatures.Environment
