import Mathlib.Logic.Relation
import ScopedSignatures.Proofs.Environment.Submission

/-!
# Growth

Declarations and batches are all that changes an environment, and neither takes
anything away: a refused declaration changes nothing, and a batch keeps what it
had entered before its conflict. So whatever a row of calls leads to is reached by
accepted declarations alone, and what holds of every environment that calls lead
to has to be checked for one accepted declaration only.

## Main definitions

* `Environment.Accepts` — one accepted declaration leads to the other environment
* `Environment.Grows` — declarations and batches lead there, refused ones among them
* `Environment.Reachable` — they lead there from the empty environment

## Main results

* `Environment.Grows.accepted` — growth is a row of accepted declarations
* `Environment.Grows.invariant` — what accepted declarations keep, growth keeps
* `Environment.holder?_of_grows` — a claim that is held stays with its holder
-/

namespace ScopedSignatures.Environment

variable {env later result : Environment} {declaration : Declaration} {claim : Claim}

/-- The other environment is this one with one more declaration. -/
def Accepts (env result : Environment) : Prop :=
  ∃ declaration, env.enter declaration = ⟨result, none⟩

/-- Declarations and batches lead from one environment to another. Nothing is
asked of them, so some may be refused and some may stop halfway. -/
inductive Grows (env : Environment) : Environment → Prop where
  | refl : Grows env env
  | submit {later : Environment} (h : Grows env later) (declaration : Declaration) :
      Grows env (later.submit declaration)
  | declareAll {later : Environment} (h : Grows env later) (declarations : List Declaration) :
      Grows env (later.declareAll declarations).value.state

/-- Declarations and batches lead there from the environment without declarations. -/
def Reachable (env : Environment) : Prop := empty.Grows env

/-! ## Growth by accepted declarations -/

theorem accepted_submit (env : Environment) (declaration : Declaration) :
    Relation.ReflTransGen Accepts env (env.submit declaration) := by
  cases hverdict : env.verdict declaration with
  | none =>
    have haccepted := verdict_eq_none_iff.1 hverdict
    exact .single ⟨declaration, haccepted⟩
  | some conflict =>
    rw [submit_of_verdict_eq_some hverdict]

/-- A batch enters accepted declarations up to its conflict, and then nothing more. -/
theorem accepted_declareAll (env : Environment) (declarations : List Declaration) :
    Relation.ReflTransGen Accepts env (env.declareAll declarations).value.state := by
  induction declarations generalizing env with
  | nil => exact .refl
  | cons declaration later ih =>
    cases hverdict : env.verdict declaration with
    | none =>
      have haccepted := verdict_eq_none_iff.1 hverdict
      rw [value_declareAll_cons_of_verdict_eq_none hverdict]
      exact .head ⟨declaration, haccepted⟩ (ih _)
    | some conflict => rw [value_declareAll_cons_of_verdict_eq_some hverdict]

/-- Growth is a row of accepted declarations. -/
theorem Grows.accepted (h : env.Grows later) : Relation.ReflTransGen Accepts env later := by
  induction h with
  | refl => exact .refl
  | submit _ declaration ih => exact ih.trans (accepted_submit _ declaration)
  | declareAll _ declarations ih => exact ih.trans (accepted_declareAll _ declarations)

/-- What one accepted declaration keeps is kept by growth. -/
theorem Grows.invariant {P : Environment → Prop} (h : env.Grows later) (hstart : P env)
    (hstep : ∀ {env result}, P env → env.Accepts result → P result) : P later := by
  replace h := h.accepted
  induction h with
  | refl => exact hstart
  | tail _ hlast ih => exact hstep ih hlast

/-! ## What is held stays -/

theorem holder?_of_accepts {holder : Declaration} (h : env.Accepts result)
    (hheld : env.holder? claim = some holder) : result.holder? claim = some holder := by
  obtain ⟨declaration, hentered⟩ := h
  have hother : declaration.claim? ≠ some claim := by
    intro hclaim
    have hfree := holder?_eq_none_of_enter_accepted hentered hclaim
    rw [hheld] at hfree
    cases hfree
  rw [holder?_of_enter_accepted hentered, if_neg hother, hheld]

/-- A claim that is held stays with its holder however the environment grows. -/
theorem holder?_of_grows {holder : Declaration} (h : env.Grows later)
    (hheld : env.holder? claim = some holder) : later.holder? claim = some holder :=
  h.invariant hheld fun hbefore haccepts => holder?_of_accepts haccepts hbefore

theorem find?_of_grows {family : Family} {key : family.Key} {entry : family.Entry}
    (h : env.Grows later) (hfound : (env.table family).find? key = some entry) :
    (later.table family).find? key = some entry := by
  have hheld := holder?_eq_some_keyed_iff.2 hfound
  exact holder?_eq_some_keyed_iff.1 (holder?_of_grows h hheld)

end ScopedSignatures.Environment
