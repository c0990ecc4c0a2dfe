import ScopedSignatures.Proofs.Environment.Query
import ScopedSignatures.Proofs.Environment.Submission

/-!
# Families do not interfere

An environment has a compartment for each family and one for the extensions.
Every declaration goes into one compartment and every query reads one, whatever
the names are: a class, a constant and an extension may all be called `A`. So what
a row of submissions reports on the declarations of a compartment, and what is
found there afterwards, is what the part of the row that concerns the compartment
reports and leaves alone.

## Main definitions

* `Compartment` — the table of a family, or the extensions
* `Compartment.select` — the part of a row that concerns a compartment
* `Environment.AgreeOn` — two environments have the same in a compartment
* `Environment.reportsIn` — what a row reports on the declarations of a compartment

## Main results

* `Environment.AgreeOn.submit` — a submission reads no compartment but its own
* `Environment.agreeOn_submit_of_ne` — and changes no other
* `Environment.agreeOn_submitAll_select`, `Environment.reportsIn_eq_zip` — the same for rows
* `Environment.compartments_do_not_interfere` — rows that concern a compartment alike
-/

namespace ScopedSignatures

/-- A part of an environment that a declaration can go into. -/
inductive Compartment where
  | table (family : Family)
  | extensions
  deriving DecidableEq, Repr

/-- Where a declaration goes. -/
def Declaration.compartment : Declaration → Compartment
  | keyed family _ => .table family
  | extension _ => .extensions

/-- What a query reads. -/
def Query.compartment : Query → Compartment
  | resolveClassOrModule _ _ | resolveClass _ _ | resolveModule _ _ => .table .classOrModule
  | isClass _ | isModule _ | listClasses | listModules => .table .classOrModule
  | lookUpInterface _ _ => .table .interface
  | resolveConstant _ _ | isConstant _ => .table .constant
  | findGlobal _ => .table .global
  | lookUpAlias _ _ => .table .typeAlias
  | findExtensions _ => .extensions
  | listEntries family => .table family

/-- The part of a row that concerns a compartment, in its order. -/
def Compartment.select (compartment : Compartment) (declarations : List Declaration) :
    List Declaration :=
  declarations.filter fun declaration => declaration.compartment = compartment

namespace Environment

variable {env other third : Environment} {compartment : Compartment} {declaration : Declaration}
  {declarations first second : List Declaration} {query : Query}

/-- Two environments have the same in a compartment. -/
def AgreeOn (env other : Environment) : Compartment → Prop
  | .table family => env.table family = other.table family
  | .extensions => env.extensions = other.extensions

/-- What a row reports on the declarations of a compartment, each with its report. -/
def reportsIn (env : Environment) (compartment : Compartment) (declarations : List Declaration) :
    List (Declaration × Option Conflict) :=
  (declarations.zip (env.verdicts declarations)).filter fun report =>
    report.1.compartment = compartment

theorem AgreeOn.refl (env : Environment) (compartment : Compartment) :
    env.AgreeOn env compartment := by
  cases compartment <;> rfl

theorem AgreeOn.trans (h : env.AgreeOn other compartment) (h' : other.AgreeOn third compartment) :
    env.AgreeOn third compartment := by
  cases compartment with
  | table family => exact Eq.trans h h'
  | extensions => exact Eq.trans h h'

/-! ## Queries -/

/-- A query cannot tell environments apart that have the same in its compartment. -/
theorem AgreeOn.ask (h : env.AgreeOn other query.compartment) :
    env.ask query = other.ask query := by
  cases query with
  | resolveClassOrModule | resolveClass | resolveModule | isClass | isModule =>
    have htable : env.table .classOrModule = other.table .classOrModule := h
    simp only [Environment.ask, resolveClass, resolveModule, resolveClassOrModule, isClass,
      isModule, htable]
  | listClasses | listModules =>
    have htable : env.classesAndModules = other.classesAndModules := h
    simp only [Environment.ask, classes, modules, htable]
  | lookUpInterface =>
    have htable : env.table .interface = other.table .interface := h
    simp only [Environment.ask, Environment.lookUpInterface, htable]
  | resolveConstant | isConstant =>
    have htable : env.table .constant = other.table .constant := h
    simp only [Environment.ask, Environment.resolveConstant, Environment.isConstant, htable]
  | findGlobal =>
    have htable : env.table .global = other.table .global := h
    simp only [Environment.ask, global?, htable]
  | lookUpAlias =>
    have htable : env.table .typeAlias = other.table .typeAlias := h
    simp only [Environment.ask, Environment.lookUpAlias, htable]
  | findExtensions =>
    have hextensions : env.extensions = other.extensions := h
    simp only [Environment.ask, extensionsOf, hextensions]
  | listEntries family =>
    have htable : env.table family = other.table family := h
    simp only [Environment.ask, htable]

/-! ## One submission -/

/-- A submission changes no compartment but its own. -/
theorem agreeOn_submit_of_ne (h : declaration.compartment ≠ compartment) :
    (env.submit declaration).AgreeOn env compartment := by
  cases declaration with
  | keyed family entry =>
    rw [submit_keyed]
    split
    · cases compartment with
      | table other =>
        have hother : other ≠ family := fun hsame => h (congrArg Compartment.table hsame.symm)
        exact table_withTable_of_ne hother _
      | extensions => exact extensions_withTable env family _
    · exact .refl env compartment
  | extension added =>
    cases compartment with
    | table family => cases family <;> rfl
    | extensions => exact absurd rfl h

/-- The report on a declaration depends on its own compartment alone. -/
theorem AgreeOn.verdict (h : env.AgreeOn other declaration.compartment) :
    env.verdict declaration = other.verdict declaration := by
  rw [verdict_eq, verdict_eq]
  cases declaration with
  | keyed family entry =>
    have htable : env.table family = other.table family := h
    simp only [Declaration.claim?_keyed, Option.bind_some, holder?_mk, htable]
  | extension added => rfl

/-- What a submission makes of its compartment depends on that compartment alone. -/
theorem AgreeOn.submit (h : env.AgreeOn other declaration.compartment) :
    (env.submit declaration).AgreeOn (other.submit declaration) declaration.compartment := by
  cases declaration with
  | keyed family entry =>
    have htable : env.table family = other.table family := h
    show ((env.submit _).table family) = ((other.submit _).table family)
    rw [submit_keyed, submit_keyed, htable]
    split
    · rw [table_withTable_self, table_withTable_self]
    · exact htable
  | extension added =>
    have hextensions : env.extensions = other.extensions := h
    show env.extensions.add added = other.extensions.add added
    rw [hextensions]

/-! ## A row of submissions -/

/-- What a row makes of a compartment is what the part that concerns it makes of it. -/
theorem agreeOn_submitAll_select (h : env.AgreeOn other compartment) :
    (env.submitAll declarations).AgreeOn (other.submitAll (compartment.select declarations))
      compartment := by
  -- the two runs meet the same in the compartment all along, though not elsewhere
  induction declarations generalizing env other with
  | nil => exact h
  | cons declaration later ih =>
    by_cases hown : declaration.compartment = compartment
    · subst hown
      rw [Compartment.select, List.filter_cons_of_pos (by simp), submitAll_cons, submitAll_cons]
      exact ih h.submit
    · rw [Compartment.select, List.filter_cons_of_neg (by simpa using hown), submitAll_cons]
      exact ih ((agreeOn_submit_of_ne hown).trans h)

/-- What a row reports on the declarations of a compartment is what they report by themselves. -/
theorem reportsIn_eq_zip (h : env.AgreeOn other compartment) :
    env.reportsIn compartment declarations =
      (compartment.select declarations).zip
        (other.verdicts (compartment.select declarations)) := by
  induction declarations generalizing env other with
  | nil => rfl
  | cons declaration later ih =>
    rw [reportsIn, verdicts, List.zip_cons_cons]
    by_cases hown : declaration.compartment = compartment
    · subst hown
      rw [Compartment.select, List.filter_cons_of_pos (by simp),
        List.filter_cons_of_pos (by simp), verdicts, List.zip_cons_cons, h.verdict]
      exact congrArg _ (ih h.submit)
    · rw [Compartment.select, List.filter_cons_of_neg (by simpa using hown),
        List.filter_cons_of_neg (by simpa using hown)]
      exact ih ((agreeOn_submit_of_ne hown).trans h)

/-- **Compartments do not interfere.** If two rows have the same declarations of a
family, or the same extensions, in the same order, then both report the same on
them, and every query of that family, or for extensions, has the same answer
afterwards. Whatever else the rows declare, under whatever names, is of no
consequence. -/
theorem compartments_do_not_interfere
    (h : compartment.select first = compartment.select second) :
    empty.reportsIn compartment first = empty.reportsIn compartment second ∧
      ∀ query : Query, query.compartment = compartment →
        (empty.submitAll first).ask query = (empty.submitAll second).ask query := by
  have hstart := AgreeOn.refl empty compartment
  constructor
  · calc empty.reportsIn compartment first
        = (compartment.select first).zip (empty.verdicts (compartment.select first)) :=
          reportsIn_eq_zip hstart
      _ = (compartment.select second).zip (empty.verdicts (compartment.select second)) := by
          rw [h]
      _ = empty.reportsIn compartment second := (reportsIn_eq_zip hstart).symm
  · intro query hquery
    subst hquery
    calc (empty.submitAll first).ask query
        = (empty.submitAll (query.compartment.select first)).ask query :=
          (agreeOn_submitAll_select hstart).ask
      _ = (empty.submitAll (query.compartment.select second)).ask query := by rw [h]
      _ = (empty.submitAll second).ask query := (agreeOn_submitAll_select hstart).ask.symm

/-- Two constants of one name, after a class and an extension that have it too. -/
def constantsAfterClass : List Declaration :=
  [.ofClass ⟨⟨.root, "A"⟩, [], none, [], ⟨0, 5⟩⟩, .extension ⟨⟨.root, "A"⟩, "x", [], [], ⟨6, 9⟩⟩,
    .ofConstant ⟨⟨.empty, "A"⟩, .base .any, ⟨10, 15⟩⟩,
    .ofConstant ⟨⟨.root, "A"⟩, .base .nil, ⟨16, 20⟩⟩]

/-- The same constants around a module, and an alias of the name. -/
def constantsAroundModule : List Declaration :=
  [.ofConstant ⟨⟨.empty, "A"⟩, .base .any, ⟨10, 15⟩⟩,
    .ofModule ⟨⟨.root, "A"⟩, [], none, [], ⟨21, 25⟩⟩,
    .ofConstant ⟨⟨.root, "A"⟩, .base .nil, ⟨16, 20⟩⟩,
    .ofTypeAlias ⟨⟨.root, "A"⟩, [], .base .any, ⟨26, 30⟩⟩]

theorem constants_judged_alike :
    (Compartment.table .constant).select constantsAfterClass =
        (Compartment.table .constant).select constantsAroundModule ∧
      (empty.reportsIn (.table .constant) constantsAfterClass).map (·.2.isSome) = [false, true] ∧
      (empty.reportsIn (.table .constant) constantsAroundModule).map (·.2.isSome) = [false, true] ∧
      ((empty.submitAll constantsAfterClass).ask (.resolveConstant ⟨.empty, "A"⟩ .root)).value =
        ((empty.submitAll constantsAroundModule).ask
          (.resolveConstant ⟨.empty, "A"⟩ .root)).value := by
  have hselect : (Compartment.table .constant).select constantsAfterClass =
    (Compartment.table .constant).select constantsAroundModule := rfl
  obtain ⟨hreports, hanswers⟩ := compartments_do_not_interfere hselect
  have hsecond : (empty.reportsIn (.table .constant) constantsAfterClass).map (·.2.isSome) =
    [false, true] := rfl
  refine ⟨hselect, hsecond, ?_, ?_⟩
  · rw [← hreports, hsecond]
  · rw [hanswers (.resolveConstant ⟨.empty, "A"⟩ .root) rfl]

end Environment

end ScopedSignatures
