import ScopedSignatures.Proofs.Environment.Separation
import ScopedSignatures.Proofs.Environment.Visibility
import ScopedSignatures.Session

/-!
# One more declaration

What one declaration does to an environment, at every key of every compartment. If
it is refused, nothing. If it is accepted, its own compartment changes at one
place: a free key of its family is filled, or the extensions of its target get one
more at their end. All other keys and all other compartments are as before.

## Main definitions

* `ExtensionIndex.Gains` — one target has an extension more
* `Environment.Gains` — an environment has a declaration more

## Main results

* `ExtensionIndex.gains_add` — adding an extension touches the list of its target alone
* `Environment.gains_of_enter_accepted` — an accepted declaration touches one place
* `Environment.one_place_changes` — accepted and refused declarations
-/

namespace ScopedSignatures

/-! ## Extensions -/

namespace ExtensionIndex

variable {index later : ExtensionIndex} {added : Extension}

/-- One target has an extension more, at the end of its list. The other targets have
the lists that they had, and those without a list still have none. -/
structure Gains (index later : ExtensionIndex) (added : Extension) : Prop where
  now : later.byTarget[added.target.anchored]? = some (index.find added.target.anchored ++ [added])
  others : ∀ target, target ≠ added.target.anchored →
    later.byTarget[target]? = index.byTarget[target]?
  count_eq : later.count = index.count + 1

/-- Adding an extension touches the list of its target alone. -/
theorem gains_add (index : ExtensionIndex) (added : Extension) :
    index.Gains (index.add added) added := by
  constructor
  · exact Std.ExtTreeMap.getElem?_insert_self
  · intro target htarget
    have hkey : compare added.key target ≠ .eq :=
      fun heq => htarget (Std.LawfulEqOrd.eq_of_compare heq).symm
    rw [add, Std.ExtTreeMap.getElem?_insert, if_neg hkey]
  · rfl

theorem Gains.ne (h : index.Gains later added) : later ≠ index := by
  rintro rfl
  have hcount := h.count_eq
  omega

end ExtensionIndex

/-! ## Environments -/

namespace Environment

variable {env result : Environment} {declaration : Declaration}

/-- What a declaration that goes into an environment does there: a free key of its
family is filled by it, or its target has an extension more. -/
def FilledBy (env result : Environment) : Declaration → Prop
  | .keyed family entry =>
    Search.Fills (env.table family).find? (result.table family).find? (family.claimed entry) entry
  | .extension added => env.extensions.Gains result.extensions added

/-- The other environment is this one with one declaration more. -/
structure Gains (env result : Environment) (declaration : Declaration) : Prop where
  filledBy : env.FilledBy result declaration
  /-- The compartment of the declaration is the only one that changes, and it does change. -/
  agreeOn_iff : ∀ compartment,
    result.AgreeOn env compartment ↔ compartment ≠ declaration.compartment
  size_eq : result.size = env.size + 1

theorem submit_of_enter_accepted (h : env.enter declaration = ⟨result, none⟩) :
    env.submit declaration = result := by
  rw [submit, value_declare, h]

theorem filledBy_of_enter_accepted (h : env.enter declaration = ⟨result, none⟩) :
    env.FilledBy result declaration := by
  cases declaration with
  | keyed family entry =>
    rw [FilledBy, ← Family.key_eq_claimed]
    exact fills_of_enter_accepted h
  | extension added =>
    cases h
    exact env.extensions.gains_add added

/-- A compartment that a declaration has gone into is not what it was. -/
theorem FilledBy.not_agreeOn (h : env.FilledBy result declaration) :
    ¬ result.AgreeOn env declaration.compartment := by
  intro hagree
  cases declaration with
  | keyed family entry =>
    obtain ⟨hfree, hnow, -⟩ : Search.Fills _ _ _ _ := h
    have htable : result.table family = env.table family := hagree
    rw [htable, hfree] at hnow
    cases hnow
  | extension added =>
    have hgains : env.extensions.Gains result.extensions added := h
    exact hgains.ne hagree

/-- An accepted declaration touches one place. -/
theorem gains_of_enter_accepted (h : env.enter declaration = ⟨result, none⟩) :
    env.Gains result declaration := by
  have hfilled := filledBy_of_enter_accepted h
  refine ⟨hfilled, fun compartment => ?_, size_of_enter_accepted h⟩
  constructor
  · rintro hagree rfl
    exact hfilled.not_agreeOn hagree
  · intro hother
    rw [← submit_of_enter_accepted h]
    exact agreeOn_submit_of_ne hother.symm

/-- **One place changes.** A declaration that is refused leaves the environment in use as
it was. One that is accepted leaves it with one declaration more: it stands at its
key, which was free, or last among the extensions of its target, and every other
key of every table is as before. An entry is accepted exactly if its key is free;
an extension always is. -/
theorem one_place_changes (env : Environment) (declaration : Declaration) :
    (∀ saved, ((⟨env, saved⟩ : Session).step (.declare declaration)).1 =
      ⟨env.submit declaration, saved⟩) ∧
    (∀ left conflict, (env.declare declaration).value = ⟨left, some conflict⟩ →
      left = env ∧ env.submit declaration = env) ∧
    (∀ result, (env.declare declaration).value = ⟨result, none⟩ →
      env.submit declaration = result ∧ env.Gains result declaration) ∧
    (∀ family entry, declaration = .keyed family entry →
      ((∃ result, (env.declare declaration).value = ⟨result, none⟩) ↔
        (env.table family).find? (family.claimed entry) = none)) ∧
    ∀ added, declaration = .extension added →
      ∃ result, (env.declare declaration).value = ⟨result, none⟩ := by
  simp only [value_declare]
  refine ⟨fun saved => rfl, fun left conflict hrefused => ?_, fun result haccepted => ?_, ?_, ?_⟩
  · obtain ⟨rfl, -⟩ := enter_refused_iff.1 hrefused
    exact ⟨rfl, submit_of_verdict_eq_some (verdict_eq_some_iff.2 hrefused)⟩
  · exact ⟨submit_of_enter_accepted haccepted, gains_of_enter_accepted haccepted⟩
  · rintro family entry rfl
    simp only [enter_keyed_accepted_iff, exists_and_left, exists_eq, and_true,
      Family.key_eq_claimed]
  · rintro added rfl
    exact ⟨_, enter_extension env added⟩

/-- The extension that a class already has, under the relative name of the class. -/
def firstExtension : Extension := ⟨⟨.empty, "A"⟩, "x", [], [], ⟨6, 9⟩⟩

/-- An extension to come, under the absolute name. -/
def secondExtension : Extension := ⟨⟨.root, "A"⟩, "y", [], [], ⟨16, 20⟩⟩

/-- The class with its first extension. -/
def withExtendedClass : Environment :=
  empty.submitAll [.ofClass ⟨⟨.root, "A"⟩, [], none, [], ⟨0, 5⟩⟩, .extension firstExtension]

/-- A module that has the name of the class. -/
def rivalModule : Declaration := .ofModule ⟨⟨.empty, "A"⟩, [], none, [], ⟨10, 15⟩⟩

theorem rival_refused_extension_gained :
    (withExtendedClass.declare rivalModule).value =
        ⟨withExtendedClass, some ⟨"::A", ⟨.classDef, ⟨0, 5⟩⟩, ⟨.moduleDef, ⟨10, 15⟩⟩⟩⟩ ∧
      withExtendedClass.submit rivalModule = withExtendedClass ∧
      (withExtendedClass.submit (.extension secondExtension)).extensions.byTarget[
        secondExtension.target.anchored]? = some [firstExtension, secondExtension] ∧
      (withExtendedClass.submit (.extension secondExtension)).AgreeOn withExtendedClass
        (.table .classOrModule) := by
  obtain ⟨-, hunchanged, -⟩ := one_place_changes withExtendedClass rivalModule
  have hrefused : (withExtendedClass.declare rivalModule).value =
    ⟨withExtendedClass.submit rivalModule,
      some ⟨"::A", ⟨.classDef, ⟨0, 5⟩⟩, ⟨.moduleDef, ⟨10, 15⟩⟩⟩⟩ := rfl
  obtain ⟨hsame, -⟩ := hunchanged _ _ hrefused
  rw [hsame] at hrefused
  obtain ⟨-, -, haccepted, -, hextension⟩ :=
    one_place_changes withExtendedClass (.extension secondExtension)
  obtain ⟨result, hresult⟩ := hextension secondExtension rfl
  obtain ⟨hsubmit, hgains⟩ := haccepted result hresult
  obtain ⟨hnow, -, -⟩ : withExtendedClass.extensions.Gains result.extensions secondExtension :=
    hgains.filledBy
  rw [hsubmit]
  exact ⟨hrefused, hsame, hnow, (hgains.agreeOn_iff _).2 (by decide)⟩

end Environment

end ScopedSignatures
