import ScopedSignatures.Proofs.Environment.Growth
import ScopedSignatures.Proofs.Environment.Resolution
import ScopedSignatures.Proofs.Search.Shadowing

/-!
# Visibility while an environment grows

An accepted declaration fills one key of its family's table and touches no other,
so a name stands for it in exactly the scopes from which the search comes to that
key. Everywhere else the name stands for what it stood for. A name that stands for
something therefore never ceases to, and the key where it is found can change
only for one further in.

## Main results

* `Environment.fills_of_enter_accepted` — an accepted entry fills its key
* `Environment.extends_of_grows` — growth keeps what stands under a key
* `Environment.visibility_moves_inward` — what a name stands for while declarations are added
-/

namespace ScopedSignatures.Environment

variable {env later result : Environment} {family : Family} {entry : family.Entry}

/-- An accepted entry fills its key, which was free, and no other. -/
theorem fills_of_enter_accepted (h : env.enter (.keyed family entry) = ⟨result, none⟩) :
    Search.Fills (env.table family).find? (result.table family).find? (family.key entry) entry := by
  obtain ⟨hfree, rfl⟩ := enter_keyed_accepted_iff.1 h
  rw [table_withTable_self]
  refine ⟨hfree, ?_, fun other hother => ?_⟩
  · rw [Table.find?_file, if_pos rfl]
  · rw [Table.find?_file, if_neg (Ne.symm hother)]

/-- Growth keeps what stands under a key. -/
theorem extends_of_grows (h : env.Grows later) (family : Family) :
    Search.Extends (env.table family).find? (later.table family).find? :=
  fun _ _ hfound => find?_of_grows h hfound

/-- **Visibility moves inward.** A name stands for an accepted declaration in
exactly those scopes from which the search comes to its key with nothing in the
way; elsewhere it stands for what it stood for. However an environment grows,
what a name stands for does not get lost: it is still found where it was, or
something is found further in. -/
theorem visibility_moves_inward (env : Environment) (name : ModuleName) (scope : Namespace) :
    (∀ (entry : ClassOrModule) (result : Environment),
      (env.declare (.keyed .classOrModule entry)).value = ⟨result, none⟩ →
      (Search.ComesTo (env.table .classOrModule).find? name scope entry.name.anchored →
        (result.resolveClassOrModule name scope).value = some entry) ∧
      (¬ Search.ComesTo (env.table .classOrModule).find? name scope entry.name.anchored →
        (result.resolveClassOrModule name scope).value =
          (env.resolveClassOrModule name scope).value)) ∧
    (∀ (entry : Constant) (result : Environment),
      (env.declare (.keyed .constant entry)).value = ⟨result, none⟩ →
      (Search.ComesTo (env.table .constant).find? name scope entry.name.anchored →
        (result.resolveConstant name scope).value = some entry) ∧
      (¬ Search.ComesTo (env.table .constant).find? name scope entry.name.anchored →
        (result.resolveConstant name scope).value = (env.resolveConstant name scope).value)) ∧
    (∀ later, env.Grows later →
      (∀ entry, (env.resolveClassOrModule name scope).value = some entry →
        ∃ key inner found,
          Search.EndsAt (env.table .classOrModule).find? name scope key entry ∧
          Search.EndsAt (later.table .classOrModule).find? name scope inner found ∧
          (later.resolveClassOrModule name scope).value = some found ∧
          (inner = key ∧ found = entry ∨ Search.IsFurtherIn name scope inner key)) ∧
      (∀ entry, (env.resolveConstant name scope).value = some entry →
        ∃ key inner found,
          Search.EndsAt (env.table .constant).find? name scope key entry ∧
          Search.EndsAt (later.table .constant).find? name scope inner found ∧
          (later.resolveConstant name scope).value = some found ∧
          (inner = key ∧ found = entry ∨ Search.IsFurtherIn name scope inner key))) := by
  refine ⟨fun entry result hdeclared => ?_, fun entry result hdeclared => ?_, ?_⟩
  · -- both families fill one key of their own table, so the argument is the same
    rw [value_declare] at hdeclared
    have hfills := fills_of_enter_accepted hdeclared
    exact ⟨hfills.found_outward_of_comesTo, hfills.found_outward_of_not_comesTo⟩
  · rw [value_declare] at hdeclared
    have hfills := fills_of_enter_accepted hdeclared
    exact ⟨hfills.found_outward_of_comesTo, hfills.found_outward_of_not_comesTo⟩
  · intro later hgrows
    have hclasses := extends_of_grows hgrows .classOrModule
    have hconstants := extends_of_grows hgrows .constant
    exact ⟨fun entry hfound => Search.exists_endsAt_of_extends hclasses hfound,
      fun entry hfound => Search.exists_endsAt_of_extends hconstants hfound⟩

/-- A class at the root. -/
def outerClass : ClassOrModule := .ofClass ⟨⟨.root, "X"⟩, [], none, [], .dummy⟩

/-- A module of the same name in a namespace. -/
def innerModule : ClassOrModule := .ofModule ⟨⟨⟨["A"], .absolute⟩, "X"⟩, [], none, [], .dummy⟩

/-- The class alone. -/
def withOuterClass : Environment := empty.submit (.keyed .classOrModule outerClass)

/-- The class, and then the module. -/
def withInnerModule : Environment := withOuterClass.submit (.keyed .classOrModule innerModule)

theorem inner_module_found_inside_only :
    (withOuterClass.declare (.keyed .classOrModule innerModule)).value = ⟨withInnerModule, none⟩ ∧
      (withInnerModule.resolveClassOrModule ⟨.empty, "X"⟩ ⟨["A", "B"], .relative⟩).value =
        some innerModule ∧
      (withInnerModule.resolveClassOrModule ⟨.empty, "X"⟩ ⟨["B"], .relative⟩).value =
        (withOuterClass.resolveClassOrModule ⟨.empty, "X"⟩ ⟨["B"], .relative⟩).value ∧
      ∃ key inner, Search.EndsAt (withOuterClass.table .classOrModule).find? ⟨.empty, "X"⟩
          ⟨["A", "B"], .relative⟩ key outerClass ∧
        Search.IsFurtherIn ⟨.empty, "X"⟩ ⟨["A", "B"], .relative⟩ inner key := by
  have hdeclared : (withOuterClass.declare (.keyed .classOrModule innerModule)).value =
    ⟨withInnerModule, none⟩ := rfl
  have hgrows : withOuterClass.Grows withInnerModule := .submit .refl _
  obtain ⟨hinside, -, hgrowth⟩ :=
    visibility_moves_inward withOuterClass ⟨.empty, "X"⟩ ⟨["A", "B"], .relative⟩
  obtain ⟨houtside, -⟩ := visibility_moves_inward withOuterClass ⟨.empty, "X"⟩ ⟨["B"], .relative⟩
  -- from inside, the only key in front of the module's is `::A::B::X`, which is free
  have hcomes : Search.ComesTo (withOuterClass.table .classOrModule).find? ⟨.empty, "X"⟩
      ⟨["A", "B"], .relative⟩ (Search.keyAt ⟨.empty, "X"⟩ ⟨["A", "B"], .relative⟩ 1) := by
    refine .behind rfl (by decide) fun deeper hdeeper hgt => ?_
    obtain rfl : deeper = 2 := Nat.le_antisymm hdeeper hgt
    rfl
  have hnot : ¬ Search.ComesTo (withOuterClass.table .classOrModule).find? ⟨.empty, "X"⟩
      ⟨["B"], .relative⟩ innerModule.name.anchored :=
    fun hcomes => absurd hcomes.mem_outwardKeys (by decide)
  have hfound := (hinside innerModule withInnerModule hdeclared).1 hcomes
  refine ⟨hdeclared, hfound, (houtside innerModule withInnerModule hdeclared).2 hnot, ?_⟩
  obtain ⟨key, inner, found, hends, -, hlater, hmoved⟩ :=
    (hgrowth withInnerModule hgrows).1 outerClass rfl
  obtain rfl := Option.some.inj (hlater.symm.trans hfound)
  rcases hmoved with ⟨-, hsame⟩ | hfurther
  · exact absurd hsame (by decide)
  · exact ⟨key, inner, hends, hfurther⟩

end ScopedSignatures.Environment
