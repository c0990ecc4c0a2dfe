import ScopedSignatures.Proofs.Environment.Visibility
import ScopedSignatures.Proofs.Search.Nesting

/-!
# Going into a nested scope

What a name stands for in a scope, it also stands for in every scope nested in that one,
until something is declared on the way in. Then the name stands for that, at a longer
key. So a name that is resolved somewhere is resolved everywhere further in.

## Main results

* `Environment.nested_scope_comes_first` — classes, modules and constants in a nested scope
-/

namespace ScopedSignatures.Environment

variable {name : ModuleName} {inner : Namespace}

/-- **The nested scope comes first.** In the scope that a relative path leads to, a
relative name stands for what is filed behind the outer scope and the longest part of
the path behind which anything is filed; if nothing is, for what it stands for in the
outer scope. So what it stands for in the outer scope it stands for in the nested one,
or for something under a longer key. -/
theorem nested_scope_comes_first (env : Environment) (scope : Namespace)
    (hname : name.isRelative = true) (hinner : inner.isRelative = true) :
    Search.Descends (env.table .classOrModule).find? name scope inner
      (env.resolveClassOrModule name scope).value
      (env.resolveClassOrModule name (scope ++ inner)).value ∧
    Search.Descends (env.table .constant).find? name scope inner
      (env.resolveConstant name scope).value
      (env.resolveConstant name (scope ++ inner)).value :=
  ⟨Search.descends_outward hname hinner, Search.descends_outward hname hinner⟩

/-- With a class `::X` and a module `::A::X`, the way from the scope `::` to `A::B` meets
the module after one segment; the way on to `B` in the scope `A` meets nothing. -/
theorem module_met_on_the_way_in :
    (withInnerModule.resolveClassOrModule ⟨.empty, "X"⟩ .root).value = some outerClass ∧
      (withInnerModule.resolveClassOrModule ⟨.empty, "X"⟩
          (.root ++ ⟨["A", "B"], .relative⟩)).value = some innerModule ∧
      (∃ key further, Search.EndsAt (withInnerModule.table .classOrModule).find? ⟨.empty, "X"⟩
          .root key outerClass ∧
        Search.EndsAt (withInnerModule.table .classOrModule).find? ⟨.empty, "X"⟩
          (.root ++ ⟨["A", "B"], .relative⟩) further innerModule ∧
        key.qualifier.depth < further.qualifier.depth) ∧
      (withInnerModule.resolveClassOrModule ⟨.empty, "X"⟩
          (⟨["A"], .relative⟩ ++ ⟨["B"], .relative⟩)).value =
        (withInnerModule.resolveClassOrModule ⟨.empty, "X"⟩ ⟨["A"], .relative⟩).value := by
  have houter : (withInnerModule.resolveClassOrModule ⟨.empty, "X"⟩ .root).value =
    some outerClass := rfl
  obtain ⟨hroot, -⟩ := nested_scope_comes_first withInnerModule .root
    (rfl : (⟨.empty, "X"⟩ : ModuleName).isRelative = true)
    (rfl : (⟨["A", "B"], .relative⟩ : Namespace).isRelative = true)
  obtain ⟨hbeside, -⟩ := nested_scope_comes_first withInnerModule ⟨["A"], .relative⟩
    (rfl : (⟨.empty, "X"⟩ : ModuleName).isRelative = true)
    (rfl : (⟨["B"], .relative⟩ : Namespace).isRelative = true)
  have hnested : Search.IsInnermostNested (withInnerModule.table .classOrModule).find?
      ⟨.empty, "X"⟩ .root ⟨["A", "B"], .relative⟩ innerModule := by
    refine ⟨1, by decide, by decide, rfl, fun further hle hlt => ?_⟩
    obtain rfl : further = 2 := Nat.le_antisymm hle hlt
    rfl
  have hfree : Search.FreeBeyond (withInnerModule.table .classOrModule).find?
      ⟨.empty, "X"⟩ ⟨["A"], .relative⟩ ⟨["B"], .relative⟩ 0 := by
    intro further hle hlt
    obtain rfl : further = 1 := Nat.le_antisymm hle hlt
    rfl
  have hinside := (hroot.eq_some_iff innerModule).2 (Or.inl hnested)
  refine ⟨houter, hinside, ?_, hbeside.eq_of_freeBeyond hfree⟩
  obtain ⟨key, further, found, hends, hlater, hthere, hmoved⟩ := hroot.exists_endsAt _ houter
  obtain rfl := Option.some.inj (hthere.symm.trans hinside)
  rcases hmoved with ⟨-, hsame⟩ | hlonger
  · exact absurd hsame (by decide)
  · exact ⟨key, further, hends, hlater, hlonger⟩

end ScopedSignatures.Environment
