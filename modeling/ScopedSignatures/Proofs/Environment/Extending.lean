import Mathlib.Algebra.BigOperators.Finprod
import ScopedSignatures.Proofs.Environment.Submission
import ScopedSignatures.Proofs.Search.Shadowing

/-!
# What a row extends

The extensions of a row of submissions, sorted by target. Each list of the index is
the part of the row that extends its target, since an extension is never refused and
what else is submitted, or refused, does not touch the index. So nothing is lost or
listed twice, and the lists together are as long as the row has extensions.

## Main definitions

* `Declaration.asExtension?` — the extension, of a declaration that is one
* `Declaration.extensionsIn` — the extensions of a row, in its order

## Main results

* `Declaration.filterMap_extensionOf?` — those of one target are a part of them
* `Environment.count_submitAll` — the index counts every extension of a row
* `Environment.extensions_gather_by_target` — the lists after a row, one by one and together
-/

namespace ScopedSignatures

namespace Declaration

/-- The extension, of a declaration that is one. -/
def asExtension? : Declaration → Option Extension
  | keyed _ _ => none
  | extension added => some added

/-- The extensions of a row, in its order and each as often as it is there. -/
def extensionsIn (declarations : List Declaration) : List Extension :=
  declarations.filterMap asExtension?

theorem extensionsIn_cons (declaration : Declaration) (later : List Declaration) :
    extensionsIn (declaration :: later) =
      declaration.asExtension?.toList ++ extensionsIn later := by
  cases declaration <;> rfl

theorem extensionOf?_eq (target : ModuleName) (declaration : Declaration) :
    declaration.extensionOf? target =
      declaration.asExtension?.filter fun added => added.target.anchored = target := by
  cases declaration with
  | keyed family entry => rfl
  | extension added => simp [extensionOf?, asExtension?, Option.filter]

/-- The extensions of one target are a part of all extensions of a row. -/
theorem filterMap_extensionOf? (target : ModuleName) (declarations : List Declaration) :
    declarations.filterMap (·.extensionOf? target) =
      (extensionsIn declarations).filter fun added => added.target.anchored = target := by
  rw [extensionsIn, List.filter_filterMap]
  congr 1
  funext declaration
  exact extensionOf?_eq target declaration

/-- Sorting extensions by target leaves out none and repeats none. -/
theorem sum_length_filter_key (added : List Extension) :
    ∑ target ∈ (added.map Extension.key).toFinset,
      (added.filter fun extension => extension.key = target).length = added.length := by
  calc ∑ target ∈ (added.map Extension.key).toFinset,
        (added.filter fun extension => extension.key = target).length
      = ∑ target ∈ (added.map Extension.key).toFinset, (added.map Extension.key).count target := by
        refine Finset.sum_congr rfl fun target _ => ?_
        rw [List.count, List.countP_map, List.countP_eq_length_filter]
        congr 1
    _ = (added.map Extension.key).length := List.sum_toFinset_count_eq_length _
    _ = added.length := List.length_map _

end Declaration

namespace Environment

open Declaration (extensionsIn)

variable {declarations : List Declaration}

theorem count_submit (env : Environment) (declaration : Declaration) :
    (env.submit declaration).extensions.count =
      env.extensions.count + declaration.asExtension?.toList.length := by
  cases declaration with
  | keyed family entry =>
    rw [submit_keyed]
    split
    · rw [extensions_withTable]
      rfl
    · rfl
  | extension added => rfl

/-- The index counts every extension of a row, and nothing else of it. -/
theorem count_submitAll (env : Environment) (declarations : List Declaration) :
    (env.submitAll declarations).extensions.count =
      env.extensions.count + (extensionsIn declarations).length := by
  induction declarations generalizing env with
  | nil => rfl
  | cons declaration later ih =>
    rw [submitAll_cons, ih, count_submit, Declaration.extensionsIn_cons, List.length_append,
      Nat.add_assoc]

/-- The list of a target is the part of the row that extends it. -/
theorem extensionsOf_submitAll_eq_filter (declarations : List Declaration) (target : ModuleName) :
    (empty.submitAll declarations).extensionsOf target =
      (extensionsIn declarations).filter fun added => added.target.anchored = target := by
  rw [extensionsOf_submitAll, Declaration.filterMap_extensionOf?]

/-- No extension is listed under a relative name. -/
theorem extensionsOf_submitAll_of_isRelative {name : ModuleName} (h : name.isRelative = true) :
    (empty.submitAll declarations).extensionsOf name = [] := by
  rw [extensionsOf_submitAll_eq_filter, List.filter_eq_nil_iff]
  intro added _ hkey
  have habsolute : name.isAbsolute = true :=
    of_decide_eq_true hkey ▸ added.target.isAbsolute_anchored
  exact Search.not_isAbsolute_iff.2 h habsolute

/-- Only a target of the row has extensions. -/
theorem mem_of_extensionsOf_ne_nil {name : ModuleName}
    (h : (empty.submitAll declarations).extensionsOf name ≠ []) :
    name ∈ ((extensionsIn declarations).map Extension.key).toFinset := by
  rw [extensionsOf_submitAll_eq_filter] at h
  obtain ⟨added, hmem⟩ := List.exists_mem_of_ne_nil _ h
  obtain ⟨hadded, hkey⟩ := List.mem_filter.1 hmem
  rw [List.mem_toFinset, List.mem_map]
  exact ⟨added, hadded, of_decide_eq_true hkey⟩

/-- The lists of all absolute names are together as long as the row has extensions. -/
theorem finsum_length_extensionsOf (declarations : List Declaration) :
    ∑ᶠ (name : ModuleName) (_ : name.isAbsolute = true),
      ((empty.submitAll declarations).extensionsOf name).length =
        (extensionsIn declarations).length := by
  have htargets : ∀ {name : ModuleName},
      ((empty.submitAll declarations).extensionsOf name).length ≠ 0 →
        (name.isAbsolute = true ↔
          name ∈ ((extensionsIn declarations).map Extension.key).toFinset) := by
    intro name hlength
    have hlisted : (empty.submitAll declarations).extensionsOf name ≠ [] :=
      mt List.length_eq_zero_iff.2 hlength
    refine iff_of_true ?_ (mem_of_extensionsOf_ne_nil hlisted)
    by_contra hnot
    exact hlisted (extensionsOf_submitAll_of_isRelative (Search.not_isAbsolute_iff.1 hnot))
  rw [finsum_cond_eq_sum_of_cond_iff _ htargets]
  simp only [extensionsOf_submitAll_eq_filter]
  exact Declaration.sum_length_filter_key (extensionsIn declarations)

/-- **Extensions gather by target.** After a row of submissions to an empty environment
an absolute name has exactly those extensions of the row whose target it is when read
at the root, in the order of the row and each as often as it was submitted. A
relative name has none. Finitely many names have any, and the lists of all absolute
names together are as long as the row has extensions. -/
theorem extensions_gather_by_target (declarations : List Declaration) :
    (∀ name : ModuleName, name.isAbsolute = true →
      (empty.submitAll declarations).extensionsOf name =
        (extensionsIn declarations).filter fun added => added.target.anchored = name) ∧
    (∀ name : ModuleName, name.isRelative = true →
      (empty.submitAll declarations).extensionsOf name = []) ∧
    {name | (empty.submitAll declarations).extensionsOf name ≠ []}.Finite ∧
    ∑ᶠ (name : ModuleName) (_ : name.isAbsolute = true),
      ((empty.submitAll declarations).extensionsOf name).length =
        (extensionsIn declarations).length := by
  refine ⟨fun name _ => extensionsOf_submitAll_eq_filter declarations name,
    fun name hrelative => extensionsOf_submitAll_of_isRelative hrelative, ?_, ?_⟩
  · apply (Finset.finite_toSet ((extensionsIn declarations).map Extension.key).toFinset).subset
    intro name hlisted
    exact mem_of_extensionsOf_ne_nil hlisted
  · exact finsum_length_extensionsOf declarations

/-- Extensions of two targets, one of them submitted twice, around a class and a
module that is refused. -/
def extensionsAroundConflict : List Declaration :=
  [.extension ⟨⟨.empty, "A"⟩, "x", [], [], ⟨0, 5⟩⟩, .ofClass ⟨⟨.root, "A"⟩, [], none, [], ⟨6, 9⟩⟩,
    .extension ⟨⟨.root, "B"⟩, "y", [], [], ⟨10, 15⟩⟩,
    .ofModule ⟨⟨.empty, "A"⟩, [], none, [], ⟨16, 20⟩⟩,
    .extension ⟨⟨.root, "A"⟩, "z", [], [], ⟨21, 25⟩⟩,
    .extension ⟨⟨.empty, "A"⟩, "x", [], [], ⟨0, 5⟩⟩]

theorem extensions_gathered_around_conflict :
    ((empty.submitAll extensionsAroundConflict).extensionsOf ⟨.root, "A"⟩).map Extension.label =
        ["x", "z", "x"] ∧
      (empty.submitAll extensionsAroundConflict).extensionsOf ⟨.empty, "A"⟩ = [] ∧
      ∑ᶠ (name : ModuleName) (_ : name.isAbsolute = true),
        ((empty.submitAll extensionsAroundConflict).extensionsOf name).length = 4 := by
  obtain ⟨habsolute, hrelative, -, hsum⟩ := extensions_gather_by_target extensionsAroundConflict
  refine ⟨?_, hrelative ⟨.empty, "A"⟩ rfl, hsum⟩
  rw [habsolute ⟨.root, "A"⟩ rfl]
  rfl

end Environment

end ScopedSignatures
