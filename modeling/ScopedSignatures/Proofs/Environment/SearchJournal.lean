import ScopedSignatures.Proofs.Environment.Lookup
import ScopedSignatures.Proofs.Environment.Resolution
import ScopedSignatures.Proofs.Journal.Shown
import ScopedSignatures.Proofs.Search.Tried

/-!
# What a search notes

The journal of a search is the search itself: one note for each key that is tried, in
order, and none for a key that is not. Only an absolute name that is searched outward is
looked up without a note, since there is nothing to search. Lookups in one scope do note
their key, also that of an absolute name, and a missed alias is reported under that key.

## Main definitions

* `Environment.ShowsOutward` — the journal of an outward search shows the search

## Main results

* `Environment.showsOutward_of_notes` — a search that notes the keys it tries shows itself
* `Environment.shown_resolveClass`, `Environment.shown_resolveModule` — the searches for one kind
* `Environment.shown_lookUpInterface`, `Environment.shown_lookUpAlias` — the key in one scope
* `Environment.journal_shows_the_search` — what is shown of every search
-/

namespace ScopedSignatures.Environment

open Journal (Entry Record)

variable {δ : Type} {env : Environment} {probe : ModuleName → Option δ} {title : String}
  {name : ModuleName} {scope : Namespace}

/-! ## Outward -/

/-- Every key that is tried for a relative name is shown. -/
theorem map_record_candidateNotes_of_isRelative (h : name.isRelative = true)
    (tried : List ModuleName) :
    (candidateNotes name tried).map Entry.record = tried.map (Record.probing "candidate") := by
  rw [candidateNotes, if_neg (Search.not_isAbsolute_iff.2 h)]
  exact List.map_map

/-- For an absolute name no key is shown. -/
theorem candidateNotes_of_isAbsolute (h : name.isAbsolute = true) (tried : List ModuleName) :
    candidateNotes name tried = [] := by
  rw [candidateNotes, if_pos h]

/-- The journal of an outward search shows the search. -/
structure ShowsOutward (probe : ModuleName → Option δ) (title : String) (name : ModuleName)
    (scope : Namespace) (result : Journaled (Option δ)) : Prop where
  value_eq : result.value = (Search.outward probe name scope).found
  /-- For a relative name each key on the way outward is shown, up to the first occupied one. -/
  relative : name.isRelative = true →
    Search.Sweeps probe name scope (Search.outward probe name scope) ∧
      result.shown = .search title "current_module" name scope ::
        (Search.outward probe name scope).tried.map (.probing "candidate")
  /-- An absolute name is the one key that is tried, and it is not shown. -/
  absolute : name.isAbsolute = true →
    (Search.outward probe name scope).tried = [name] ∧
      result.shown = [.search title "current_module" name scope]

/-- A search that notes itself and then the keys it tries shows itself. -/
theorem showsOutward_of_notes {result : Journaled (Option δ)}
    (hvalue : result.value = (Search.outward probe name scope).found)
    (hshown : result.shown = .search title "current_module" name scope ::
      (candidateNotes name (Search.outward probe name scope).tried).map Entry.record) :
    ShowsOutward probe title name scope result := by
  constructor
  case value_eq => exact hvalue
  case relative =>
    intro h
    rw [map_record_candidateNotes_of_isRelative h] at hshown
    exact ⟨Search.sweeps_outward probe h scope, hshown⟩
  case absolute =>
    intro h
    rw [candidateNotes_of_isAbsolute h] at hshown
    exact ⟨Search.tried_outward_of_isAbsolute probe h scope, hshown⟩

/-- A search for a class shows no more than one for either. -/
theorem shown_resolveClass (env : Environment) (name : ModuleName) (scope : Namespace) :
    (env.resolveClass name scope).shown = (env.resolveClassOrModule name scope).shown :=
  Journaled.shown_map _ _

theorem shown_resolveModule (env : Environment) (name : ModuleName) (scope : Namespace) :
    (env.resolveModule name scope).shown = (env.resolveClassOrModule name scope).shown :=
  Journaled.shown_map _ _

/-! ## In one scope -/

/-- The one key is shown, also that of an absolute name. -/
theorem shown_lookUpInterface (env : Environment) (name : InterfaceName) (scope : Namespace) :
    (env.lookUpInterface name scope).shown =
      [.search "find_interface" "namespace" name scope,
        .probing "key" (Search.keyIn name scope)] := by
  rw [Journaled.shown, lookUpInterface, Search.tried_direct, Search.directKey_eq_keyIn]
  rfl

theorem shown_lookUpAlias (env : Environment) (name : AliasName) (scope : Namespace) :
    (env.lookUpAlias name scope).shown =
      [.search "find_alias" "namespace" name scope,
        .probing "key" (Search.keyIn name scope)] := by
  rw [Journaled.shown, lookUpAlias, Search.tried_direct, Search.directKey_eq_keyIn]
  rfl

/-- A missed alias is reported under the key that was tried. -/
theorem key_eq_of_miss {name : AliasName} {miss : UnknownAlias}
    (h : (env.lookUpAlias name scope).value = .error miss) :
    miss.key = Search.keyIn name scope := by
  obtain ⟨-, rfl⟩ := value_lookUpAlias_eq_error_iff.1 h
  exact Search.directKey_eq_keyIn name scope

/-! ## Every search -/

/-- **The journal shows the search.** Searches for classes, modules and constants show the
keys behind all segments of the scope, all but one, all but two, …, up to the first that
is occupied or else to the root. These keys are absolute, no two of them are the same, and
the search finds what is at the last. For an absolute name no key is shown. Lookups of
interfaces and aliases show one key for every name, and a missed alias is reported under
that key. -/
theorem journal_shows_the_search (env : Environment) :
    (∀ (name : ModuleName) (scope : Namespace),
      ShowsOutward (env.table .classOrModule).find? "find_class_or_module" name scope
        (env.resolveClassOrModule name scope) ∧
      (env.resolveClass name scope).shown = (env.resolveClassOrModule name scope).shown ∧
      (env.resolveModule name scope).shown = (env.resolveClassOrModule name scope).shown ∧
      ShowsOutward (env.table .constant).find? "find_const" name scope
        (env.resolveConstant name scope)) ∧
    (∀ (name : InterfaceName) (scope : Namespace),
      (env.lookUpInterface name scope).shown =
        [.search "find_interface" "namespace" name scope,
          .probing "key" (Search.keyIn name scope)]) ∧
    ∀ (name : AliasName) (scope : Namespace),
      (env.lookUpAlias name scope).shown =
        [.search "find_alias" "namespace" name scope,
          .probing "key" (Search.keyIn name scope)] ∧
      ∀ miss, (env.lookUpAlias name scope).value = .error miss →
        miss.key = Search.keyIn name scope := by
  refine ⟨fun name scope => ⟨?_, shown_resolveClass env name scope,
    shown_resolveModule env name scope, ?_⟩, shown_lookUpInterface env, fun name scope =>
    ⟨shown_lookUpAlias env name scope, fun miss => key_eq_of_miss⟩⟩
  · exact showsOutward_of_notes rfl rfl
  · exact showsOutward_of_notes rfl rfl

/-- The search that meets the inner module shows two keys and does not come to the root.
The absolute name shows none, and a type alias is missed under the only key shown. -/
theorem inner_module_is_last_shown :
    (classBehindModule.resolveClass ⟨.empty, "X"⟩ ⟨["A", "B"], .relative⟩).shown =
        [.search "find_class_or_module" "current_module" (⟨.empty, "X"⟩ : ModuleName)
            ⟨["A", "B"], .relative⟩,
          .probing "candidate" (⟨⟨["A", "B"], .absolute⟩, "X"⟩ : ModuleName),
          .probing "candidate" (⟨⟨["A"], .absolute⟩, "X"⟩ : ModuleName)] ∧
      (classBehindModule.resolveClassOrModule ⟨.root, "X"⟩ ⟨["A", "B"], .relative⟩).shown =
        [.search "find_class_or_module" "current_module" (⟨.root, "X"⟩ : ModuleName)
          ⟨["A", "B"], .relative⟩] ∧
      ∃ miss, (classBehindModule.lookUpAlias ⟨.root, "t"⟩ ⟨["A"], .relative⟩).value =
          .error miss ∧ miss.key = ⟨.root, "t"⟩ := by
  obtain ⟨houtward, -, haliases⟩ := journal_shows_the_search classBehindModule
  obtain ⟨⟨-, hrelative, -⟩, hclass, -⟩ := houtward ⟨.empty, "X"⟩ ⟨["A", "B"], .relative⟩
  obtain ⟨⟨-, -, habsolute⟩, -⟩ := houtward ⟨.root, "X"⟩ ⟨["A", "B"], .relative⟩
  obtain ⟨-, hmiss⟩ := haliases ⟨.root, "t"⟩ ⟨["A"], .relative⟩
  obtain ⟨-, hshown⟩ := hrelative rfl
  obtain ⟨-, hnone⟩ := habsolute rfl
  refine ⟨?_, hnone, ?_⟩
  · rw [hclass, hshown]
    rfl
  · exact ⟨_, rfl, hmiss _ rfl⟩

end ScopedSignatures.Environment
