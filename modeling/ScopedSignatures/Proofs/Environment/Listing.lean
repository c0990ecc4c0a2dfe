import ScopedSignatures.Proofs.Environment.Accepted
import ScopedSignatures.Proofs.Environment.Extending
import ScopedSignatures.Proofs.Environment.Separation
import ScopedSignatures.Proofs.Environment.WellKept

/-!
# Listings

What an environment lists, kind by kind, after a row of submissions: the accepted
declarations of the kind, each of them once, in the order of their keys. The names
that are listed need not be in order, since some may have been declared as relative.
Classes and modules are kept in one table and listed apart, so between them they
list the table; extensions are counted, not listed.

## Main definitions

* `Environment.listing` — the entries of a family as declarations
* `Lists` — a listing has the accepted declarations of a kind, in order
* `Environment.AccountsFor` — the six listings of an environment account for what was accepted

## Main results

* `Environment.listing_submitAll_perm` — what a row adds to the listing of a family
* `Environment.accountsFor_submitAll` — the listings after a row
* `Environment.size_eq_sum` — the size is that of the listings and the number of extensions
* `Environment.listings_are_exact` — listings, size and emptiness after a row
-/

namespace ScopedSignatures

/-! ## The order of a listing -/

/-- Where entries stand under the keys that they claim, they are listed in the order of
these keys. -/
theorem Table.WellKeyed.increasing_entries {family : Family} {table : Table family}
    (h : table.WellKeyed) :
    table.entries.Pairwise fun first second =>
      compare (family.key first) (family.key second) = .lt := by
  rw [entries, List.pairwise_map]
  apply table.increasing_rows.imp_of_mem
  intro first second hfirst hsecond hlt
  rw [h first hfirst, h second hsecond] at hlt
  exact hlt

/-! ## Kinds and compartments -/

theorem Compartment.select_append (compartment : Compartment) (earlier later : List Declaration) :
    compartment.select (earlier ++ later) =
      compartment.select earlier ++ compartment.select later :=
  List.filter_append earlier later

/-- Where the declarations of a kind go. -/
def Kind.compartment : Kind → Compartment
  | classDef | moduleDef => .table .classOrModule
  | interface => .table .interface
  | extension => .extensions
  | constant => .table .constant
  | global => .table .global
  | typeAlias => .table .typeAlias

theorem Declaration.compartment_kind (declaration : Declaration) :
    declaration.kind.compartment = declaration.compartment := by
  cases declaration with
  | keyed family entry =>
    cases family with
    | classOrModule => cases entry <;> rfl
    | interface | constant | global | typeAlias => rfl
  | extension added => rfl

/-- A listing has the accepted declarations of a kind, each as often as it was accepted,
in strictly increasing order of their keys. -/
structure Lists {δ κ : Type} [Ord κ] (accepted : List Declaration) (kind : Kind)
    (declare : δ → Declaration) (key : δ → κ) (listing : List δ) : Prop where
  perm : (listing.map declare).Perm (accepted.filter fun declaration => declaration.kind = kind)
  increasing : listing.Pairwise fun first second => compare (key first) (key second) = .lt

namespace Environment

variable {env : Environment} {family : Family} {kind : Kind} {declarations : List Declaration}

/-- The entries of a family as declarations, in the order of their keys. -/
def listing (env : Environment) (family : Family) : List Declaration :=
  (env.table family).entries.map (.keyed family)

/-- The six listings of an environment account for the declarations that were accepted. -/
structure AccountsFor (env : Environment) (accepted : List Declaration) : Prop where
  classes : Lists accepted .classDef .ofClass (fun definition => definition.name.anchored)
    env.classes
  modules : Lists accepted .moduleDef .ofModule (fun definition => definition.name.anchored)
    env.modules
  interfaces : Lists accepted .interface .ofInterface
    (fun definition => definition.name.anchored) env.interfaces.entries
  constants : Lists accepted .constant .ofConstant
    (fun definition => definition.name.anchored) env.constants.entries
  globals : Lists accepted .global .ofGlobal (fun definition => definition.name)
    env.globals.entries
  typeAliases : Lists accepted .typeAlias .ofTypeAlias
    (fun definition => definition.name.anchored) env.typeAliases.entries

/-! ## One family -/

@[simp] theorem listing_empty (family : Family) : empty.listing family = [] := by
  rw [listing, table_empty, List.map_eq_nil_iff, ← List.length_eq_zero_iff, Table.length_entries,
    Table.size_empty]

/-- An accepted entry is one more in the listing of its family. -/
theorem listing_submit_keyed_perm {entry : family.Entry}
    (h : env.verdict (.keyed family entry) = none) :
    ((env.submit (.keyed family entry)).listing family).Perm
      (.keyed family entry :: env.listing family) := by
  obtain ⟨hfree, hsubmit⟩ := enter_keyed_accepted_iff.1 (verdict_eq_none_iff.1 h)
  rw [hsubmit, listing, table_withTable_self]
  exact (Table.entries_file_perm hfree).map (Declaration.keyed family)

/-- A submission adds itself to the listing of its family, if it is accepted. -/
theorem listing_submit_perm (env : Environment) (family : Family) (declaration : Declaration) :
    ((env.submit declaration).listing family).Perm
      ((Compartment.table family).select (env.accepted [declaration]) ++ env.listing family) := by
  cases hverdict : env.verdict declaration with
  | some conflict =>
    rw [submit_of_verdict_eq_some hverdict, accepted_singleton_of_verdict_eq_some hverdict]
    exact .refl _
  | none =>
    rw [accepted_singleton_of_verdict_eq_none hverdict, Compartment.select]
    by_cases hown : declaration.compartment = .table family
    · rw [List.filter_cons_of_pos (by simpa using hown)]
      cases declaration with
      | extension added => cases hown
      | keyed other entry =>
        cases hown
        exact listing_submit_keyed_perm hverdict
    · have htable : (env.submit declaration).table family = env.table family :=
        agreeOn_submit_of_ne hown
      rw [List.filter_cons_of_neg (by simpa using hown), listing, htable]
      exact .refl _

/-- A row adds to the listing of a family what it has accepted of it. -/
theorem listing_submitAll_perm (env : Environment) (family : Family)
    (declarations : List Declaration) :
    ((env.submitAll declarations).listing family).Perm
      ((Compartment.table family).select (env.accepted declarations) ++ env.listing family) := by
  induction declarations generalizing env with
  | nil => exact .refl _
  | cons declaration later ih =>
    rw [submitAll_cons, accepted_cons env declaration later, Compartment.select_append,
      List.append_assoc]
    have hfirst := listing_submit_perm env family declaration
    exact ((ih (env.submit declaration)).trans (hfirst.append_left _)).trans
      (List.perm_append_comm_assoc _ _ _)

/-- After a row the entries of a family are listed in the order of their keys. -/
theorem increasing_entries_submitAll (family : Family) (declarations : List Declaration) :
    ((empty.submitAll declarations).table family).entries.Pairwise fun first second =>
      compare (family.key first) (family.key second) = .lt :=
  ((wellKept_of_reachable (reachable_submitAll declarations)).tables family).increasing_entries

/-! ## One kind -/

/-- After a row, the listing of a family has of each of its kinds what was accepted of it. -/
theorem filter_listing_submitAll_perm (declarations : List Declaration)
    (h : kind.compartment = .table family) :
    (((empty.submitAll declarations).listing family).filter fun declaration =>
        declaration.kind = kind).Perm
      ((empty.accepted declarations).filter fun declaration => declaration.kind = kind) := by
  have hfamily := listing_submitAll_perm empty family declarations
  rw [listing_empty, List.append_nil] at hfamily
  have hkind : ((Compartment.table family).select (empty.accepted declarations)).filter
      (fun declaration => declaration.kind = kind) =
        (empty.accepted declarations).filter fun declaration => declaration.kind = kind := by
    rw [Compartment.select, List.filter_filter]
    refine List.filter_congr fun declaration _ => ?_
    have hcompartment := declaration.compartment_kind
    by_cases hof : declaration.kind = kind
    · rw [hof, h] at hcompartment
      simp [hof, ← hcompartment]
    · simp [hof]
  exact hkind ▸ hfamily.filter _

/-- A family of one kind lists what was accepted of the kind. -/
theorem lists_entries (family : Family) (kind : Kind) (declarations : List Declaration)
    (h : kind.compartment = .table family)
    (honly : ∀ entry, (Declaration.keyed family entry).kind = kind) :
    Lists (empty.accepted declarations) kind (.keyed family) family.key
      ((empty.submitAll declarations).table family).entries := by
  constructor
  · have hall : ((empty.submitAll declarations).listing family).filter
        (fun declaration => declaration.kind = kind) =
          (empty.submitAll declarations).listing family := by
      rw [List.filter_eq_self]
      intro declaration hmem
      obtain ⟨entry, -, rfl⟩ := List.mem_map.1 hmem
      exact decide_eq_true (honly entry)
    have hperm := filter_listing_submitAll_perm declarations h
    rw [hall] at hperm
    exact hperm
  · exact increasing_entries_submitAll family declarations

section OfOneKind

-- the classes, or the modules, among the entries of their family
variable {δ : Type} {select : ClassOrModule → Option δ} {declare : δ → Declaration}
  {name : δ → ModuleName}
  (hselect : ∀ entry, (select entry).map declare =
    Option.guard (fun declaration => declaration.kind = kind) (.keyed .classOrModule entry))

include hselect

theorem map_filterMap_entries (entries : List ClassOrModule) :
    (entries.filterMap select).map declare =
      (entries.map (Declaration.keyed .classOrModule)).filter fun declaration =>
        declaration.kind = kind := by
  rw [List.map_filterMap, ← List.filterMap_eq_filter, List.filterMap_map]
  congr 1
  funext entry
  exact hselect entry

/-- Classes and modules, kept in one table, are listed apart. -/
theorem lists_filterMap_entries (declarations : List Declaration)
    (h : kind.compartment = .table .classOrModule)
    (hname : ∀ entry value, select entry = some value → name value = entry.name) :
    Lists (empty.accepted declarations) kind declare (fun value => (name value).anchored)
      ((empty.submitAll declarations).classesAndModules.entries.filterMap select) := by
  constructor
  · rw [map_filterMap_entries hselect]
    exact filter_listing_submitAll_perm declarations h
  · have hentries := increasing_entries_submitAll .classOrModule declarations
    refine hentries.filterMap select fun first second hlt value hvalue other hother => ?_
    rw [hname first value hvalue, hname second other hother]
    exact hlt

end OfOneKind

/-- After a row the six listings account for what was accepted. -/
theorem accountsFor_submitAll (declarations : List Declaration) :
    (empty.submitAll declarations).AccountsFor (empty.accepted declarations) := by
  constructor
  case classes =>
    have hselect : ∀ entry : ClassOrModule, entry.asClass?.map Declaration.ofClass =
        Option.guard (fun declaration => declaration.kind = .classDef)
          (.keyed .classOrModule entry) := by
      intro entry
      cases entry <;> rfl
    refine lists_filterMap_entries hselect declarations rfl fun entry definition hclass => ?_
    rw [ClassOrModule.asClass?_eq_some_iff.1 hclass]
    rfl
  case modules =>
    have hselect : ∀ entry : ClassOrModule, entry.asModule?.map Declaration.ofModule =
        Option.guard (fun declaration => declaration.kind = .moduleDef)
          (.keyed .classOrModule entry) := by
      intro entry
      cases entry <;> rfl
    refine lists_filterMap_entries hselect declarations rfl fun entry definition hmodule => ?_
    rw [ClassOrModule.asModule?_eq_some_iff.1 hmodule]
    rfl
  case interfaces => exact lists_entries .interface .interface declarations rfl fun _ => rfl
  case constants => exact lists_entries .constant .constant declarations rfl fun _ => rfl
  case globals => exact lists_entries .global .global declarations rfl fun _ => rfl
  case typeAliases => exact lists_entries .typeAlias .typeAlias declarations rfl fun _ => rfl

/-! ## The size -/

/-- Each entry of the table of classes and modules is listed as one or the other. -/
theorem length_classes_add_length_modules (env : Environment) :
    env.classes.length + env.modules.length = env.classesAndModules.size := by
  rw [← Table.length_entries, classes, modules]
  induction env.classesAndModules.entries with
  | nil => rfl
  | cons entry later ih =>
    cases entry <;> simp only [List.filterMap_cons, ClassOrModule.asClass?, ClassOrModule.asModule?,
      List.length_cons] <;> omega

/-- The size is that of the six listings and the number of extensions. -/
theorem size_eq_sum (env : Environment) :
    env.size = env.classes.length + env.modules.length + env.interfaces.entries.length +
      env.constants.entries.length + env.globals.entries.length +
      env.typeAliases.entries.length + env.extensions.count := by
  rw [size, ← length_classes_add_length_modules env, ← env.interfaces.length_entries,
    ← env.constants.length_entries, ← env.globals.length_entries,
    ← env.typeAliases.length_entries]
  omega

/-- **Listings are exact.** After a row of submissions to an empty environment each of
the six listings has the accepted declarations of its kind, each once, and nothing
else, in strictly increasing order of their names read at the root, or of their
symbols. The size is the number of entries listed and of extensions in the row,
which is the number of submissions that were accepted; so the environment is empty
exactly if none was. -/
theorem listings_are_exact (declarations : List Declaration) :
    (empty.submitAll declarations).AccountsFor (empty.accepted declarations) ∧
    (empty.submitAll declarations).size =
      (empty.submitAll declarations).classes.length +
        (empty.submitAll declarations).modules.length +
        (empty.submitAll declarations).interfaces.entries.length +
        (empty.submitAll declarations).constants.entries.length +
        (empty.submitAll declarations).globals.entries.length +
        (empty.submitAll declarations).typeAliases.entries.length +
        (Declaration.extensionsIn declarations).length ∧
    (empty.submitAll declarations).size = (empty.verdicts declarations).count none ∧
    ((empty.submitAll declarations).isEmpty = true ↔ none ∉ empty.verdicts declarations) := by
  have hcount : (empty.submitAll declarations).extensions.count =
      (Declaration.extensionsIn declarations).length := by
    rw [count_submitAll]
    exact Nat.zero_add _
  have hsize : (empty.submitAll declarations).size = (empty.verdicts declarations).count none := by
    rw [size_submitAll, length_accepted]
    exact Nat.zero_add _
  refine ⟨accountsFor_submitAll declarations, ?_, hsize, ?_⟩
  · rw [size_eq_sum, hcount]
  · rw [isEmpty, beq_iff_eq, hsize, List.count_eq_zero]

-- a relative name is listed where it stands at the root, whatever came between
example : (empty.submitAll
    [.ofClass ⟨⟨.empty, "B"⟩, [], none, [], ⟨0, 5⟩⟩,
      .ofModule ⟨⟨.root, "AB"⟩, [], none, [], ⟨6, 9⟩⟩,
      .ofClass ⟨⟨.root, "A"⟩, [], none, [], ⟨10, 15⟩⟩]).classes.map ClassDef.name =
    [⟨.root, "A"⟩, ⟨.empty, "B"⟩] := by
  decide

end Environment

end ScopedSignatures
