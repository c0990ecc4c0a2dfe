import ScopedSignatures.Proofs.Environment.Listing
import ScopedSignatures.Proofs.Namespace.Precedence
import ScopedSignatures.Proofs.Order.Block

/-!
# Scopes in listings

Listings follow the order of the keys, not that of the texts. Segments are arbitrary, so
a name can be written as if it stood in a namespace that it does not stand in, and by text
it would be listed there. By keys, what is declared in a namespace and in those nested in
it is one block of each listing, whatever else is listed.

## Main definitions

* `Environment.ListsInBlocks` — no listing of an environment splits a namespace

## Main results

* `QualifiedName.inOneBlock` — rows that follow the names of their items split no namespace
* `Environment.listsInBlocks_of_reachable` — neither do the listings of an environment
* `Environment.scopes_are_listed_together` — the order of the keys, and what it does to listings
-/

namespace ScopedSignatures

/-! ## Rows of names -/

namespace QualifiedName

variable {vocabulary : Vocabulary} {δ : Type} {name : δ → QualifiedName vocabulary}
  {row : List δ}

/-- Where rows follow the names of their items, the names under a path are one block. -/
theorem inOneBlock
    (h : row.Pairwise fun first second => (compare (name first) (name second)).isLE)
    (path : List Symbol) : InOneBlock (fun item => (name item).IsUnder path) row :=
  inOneBlock_of_pairwise h fun _ _ _ hbelow habove hfirst hlast =>
    isUnder_of_between hfirst hlast hbelow habove

/-- Tables follow the names read at the root, which are under a path as the names are. -/
theorem inOneBlock_of_increasing
    (h : row.Pairwise fun first second =>
      compare (name first).anchored (name second).anchored = .lt) (path : List Symbol) :
    InOneBlock (fun item => (name item).IsUnder path) row := by
  have hascending := h.imp Ordering.isLE_of_eq_lt
  simpa only [isUnder_anchored] using inOneBlock hascending path

end QualifiedName

/-! ## Environments -/

namespace Environment

variable {env : Environment}

/-- Each table and each listing has what is declared in the namespace with these segments,
or in one nested in it, as one block. -/
structure ListsInBlocks (env : Environment) (path : List Symbol) : Prop where
  classesAndModules : InOneBlock (fun entry => entry.name.IsUnder path)
    env.classesAndModules.entries
  classes : InOneBlock (fun definition => definition.name.IsUnder path) env.classes
  modules : InOneBlock (fun definition => definition.name.IsUnder path) env.modules
  interfaces : InOneBlock (fun definition => definition.name.IsUnder path) env.interfaces.entries
  constants : InOneBlock (fun definition => definition.name.IsUnder path) env.constants.entries
  typeAliases : InOneBlock (fun definition => definition.name.IsUnder path)
    env.typeAliases.entries

theorem listsInBlocks_of_reachable (h : env.Reachable) (path : List Symbol) :
    env.ListsInBlocks path := by
  have htables := (wellKept_of_reachable h).tables
  have hboth : InOneBlock (fun entry => entry.name.IsUnder path) env.classesAndModules.entries :=
    QualifiedName.inOneBlock_of_increasing (htables .classOrModule).increasing_entries path
  constructor
  case classesAndModules => exact hboth
  case classes =>
    apply hboth.filterMap
    intro entry definition hclass
    rw [ClassOrModule.asClass?_eq_some_iff.1 hclass]
    rfl
  case modules =>
    apply hboth.filterMap
    intro entry definition hmodule
    rw [ClassOrModule.asModule?_eq_some_iff.1 hmodule]
    rfl
  case interfaces =>
    exact QualifiedName.inOneBlock_of_increasing (htables .interface).increasing_entries path
  case constants =>
    exact QualifiedName.inOneBlock_of_increasing (htables .constant).increasing_entries path
  case typeAliases =>
    exact QualifiedName.inOneBlock_of_increasing (htables .typeAlias).increasing_entries path

/-- **Scopes are listed together.** Symbols, namespaces and names are totally ordered, and
only a value itself compares as equal to it. Symbols follow the bytes of their UTF-8
forms. A namespace comes before those nested in it, before those that have the greater
segment where the two part, and, as a relative one, before the absolute one with its
segments; names follow their namespaces and then their last segments. So what encloses a
path comes before it, whatever the anchors, and a name between two names under a path is
under it. The names under a path are therefore one block in every sorted row, in what
sorting makes of a row, and in the listings of every environment that declarations and
batches lead to. -/
theorem scopes_are_listed_together :
    (OrdersTotally Symbol ∧ OrdersTotally Namespace ∧
      ∀ vocabulary, OrdersTotally (QualifiedName vocabulary)) ∧
    (∀ first second : Symbol, compare first second = compare first.bytes second.bytes) ∧
    (∀ first second : Namespace, compare first second = .lt ↔ first.Precedes second) ∧
    (∀ (vocabulary : Vocabulary) (first second : QualifiedName vocabulary),
      compare first second = .lt ↔ first.qualifier.Precedes second.qualifier ∨
        first.qualifier = second.qualifier ∧ first.last < second.last) ∧
    (∀ ns : Namespace, ∀ scope ∈ ns.enclosing.tail, ∀ anchor anchor',
      compare (⟨scope.segments, anchor⟩ : Namespace) ⟨ns.segments, anchor'⟩ = .lt) ∧
    (∀ (vocabulary : Vocabulary) (path : List Symbol)
      (first middle last : QualifiedName vocabulary), first.IsUnder path → last.IsUnder path →
        (compare first middle).isLE → (compare middle last).isLE → middle.IsUnder path) ∧
    (∀ (vocabulary : Vocabulary) (path : List Symbol) (names : List (QualifiedName vocabulary)),
      (names.Pairwise (fun first second => (compare first second).isLE) →
        InOneBlock (fun name => name.IsUnder path) names) ∧
      InOneBlock (fun item => item.1.IsUnder path) (Listing.sorted names)) ∧
    ∀ env : Environment, env.Reachable → ∀ path, env.ListsInBlocks path := by
  refine ⟨⟨ordersTotally, ordersTotally, fun _ => ordersTotally⟩,
    fun first second => (Symbol.compare_bytes first second).symm,
    fun _ _ => Namespace.compare_eq_lt_iff_precedes,
    fun _ _ _ => QualifiedName.compare_eq_lt_iff,
    fun _ _ hscope => Namespace.compare_of_mem_enclosing hscope,
    fun _ _ _ _ _ => QualifiedName.isUnder_of_between,
    fun _ path names => ⟨fun hsorted => QualifiedName.inOneBlock hsorted path, ?_⟩,
    fun _ => listsInBlocks_of_reachable⟩
  exact QualifiedName.inOneBlock (Listing.ascending_sorted names) path

/-- Classes in a namespace, in one nested in it, and in one that is written like the nested
one. By text the last of them would stand between the other two. -/
def lookalikeScopes : Environment :=
  (empty.declareAll
    [.ofClass ⟨⟨⟨["A", "B"], .relative⟩, "X"⟩, [], none, [], ⟨0, 5⟩⟩,
      .ofClass ⟨⟨⟨["A::B"], .absolute⟩, "Y"⟩, [], none, [], ⟨6, 9⟩⟩,
      .ofClass ⟨⟨⟨["A"], .absolute⟩, "Z"⟩, [], none, [], ⟨10, 15⟩⟩]).value.state

/-- The namespace and the nested one are one block, and the one that is written like the
nested one is another to the comparison. The namespace comes before the nested one also as
an absolute one before a relative one, and a name between theirs is under it. -/
theorem lookalike_scope_stands_apart :
    lookalikeScopes.Reachable ∧
      lookalikeScopes.classes.map (fun definition => definition.name.anchored.toString) =
        ["::A::Z", "::A::B::X", "::A::B::Y"] ∧
      InOneBlock (fun definition => definition.name.IsUnder ["A"]) lookalikeScopes.classes ∧
      (⟨["A::B"], .relative⟩ : Namespace).toString =
        (⟨["A", "B"], .relative⟩ : Namespace).toString ∧
      compare (⟨["A::B"], .relative⟩ : Namespace) ⟨["A", "B"], .relative⟩ ≠ .eq ∧
      compare (⟨["A"], .absolute⟩ : Namespace) ⟨["A", "B"], .relative⟩ = .lt ∧
      (⟨⟨["A", "A!"], .relative⟩, "X"⟩ : ModuleName).IsUnder ["A"] := by
  obtain ⟨⟨-, hnamespaces, -⟩, -, -, -, henclosing, hbetween, -, hlistings⟩ :=
    scopes_are_listed_together
  have hreachable : lookalikeScopes.Reachable := .declareAll .refl _
  refine ⟨hreachable, by decide, (hlistings lookalikeScopes hreachable ["A"]).classes, by decide,
    fun heq => ?_, ?_, ?_⟩
  · exact absurd ((hnamespaces.eq_iff _ _).1 heq) (by decide)
  · exact henclosing ⟨["A", "B"], .relative⟩ ⟨["A"], .relative⟩ (by decide) .absolute .relative
  · exact hbetween .moduleLike ["A"] ⟨⟨["A"], .absolute⟩, "Z"⟩ _ ⟨⟨["A", "B"], .relative⟩, "X"⟩
      (by decide) (by decide) (by decide) (by decide)

end Environment

end ScopedSignatures
