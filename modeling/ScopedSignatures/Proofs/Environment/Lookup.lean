import ScopedSignatures.Proofs.Environment.Visibility

/-!
# Looking up in one scope

Interfaces and type aliases are looked up at one key: the name itself if it is
absolute, and otherwise the segments of the scope and of the name together, at the
root. Nothing else in the environment has a say. So a miss tells which key to fill,
an alias that is declared there is what the name stands for from then on, and no
other alias name notices.

## Main definitions

* `Search.keyIn` — the key of a name in one scope, spelled out

## Main results

* `Search.directKey_eq_keyIn` — the key that is tried is the one that is spelled out
* `Environment.lookUpInterface_congr`, `Environment.lookUpAlias_congr` — what stands at the key
  decides
* `Environment.exists_declare_of_free` — a free alias key can be filled
* `Environment.one_key_decides` — look-ups, misses and what makes good a miss
-/

namespace ScopedSignatures

/-! ## The key -/

namespace Search

variable {vocabulary : Vocabulary} {δ : Type} {probe later : QualifiedName vocabulary → Option δ}
  {name : QualifiedName vocabulary} {scope : Namespace}

/-- The key of a name in one scope, spelled out. An absolute name is its own key. A
relative one comes behind all segments of the scope, whatever the scope's anchor. -/
def keyIn (name : QualifiedName vocabulary) (scope : Namespace) : QualifiedName vocabulary :=
  if name.isAbsolute then name
  else ⟨⟨scope.segments ++ name.qualifier.segments, .absolute⟩, name.last⟩

/-- The key that the direct search tries is the one that is spelled out. -/
theorem directKey_eq_keyIn (name : QualifiedName vocabulary) (scope : Namespace) :
    directKey name scope = keyIn name scope := by
  rw [keyIn]
  by_cases habsolute : name.isAbsolute = true
  · rw [if_pos habsolute, directKey_of_isAbsolute habsolute]
  · have hanchor := Namespace.isRelative_iff.1 (not_isAbsolute_iff.1 habsolute)
    rw [if_neg habsolute, directKey, Namespace.qualify_of_isRelative hanchor]
    rfl

theorem isAbsolute_keyIn (name : QualifiedName vocabulary) (scope : Namespace) :
    (keyIn name scope).isAbsolute = true := by
  rw [← directKey_eq_keyIn]
  exact QualifiedName.isAbsolute_anchored _

/-- What stands at the key decides about the whole search. -/
theorem direct_congr (h : probe (keyIn name scope) = later (keyIn name scope)) :
    direct probe name scope = direct later name scope := by
  rw [direct, direct, directKey_eq_keyIn, tryInOrder, tryInOrder, h]
  rfl

end Search

namespace Environment

variable {env other : Environment} {scope : Namespace}

/-! ## What stands at the key decides -/

theorem value_lookUpInterface_eq (env : Environment) (name : InterfaceName) (scope : Namespace) :
    (env.lookUpInterface name scope).value =
      (env.table .interface).find? (Search.keyIn name scope) := by
  rw [value_lookUpInterface, Search.directKey_eq_keyIn]

/-- Environments with the same interface at a key give the same answers for it. -/
theorem lookUpInterface_congr {name : InterfaceName}
    (h : (env.table .interface).find? (Search.keyIn name scope) =
      (other.table .interface).find? (Search.keyIn name scope)) :
    env.lookUpInterface name scope = other.lookUpInterface name scope := by
  rw [lookUpInterface, lookUpInterface, Search.direct_congr h]

/-- Environments with the same alias at a key give the same answers for it. -/
theorem lookUpAlias_congr {name : AliasName}
    (h : (env.table .typeAlias).find? (Search.keyIn name scope) =
      (other.table .typeAlias).find? (Search.keyIn name scope)) :
    env.lookUpAlias name scope = other.lookUpAlias name scope := by
  rw [lookUpAlias, lookUpAlias, Search.direct_congr h]

/-! ## Making good a miss -/

/-- An alias can be declared under a free key. Then it is what stands there, and all
other keys are as before. -/
theorem exists_declare_of_free {definition : TypeAlias}
    (h : (env.table .typeAlias).find? definition.name.anchored = none) :
    ∃ result, (env.declare (.ofTypeAlias definition)).value = ⟨result, none⟩ ∧
      Search.Fills (env.table .typeAlias).find? (result.table .typeAlias).find?
        definition.name.anchored definition := by
  have hentered := enter_keyed_accepted_iff.2
    ⟨(h : (env.table .typeAlias).find? (Family.key .typeAlias definition) = none), rfl⟩
  exact ⟨_, (value_declare env _).trans hentered, fills_of_enter_accepted hentered⟩

/-- A miss is made good by any alias whose name, read at the root, is the key that the
miss names, and by that no alias under another key is lost or found. -/
theorem exists_declare_of_miss {name : AliasName} {definition : TypeAlias}
    (hmiss : (env.table .typeAlias).find? (Search.keyIn name scope) = none)
    (hname : definition.name.anchored = Search.keyIn name scope) :
    ∃ result, (env.declare (.ofTypeAlias definition)).value = ⟨result, none⟩ ∧
      (result.lookUpAlias name scope).value = .ok definition ∧
      ∀ (another : AliasName) (place : Namespace),
        Search.keyIn another place ≠ Search.keyIn name scope →
          result.lookUpAlias another place = env.lookUpAlias another place := by
  rw [← hname] at hmiss
  obtain ⟨result, hdeclared, hfills⟩ := exists_declare_of_free hmiss
  refine ⟨result, hdeclared, ?_, fun another place hkey => ?_⟩
  · rw [value_lookUpAlias_eq_ok_iff, Search.directKey_eq_keyIn, ← hname]
    exact hfills.now
  · rw [← hname] at hkey
    exact lookUpAlias_congr (hfills.others _ hkey)

/-- **One key decides.** What an interface or an alias name stands for in a scope is
what stands at its key there, so environments that have the same at the key give
the same answer. An alias miss names the key, which is absolute. If then an alias
is declared under the key, or under a name that is the key when read at the root,
it is accepted and found by the name that was missed, and every alias name with
another key is answered as before. -/
theorem one_key_decides (env : Environment) :
    (∀ (name : InterfaceName) (scope : Namespace),
      (env.lookUpInterface name scope).value =
        (env.table .interface).find? (Search.keyIn name scope) ∧
      ∀ other : Environment,
        (env.table .interface).find? (Search.keyIn name scope) =
          (other.table .interface).find? (Search.keyIn name scope) →
        env.lookUpInterface name scope = other.lookUpInterface name scope) ∧
    ∀ (name : AliasName) (scope : Namespace),
      (∀ definition, (env.lookUpAlias name scope).value = .ok definition ↔
        (env.table .typeAlias).find? (Search.keyIn name scope) = some definition) ∧
      (∀ miss, (env.lookUpAlias name scope).value = .error miss ↔
        (env.table .typeAlias).find? (Search.keyIn name scope) = none ∧
          miss = ⟨Search.keyIn name scope⟩) ∧
      (∀ other : Environment,
        (env.table .typeAlias).find? (Search.keyIn name scope) =
          (other.table .typeAlias).find? (Search.keyIn name scope) →
        env.lookUpAlias name scope = other.lookUpAlias name scope) ∧
      (Search.keyIn name scope).isAbsolute = true ∧
      ∀ miss, (env.lookUpAlias name scope).value = .error miss →
        ∀ definition : TypeAlias,
          definition.name = miss.key ∨ definition.name.anchored = miss.key →
          ∃ result, (env.declare (.ofTypeAlias definition)).value = ⟨result, none⟩ ∧
            (result.lookUpAlias name scope).value = .ok definition ∧
            ∀ (another : AliasName) (place : Namespace),
              Search.keyIn another place ≠ miss.key →
                result.lookUpAlias another place = env.lookUpAlias another place := by
  refine ⟨fun name scope => ⟨value_lookUpInterface_eq env name scope,
    fun other => lookUpInterface_congr⟩, fun name scope => ⟨fun definition => ?_, fun miss => ?_,
    fun other => lookUpAlias_congr, Search.isAbsolute_keyIn name scope,
    fun miss hmiss definition hname => ?_⟩⟩
  · rw [value_lookUpAlias_eq_ok_iff, Search.directKey_eq_keyIn]
  · rw [value_lookUpAlias_eq_error_iff, Search.directKey_eq_keyIn]
  · rw [value_lookUpAlias_eq_error_iff, Search.directKey_eq_keyIn] at hmiss
    obtain ⟨hfree, rfl⟩ := hmiss
    apply exists_declare_of_miss hfree
    rcases hname with hkey | hanchored
    · rw [hkey]
      exact QualifiedName.anchored_eq_self_iff.2 (Search.isAbsolute_keyIn name scope)
    · exact hanchored

/-- An alias at the root. -/
def outerAlias : TypeAlias := ⟨⟨.root, "t"⟩, [], .base .any, ⟨0, 5⟩⟩

/-- An alias of the same last segment in a namespace, declared under a relative name. -/
def innerAlias : TypeAlias := ⟨⟨⟨["A"], .relative⟩, "t"⟩, [], .base .nil, ⟨6, 9⟩⟩

/-- The alias at the root alone. -/
def withOuterAlias : Environment := empty.submit (.ofTypeAlias outerAlias)

theorem missed_alias_declared :
    (withOuterAlias.lookUpAlias ⟨.empty, "t"⟩ ⟨["A"], .absolute⟩).value =
        .error ⟨⟨⟨["A"], .absolute⟩, "t"⟩⟩ ∧
      ∃ result, (withOuterAlias.declare (.ofTypeAlias innerAlias)).value = ⟨result, none⟩ ∧
        (result.lookUpAlias ⟨.empty, "t"⟩ ⟨["A"], .absolute⟩).value = .ok innerAlias ∧
        result.lookUpAlias ⟨.empty, "t"⟩ .root =
          withOuterAlias.lookUpAlias ⟨.empty, "t"⟩ .root := by
  have hmiss : (withOuterAlias.lookUpAlias ⟨.empty, "t"⟩ ⟨["A"], .absolute⟩).value =
    .error ⟨⟨⟨["A"], .absolute⟩, "t"⟩⟩ := rfl
  obtain ⟨-, haliases⟩ := one_key_decides withOuterAlias
  obtain ⟨-, -, -, -, hrepaired⟩ := haliases ⟨.empty, "t"⟩ ⟨["A"], .absolute⟩
  obtain ⟨result, hdeclared, hfound, hothers⟩ := hrepaired _ hmiss innerAlias (Or.inr rfl)
  exact ⟨hmiss, result, hdeclared, hfound, hothers ⟨.empty, "t"⟩ .root (by decide)⟩

end Environment

end ScopedSignatures
