import ScopedSignatures.TypeExpr.Written
import ScopedSignatures.Proofs.QualifiedName.Reading

/-!
# Plain types, and what their text shows

The text of a type does not say what its names stand for: a variable, a class, an
interface and an alias of one name are written alike. Everything else is shown, as
long as the type is plain: its names are words and none of them is a keyword, and
it has no union where the missing parentheses would join it with what stands around
it. Types that no reader could get from a text, such as a union of one member, are
not plain.

## Main definitions

* `TypeExpr.shown` — a type without what its names stand for
* `Symbol.IsWord`, `QualifiedName.Plain`, `Reserved` — names that can be told from other text
* `TypeExpr.Plain` — types that can be told from each other

## Main results

* `TypeExpr.toString_shown` — what is shown of a type has its text
-/

namespace ScopedSignatures

/-- One or more ASCII letters, digits and underscores. -/
def Symbol.IsWord (symbol : Symbol) : Prop :=
  symbol ≠ "" ∧ ∀ c ∈ symbol.toList, c.isAlphanum = true ∨ c = '_'

instance (symbol : Symbol) : Decidable (Symbol.IsWord symbol) :=
  decidable_of_iff
    (symbol ≠ "" ∧ (symbol.toList.all fun c => c.isAlphanum || c == '_') = true) (by
      simp [Symbol.IsWord])

/-- The text of a keyword. -/
def Reserved (text : String) : Prop := ∃ type : BaseType, text = type.keyword

variable {vocabulary : Vocabulary}

namespace QualifiedName

variable {name : QualifiedName vocabulary}

/-- The last segment and all segments in front of it are words. -/
def Plain (name : QualifiedName vocabulary) : Prop :=
  (∀ segment ∈ name.qualifier.segments, Symbol.IsWord segment) ∧ Symbol.IsWord name.last

instance (name : QualifiedName vocabulary) : Decidable name.Plain :=
  inferInstanceAs (Decidable (_ ∧ _))

/-- The name as one of a class or a module. -/
def asModuleName (name : QualifiedName vocabulary) : ModuleName := ⟨name.qualifier, name.last⟩

@[simp] theorem toString_asModuleName (name : QualifiedName vocabulary) :
    name.asModuleName.toString = name.toString := rfl

end QualifiedName

/-- A name of one segment. -/
def Symbol.asModuleName (symbol : Symbol) : ModuleName := ⟨.empty, symbol⟩

@[simp] theorem Symbol.toString_asModuleName (symbol : Symbol) :
    (Symbol.asModuleName symbol).toString = symbol := by
  rw [← String.toList_inj, QualifiedName.toList_toString]
  exact Separator.joined_singleton symbol.toList

/-- A word is a segment of a name. -/
theorem Symbol.IsWord.isSegment {symbol : Symbol} (h : Symbol.IsWord symbol) :
    Separator.IsSegment symbol.toList := by
  refine ⟨fun hnil => h.1 (String.toList_eq_nil_iff.1 hnil), fun hcolon => ?_⟩
  exact absurd (h.2 ':' hcolon) (by decide)

theorem QualifiedName.Plain.wellFormed {name : QualifiedName vocabulary} (h : name.Plain) :
    name.WellFormed :=
  ⟨fun segment hsegment => (h.1 segment hsegment).isSegment, h.2.isSegment⟩

namespace TypeExpr

/-! ## What is shown -/

mutual

/-- The type without what its names stand for: each is taken for that of a class,
and one that cannot have arguments for one without. -/
def shown : TypeExpr → TypeExpr
  | base type => base type
  | var name => ofClass (Symbol.asModuleName name) []
  | ofClass name args => ofClass name (shownAll args)
  | singleton name => singleton name
  | ofInterface name args => ofClass name.asModuleName (shownAll args)
  | ofAlias name => ofClass name.asModuleName []
  | union members => union (shownAll members)
  | optional inner => optional inner.shown
  | tuple items => tuple (shownAll items)
  | proc params result => proc (shownAll params) result.shown

/-- The types without what their names stand for. -/
def shownAll : List TypeExpr → List TypeExpr
  | [] => []
  | type :: types => type.shown :: shownAll types

end

theorem shownAll_eq_map (types : List TypeExpr) : shownAll types = types.map shown := by
  induction types with
  | nil => rfl
  | cons type types ih => rw [shownAll, ih, List.map_cons]

@[simp] theorem isOpen_shown (type : TypeExpr) : type.shown.isOpen = type.isOpen := by
  cases type <;> rfl

mutual

/-- What is shown of a type has the text of the type. -/
theorem toString_shown : (type : TypeExpr) → type.shown.toString = type.toString
  | base _ | singleton _ => rfl
  | var name => by
    rw [shown, TypeExpr.toString, TypeExpr.toString, Symbol.toString_asModuleName]
    exact String.append_empty
  | ofAlias name => by
    rw [shown, TypeExpr.toString, TypeExpr.toString, QualifiedName.toString_asModuleName]
    exact String.append_empty
  | ofClass name args => by
    rw [shown, TypeExpr.toString, TypeExpr.toString, texts_shownAll args]
  | ofInterface name args => by
    rw [shown, TypeExpr.toString, TypeExpr.toString, texts_shownAll args,
      QualifiedName.toString_asModuleName]
  | union members => by
    rw [shown, TypeExpr.toString, TypeExpr.toString, texts_shownAll members]
  | optional inner => by
    rw [shown, TypeExpr.toString, TypeExpr.toString, toString_shown inner, isOpen_shown]
  | tuple items => by
    rw [shown, TypeExpr.toString, TypeExpr.toString, texts_shownAll items]
  | proc params result => by
    rw [shown, TypeExpr.toString, TypeExpr.toString, texts_shownAll params, toString_shown result]

theorem texts_shownAll : (types : List TypeExpr) → texts (shownAll types) = texts types
  | [] => rfl
  | type :: types => by
    rw [shownAll, texts, texts, toString_shown type, texts_shownAll types]

end

/-! ## Plain types -/

/-- Whether the type is a union. -/
def isUnion : TypeExpr → Bool
  | union _ => true
  | _ => false

/-- Whether the type is that of a procedure. -/
def isProc : TypeExpr → Bool
  | proc _ _ => true
  | _ => false

/-- At every depth, names are words and no keywords, unions have two members or more,
none of which is a union itself and of which only the last may be a procedure, and no
procedure has a union for its result. The name of a singleton stands between
parentheses and may be a keyword. -/
inductive Plain : TypeExpr → Prop where
  | base (type : BaseType) : Plain (base type)
  | var {name : Symbol} (hword : Symbol.IsWord name) (hfree : ¬ Reserved name) :
    Plain (var name)
  | ofClass {name : ModuleName} {args : List TypeExpr} (hname : name.Plain)
    (hfree : ¬ Reserved name.toString) (hargs : ∀ arg ∈ args, Plain arg) :
    Plain (ofClass name args)
  | singleton {name : ModuleName} (hname : name.Plain) : Plain (singleton name)
  | ofInterface {name : InterfaceName} {args : List TypeExpr} (hname : name.Plain)
    (hfree : ¬ Reserved name.toString) (hargs : ∀ arg ∈ args, Plain arg) :
    Plain (ofInterface name args)
  | ofAlias {name : AliasName} (hname : name.Plain) (hfree : ¬ Reserved name.toString) :
    Plain (ofAlias name)
  | union {members : List TypeExpr} (hlength : 2 ≤ members.length)
    (hunion : ∀ member ∈ members, member.isUnion = false)
    (hproc : ∀ member ∈ members.dropLast, member.isProc = false)
    (hmembers : ∀ member ∈ members, Plain member) : Plain (union members)
  | optional {inner : TypeExpr} (hinner : Plain inner) : Plain (optional inner)
  | tuple {items : List TypeExpr} (hitems : ∀ item ∈ items, Plain item) : Plain (tuple items)
  | proc {params : List TypeExpr} {result : TypeExpr} (hparams : ∀ param ∈ params, Plain param)
    (hresult : Plain result) (hunion : result.isUnion = false) : Plain (proc params result)

end TypeExpr

end ScopedSignatures
