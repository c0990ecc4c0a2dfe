import ScopedSignatures.Proofs.Declaration.Claim
import ScopedSignatures.Proofs.QualifiedName.RoundTrip

/-!
# Keys and their texts

A report shows a key by its text. Where declarations have well-formed names, as all that
are read from text do, the text is as good as the key: it can be read back, in the
vocabulary of the family, and different keys have different texts. Names that are not
well formed may differ only in where their segments end, and are then written alike.

## Main definitions

* `Family.WellNamed`, `Declaration.WellNamed` — an entry, or a declaration, with a name that can
  be read
* `Family.parseKey` — the key that a text denotes

## Main results

* `Family.parseKey_keyText` — the text of a key is read as the key
* `Family.keyText_key_eq_iff` — the text determines the key
-/

namespace ScopedSignatures

/-- Whether a name is well formed is a matter of its segments, not of its anchor. -/
theorem QualifiedName.WellFormed.anchored {vocabulary : Vocabulary}
    {name : QualifiedName vocabulary} (h : name.WellFormed) : name.anchored.WellFormed := h

namespace Family

variable {family : Family} {first second : family.Entry}

/-- The entry is declared under a well-formed name. The symbol of a global may be any text. -/
def WellNamed : (family : Family) → family.Entry → Prop
  | classOrModule, entry => entry.name.WellFormed
  | interface, entry => entry.name.WellFormed
  | constant, entry => entry.name.WellFormed
  | global, _ => True
  | typeAlias, entry => entry.name.WellFormed

instance instDecidableWellNamed :
    (family : Family) → (entry : family.Entry) → Decidable (family.WellNamed entry)
  | classOrModule, entry => inferInstanceAs (Decidable entry.name.WellFormed)
  | interface, entry => inferInstanceAs (Decidable entry.name.WellFormed)
  | constant, entry => inferInstanceAs (Decidable entry.name.WellFormed)
  | global, _ => inferInstanceAs (Decidable True)
  | typeAlias, entry => inferInstanceAs (Decidable entry.name.WellFormed)

/-- Reads a key of a family. Any text is the key of a global. -/
def parseKey : (family : Family) → String → Except NameError family.Key
  | classOrModule, text | constant, text => QualifiedName.parse text
  | interface, text => QualifiedName.parse text
  | global, text => .ok text
  | typeAlias, text => QualifiedName.parse text

/-- The text of the key that a well-named entry claims is read as that key. -/
theorem parseKey_keyText (h : family.WellNamed first) :
    family.parseKey (family.keyText (family.key first)) = .ok (family.key first) := by
  cases family with
  | global => rfl
  | classOrModule | interface | constant | typeAlias =>
    have hkey : first.name.anchored.WellFormed := QualifiedName.WellFormed.anchored h
    rw [parseKey, keyText, key, QualifiedName.parse_toString_iff.2 hkey]

/-- Keys of well-named entries are written alike only if they are the same key. -/
theorem keyText_key_eq_iff (hfirst : family.WellNamed first) (hsecond : family.WellNamed second) :
    family.keyText (family.key first) = family.keyText (family.key second) ↔
      family.key first = family.key second := by
  constructor
  · intro htext
    have hread :
        (.ok (family.key first) : Except NameError family.Key) = .ok (family.key second) := by
      rw [← parseKey_keyText hfirst, htext, parseKey_keyText hsecond]
    exact Except.ok.inj hread
  · exact congrArg family.keyText

/-- Two names with an end of a segment at different places, written alike. -/
example : (⟨⟨["A", "B"], .absolute⟩, "C"⟩ : ModuleName).toString =
      (⟨⟨["A::B"], .absolute⟩, "C"⟩ : ModuleName).toString ∧
    ¬ (⟨⟨["A::B"], .absolute⟩, "C"⟩ : ModuleName).WellFormed := by
  decide

end Family

namespace Declaration

variable {declaration : Declaration} {family : Family} {key : family.Key}

/-- The declaration, unless it is an extension, is of an entry with a well-formed name. -/
def WellNamed : Declaration → Prop
  | keyed family entry => family.WellNamed entry
  | extension _ => True

instance instDecidableWellNamed : (declaration : Declaration) → Decidable declaration.WellNamed
  | keyed family entry => inferInstanceAs (Decidable (family.WellNamed entry))
  | extension _ => inferInstanceAs (Decidable True)

/-- A claim is made by the entries of its family that have its key. -/
theorem claim?_eq_some_iff :
    declaration.claim? = some ⟨family, key⟩ ↔
      ∃ entry, declaration = keyed family entry ∧ family.key entry = key := by
  cases declaration with
  | keyed other entry =>
    rw [claim?_keyed, Option.some.injEq]
    constructor
    · intro hclaim
      cases hclaim
      exact ⟨entry, rfl, rfl⟩
    · rintro ⟨entry, hsame, rfl⟩
      cases hsame
      rfl
  | extension added => simp

end Declaration

end ScopedSignatures
