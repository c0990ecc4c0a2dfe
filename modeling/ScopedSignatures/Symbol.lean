import ScopedSignatures.Text.Quoted

/-!
# Symbols

A symbol is the text of one identifier: a segment of a path, the last part of a
name, a type variable or a global variable with its sigil. Symbols are compared
by their text and ordered by code points.

## Main definitions

* `Symbol` — the text of an identifier
* `Symbol.describe` — the quoted form, marked as a symbol
* `Symbol.beginsWith`, `Symbol.byteCount` — the first character and the size in UTF-8
-/

namespace ScopedSignatures

/-- The text of one identifier. Nothing restricts the text itself. -/
abbrev Symbol := String

namespace Symbol

/-- The quoted form of a symbol, marked as a symbol. -/
def describe (symbol : Symbol) : String := "Symbol(" ++ Quoted.quote symbol ++ ")"

/-- Whether a character comes first in the symbol. -/
def beginsWith (symbol : Symbol) (c : Char) : Bool := symbol.toList.head? == some c

/-- The number of bytes the symbol takes in UTF-8. -/
def byteCount (symbol : Symbol) : Nat := symbol.utf8ByteSize

end Symbol

end ScopedSignatures
