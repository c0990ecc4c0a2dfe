/-!
# Malformed names

Why the text of a path or of a qualified name is refused. Both causes carry the
whole text that was read, not the part at fault.

## Main definitions

* `NameError` — the two causes
* `NameError.message` — the sentence shown to a reader
-/

namespace ScopedSignatures

/-- Why a written path or name is refused. -/
inductive NameError where
  /-- Two separators touch, or a colon is left inside a segment. -/
  | emptySegment (input : String)
  /-- Nothing stands after the last separator of a qualified name. -/
  | missingFinal (input : String)
  deriving DecidableEq, Repr

namespace NameError

/-- The whole text that was refused. -/
def input : NameError → String
  | emptySegment input => input
  | missingFinal input => input

/-- The sentence shown to a reader, with the refused text between backquotes. -/
def message : NameError → String
  | emptySegment input => "empty segment in name `" ++ input ++ "`"
  | missingFinal input => "missing final segment in name `" ++ input ++ "`"

end NameError

end ScopedSignatures
