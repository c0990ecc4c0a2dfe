import ScopedSignatures.Text.Separator
import ScopedSignatures.NameError
import ScopedSignatures.Namespace.Basic

/-!
# Written namespaces

The root is written as a bare separator, an absolute path with a leading
separator, and the empty relative path as the empty text. Reading accepts one
separator after the last segment as well.

## Main definitions

* `Namespace.toString` — the text of a path, also of one that no text denotes
* `Namespace.describe` — the text marked as a namespace
* `Anchor.split` — a text's anchor and what follows it
* `Namespace.parse` — the path that a text denotes
-/

namespace ScopedSignatures

namespace Anchor

/-- How an anchor is written before the segments. -/
def text : Anchor → String
  | absolute => Separator.text
  | relative => ""

/-- The anchor of a written path and the text that follows it. -/
def split : List Char → Anchor × List Char
  | ':' :: ':' :: body => (absolute, body)
  | body => (relative, body)

end Anchor

namespace Namespace

/-- The text of a path: its anchor, then its segments with separators between them. -/
protected def toString (ns : Namespace) : String :=
  ns.anchor.text ++ Separator.text.intercalate ns.segments

instance : ToString Namespace := ⟨Namespace.toString⟩

/-- The text of a path, marked as a namespace. -/
def describe (ns : Namespace) : String := "Namespace(" ++ ns.toString ++ ")"

/-- Reads a path. One separator may follow the last segment; every other piece
between separators has to be a segment. -/
def parse (input : String) : Except NameError Namespace :=
  let (anchor, body) := Anchor.split input.toList
  match Separator.segments? (Separator.trimFinal body) with
  | some segments => .ok ⟨segments, anchor⟩
  | none => .error (.emptySegment input)

end Namespace

end ScopedSignatures
