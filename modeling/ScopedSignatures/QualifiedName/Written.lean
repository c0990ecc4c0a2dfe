import ScopedSignatures.Namespace.Written
import ScopedSignatures.QualifiedName.Basic

/-!
# Written qualified names

The last segment is what follows the rightmost separator, so a name, unlike a
namespace, never ends in one. A missing last segment is reported before anything
that is wrong with the segments in front of it.

## Main definitions

* `QualifiedName.toString` — the text of a name, also of one that no text denotes
* `QualifiedName.describe` — the text marked with the name's vocabulary
* `QualifiedName.parse` — the name that a text denotes
-/

namespace ScopedSignatures

/-- The mark of a vocabulary's names. -/
def Vocabulary.label : Vocabulary → String
  | moduleLike => "ModuleName"
  | interface => "InterfaceName"
  | typeAlias => "AliasName"

namespace QualifiedName

variable {vocabulary : Vocabulary}

/-- The text of a name: its anchor, each qualifying segment with a separator
after it, and the last segment. -/
protected def toString (name : QualifiedName vocabulary) : String :=
  name.qualifier.anchor.text ++
    String.join (name.qualifier.segments.map (· ++ Separator.text)) ++ name.last

instance : ToString (QualifiedName vocabulary) := ⟨QualifiedName.toString⟩

/-- The text of a name, marked with its vocabulary. -/
def describe (name : QualifiedName vocabulary) : String :=
  vocabulary.label ++ "(" ++ name.toString ++ ")"

/-- Reads a name of any vocabulary. -/
def parse (input : String) : Except NameError (QualifiedName vocabulary) :=
  let (anchor, body) := Anchor.split input.toList
  let (path, last) := (Separator.cutAtLast? body).getD ([], body)
  if last = [] then .error (.missingFinal input)
  else if ':' ∈ last then .error (.emptySegment input)
  else
    match Separator.segments? path with
    | some segments => .ok ⟨⟨segments, anchor⟩, String.ofList last⟩
    | none => .error (.emptySegment input)

end QualifiedName

end ScopedSignatures
