import ScopedSignatures.Namespace.Written
import ScopedSignatures.Proofs.Text.Joined

/-!
# Reading paths

A path or a name that was built rather than read can hold segments that no text
denotes: empty ones, and ones with a colon in them. The others are well formed.
What anchors a written path is the separator at its very beginning, so a relative
path is one whose text does not begin with a separator.

## Main definitions

* `Namespace.WellFormed` — every segment can be read back

## Main results

* `Anchor.split_eq_iff` — the anchor of a text and what follows it
-/

namespace ScopedSignatures

open Separator (IsSegment)

/-- Every segment is non-empty and has no colon. -/
def Namespace.WellFormed (ns : Namespace) : Prop :=
  ∀ segment ∈ ns.segments, IsSegment segment.toList

instance (ns : Namespace) : Decidable ns.WellFormed :=
  inferInstanceAs (Decidable (∀ segment ∈ ns.segments, _))

namespace Anchor

variable {anchor : Anchor} {text body : List Char}

/-- A text is its anchor and what follows; what follows a relative anchor does
not begin with a separator. -/
theorem split_eq_iff :
    split text = (anchor, body) ↔
      text = anchor.text.toList ++ body ∧
        (anchor = .relative → ∀ rest, body ≠ ':' :: ':' :: rest) := by
  by_cases hsep : ∃ rest, text = ':' :: ':' :: rest
  · obtain ⟨rest, rfl⟩ := hsep
    have hsplit : split (':' :: ':' :: rest) = (absolute, rest) := rfl
    rw [hsplit, Prod.mk.injEq]
    constructor
    · rintro ⟨rfl, rfl⟩
      exact ⟨rfl, fun h => Anchor.noConfusion h⟩
    · rintro ⟨htext, hrelative⟩
      cases anchor with
      | relative => exact absurd htext.symm (hrelative rfl rest)
      | absolute => exact ⟨rfl, (List.cons.inj (List.cons.inj htext).2).2⟩
  · have hsplit : split text = (relative, text) := by
      rw [split]
      intro rest hrest
      exact hsep ⟨rest, hrest⟩
    rw [hsplit, Prod.mk.injEq]
    constructor
    · rintro ⟨rfl, rfl⟩
      exact ⟨rfl, fun _ rest hrest => hsep ⟨rest, hrest⟩⟩
    · rintro ⟨htext, -⟩
      cases anchor with
      | relative => exact ⟨rfl, htext⟩
      | absolute => exact absurd ⟨body, htext⟩ hsep

end Anchor

end ScopedSignatures
