import ScopedSignatures.Namespace.Enclosing
import ScopedSignatures.Proofs.Order.Bytes
import ScopedSignatures.QualifiedName.Order

/-!
# What comes first

The order of namespaces in terms of the paths: a path comes before everything inside it,
paths that part are ordered by the segments at which they part, and only where all
segments are the same the anchor is looked at. Names follow their namespaces, so the
names under one path, those in nested namespaces among them, are next to each other.

## Main definitions

* `Namespace.Precedes` — the ways in which one namespace comes before another
* `QualifiedName.IsUnder` — a name stands in a namespace or in one nested in it

## Main results

* `Namespace.compare_eq_lt_iff_precedes` — the comparison finds what comes first
* `Namespace.compare_of_mem_enclosing` — what encloses a path comes before it
* `QualifiedName.isUnder_of_between` — the names under a path have no other between them
-/

namespace ScopedSignatures

/-! ## Namespaces -/

namespace Namespace

variable {scope ns first second : Namespace}

/-- How one namespace comes before another. -/
inductive Precedes : Namespace → Namespace → Prop where
  /-- The other is nested in it. -/
  | encloses (outer : List Symbol) (segment : Symbol) (inner : List Symbol)
      (anchor anchor' : Anchor) : Precedes ⟨outer, anchor⟩ ⟨outer ++ segment :: inner, anchor'⟩
  /-- It has the smaller segment where they part. -/
  | parts (outer : List Symbol) {segment segment' : Symbol} (h : segment < segment')
      (inner inner' : List Symbol) (anchor anchor' : Anchor) :
      Precedes ⟨outer ++ segment :: inner, anchor⟩ ⟨outer ++ segment' :: inner', anchor'⟩
  /-- It has the same segments and is relative, the other absolute. -/
  | isRelative (segments : List Symbol) : Precedes ⟨segments, .relative⟩ ⟨segments, .absolute⟩

/-- The segments decide, and then the anchors. -/
theorem compare_eq_then (first second : Namespace) :
    compare first second = (compare first.segments second.segments).then
      (compare first.isAbsolute second.isAbsolute) := rfl

theorem compare_eq_lt_of_segments (h : compare first.segments second.segments = .lt) :
    compare first second = .lt := by
  rw [compare_eq_then, h]
  rfl

theorem Precedes.compare_eq_lt (h : Precedes first second) : compare first second = .lt := by
  cases h with
  | encloses outer segment inner =>
    apply compare_eq_lt_of_segments
    exact Lexicographic.compare_eq_lt_iff.2 (Or.inl ⟨segment, inner, rfl⟩)
  | parts outer h inner inner' =>
    apply compare_eq_lt_of_segments
    have hsegment := Symbol.compare_eq_lt_iff.2 h
    exact Lexicographic.compare_eq_lt_iff.2
      (Or.inr ⟨outer, _, inner, _, inner', rfl, rfl, hsegment⟩)
  | isRelative segments =>
    rw [compare_eq_then, Std.compare_self]
    rfl

/-- The comparison finds what comes first. -/
theorem compare_eq_lt_iff_precedes : compare first second = .lt ↔ Precedes first second := by
  refine ⟨fun h => ?_, Precedes.compare_eq_lt⟩
  rcases first with ⟨segments, anchor⟩
  rcases second with ⟨segments', anchor'⟩
  rcases Ordering.then_eq_lt.1 h with hsegments | ⟨hsegments, hanchor⟩
  · rcases Lexicographic.compare_eq_lt_iff.1 hsegments with ⟨segment, inner, rfl⟩ |
      ⟨outer, segment, inner, segment', inner', rfl, rfl, hsegment⟩
    · exact .encloses segments segment inner anchor anchor'
    · exact .parts outer (Symbol.compare_eq_lt_iff.1 hsegment) inner inner' anchor anchor'
  · obtain rfl : segments = segments' := Std.LawfulEqOrd.eq_of_compare hsegments
    cases anchor with
    | absolute => cases anchor' <;> cases hanchor
    | relative =>
      cases anchor' with
      | relative => cases hanchor
      | absolute => exact .isRelative segments

/-- What encloses a path, other than the path itself, comes before it, whatever the anchors. -/
theorem compare_of_mem_enclosing (h : scope ∈ ns.enclosing.tail) (anchor anchor' : Anchor) :
    compare (⟨scope.segments, anchor⟩ : Namespace) ⟨ns.segments, anchor'⟩ = .lt := by
  have hshorter : scope ∈ ns.outermost ns.depth := h
  obtain ⟨count, hcount, rfl⟩ := mem_outermost_iff.1 hshorter
  rw [depth] at hcount
  have hgoes : ns.segments.take count ++ ns.segments[count] :: ns.segments.drop (count + 1) =
      ns.segments := by
    rw [List.getElem_cons_drop, List.take_append_drop]
  have hencloses := Precedes.encloses (ns.segments.take count) ns.segments[count]
    (ns.segments.drop (count + 1)) anchor anchor'
  rw [hgoes] at hencloses
  exact hencloses.compare_eq_lt

end Namespace

/-! ## Names -/

namespace QualifiedName

variable {vocabulary : Vocabulary} {path : List Symbol}
  {first middle last : QualifiedName vocabulary}

/-- The name stands in the namespace with these segments or in one nested in it. -/
def IsUnder (path : List Symbol) (name : QualifiedName vocabulary) : Prop :=
  path <+: name.qualifier.segments

instance instDecidableIsUnder (path : List Symbol) (name : QualifiedName vocabulary) :
    Decidable (name.IsUnder path) :=
  inferInstanceAs (Decidable (path <+: name.qualifier.segments))

/-- A name stands where it stands under either anchor. -/
@[simp] theorem isUnder_anchored {name : QualifiedName vocabulary} :
    name.anchored.IsUnder path ↔ name.IsUnder path := Iff.rfl

/-- A name comes before another if its namespace does, or in one namespace by its last segment. -/
theorem compare_eq_lt_iff {first second : QualifiedName vocabulary} :
    compare first second = .lt ↔ first.qualifier.Precedes second.qualifier ∨
      first.qualifier = second.qualifier ∧ first.last < second.last := by
  have hqualifier : compare first.qualifier second.qualifier = .eq ↔
      first.qualifier = second.qualifier := Std.LawfulEqOrd.compare_eq_iff_eq
  rw [← Namespace.compare_eq_lt_iff_precedes, ← hqualifier, ← Symbol.compare_eq_lt_iff]
  exact Ordering.then_eq_lt

/-- Names follow the segments of their namespaces. -/
theorem isLE_segments (h : (compare first second).isLE) :
    (compare first.qualifier.segments second.qualifier.segments).isLE := by
  have hqualifiers : (compare first.qualifier second.qualifier).isLE :=
    (Ordering.isLE_then_iff_and.1 h).1
  exact (Ordering.isLE_then_iff_and.1 hqualifiers).1

/-- A name between two names under a path is under it as well. -/
theorem isUnder_of_between (hfirst : first.IsUnder path) (hlast : last.IsUnder path)
    (hbelow : (compare first middle).isLE) (habove : (compare middle last).isLE) :
    middle.IsUnder path :=
  Lexicographic.prefix_of_between hfirst hlast (isLE_segments hbelow) (isLE_segments habove)

end QualifiedName

end ScopedSignatures
