import ScopedSignatures.Symbol

/-!
# Namespaces

A namespace is the path of scope segments in which a declaration or a reference
stands, outermost segment first. It is anchored at the root or relative. The
segments of a namespace that is built rather than read are arbitrary texts.

Concatenation `outer ++ inner` reads `inner` inside `outer`: an absolute `inner`
is where it is already, so it wins.

## Main definitions

* `Namespace` — a path with its anchor
* `Namespace.root`, `Namespace.empty` — the two paths without segments
* `Namespace.last?`, `Namespace.parent?`, `Namespace.push` — the innermost segment and the rest
* `Namespace.anchored`, `Namespace.unanchored` — the same segments with the other anchor

## Main results

* `Namespace.push_parent?` — a namespace is its parent with its last segment pushed
* `Namespace.append_of_isAbsolute`, `Namespace.append_of_isRelative` — the two cases of joining
-/

namespace ScopedSignatures

/-- Whether a path starts at the root or wherever it is read. -/
inductive Anchor where
  | relative
  | absolute
  deriving DecidableEq, Repr

/-- A path of scope segments, outermost first, with its anchor. -/
@[ext]
structure Namespace where
  segments : List Symbol
  anchor : Anchor
  deriving DecidableEq, Repr

namespace Namespace

variable {outer inner ns : Namespace}

/-- The absolute namespace without segments. -/
def root : Namespace := ⟨[], .absolute⟩

/-- The relative namespace without segments. -/
def empty : Namespace := ⟨[], .relative⟩

/-- Where no namespace is given, the root is meant. -/
instance : Inhabited Namespace := ⟨root⟩

/-- Whether the path starts at the root. -/
def isAbsolute (ns : Namespace) : Bool := ns.anchor == .absolute

/-- Whether the path starts wherever it is read. -/
def isRelative (ns : Namespace) : Bool := ns.anchor == .relative

/-- Whether the path has no segments. -/
def isEmpty (ns : Namespace) : Bool := ns.segments.isEmpty

/-- Whether the path is the root. -/
def isRoot (ns : Namespace) : Bool := ns.isAbsolute && ns.isEmpty

/-- The number of segments. -/
def depth (ns : Namespace) : Nat := ns.segments.length

/-- The innermost segment. -/
def last? (ns : Namespace) : Option Symbol := ns.segments.getLast?

/-- The path without its innermost segment, under the same anchor. -/
def parent? (ns : Namespace) : Option Namespace :=
  if ns.segments = [] then none else some ⟨ns.segments.dropLast, ns.anchor⟩

/-- The path with one more innermost segment. -/
def push (ns : Namespace) (segment : Symbol) : Namespace :=
  ⟨ns.segments ++ [segment], ns.anchor⟩

/-- The first `count` segments, under the same anchor. -/
def take (ns : Namespace) (count : Nat) : Namespace := ⟨ns.segments.take count, ns.anchor⟩

/-- The same segments, starting at the root. -/
def anchored (ns : Namespace) : Namespace := ⟨ns.segments, .absolute⟩

/-- The same segments, starting wherever they are read. -/
def unanchored (ns : Namespace) : Namespace := ⟨ns.segments, .relative⟩

/-- The inner path read inside the outer one. -/
def append (outer inner : Namespace) : Namespace :=
  match inner.anchor with
  | .absolute => inner
  | .relative => ⟨outer.segments ++ inner.segments, outer.anchor⟩

instance : Append Namespace := ⟨append⟩

@[simp] theorem isAbsolute_iff : ns.isAbsolute = true ↔ ns.anchor = .absolute := by
  simp [isAbsolute]

@[simp] theorem isRelative_iff : ns.isRelative = true ↔ ns.anchor = .relative := by
  simp [isRelative]

/-- A path is relative exactly when it is not absolute. -/
theorem isRelative_eq_not (ns : Namespace) : ns.isRelative = !ns.isAbsolute := by
  rcases ns with ⟨segments, anchor⟩
  cases anchor <;> rfl

/-- An absolute path stays where it is. -/
theorem append_of_isAbsolute (h : inner.anchor = .absolute) : outer ++ inner = inner := by
  show append outer inner = inner
  rw [append, h]

/-- A relative path continues the outer one, which keeps its anchor. -/
theorem append_of_isRelative (h : inner.anchor = .relative) :
    outer ++ inner = ⟨outer.segments ++ inner.segments, outer.anchor⟩ := by
  show append outer inner = _
  rw [append, h]

@[simp] theorem parent?_eq_none_iff : ns.parent? = none ↔ ns.segments = [] := by
  simp [parent?]

/-- A path is its parent with the last segment pushed. -/
theorem push_parent? {parent : Namespace} {segment : Symbol} (hparent : ns.parent? = some parent)
    (hlast : ns.last? = some segment) : parent.push segment = ns := by
  obtain ⟨front, hfront⟩ := List.getLast?_eq_some_iff.1 hlast
  have hne : ns.segments ≠ [] := by simp [hfront]
  rw [parent?, if_neg hne, Option.some.injEq] at hparent
  subst hparent
  ext1
  · simp [push, hfront]
  · rfl

@[simp] theorem parent?_push (ns : Namespace) (segment : Symbol) :
    (ns.push segment).parent? = some ns := by
  simp [parent?, push]

@[simp] theorem last?_push (ns : Namespace) (segment : Symbol) :
    (ns.push segment).last? = some segment := by
  simp [last?, push]

end Namespace

end ScopedSignatures
