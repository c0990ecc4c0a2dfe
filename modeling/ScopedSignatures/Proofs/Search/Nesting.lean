import ScopedSignatures.Proofs.Search.Shadowing

/-!
# Searching from a nested scope

A relative path leads from a scope to one that is nested in it. The keys of a name in the
nested scope are those behind the outer scope and at least one segment of the path, and
then, further out, the keys of the name in the outer scope. So a search from the nested
scope is two searches: one along the path, and if that misses, the one from the outer
scope.

## Main definitions

* `Search.nestedKey` — the key of a name behind a scope and a part of a path nested in it
* `Search.FreeBeyond` — nothing stands behind a longer part of the path
* `Search.IsInnermostNested` — a value stands behind the longest part that has anything
* `Search.Descends` — how two answers are related if one is that of a nested scope

## Main results

* `Search.keyAt_append_of_le`, `Search.keyAt_append_add` — the keys of a name in a nested scope
* `Search.found_outward_append_eq_some_iff` — what is found in a nested scope
* `Search.descends_outward` — the outward search from a scope and from one nested in it
-/

namespace ScopedSignatures

namespace Namespace

variable {outer inner : Namespace}

theorem segments_append_of_isRelative (h : inner.isRelative = true) :
    (outer ++ inner).segments = outer.segments ++ inner.segments := by
  rw [append_of_isRelative (isRelative_iff.1 h)]

theorem depth_append_of_isRelative (h : inner.isRelative = true) :
    (outer ++ inner).depth = outer.depth + inner.depth := by
  rw [depth, segments_append_of_isRelative h, List.length_append]
  rfl

end Namespace

namespace Search

variable {vocabulary : Vocabulary} {δ : Type} {probe : QualifiedName vocabulary → Option δ}
  {name : QualifiedName vocabulary} {outer inner : Namespace} {value : δ}

/-- The key of a name behind a scope and the first `count` segments of a path nested in it. -/
def nestedKey (name : QualifiedName vocabulary) (outer inner : Namespace) (count : Nat) :
    QualifiedName vocabulary :=
  (outer.anchored ++ inner.take count).qualify name

/-- Nothing stands behind the scope and more than `count` segments of the nested path. -/
def FreeBeyond (probe : QualifiedName vocabulary → Option δ) (name : QualifiedName vocabulary)
    (outer inner : Namespace) (count : Nat) : Prop :=
  ∀ further ≤ inner.depth, count < further → probe (nestedKey name outer inner further) = none

/-- The value stands behind the scope and a part of the nested path that is not empty,
the longest behind which the name has anything at all. -/
def IsInnermostNested (probe : QualifiedName vocabulary → Option δ)
    (name : QualifiedName vocabulary) (outer inner : Namespace) (value : δ) : Prop :=
  ∃ count, 1 ≤ count ∧ count ≤ inner.depth ∧
    probe (nestedKey name outer inner count) = some value ∧
      FreeBeyond probe name outer inner count

/-! ## The keys in a nested scope -/

/-- As far out as the outer scope reaches, the keys are those of the outer scope. -/
theorem keyAt_append_of_le (h : inner.isRelative = true) {depth : Nat}
    (hdepth : depth ≤ outer.depth) :
    keyAt name (outer ++ inner) depth = keyAt name outer depth := by
  rw [keyAt, keyAt, Namespace.segments_append_of_isRelative h,
    List.take_append_of_le_length hdepth]

/-- Further in, they are those behind a part of the nested path. -/
theorem keyAt_append_add (hname : name.isRelative = true) (h : inner.isRelative = true)
    (count : Nat) :
    keyAt name (outer ++ inner) (outer.depth + count) = nestedKey name outer inner count := by
  have hpart : (inner.take count).isRelative = true := h
  rw [keyAt, nestedKey, Namespace.qualify_of_isRelative (Namespace.isRelative_iff.1 hname),
    Namespace.segments_append_of_isRelative h, Namespace.segments_append_of_isRelative hpart,
    Namespace.append_of_isRelative (Namespace.isRelative_iff.1 hpart), Namespace.depth,
    List.take_length_add_append]
  rfl

/-- The keys behind more of the nested path are those at the depths that the outer scope
does not reach. -/
theorem freeBeyond_iff (hname : name.isRelative = true) (h : inner.isRelative = true)
    {count : Nat} :
    FreeBeyond probe name outer inner count ↔
      ∀ deeper ≤ (outer ++ inner).depth, outer.depth + count < deeper →
        probe (keyAt name (outer ++ inner) deeper) = none := by
  rw [Namespace.depth_append_of_isRelative h]
  constructor
  · intro hfree deeper hdeeper hlt
    obtain ⟨further, rfl⟩ := Nat.exists_eq_add_of_le (Nat.le_of_lt (Nat.lt_of_add_right_lt hlt))
    rw [keyAt_append_add hname h]
    exact hfree further (Nat.le_of_add_le_add_left hdeeper) (Nat.lt_of_add_lt_add_left hlt)
  · intro hfree further hfurther hlt
    rw [← keyAt_append_add hname h]
    exact hfree (outer.depth + further) (Nat.add_le_add_left hfurther _)
      (Nat.add_lt_add_left hlt _)

/-! ## What is found in a nested scope -/

theorem IsInnermostNested.not_freeBeyond (h : IsInnermostNested probe name outer inner value) :
    ¬ FreeBeyond probe name outer inner 0 := by
  obtain ⟨count, hpos, hle, hthere, -⟩ := h
  intro hfree
  rw [hfree count hle hpos] at hthere
  cases hthere

/-- The innermost occupied key of a nested scope is the innermost one along the path. If
there is none, it is the innermost one of the outer scope. -/
theorem isInnermost_append_iff (hname : name.isRelative = true) (h : inner.isRelative = true) :
    IsInnermost probe name (outer ++ inner) value ↔
      IsInnermostNested probe name outer inner value ∨
        FreeBeyond probe name outer inner 0 ∧ IsInnermost probe name outer value := by
  have hdepths : (outer ++ inner).depth = outer.depth + inner.depth :=
    Namespace.depth_append_of_isRelative h
  constructor
  · intro hinnermost
    obtain ⟨depth, hdepth, hthere, hfree⟩ := hinnermost
    -- the key is one of the outer scope, or it lies behind a part of the path
    by_cases hle : depth ≤ outer.depth
    · right
      rw [keyAt_append_of_le h hle] at hthere
      refine ⟨(freeBeyond_iff hname h).2 fun deeper hdeeper hlt =>
        hfree deeper hdeeper (Nat.lt_of_le_of_lt hle hlt), depth, hle, hthere, ?_⟩
      intro deeper hdeeper hlt
      rw [← keyAt_append_of_le h hdeeper]
      exact hfree deeper (by omega) hlt
    · left
      obtain ⟨count, rfl⟩ := Nat.exists_eq_add_of_le (Nat.le_of_not_le hle)
      rw [keyAt_append_add hname h] at hthere
      exact ⟨count, by omega, by omega, hthere, (freeBeyond_iff hname h).2 hfree⟩
  · rintro (hnested | ⟨hfree, houter⟩)
    · obtain ⟨count, -, hle, hthere, hfree⟩ := hnested
      refine ⟨outer.depth + count, by omega, ?_, (freeBeyond_iff hname h).1 hfree⟩
      rw [keyAt_append_add hname h, hthere]
    · obtain ⟨depth, hdepth, hthere, hdeeper⟩ := houter
      refine ⟨depth, by omega, ?_, fun deeper hle hlt => ?_⟩
      · rw [keyAt_append_of_le h hdepth, hthere]
      · by_cases hreach : deeper ≤ outer.depth
        · rw [keyAt_append_of_le h hreach]
          exact hdeeper deeper hreach hlt
        · exact (freeBeyond_iff hname h).1 hfree deeper hle (by omega)

theorem found_outward_append_eq_some_iff (hname : name.isRelative = true)
    (h : inner.isRelative = true) :
    (outward probe name (outer ++ inner)).found = some value ↔
      IsInnermostNested probe name outer inner value ∨
        FreeBeyond probe name outer inner 0 ∧ (outward probe name outer).found = some value := by
  rw [found_outward_eq_some_iff hname, found_outward_eq_some_iff hname]
  exact isInnermost_append_iff hname h

/-- If nothing stands along the path, the search from the outer scope decides. -/
theorem found_outward_append_of_freeBeyond (hname : name.isRelative = true)
    (h : inner.isRelative = true) (hfree : FreeBeyond probe name outer inner 0) :
    (outward probe name (outer ++ inner)).found = (outward probe name outer).found := by
  apply Option.ext
  intro value
  rw [found_outward_append_eq_some_iff hname h]
  constructor
  · rintro (hnested | ⟨-, houter⟩)
    · exact absurd hfree hnested.not_freeBeyond
    · exact houter
  · intro houter
    exact Or.inr ⟨hfree, houter⟩

/-- What ends the search from the outer scope is met by the search from the nested one,
unless that ends further in. -/
theorem EndsAt.exists_append (hname : name.isRelative = true) (h : inner.isRelative = true)
    {key : QualifiedName vocabulary} (hends : EndsAt probe name outer key value) :
    ∃ further found, EndsAt probe name (outer ++ inner) further found ∧
      (further = key ∧ found = value ∨ IsFurtherIn name (outer ++ inner) further key) := by
  obtain ⟨hcomes, hoccupied⟩ := hends
  cases hcomes with
  | itself habsolute => exact absurd habsolute (not_isAbsolute_iff.2 hname)
  | @behind _ depth hdepth _ =>
    have hreach : depth ≤ (outer ++ inner).depth := by
      rw [Namespace.depth_append_of_isRelative h]
      exact Nat.le_add_right_of_le hdepth
    rw [← keyAt_append_of_le h hdepth] at hoccupied ⊢
    exact exists_endsAt_of_occupied hname hreach hoccupied

/-- How what a name stands for in a scope, `here`, is related to what it stands for in a
scope nested in that one, `there`. -/
structure Descends (probe : QualifiedName vocabulary → Option δ)
    (name : QualifiedName vocabulary) (outer inner : Namespace) (here there : Option δ) :
    Prop where
  /-- What stands behind the longest part of the path comes first, then what is found in
  the outer scope. -/
  eq_some_iff : ∀ value, there = some value ↔
    IsInnermostNested probe name outer inner value ∨
      FreeBeyond probe name outer inner 0 ∧ here = some value
  /-- If nothing stands along the path, it makes no difference. -/
  eq_of_freeBeyond : FreeBeyond probe name outer inner 0 → there = here
  /-- What is found in the outer scope is found in the nested one, unless something is
  found there at a longer key. -/
  exists_endsAt : ∀ value, here = some value →
    ∃ key further found, EndsAt probe name outer key value ∧
      EndsAt probe name (outer ++ inner) further found ∧ there = some found ∧
        (further = key ∧ found = value ∨ key.qualifier.depth < further.qualifier.depth)

theorem descends_outward (hname : name.isRelative = true) (h : inner.isRelative = true) :
    Descends probe name outer inner (outward probe name outer).found
      (outward probe name (outer ++ inner)).found := by
  constructor
  case eq_some_iff =>
    intro value
    exact found_outward_append_eq_some_iff hname h
  case eq_of_freeBeyond => exact found_outward_append_of_freeBeyond hname h
  case exists_endsAt =>
    intro value hfound
    obtain ⟨key, hends⟩ := found_outward_eq_some_iff_endsAt.1 hfound
    obtain ⟨further, found, hlater, hmoved⟩ := hends.exists_append hname h
    have hthere := found_outward_eq_some_iff_endsAt.2 ⟨further, hlater⟩
    refine ⟨key, further, found, hends, hlater, hthere, ?_⟩
    exact hmoved.imp id IsFurtherIn.depth_lt

end Search

end ScopedSignatures
