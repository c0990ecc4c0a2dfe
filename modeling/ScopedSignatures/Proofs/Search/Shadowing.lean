import ScopedSignatures.Proofs.Search.Outward

/-!
# Shadowing

What an outward search finds when more keys are occupied than before. A search
comes to a key if nothing stands at the keys further in. One more occupied key is
found by exactly the searches that come to it, whatever they found before; all
other searches find what they found. Where nothing that was occupied is given up,
a search that found something still does, at the same key or further in: an inner
key can hide an outer one, and nothing else can happen to it.

## Main definitions

* `Search.ComesTo` — nothing stands in the way of a search to a key
* `Search.EndsAt` — a search ends at a key, with what stands there
* `Search.IsFurtherIn` — a key of a name behind more segments of the scope than another
* `Search.Extends`, `Search.Fills` — more keys are occupied, or exactly one more

## Main results

* `Search.found_outward_eq_some_iff_endsAt` — a search finds what stands where it ends
* `Search.Fills.found_outward_of_comesTo`, `Search.Fills.found_outward_of_not_comesTo` — one more
  occupied key, found or not
* `Search.exists_endsAt_of_extends` — what is found when more keys are occupied
* `Search.IsFurtherIn.depth_lt` — a key further in is qualified by more segments
-/

namespace ScopedSignatures.Search

variable {vocabulary : Vocabulary} {δ : Type} {probe later : QualifiedName vocabulary → Option δ}
  {name key : QualifiedName vocabulary} {scope : Namespace} {value : δ}

/-- The search for a name comes to a key of the name: nothing stands at the keys
that it tries before. An absolute name is its own and only key. A relative name
has a key behind each number of scope segments, the largest number first. -/
inductive ComesTo (probe : QualifiedName vocabulary → Option δ) (name : QualifiedName vocabulary)
    (scope : Namespace) : QualifiedName vocabulary → Prop where
  | itself (h : name.isAbsolute = true) : ComesTo probe name scope name
  | behind (h : name.isRelative = true) {depth : Nat} (hdepth : depth ≤ scope.depth)
      (hfree : ∀ deeper ≤ scope.depth, depth < deeper → probe (keyAt name scope deeper) = none) :
      ComesTo probe name scope (keyAt name scope depth)

/-- The search for a name ends at a key: it comes there, and something stands there. -/
structure EndsAt (probe : QualifiedName vocabulary → Option δ) (name : QualifiedName vocabulary)
    (scope : Namespace) (key : QualifiedName vocabulary) (value : δ) : Prop where
  comesTo : ComesTo probe name scope key
  occupied : probe key = some value

/-- Both are keys of a relative name, the inner one behind more segments of the scope. -/
def IsFurtherIn (name : QualifiedName vocabulary) (scope : Namespace)
    (inner outer : QualifiedName vocabulary) : Prop :=
  name.isRelative = true ∧ ∃ depth deeper, depth < deeper ∧ deeper ≤ scope.depth ∧
    outer = keyAt name scope depth ∧ inner = keyAt name scope deeper

/-- Keys behind different numbers of scope segments are different. -/
theorem keyAt_inj {depth other : Nat} (hdepth : depth ≤ scope.depth) (hother : other ≤ scope.depth)
    (h : keyAt name scope depth = keyAt name scope other) : depth = other := by
  -- they have different numbers of segments; beyond the scope they would not
  have hlength := congrArg (fun key => key.qualifier.segments.length) h
  simp only [keyAt, List.length_append, List.length_take] at hlength
  simp only [Namespace.depth] at hdepth hother
  omega

/-- A key further in is qualified by more segments. -/
theorem IsFurtherIn.depth_lt {inner outer : QualifiedName vocabulary}
    (h : IsFurtherIn name scope inner outer) : outer.qualifier.depth < inner.qualifier.depth := by
  obtain ⟨-, depth, deeper, hlt, hle, rfl, rfl⟩ := h
  simp only [Namespace.depth] at hle
  simp only [keyAt, Namespace.depth, List.length_append, List.length_take]
  omega

/-! ## Where a search ends -/

theorem not_isAbsolute_iff : ¬ name.isAbsolute = true ↔ name.isRelative = true := by
  rw [QualifiedName.isRelative, Namespace.isRelative_eq_not, Bool.not_eq_true', Bool.not_eq_true]
  rfl

/-- A search comes to none but the keys of its name. -/
theorem ComesTo.mem_outwardKeys (h : ComesTo probe name scope key) :
    key ∈ outwardKeys name scope := by
  cases h with
  | itself habsolute =>
    rw [outwardKeys_of_isAbsolute habsolute]
    exact List.mem_singleton_self name
  | @behind hrelative depth hdepth _ =>
    rw [outwardKeys, if_neg (not_isAbsolute_iff.2 hrelative), List.mem_map]
    have houter : scope.anchored.take depth ∈ scope.anchored.enclosing :=
      Namespace.mem_outermost_iff.2 ⟨depth, Nat.lt_succ_of_le hdepth, rfl⟩
    have hkey := qualify_take_anchored (Namespace.isRelative_iff.1 hrelative) scope depth
    exact ⟨scope.anchored.take depth, houter, hkey⟩

/-- A search finds what stands at the key where it ends. -/
theorem found_outward_eq_some_iff_endsAt :
    (outward probe name scope).found = some value ↔
      ∃ key, EndsAt probe name scope key value := by
  by_cases h : name.isAbsolute = true
  · rw [found_outward_of_isAbsolute h]
    constructor
    · intro hfound
      exact ⟨name, .itself h, hfound⟩
    · intro hends
      obtain ⟨key, hcomes, hoccupied⟩ := hends
      cases hcomes with
      | itself => exact hoccupied
      | behind hrelative => exact absurd h (not_isAbsolute_iff.2 hrelative)
  · have hrelative := not_isAbsolute_iff.1 h
    rw [found_outward_eq_some_iff hrelative]
    constructor
    · intro hinnermost
      obtain ⟨depth, hdepth, hoccupied, hfree⟩ := hinnermost
      exact ⟨keyAt name scope depth, .behind hrelative hdepth hfree, hoccupied⟩
    · intro hends
      obtain ⟨key, hcomes, hoccupied⟩ := hends
      cases hcomes with
      | itself habsolute => exact absurd habsolute h
      | behind _ hdepth hfree => exact ⟨_, hdepth, hoccupied, hfree⟩

/-- Where something stands at one of the keys of a name, the search ends there or further in. -/
theorem exists_endsAt_of_occupied (h : name.isRelative = true) {depth : Nat}
    (hdepth : depth ≤ scope.depth) (hoccupied : probe (keyAt name scope depth) = some value) :
    ∃ inner found, EndsAt probe name scope inner found ∧
      (inner = keyAt name scope depth ∧ found = value ∨
        IsFurtherIn name scope inner (keyAt name scope depth)) := by
  have hsome : (outward probe name scope).found ≠ none := by
    intro hnone
    have hfree := (found_outward_eq_none_iff h).1 hnone depth hdepth
    rw [hoccupied] at hfree
    cases hfree
  obtain ⟨found, hfound⟩ := Option.ne_none_iff_exists'.1 hsome
  obtain ⟨other, hother, hthere, hdeeper⟩ := (found_outward_eq_some_iff h).1 hfound
  refine ⟨keyAt name scope other, found, ⟨.behind h hother hdeeper, hthere⟩, ?_⟩
  rcases Nat.lt_trichotomy depth other with hlt | rfl | hgt
  · exact Or.inr ⟨h, depth, other, hlt, hother, rfl, rfl⟩
  · rw [hoccupied, Option.some.injEq] at hthere
    exact Or.inl ⟨rfl, hthere.symm⟩
  · -- it cannot end further out, where it would have to go past the key
    rw [hdeeper depth hdepth hgt] at hoccupied
    cases hoccupied

/-! ## More keys are occupied -/

/-- What stands anywhere stands there later as well. -/
def Extends {κ : Type} (probe later : κ → Option δ) : Prop :=
  ∀ key value, probe key = some value → later key = some value

theorem Extends.eq_none (h : Extends probe later) (hlater : later key = none) :
    probe key = none := by
  rw [Option.eq_none_iff_forall_ne_some] at hlater ⊢
  intro value hprobe
  exact hlater value (h key value hprobe)

/-- A search that comes to a key although more keys are occupied came there before. -/
theorem ComesTo.of_extends (h : Extends probe later) (hcomes : ComesTo later name scope key) :
    ComesTo probe name scope key := by
  cases hcomes with
  | itself habsolute => exact .itself habsolute
  | behind hrelative hdepth hfree =>
    exact .behind hrelative hdepth fun deeper hle hlt => h.eq_none (hfree deeper hle hlt)

/-- A search that ended at a key ends there when more keys are occupied, or further in. -/
theorem EndsAt.exists_of_extends (h : Extends probe later)
    (hends : EndsAt probe name scope key value) :
    ∃ inner found, EndsAt later name scope inner found ∧
      (inner = key ∧ found = value ∨ IsFurtherIn name scope inner key) := by
  obtain ⟨hcomes, hoccupied⟩ := hends
  have hstays := h key value hoccupied
  cases hcomes with
  | itself habsolute => exact ⟨name, value, ⟨.itself habsolute, hstays⟩, Or.inl ⟨rfl, rfl⟩⟩
  | behind hrelative hdepth => exact exists_endsAt_of_occupied hrelative hdepth hstays

/-- A search that found something still does, at the same key or further in. -/
theorem exists_endsAt_of_extends (h : Extends probe later)
    (hfound : (outward probe name scope).found = some value) :
    ∃ key inner found, EndsAt probe name scope key value ∧ EndsAt later name scope inner found ∧
      (outward later name scope).found = some found ∧
      (inner = key ∧ found = value ∨ IsFurtherIn name scope inner key) := by
  obtain ⟨key, hends⟩ := found_outward_eq_some_iff_endsAt.1 hfound
  obtain ⟨inner, found, hlater, hmoved⟩ := hends.exists_of_extends h
  have hnow := found_outward_eq_some_iff_endsAt.2 ⟨inner, hlater⟩
  exact ⟨key, inner, found, hends, hlater, hnow, hmoved⟩

/-! ## One key is filled -/

/-- One free key is filled, and nothing else changes. -/
structure Fills {κ : Type} (probe later : κ → Option δ) (key : κ) (value : δ) : Prop where
  free : probe key = none
  now : later key = some value
  others : ∀ other, other ≠ key → later other = probe other

namespace Fills

theorem extends_later (h : Fills probe later key value) : Extends probe later := by
  intro other found hfound
  have hother : other ≠ key := by
    rintro rfl
    rw [h.free] at hfound
    cases hfound
  rw [h.others other hother, hfound]

/-- A search that comes to the key when it is free still comes there when it is filled. -/
theorem comesTo (h : Fills probe later key value) (hcomes : ComesTo probe name scope key) :
    ComesTo later name scope key := by
  cases hcomes with
  | itself habsolute => exact .itself habsolute
  | @behind hrelative depth hdepth hfree =>
    refine .behind hrelative hdepth fun deeper hle hlt => ?_
    have hother : keyAt name scope deeper ≠ keyAt name scope depth :=
      fun hkeys => Nat.ne_of_gt hlt (keyAt_inj hle hdepth hkeys)
    rw [h.others _ hother, hfree deeper hle hlt]

/-- A search that does not come to the key comes to the keys that it came to before. -/
theorem comesTo_iff (h : Fills probe later key value) (hnot : ¬ ComesTo probe name scope key)
    {other : QualifiedName vocabulary} :
    ComesTo later name scope other ↔ ComesTo probe name scope other := by
  refine ⟨fun hlater => hlater.of_extends h.extends_later, fun hbefore => ?_⟩
  cases hbefore with
  | itself habsolute => exact .itself habsolute
  | @behind hrelative depth hdepth hfree =>
    refine .behind hrelative hdepth fun deeper hle hlt => ?_
    have hother : keyAt name scope deeper ≠ key := by
      -- a search that goes past the filled key came to it when it was free
      rintro rfl
      exact hnot (.behind hrelative hle fun further hfurther hgt =>
        hfree further hfurther (Nat.lt_trans hlt hgt))
    rw [h.others _ hother, hfree deeper hle hlt]

/-- A search that does not come to the key ends where it ended before. -/
theorem endsAt_iff (h : Fills probe later key value) (hnot : ¬ ComesTo probe name scope key)
    {other : QualifiedName vocabulary} {found : δ} :
    EndsAt later name scope other found ↔ EndsAt probe name scope other found := by
  have hcomes : ComesTo later name scope other ↔ ComesTo probe name scope other :=
    h.comesTo_iff hnot
  by_cases hother : other = key
  · subst hother
    exact ⟨fun hends => absurd (hcomes.1 hends.comesTo) hnot,
      fun hends => absurd hends.comesTo hnot⟩
  · have hsame := h.others other hother
    exact ⟨fun hends => ⟨hcomes.1 hends.comesTo, hsame ▸ hends.occupied⟩,
      fun hends => ⟨hcomes.2 hends.comesTo, hsame.symm ▸ hends.occupied⟩⟩

/-- A search that comes to the filled key finds what was filled in. -/
theorem found_outward_of_comesTo (h : Fills probe later key value)
    (hcomes : ComesTo probe name scope key) : (outward later name scope).found = some value :=
  found_outward_eq_some_iff_endsAt.2 ⟨key, h.comesTo hcomes, h.now⟩

/-- Every other search finds what it found. -/
theorem found_outward_of_not_comesTo (h : Fills probe later key value)
    (hnot : ¬ ComesTo probe name scope key) :
    (outward later name scope).found = (outward probe name scope).found := by
  apply Option.ext
  intro found
  rw [found_outward_eq_some_iff_endsAt, found_outward_eq_some_iff_endsAt]
  exact exists_congr fun other => h.endsAt_iff hnot

end Fills

end ScopedSignatures.Search
