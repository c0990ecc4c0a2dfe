import Mathlib.Data.List.Nodup
import ScopedSignatures.Proofs.Search.Agreement
import ScopedSignatures.Proofs.Search.Shadowing

/-!
# The keys that a search tries

A search tries its keys in order and no longer than it has to: nothing stands at the
keys before the last one tried, and what stands at the last one, if anything does, is
what the search finds. It gives up only when all keys have been tried. The outward
search for a relative name goes outward one segment of the scope at a time, so it tries
no key twice, and the last that it can come to is the name at the root.

## Main definitions

* `Search.Sweeps` — a search has gone outward from a scope, up to the first occupied key

## Main results

* `Search.tried_prefix`, `Search.eq_none_of_mem_dropLast_tried` — what is tried, and what is not
* `Search.found_eq_last_tried` — the last key tried decides
* `Search.sweeps_outward` — the outward search for a relative name
* `Search.tried_outward_of_isAbsolute` — an absolute name is the only key tried
-/

namespace ScopedSignatures.Search

/-! ## Keys in order -/

section Order

variable {κ δ : Type} {probe : κ → Option δ} {keys : List κ} {key : κ}

/-- No key is left out and none is tried out of turn. -/
theorem tried_prefix (probe : κ → Option δ) (keys : List κ) :
    (tryInOrder probe keys).tried <+: keys := by
  rw [tried_tryInOrder]
  exact List.take_prefix _ _

/-- If there is a key, the first one is tried. -/
theorem tried_ne_nil (h : keys ≠ []) : (tryInOrder probe keys).tried ≠ [] := by
  have hhead := head?_tried_tryInOrder probe keys
  intro hnil
  rw [hnil, List.head?_nil, eq_comm, List.head?_eq_none_iff] at hhead
  exact h hhead

/-- The search goes past a key only if nothing stands there. -/
theorem eq_none_of_mem_dropLast_tried (h : key ∈ (tryInOrder probe keys).tried.dropLast) :
    probe key = none := by
  induction keys with
  | nil => exact absurd h List.not_mem_nil
  | cons first keys ih =>
    rw [tryInOrder] at h
    cases hfirst : probe first with
    | some value =>
      rw [hfirst] at h
      exact absurd h List.not_mem_nil
    | none =>
      rw [hfirst] at h
      by_cases hnil : (tryInOrder probe keys).tried = []
      · rw [hnil] at h
        exact absurd h List.not_mem_nil
      · rw [List.dropLast_cons_of_ne_nil hnil, List.mem_cons] at h
        rcases h with rfl | hlater
        · exact hfirst
        · exact ih hlater

/-- What stands at the last key tried is what the search finds. -/
theorem found_eq_last_tried (probe : κ → Option δ) (keys : List κ) :
    (tryInOrder probe keys).found = (tryInOrder probe keys).tried.getLast?.bind probe := by
  induction keys with
  | nil => rfl
  | cons first keys ih =>
    rw [tryInOrder]
    cases hfirst : probe first with
    | some value => exact hfirst.symm
    | none =>
      dsimp only
      rw [ih, List.getLast?_cons]
      cases (tryInOrder probe keys).tried.getLast? with
      | none => exact hfirst.symm
      | some last => rfl

/-- A search that finds nothing has tried all keys. -/
theorem tried_eq_of_found_eq_none (h : (tryInOrder probe keys).found = none) :
    (tryInOrder probe keys).tried = keys := by
  induction keys with
  | nil => rfl
  | cons first keys ih =>
    rw [tryInOrder] at h ⊢
    cases hfirst : probe first with
    | some value =>
      rw [hfirst] at h
      cases h
    | none =>
      rw [hfirst] at h
      exact congrArg (first :: ·) (ih h)

end Order

/-! ## Outward -/

variable {vocabulary : Vocabulary} {δ : Type} {probe : QualifiedName vocabulary → Option δ}
  {name : QualifiedName vocabulary} {scope : Namespace}

theorem length_outwardKeys (h : name.isRelative = true) :
    (outwardKeys name scope).length = scope.depth + 1 := by
  rw [outwardKeys, if_neg (not_isAbsolute_iff.2 h), List.length_map, Namespace.length_enclosing]
  rfl

/-- One segment of the scope fewer with each key. -/
theorem getElem?_outwardKeys (h : name.isRelative = true) {index : Nat}
    (hindex : index < scope.depth + 1) :
    (outwardKeys name scope)[index]? = some (keyAt name scope (scope.depth - index)) := by
  have houter : scope.anchored.enclosing[index]? =
      some (scope.anchored.take (scope.depth - index)) :=
    Namespace.getElem?_outermost scope.anchored hindex
  rw [outwardKeys, if_neg (not_isAbsolute_iff.2 h), List.getElem?_map, houter, Option.map_some,
    qualify_take_anchored (Namespace.isRelative_iff.1 h)]

/-- Behind no segment of the scope there is the name at the root. -/
theorem keyAt_zero (name : QualifiedName vocabulary) (scope : Namespace) :
    keyAt name scope 0 = name.anchored := rfl

/-- A search for a relative name has gone outward from a scope, up to the first key at
which there is something, and has found that, or else has come to the root. -/
structure Sweeps (probe : QualifiedName vocabulary → Option δ) (name : QualifiedName vocabulary)
    (scope : Namespace) (trail : Trail (QualifiedName vocabulary) δ) : Prop where
  /-- The keys are those behind all segments of the scope, all but one, all but two, … -/
  outward : ∀ index < trail.tried.length,
    trail.tried[index]? = some (keyAt name scope (scope.depth - index))
  /-- There is at least one key. -/
  length_pos : 1 ≤ trail.tried.length
  /-- There are no more keys than there are enclosing namespaces. -/
  length_le : trail.tried.length ≤ scope.depth + 1
  /-- No key is tried twice. -/
  nodup : trail.tried.Nodup
  isAbsolute : ∀ key ∈ trail.tried, key.isAbsolute = true
  /-- Nothing stands at a key that the search went past. -/
  free : ∀ key ∈ trail.tried.dropLast, probe key = none
  /-- What stands at the last key is found. The search goes on from there only if there is
  nothing, and not from the root. -/
  last : ∃ key, trail.tried.getLast? = some key ∧ trail.found = probe key ∧
    ((probe key).isSome = true ∨ trail.tried.length = scope.depth + 1 ∧ key = name.anchored)

/-- Keys that are a part of those of a relative name, from the first on. -/
theorem getElem?_of_prefix_outwardKeys (h : name.isRelative = true)
    {tried : List (QualifiedName vocabulary)} (hinitial : tried <+: outwardKeys name scope)
    {index : Nat} (hindex : index < tried.length) :
    tried[index]? = some (keyAt name scope (scope.depth - index)) := by
  have hle := hinitial.length_le
  rw [length_outwardKeys h] at hle
  rw [List.getElem?_eq_getElem hindex, ← List.prefix_iff_getElem?.1 hinitial index hindex]
  exact getElem?_outwardKeys h (by omega)

/-- The keys behind fewer and fewer segments of the scope are all different. -/
theorem nodup_outwardKeys (h : name.isRelative = true) : (outwardKeys name scope).Nodup := by
  rw [List.nodup_iff_getElem?_ne_getElem?]
  intro first second hlt hsecond hsame
  rw [length_outwardKeys h] at hsecond
  rw [getElem?_outwardKeys h (by omega), getElem?_outwardKeys h hsecond,
    Option.some.injEq] at hsame
  have hdepths := keyAt_inj (Nat.sub_le _ _) (Nat.sub_le _ _) hsame
  omega

/-- The outward search for a relative name sweeps the scope. -/
theorem sweeps_outward (probe : QualifiedName vocabulary → Option δ) (h : name.isRelative = true)
    (scope : Namespace) : Sweeps probe name scope (outward probe name scope) := by
  have hkeys : (outwardKeys name scope).length = scope.depth + 1 := length_outwardKeys h
  have hinitial : (outward probe name scope).tried <+: outwardKeys name scope :=
    tried_prefix probe (outwardKeys name scope)
  have hne : (outward probe name scope).tried ≠ [] := by
    apply tried_ne_nil
    exact List.ne_nil_of_length_pos (by omega)
  constructor
  case outward =>
    intro index hindex
    exact getElem?_of_prefix_outwardKeys h hinitial hindex
  case length_pos => exact List.length_pos_iff.2 hne
  case length_le =>
    rw [← hkeys]
    exact hinitial.length_le
  case nodup => exact (nodup_outwardKeys h).sublist hinitial.sublist
  case isAbsolute =>
    intro key hkey
    obtain ⟨index, hindex⟩ := List.mem_iff_getElem?.1 hkey
    obtain ⟨hlt, -⟩ := List.getElem?_eq_some_iff.1 hindex
    rw [getElem?_of_prefix_outwardKeys h hinitial hlt, Option.some.injEq] at hindex
    rw [← hindex]
    rfl
  case free =>
    intro key hkey
    exact eq_none_of_mem_dropLast_tried hkey
  case last =>
    obtain ⟨key, hkey⟩ : ∃ key, (outward probe name scope).tried.getLast? = some key :=
      ⟨_, List.getLast?_eq_some_getLast hne⟩
    have hfound : (outward probe name scope).found = probe key := by
      have hbind := found_eq_last_tried probe (outwardKeys name scope)
      rwa [← outward, hkey, Option.bind_some] at hbind
    refine ⟨key, hkey, hfound, ?_⟩
    cases hprobe : probe key with
    | some value => exact Or.inl rfl
    | none =>
      right
      have hall : (outward probe name scope).tried = outwardKeys name scope :=
        tried_eq_of_found_eq_none (hfound.trans hprobe)
      rw [List.getLast?_eq_getElem?, hall, hkeys, getElem?_outwardKeys h (by omega),
        Nat.add_sub_cancel, Nat.sub_self, keyAt_zero, Option.some.injEq] at hkey
      exact ⟨by rw [hall, hkeys], hkey.symm⟩

/-- An absolute name is looked up as it is, and nothing else is tried. -/
theorem tried_outward_of_isAbsolute (probe : QualifiedName vocabulary → Option δ)
    (h : name.isAbsolute = true) (scope : Namespace) :
    (outward probe name scope).tried = [name] := by
  have hsame : outward probe name scope = direct probe name scope := by
    rw [outward, outwardKeys_eq_singleton (Or.inl h)]
    rfl
  rw [hsame, tried_direct, directKey_of_isAbsolute h]

end ScopedSignatures.Search
