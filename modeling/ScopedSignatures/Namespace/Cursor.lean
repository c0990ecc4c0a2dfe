import ScopedSignatures.Namespace.Enclosing

/-!
# Walking outward

A cursor stands somewhere on the way from a namespace out to the path without
segments. It holds the innermost namespace and how many enclosing ones are left,
and makes each of them only when it is asked for.

## Main definitions

* `Cursor` — a position on the way outward
* `Cursor.next`, `Cursor.nth` — one step, and several steps of which the last one shows
* `Cursor.rest` — what is left
* `Cursor.Query`, `Cursor.Answer`, `Cursor.answers` — a row of uses of one cursor

## Main results

* `Cursor.rest_start` — a new cursor has all enclosing namespaces before it
* `Cursor.rest_skip` — skipping takes away from the front
* `Cursor.next_eq` — a step shows the first of what is left and leaves the others
-/

namespace ScopedSignatures.Namespace

/-- A position on the way outward from `base`: the outermost `left` namespaces
are still to come. -/
structure Cursor where
  base : Namespace
  left : Nat
  left_le : left ≤ base.depth + 1

namespace Cursor

/-- The position before the innermost namespace. -/
def start (ns : Namespace) : Cursor := ⟨ns, ns.depth + 1, Nat.le_refl _⟩

/-- The position after `count` more namespaces, or after all if there are fewer. -/
def skip (cursor : Cursor) (count : Nat) : Cursor :=
  ⟨cursor.base, cursor.left - count, Nat.le_trans (Nat.sub_le _ _) cursor.left_le⟩

/-- The next namespace, if any is left, and the position after it. -/
def next (cursor : Cursor) : Option Namespace × Cursor :=
  if cursor.left = 0 then (none, cursor)
  else (some (cursor.base.take (cursor.left - 1)), cursor.skip 1)

/-- Skips `count` namespaces and shows the next. -/
def nth (cursor : Cursor) (count : Nat) : Option Namespace × Cursor := (cursor.skip count).next

/-- The namespaces that are left, innermost first. -/
def rest (cursor : Cursor) : List Namespace := cursor.base.outermost cursor.left

/-- A use of a cursor. The first five leave it where it is. -/
inductive Query where
  /-- How many namespaces are left. -/
  | length
  /-- A lower and an upper bound on how many are left. -/
  | bounds
  /-- All that is left, seen from a copy. -/
  | peek
  /-- The outermost one left, seen from a copy. -/
  | last
  /-- How many a copy still shows. -/
  | count
  | next
  | nth (count : Nat)
  /-- Takes all that is left. -/
  | drain
  /-- Goes back to the innermost namespace. -/
  | restart
  deriving DecidableEq, Repr

/-- What a use of a cursor shows. -/
inductive Answer where
  | item (ns : Option Namespace)
  | items (row : List Namespace)
  | size (count : Nat)
  | bounds (lower : Nat) (upper : Option Nat)
  | restarted
  deriving DecidableEq, Repr

/-- One use of a cursor: what it shows, and the position after it. -/
def answer (cursor : Cursor) : Query → Answer × Cursor
  | .length => (.size cursor.left, cursor)
  | .bounds => (.bounds cursor.left (some cursor.left), cursor)
  | .peek => (.items cursor.rest, cursor)
  | .last => (.item cursor.rest.getLast?, cursor)
  | .count => (.size cursor.rest.length, cursor)
  | .next => (.item cursor.next.1, cursor.next.2)
  | .nth count => (.item (cursor.nth count).1, (cursor.nth count).2)
  | .drain => (.items cursor.rest, cursor.skip cursor.left)
  | .restart => (.restarted, start cursor.base)

/-- A row of uses of one cursor. -/
def answers (cursor : Cursor) : List Query → List Answer
  | [] => []
  | query :: queries => (cursor.answer query).1 :: answers (cursor.answer query).2 queries

@[simp] theorem rest_start (ns : Namespace) : (start ns).rest = ns.enclosing := rfl

@[simp] theorem length_rest (cursor : Cursor) : cursor.rest.length = cursor.left :=
  length_outermost _ _

/-- Skipping takes away from the front of what is left. -/
@[simp] theorem rest_skip (cursor : Cursor) (count : Nat) :
    (cursor.skip count).rest = cursor.rest.drop count := by
  rcases cursor with ⟨base, left, hleft⟩
  show base.outermost (left - count) = (base.outermost left).drop count
  clear hleft
  induction count generalizing left with
  | zero => rfl
  | succ count ih =>
    cases left with
    | zero => simp [outermost]
    | succ left =>
      rw [Nat.add_sub_add_right, outermost, List.drop_succ_cons]
      exact ih left

/-- A step shows the first of what is left and leaves the others. -/
theorem next_eq (cursor : Cursor) :
    cursor.next.1 = cursor.rest.head? ∧ cursor.next.2.rest = cursor.rest.tail := by
  rcases cursor with ⟨base, left, hleft⟩
  cases left with
  | zero => exact ⟨rfl, rfl⟩
  | succ left => exact ⟨rfl, rfl⟩

end Cursor

end ScopedSignatures.Namespace
