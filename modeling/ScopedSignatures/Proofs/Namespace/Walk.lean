import ScopedSignatures.Namespace.Cursor

/-!
# Walking outward along the parents

A cursor counts how many enclosing paths are left and cuts each of them out of the
innermost one. What it shows is nevertheless what following the parents shows, one
after the other: whatever has been done with a cursor before, its next answer is
that of consuming the row of parents from the front.

## Main definitions

* `Namespace.parents` — a path and its parents, as far as there are any
* `Cursor.consume`, `Cursor.consumeAll` — the uses of a row that is consumed from the front
* `Cursor.after` — the position that a row of uses leaves

## Main results

* `Namespace.enclosing_eq_parents` — the enclosing paths are the parents
* `Cursor.answers_eq_consumeAll` — a cursor answers as the row that is left
* `Cursor.walk_consumes_parents` — every row of uses of a new cursor
-/

namespace ScopedSignatures.Namespace

variable {ns parent : Namespace}

theorem depth_lt_of_parent? (h : ns.parent? = some parent) : parent.depth < ns.depth := by
  obtain ⟨hne, rfl⟩ := parent?_eq_some_iff.1 h
  have hpos : 0 < ns.depth := List.length_pos_iff.2 hne
  rw [take, depth, List.length_take]
  omega

/-- A path, its parent, the parent of that, and so on up to the path that has none. -/
def parents (ns : Namespace) : List Namespace :=
  match _ : ns.parent? with
  | none => [ns]
  | some parent => ns :: parent.parents
termination_by ns.depth
decreasing_by exact depth_lt_of_parent? ‹_›

theorem enclosing_eq_parents (ns : Namespace) : ns.enclosing = ns.parents := by
  fun_induction parents ns with
  | case1 ns h => exact enclosing_of_parent?_eq_none h
  | case2 ns parent h ih => rw [enclosing_of_parent? h, ih]

/-- The last of the parents is the path without segments, under the same anchor. -/
theorem getLast?_parents (ns : Namespace) :
    ns.parents.getLast? = some (if ns.isAbsolute then root else empty) := by
  fun_induction parents ns with
  | case1 ns h =>
    rcases ns with ⟨segments, anchor⟩
    obtain rfl : segments = [] := parent?_eq_none_iff.1 h
    cases anchor <;> rfl
  | case2 ns parent h ih =>
    obtain ⟨-, rfl⟩ := parent?_eq_some_iff.1 h
    rw [List.getLast?_cons, ih]
    rfl

namespace Cursor

variable (cursor : Cursor)

/-! ## Steps -/

theorem skip_skip (first second : Nat) :
    (cursor.skip first).skip second = cursor.skip (first + second) := by
  simp only [skip, Nat.sub_sub]

/-- A step takes one path away, if one is left. -/
theorem next_snd : cursor.next.2 = cursor.skip 1 := by
  rcases cursor with ⟨base, left, hleft⟩
  cases left <;> rfl

/-- Skipping is stepping: the answers on the way do not show. -/
theorem nth_succ (count : Nat) : cursor.nth (count + 1) = cursor.next.2.nth count := by
  rw [nth, nth, next_snd, skip_skip, Nat.add_comm]

/-- What is left is what the steps show, up to the first that shows nothing. -/
theorem rest_eq_next : cursor.rest = cursor.next.1.elim [] (· :: cursor.next.2.rest) := by
  obtain ⟨hfirst, hothers⟩ := cursor.next_eq
  rw [hfirst, hothers]
  cases cursor.rest <;> rfl

/-! ## A row that is consumed -/

/-- One use of a row that is consumed from the front: what it shows, and what it
leaves. A restart brings the whole row back. -/
def consume (whole rest : List Namespace) : Query → Answer × List Namespace
  | .length => (.size rest.length, rest)
  | .bounds => (.bounds rest.length (some rest.length), rest)
  | .peek => (.items rest, rest)
  | .last => (.item rest.getLast?, rest)
  | .count => (.size rest.length, rest)
  | .next => (.item rest.head?, rest.tail)
  | .nth count => (.item (rest.drop count).head?, (rest.drop count).tail)
  | .drain => (.items rest, [])
  | .restart => (.restarted, whole)

/-- A row of uses, each of what the ones before it left. -/
def consumeAll (whole : List Namespace) : List Namespace → List Query → List Answer
  | _, [] => []
  | rest, query :: queries =>
    (consume whole rest query).1 :: consumeAll whole (consume whole rest query).2 queries

/-- The position after a row of uses. -/
def after (queries : List Query) : Cursor :=
  queries.foldl (fun position query => (position.answer query).2) cursor

theorem base_answer (query : Query) : (cursor.answer query).2.base = cursor.base := by
  cases query with
  | next => rw [answer, next_snd, skip]
  | nth count => rw [answer, nth, next_snd, skip, skip]
  | _ => rfl

/-- One use of a cursor is one use of the row that is left. -/
theorem answer_eq_consume (query : Query) :
    (cursor.answer query).1 = (consume cursor.base.parents cursor.rest query).1 ∧
      (cursor.answer query).2.rest = (consume cursor.base.parents cursor.rest query).2 := by
  cases query with
  | length | bounds => exact ⟨by simp [answer, consume], rfl⟩
  | peek | last | count => exact ⟨rfl, rfl⟩
  | next =>
    obtain ⟨hfirst, hothers⟩ := cursor.next_eq
    exact ⟨congrArg Answer.item hfirst, hothers⟩
  | nth count =>
    obtain ⟨hfirst, hothers⟩ := (cursor.skip count).next_eq
    rw [rest_skip] at hfirst hothers
    exact ⟨congrArg Answer.item hfirst, hothers⟩
  | drain =>
    refine ⟨rfl, ?_⟩
    rw [answer, consume, rest_skip, ← cursor.length_rest, List.drop_length]
  | restart => exact ⟨rfl, (rest_start _).trans (enclosing_eq_parents _)⟩

/-- A row of uses of a cursor is one of the row that is left. -/
theorem answers_eq_consumeAll (queries : List Query) :
    cursor.answers queries = consumeAll cursor.base.parents cursor.rest queries := by
  induction queries generalizing cursor with
  | nil => rfl
  | cons query queries ih =>
    obtain ⟨hanswer, hrest⟩ := cursor.answer_eq_consume query
    rw [answers, consumeAll, ih, base_answer, hanswer, hrest]

/-! ## Exhausted cursors -/

/-- Nothing but a restart brings back what has been consumed. -/
theorem rest_answer_eq_nil {query : Query} (h : cursor.rest = []) (hquery : query ≠ .restart) :
    (cursor.answer query).2.rest = [] := by
  rw [(cursor.answer_eq_consume query).2, h]
  cases query with
  | restart => exact absurd rfl hquery
  | nth count => rw [consume, List.drop_nil, List.tail_nil]
  | _ => rfl

theorem rest_after_eq_nil {queries : List Query} (h : cursor.rest = [])
    (hqueries : .restart ∉ queries) : (cursor.after queries).rest = [] := by
  induction queries generalizing cursor with
  | nil => exact h
  | cons query queries ih =>
    rw [List.mem_cons, not_or] at hqueries
    exact ih _ (cursor.rest_answer_eq_nil h (Ne.symm hqueries.1)) hqueries.2

theorem after_append (earlier later : List Query) :
    cursor.after (earlier ++ later) = (cursor.after earlier).after later :=
  List.foldl_append

/-- **A walk consumes the parents.** Following the parents of a path gives one path
more than it has segments, all under its anchor, and ends in the root or in the
empty path. Whatever row of uses a new cursor is put to, its answers are those of
consuming that row from the front. Skipping and looking ahead show no more than
single steps do, and after a step that shows nothing no step shows anything and
nothing is left, unless the walk is restarted. -/
theorem walk_consumes_parents (ns : Namespace) :
    (ns.parents.length = ns.depth + 1 ∧ (∀ scope ∈ ns.parents, scope.anchor = ns.anchor) ∧
      ns.parents.getLast? = some (if ns.isAbsolute then root else empty)) ∧
    (∀ queries, (start ns).answers queries = consumeAll ns.parents ns.parents queries) ∧
    (∀ cursor : Cursor, cursor.nth 0 = cursor.next ∧
      (∀ count, cursor.nth (count + 1) = cursor.next.2.nth count) ∧
      cursor.rest = cursor.next.1.elim [] (· :: cursor.next.2.rest)) ∧
    ∀ earlier later, (((start ns).after earlier).answer .next).1 = .item none →
      .restart ∉ later →
        (((start ns).after (earlier ++ later)).answer .next).1 = .item none ∧
          (((start ns).after (earlier ++ later)).answer .length).1 = .size 0 := by
  refine ⟨⟨?_, fun scope hscope => ?_, getLast?_parents ns⟩, fun queries => ?_,
    fun cursor => ⟨rfl, cursor.nth_succ, cursor.rest_eq_next⟩, fun earlier later hnone hlater => ?_⟩
  · rw [← enclosing_eq_parents, length_enclosing]
  · rw [← enclosing_eq_parents] at hscope
    exact anchor_of_mem_enclosing hscope
  · rw [answers_eq_consumeAll, rest_start, enclosing_eq_parents]
    rfl
  · have hrest : ((start ns).after earlier).rest = [] := by
      rw [(answer_eq_consume _ _).1] at hnone
      exact List.head?_eq_none_iff.1 (Answer.item.inj hnone)
    have hlast := rest_after_eq_nil _ hrest hlater
    rw [← after_append] at hlast
    rw [(answer_eq_consume _ _).1, (answer_eq_consume _ _).1, hlast]
    exact ⟨rfl, rfl⟩

/-- A skip beyond the end exhausts the walk, and further skips find nothing. -/
theorem skip_beyond_end_exhausts :
    (start ⟨["a", "b"], .absolute⟩).answers [.nth 1, .nth 4, .next] =
        [.item (some ⟨["a"], .absolute⟩), .item none, .item none] ∧
      (((start ⟨["a", "b"], .absolute⟩).after [.nth 1, .nth 4, .nth 0]).answer .length).1 =
        .size 0 := by
  obtain ⟨-, -, -, hexhausted⟩ := walk_consumes_parents ⟨["a", "b"], .absolute⟩
  exact ⟨by decide, (hexhausted [.nth 1, .nth 4] [.nth 0] (by decide) (by decide)).2⟩

end Cursor

end ScopedSignatures.Namespace
