import ScopedSignatures.Proofs.Environment.Collision
import ScopedSignatures.Proofs.Journal.Shown

/-!
# What a batch notes

The journal of a batch is as long as the batch goes: one note for each declaration that
is tried, in order, and none for those behind the first that is refused. The last note
says how it ended, with the report on the refused declaration or with the size of the
environment. So the journal alone tells how much the environment has grown.

## Main definitions

* `Environment.ToldBy` — the journal of a batch tells how it went

## Main results

* `Environment.declareEach_cons_of_verdict_eq_none`,
  `Environment.declareEach_cons_of_verdict_eq_some` — the first declaration of a row
* `Environment.journal_declareEach_append` — the declarations of an admitted part, then the rest
* `Environment.shown_declareAll_of_admits`, `Environment.shown_declareAll_of_refused` — the two
  ways in which a batch ends
* `Environment.exists_shown_of_conflict` — what is shown if there is a conflict
* `Environment.toldBy_declareAll` — what can be counted in a journal
* `Environment.journal_accounts_for_batch` — what is shown of a batch, and how often
-/

namespace ScopedSignatures

open Journal (Entry Record occurrences)

namespace Environment

variable {env : Environment} {declaration : Declaration} {conflict : Conflict}
  {declarations earlier : List Declaration} {index : Nat}

/-! ## The notes -/

/-- An accepted declaration leaves one note, and the row goes on with what it leaves. -/
theorem declareEach_cons_of_verdict_eq_none (h : env.verdict declaration = none)
    (later : List Declaration) :
    env.declareEach (declaration :: later) =
      ((env.submit declaration).declareEach later).after [.insertion declaration.site] := by
  rw [declareEach, declare, verdict_eq_none_iff.1 h]

/-- A refused declaration leaves two notes, and the row is over. -/
theorem declareEach_cons_of_verdict_eq_some (h : env.verdict declaration = some conflict)
    (later : List Declaration) :
    env.declareEach (declaration :: later) =
      ⟨⟨env, some conflict⟩, [.insertion declaration.site, .rejection conflict]⟩ := by
  rw [declareEach, declare, verdict_eq_some_iff.1 h]

/-- An admitted part of a row leaves one note for each of its declarations. -/
theorem journal_declareEach_append (h : env.Admits earlier) (later : List Declaration) :
    (env.declareEach (earlier ++ later)).journal =
      earlier.map (fun declaration => Entry.insertion declaration.site) ++
        ((env.submitAll earlier).declareEach later).journal := by
  -- for every environment, since each declaration changes what the others are entered into
  induction earlier generalizing env with
  | nil => rfl
  | cons declaration earlier ih =>
    obtain ⟨haccepted, hothers⟩ := admits_cons_iff.1 h
    rw [List.cons_append, declareEach_cons_of_verdict_eq_none haccepted, Journaled.journal_after,
      ih hothers]
    rfl

/-! ## The records -/

theorem shown_declareAll (env : Environment) (declarations : List Declaration) :
    (env.declareAll declarations).shown =
      .batch :: (env.declareEach declarations).journal.map Entry.record := rfl

/-- The notes on insertions show the kinds and the ranges of the declarations. -/
theorem map_record_insertion (declarations : List Declaration) :
    (declarations.map fun declaration => Entry.insertion declaration.site).map Entry.record =
      declarations.map Record.insertion :=
  List.map_map

/-- An accepted batch shows all of its declarations, and then the size that it leaves. -/
theorem shown_declareAll_of_admits (h : env.Admits declarations) :
    (env.declareAll declarations).shown =
      .batch :: declarations.map .insertion ++
        [.batchAccepted (env.submitAll declarations).size] := by
  have hnotes := journal_declareEach_append h []
  rw [List.append_nil] at hnotes
  rw [shown_declareAll, hnotes, List.map_append, map_record_insertion]
  rfl

/-- A batch that is stopped shows its declarations up to the refused one, and then why.
Whatever comes behind that one is not shown. -/
theorem shown_declareAll_of_refused (h : env.Admits earlier)
    (hrefused : (env.submitAll earlier).verdict declaration = some conflict)
    (later : List Declaration) :
    (env.declareAll (earlier ++ declaration :: later)).shown =
      .batch :: (earlier ++ [declaration]).map .insertion ++ [.rejection conflict] := by
  have hnotes := journal_declareEach_append h (declaration :: later)
  rw [declareEach_cons_of_verdict_eq_some hrefused] at hnotes
  rw [shown_declareAll, hnotes, List.map_append, map_record_insertion, List.map_append,
    List.cons_append, List.append_assoc]
  rfl

/-- The report on a refused declaration has its kind and its range. -/
theorem incoming_of_verdict_eq_some (h : env.verdict declaration = some conflict) :
    conflict.incoming = ⟨declaration.kind, declaration.range⟩ := by
  rw [verdict_eq, Option.bind_eq_some_iff] at h
  obtain ⟨claim, -, hreport⟩ := h
  obtain ⟨holder, -, rfl⟩ := Option.map_eq_some_iff.1 hreport
  rfl

/-- A batch is stopped at the first declaration that collides, and shows no more than it tried. -/
theorem exists_shown_of_conflict
    (hconflict : (env.declareAll declarations).value.conflict = some conflict) :
    ∃ index declaration, declarations[index]? = some declaration ∧
      env.CollidesAt declarations index ∧
      (∀ earlier < index, ¬ env.CollidesAt declarations earlier) ∧
      (env.declareAll declarations).shown =
        .batch :: (declarations.take (index + 1)).map .insertion ++ [.rejection conflict] ∧
      conflict.incoming = ⟨declaration.kind, declaration.range⟩ ∧
      (env.declareAll declarations).value.state.size = env.size + index := by
  obtain ⟨index, declaration, hindex, hadmits, hrefused, hstate⟩ :=
    exists_refused_of_conflict hconflict
  obtain ⟨hlt, hget⟩ := List.getElem?_eq_some_iff.1 hindex
  have hcollides : env.CollidesAt declarations index := by
    apply collidesAt_iff_refused.2
    exact ⟨declaration, hindex, by rw [hrefused, Option.isSome_some]⟩
  have hrow : declarations =
      declarations.take index ++ declaration :: declarations.drop (index + 1) := by
    rw [← hget, ← List.drop_eq_getElem_cons hlt, List.take_append_drop]
  have hshown := shown_declareAll_of_refused hadmits hrefused (declarations.drop (index + 1))
  rw [← hrow, ← hget, List.take_append_getElem] at hshown
  have hlength : (declarations.take index).length = index := by
    rw [List.length_take, Nat.min_eq_left (Nat.le_of_lt hlt)]
  have hsize := size_submitAll_of_admits hadmits
  rw [← hstate, hlength] at hsize
  exact ⟨index, declaration, hindex, hcollides, fun earlier => hadmits.not_collidesAt, hshown,
    incoming_of_verdict_eq_some hrefused, hsize⟩

/-! ## What the journal tells -/

/-- What is shown of a batch tells how it went, and what became of the environment. -/
structure ToldBy (env : Environment) (batch : Journaled (Attempt Environment)) : Prop where
  /-- There is one record of the batch. -/
  batches : occurrences "add_all" batch.shown = 1
  /-- There is one of a rejection exactly if there is a conflict. -/
  rejections : occurrences "declaration rejected" batch.shown = batch.value.conflict.isSome.toNat
  /-- There is one of an acceptance exactly if there is none. -/
  acceptances : occurrences "batch registered" batch.shown = batch.value.conflict.isNone.toNat
  /-- The environment has grown by the declarations that are shown and not rejected. -/
  growth : occurrences "insert" batch.shown + env.size =
    batch.value.state.size + occurrences "declaration rejected" batch.shown

/-- There is one record of a batch, one of each declaration tried, and one of the end. -/
theorem occurrences_batch (title : String) (tried : List Declaration) (last : Record) :
    occurrences title (.batch :: tried.map .insertion ++ [last]) =
      ["add_all"].count title + (List.replicate tried.length "insert").count title +
        [last.title].count title := by
  have htitles : (tried.map Record.insertion).map Record.title =
      List.replicate tried.length "insert" := by
    rw [List.map_map]
    exact List.map_const'
  rw [occurrences, List.map_append, List.count_append, List.map_cons, htitles,
    ← List.singleton_append, List.count_append]
  rfl

/-- A journal of declarations that were all entered, or all but the last, tells how it went. -/
theorem toldBy_of_shown {batch : Journaled (Attempt Environment)} {tried : List Declaration}
    {last : Record} (hshown : batch.shown = .batch :: tried.map .insertion ++ [last])
    (htitle : last.title =
      if batch.value.conflict.isSome then "declaration rejected" else "batch registered")
    (hsize : batch.value.state.size + batch.value.conflict.isSome.toNat =
      env.size + tried.length) : env.ToldBy batch := by
  have hcount : ∀ title, occurrences title batch.shown =
      ["add_all"].count title + (List.replicate tried.length "insert").count title +
        [last.title].count title := by
    intro title
    rw [hshown, occurrences_batch]
  cases hconflict : batch.value.conflict with
  | none =>
    rw [hconflict] at htitle hsize
    have hgrowth : batch.value.state.size = env.size + tried.length := hsize
    constructor <;> simp [hcount, htitle, hconflict, List.count_replicate, hgrowth, Nat.add_comm]
  | some conflict =>
    rw [hconflict] at htitle hsize
    have hgrowth : batch.value.state.size + 1 = env.size + tried.length := hsize
    constructor <;> simp [hcount, htitle, hconflict, List.count_replicate, hgrowth, Nat.add_comm]

/-- However a batch ends, its journal tells how it went. -/
theorem toldBy_declareAll (env : Environment) (declarations : List Declaration) :
    env.ToldBy (env.declareAll declarations) := by
  cases hconflict : (env.declareAll declarations).value.conflict with
  | none =>
    have hadmits := conflict_declareAll_eq_none_iff.1 hconflict
    apply toldBy_of_shown (shown_declareAll_of_admits hadmits)
    · rw [hconflict]
      rfl
    · rw [hconflict, state_declareAll_of_admits hadmits, size_submitAll_of_admits hadmits]
      rfl
  | some conflict =>
    obtain ⟨index, declaration, hindex, -, -, hshown, -, hsize⟩ :=
      exists_shown_of_conflict hconflict
    obtain ⟨hlt, -⟩ := List.getElem?_eq_some_iff.1 hindex
    apply toldBy_of_shown hshown
    · rw [hconflict]
      rfl
    · rw [hconflict, hsize, List.length_take, Nat.min_eq_left hlt]
      rfl

end Environment

end ScopedSignatures
