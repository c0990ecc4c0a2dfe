import Mathlib.Data.List.SplitBy
import ScopedSignatures.Proofs.Text.Joined

/-!
# Spelled text

The text of a path without its anchor spells the segments of the path: they stand
in it one after the other with a separator between neighbours, and one separator
may follow the last of them. Whether a text spells anything shows locally. Cut it
into its maximal runs, of colons and of other characters in turn: it spells
something exactly if it begins with no colon and every run of colons is two colons
long, and what it spells are the other runs.

## Main definitions

* `Separator.Spells` — a row of segments and a text that they are read from
* `Separator.runs` — the maximal runs of a text
* `Separator.Paired`, `Separator.words` — what the runs of colons and the other runs are

## Main results

* `Separator.spells_iff` — a spelled text is joined, and may have a separator at its end
* `Separator.segments?_trimFinal_eq_some_iff` — what a path's text is read as is what it spells
* `Separator.exists_spells_of_paired`, `Separator.Spells.paired_and_words` — which texts spell,
  and what
-/

namespace ScopedSignatures.Separator

variable {run rest word path : List Char} {goods : List (List Char)}

/-- A row of segments and a text that they can be read from. -/
inductive Spells : List (List Char) → List Char → Prop where
  /-- No segments are read from the empty text. -/
  | nil : Spells [] []
  /-- The last segment may end the text. -/
  | last {good : List Char} (h : IsSegment good) : Spells [good] good
  /-- A separator follows any other segment, and may follow the last. -/
  | cons {good rest : List Char} {goods : List (List Char)} (h : IsSegment good)
      (hrest : Spells goods rest) : Spells (good :: goods) (good ++ ':' :: ':' :: rest)

/-! ## Spelled and joined -/

theorem Spells.isSegment (h : Spells goods path) : ∀ good ∈ goods, IsSegment good := by
  induction h with
  | nil => exact fun good hmem => absurd hmem List.not_mem_nil
  | last hgood =>
    intro good hmem
    rwa [List.mem_singleton.1 hmem]
  | cons hgood _ ih => exact List.forall_mem_cons.2 ⟨hgood, ih⟩

/-- Spelled text begins with no colon. -/
theorem Spells.ne_colon_cons (h : Spells goods path) (rest : List Char) : path ≠ ':' :: rest := by
  have hfirst : ∀ {good : List Char}, IsSegment good → ∀ behind, good ++ behind ≠ ':' :: rest := by
    intro good hgood behind heq
    obtain ⟨c, good, rfl⟩ := List.exists_cons_of_ne_nil hgood.1
    exact hgood.2 ((List.cons.inj heq).1 ▸ List.mem_cons_self)
  cases h with
  | nil => exact (List.cons_ne_nil ':' rest).symm
  | last hgood => exact List.append_nil path ▸ hfirst hgood []
  | cons hgood _ => exact hfirst hgood _

theorem spells_joined (h : ∀ good ∈ goods, IsSegment good) : Spells goods (joined goods) := by
  induction goods with
  | nil => exact .nil
  | cons good goods ih =>
    obtain ⟨hgood, hgoods⟩ := List.forall_mem_cons.1 h
    by_cases hne : goods = []
    · subst hne
      rw [joined_singleton]
      exact .last hgood
    · rw [joined_cons_of_ne_nil good hne]
      exact .cons hgood (ih hgoods)

theorem spells_joined_append (hne : goods ≠ []) (h : ∀ good ∈ goods, IsSegment good) :
    Spells goods (joined goods ++ [':', ':']) := by
  induction goods with
  | nil => exact absurd rfl hne
  | cons good goods ih =>
    obtain ⟨hgood, hgoods⟩ := List.forall_mem_cons.1 h
    by_cases hlast : goods = []
    · subst hlast
      rw [joined_singleton]
      exact .cons hgood .nil
    · rw [joined_cons_of_ne_nil good hlast, List.append_assoc]
      exact .cons hgood (ih hlast hgoods)

/-- A text that spells segments is joined from them, and may have one more
separator behind them if there are any. -/
theorem spells_iff :
    Spells goods path ↔ (∀ good ∈ goods, IsSegment good) ∧
      (path = joined goods ∨ goods ≠ [] ∧ path = joined goods ++ [':', ':']) := by
  constructor
  · intro h
    refine ⟨h.isSegment, ?_⟩
    induction h with
    | nil => exact Or.inl rfl
    | last => exact Or.inl (joined_singleton _).symm
    | @cons good rest goods hgood hrest ih =>
      by_cases hne : goods = []
      · subst hne
        obtain rfl : rest = [] := by simpa using ih
        exact Or.inr ⟨List.cons_ne_nil _ _, by rw [joined_singleton]⟩
      · rw [joined_cons_of_ne_nil good hne]
        rcases ih with rfl | ⟨-, rfl⟩
        · exact Or.inl rfl
        · exact Or.inr ⟨List.cons_ne_nil _ _, by rw [List.append_assoc]; rfl⟩
  · intro hjoined
    obtain ⟨hgoods, rfl | ⟨hne, rfl⟩⟩ := hjoined
    · exact spells_joined hgoods
    · exact spells_joined_append hne hgoods

/-! ## Reading segments -/

/-- Text that is joined from segments does not end in a separator. -/
theorem joined_ne_append_separator (h : ∀ good ∈ goods, IsSegment good) (before : List Char) :
    joined goods ≠ before ++ [':', ':'] := by
  rcases List.eq_nil_or_concat goods with rfl | ⟨others, last, rfl⟩
  · exact (List.append_ne_nil_of_right_ne_nil before (List.cons_ne_nil _ _)).symm
  · rw [List.concat_eq_append] at h ⊢
    have hlast := h last (List.mem_append_right others (List.mem_singleton_self last))
    obtain ⟨front, c, rfl⟩ := (List.eq_nil_or_concat last).resolve_left hlast.1
    rw [List.concat_eq_append] at hlast ⊢
    intro heq
    rw [joined_append_singleton, ← List.append_assoc,
      show before ++ [':', ':'] = before ++ [':'] ++ [':'] by simp] at heq
    obtain ⟨-, hc⟩ := List.append_inj' heq rfl
    exact hlast.2 (by rw [(List.cons.inj hc).1]; simp)

/-- Without a separator at its end, the text is what its segments are joined to. -/
theorem trimFinal_eq_joined_iff {body : List Char} (h : ∀ good ∈ goods, IsSegment good) :
    trimFinal body = joined goods ↔
      body = joined goods ∨ goods ≠ [] ∧ body = joined goods ++ [':', ':'] := by
  rw [trimFinal]
  split
  · next c before hfinal =>
    obtain rfl := beforeFinal?_eq_some_iff.1 hfinal
    constructor
    · intro hjoined
      rw [hjoined]
      refine Or.inr ⟨?_, rfl⟩
      rintro rfl
      cases hjoined
    · rintro (hbody | ⟨-, hbody⟩)
      · exact absurd hbody.symm (joined_ne_append_separator h _)
      · exact List.append_cancel_right hbody
  · next hfinal =>
    constructor
    · exact Or.inl
    · rintro (hbody | ⟨hne, hbody⟩)
      · exact hbody
      · obtain ⟨c, before, hjoined⟩ := List.exists_cons_of_ne_nil (joined_ne_nil hne h)
        rw [hjoined] at hbody
        exact absurd (beforeFinal?_eq_some_iff.2 hbody) (hfinal c before)

/-- What a path's text is read as is what it spells. -/
theorem segments?_trimFinal_eq_some_iff {body : List Char} {segments : List String} :
    segments? (trimFinal body) = some segments ↔ Spells (segments.map String.toList) body := by
  have hsegments : (∀ good ∈ segments.map String.toList, IsSegment good) ↔
      ∀ segment ∈ segments, IsSegment segment.toList := List.forall_mem_map
  rw [segments?_eq_some_iff, spells_iff, hsegments]
  constructor
  · rintro ⟨h, htrim⟩
    exact ⟨h, (trimFinal_eq_joined_iff (hsegments.2 h)).1 htrim⟩
  · rintro ⟨h, hbody⟩
    exact ⟨h, (trimFinal_eq_joined_iff (hsegments.2 h)).2 hbody⟩

/-! ## Runs -/

/-- The maximal runs of a text, of colons and of other characters in turn. -/
def runs (path : List Char) : List (List Char) :=
  path.splitBy fun c d => (c == ':') == (d == ':')

/-- Every maximal run of colons is two colons long. -/
def Paired (path : List Char) : Prop := ∀ run ∈ runs path, ':' ∈ run → run.length = 2

instance (path : List Char) : Decidable (Paired path) :=
  inferInstanceAs (Decidable (∀ run ∈ runs path, _))

/-- The maximal runs of characters other than colons. -/
def words (path : List Char) : List (List Char) := (runs path).filter (':' ∉ ·)

/-- A run and what follows it: it is made of colons alone, or has none, and the
next character is of the other sort. -/
structure IsRunBefore (run rest : List Char) : Prop where
  ne_nil : run ≠ []
  uniform : ∃ isColon, (∀ c ∈ run, (c == ':') = isColon) ∧ ∀ c ∈ rest.head?, (c == ':') = !isColon

/-- A run that no character of its sort follows is the first one of the text. -/
theorem runs_append (h : IsRunBefore run rest) : runs (run ++ rest) = run :: runs rest := by
  obtain ⟨hne, isColon, hrun, hrest⟩ := h
  have hchain : run.IsChain fun c d => ((c == ':') == (d == ':')) = true := by
    apply List.Pairwise.isChain
    apply List.pairwise_of_forall_mem_list
    intro c hc d hd
    rw [hrun c hc, hrun d hd, beq_self_eq_true]
  rw [runs, List.splitBy_append, List.splitBy_of_isChain hne hchain]
  · rfl
  · intro c hc d hd
    rw [hrun c (List.mem_of_mem_getLast? hc), hrest d hd]
    cases isColon <;> rfl

theorem paired_append_iff (h : IsRunBefore run rest) :
    Paired (run ++ rest) ↔ (':' ∈ run → run.length = 2) ∧ Paired rest := by
  rw [Paired, runs_append h, List.forall_mem_cons]
  rfl

theorem words_append (h : IsRunBefore run rest) :
    words (run ++ rest) = if ':' ∈ run then words rest else run :: words rest := by
  rw [words, runs_append h, List.filter_cons]
  by_cases hcolon : ':' ∈ run <;> simp [hcolon, words]

/-- A separator is a run if no colon follows it. -/
theorem isRunBefore_separator (h : ∀ other, rest ≠ ':' :: other) :
    IsRunBefore [':', ':'] rest := by
  refine ⟨List.cons_ne_nil _ _, true, by simp, fun c hc => ?_⟩
  cases rest with
  | nil => cases hc
  | cons d other =>
    obtain rfl := Option.some.inj hc
    have hd : d ≠ ':' := by
      rintro rfl
      exact h other rfl
    simpa using hd

/-- A segment is a run if a colon follows it, or nothing. -/
theorem isRunBefore_segment (hword : IsSegment word) (h : ∀ c ∈ rest.head?, c = ':') :
    IsRunBefore word rest := by
  refine ⟨hword.1, false, fun c hc => ?_, fun c hc => ?_⟩
  · have hne : c ≠ ':' := by
      rintro rfl
      exact hword.2 hc
    simpa using hne
  · simpa using h c hc

/-- Every text that is not empty begins with a run. -/
theorem exists_isRunBefore (c : Char) (tail : List Char) :
    ∃ run rest, c :: tail = c :: run ++ rest ∧ IsRunBefore (c :: run) rest := by
  let same : Char → Bool := fun d => (d == ':') == (c == ':')
  refine ⟨tail.takeWhile same, tail.dropWhile same, ?_, List.cons_ne_nil _ _, c == ':', ?_, ?_⟩
  · rw [List.cons_append, List.takeWhile_append_dropWhile]
  · intro d hd
    rcases List.mem_cons.1 hd with rfl | hd
    · rfl
    · have hsame := List.all_eq_true.1 List.all_takeWhile d hd
      simpa [same] using hsame
  · intro d hd
    have hother := List.head?_dropWhile_not same tail
    rw [Option.mem_def.1 hd] at hother
    cases hcolon : c == ':' <;> simp_all [same]

/-- A text that begins with no colon begins with a segment, and a colon follows it
if anything does. -/
theorem exists_segment_append {c : Char} (hc : c ≠ ':') (tail : List Char) :
    ∃ word rest, c :: tail = word ++ rest ∧ IsSegment word ∧ IsRunBefore word rest ∧
      ∀ d ∈ rest.head?, d = ':' := by
  obtain ⟨run, rest, htext, hrun⟩ := exists_isRunBefore c tail
  obtain ⟨isColon, hsame, hother⟩ := hrun.uniform
  obtain rfl : isColon = false := by
    rw [← hsame c List.mem_cons_self]
    simpa using hc
  refine ⟨c :: run, rest, htext, ⟨hrun.ne_nil, fun hcolon => ?_⟩, hrun, fun d hd => ?_⟩
  · exact absurd (hsame ':' hcolon) (by decide)
  · simpa using hother d hd

/-- Where colons come in pairs, a text that begins with a colon begins with a
separator and goes on with no colon. -/
theorem exists_separator_append {tail : List Char} (h : Paired (':' :: tail)) :
    ∃ rest, tail = ':' :: rest ∧ Paired rest ∧ ∀ other, rest ≠ ':' :: other := by
  obtain ⟨run, rest, htext, hrun⟩ := exists_isRunBefore ':' tail
  rw [htext, paired_append_iff hrun] at h
  obtain ⟨hlength, hpaired⟩ := h
  obtain ⟨isColon, hsame, hother⟩ := hrun.uniform
  obtain rfl : isColon = true := (hsame ':' List.mem_cons_self).symm
  have hone : run.length = 1 := Nat.succ.inj (hlength List.mem_cons_self)
  obtain ⟨d, rfl⟩ := List.length_eq_one_iff.1 hone
  have hd : d = ':' := by simpa using hsame d (by simp)
  subst hd
  refine ⟨rest, (List.cons.inj htext).2, hpaired, ?_⟩
  rintro other rfl
  exact absurd (hother ':' rfl) (by decide)

/-! ## Which texts spell, and what -/

/-- Spelled text has colons in pairs only, and its other runs are what it spells. -/
theorem Spells.paired_and_words (h : Spells goods path) : Paired path ∧ words path = goods := by
  induction h with
  | nil => exact ⟨by decide, rfl⟩
  | @last good hgood =>
    have hrun : IsRunBefore good [] := isRunBefore_segment hgood (by simp)
    rw [← List.append_nil good, paired_append_iff hrun, words_append hrun, if_neg hgood.2]
    exact ⟨⟨fun hcolon => absurd hcolon hgood.2, by decide⟩, by simp [words, runs]⟩
  | @cons good rest goods hgood hrest ih =>
    obtain ⟨hpaired, hwords⟩ := ih
    have hrun : IsRunBefore good ([':', ':'] ++ rest) := isRunBefore_segment hgood (by simp)
    have hseparator : IsRunBefore [':', ':'] rest := isRunBefore_separator hrest.ne_colon_cons
    change Paired (good ++ ([':', ':'] ++ rest)) ∧ words (good ++ ([':', ':'] ++ rest)) = _
    rw [paired_append_iff hrun, paired_append_iff hseparator, words_append hrun,
      words_append hseparator, if_neg hgood.2, if_pos List.mem_cons_self, hwords]
    exact ⟨⟨fun hcolon => absurd hcolon hgood.2, fun _ => rfl, hpaired⟩, rfl⟩

/-- A text that begins with no colon and has colons in pairs only spells something. -/
theorem exists_spells_of_paired (hpaired : Paired path) (hhead : ∀ rest, path ≠ ':' :: rest) :
    ∃ goods, Spells goods path := by
  -- by induction on the length: a segment is cut off, with the separator behind it
  induction hlength : path.length using Nat.strong_induction_on generalizing path with
  | _ length ih =>
    cases path with
    | nil => exact ⟨[], .nil⟩
    | cons c tail =>
      have hc : c ≠ ':' := by
        rintro rfl
        exact hhead tail rfl
      obtain ⟨word, rest, htext, hword, hrun, hcolon⟩ := exists_segment_append hc tail
      rw [htext] at hpaired hlength ⊢
      cases rest with
      | nil =>
        rw [List.append_nil]
        exact ⟨[word], .last hword⟩
      | cons d behind =>
        obtain rfl := hcolon d rfl
        have hbehind := ((paired_append_iff hrun).1 hpaired).2
        obtain ⟨rest, rfl, hrest, hnext⟩ := exists_separator_append hbehind
        have hshorter : rest.length < length := by
          rw [← hlength, List.length_append, List.length_cons, List.length_cons]
          omega
        obtain ⟨goods, hgoods⟩ := ih rest.length hshorter hrest hnext rfl
        exact ⟨word :: goods, .cons hword hgoods⟩

end ScopedSignatures.Separator
