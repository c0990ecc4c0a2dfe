import ScopedSignatures.Proofs.Namespace.Grammar
import ScopedSignatures.Proofs.QualifiedName.Reading

/-!
# The two readers on one text

Paths are cut from the left and names at the rightmost separator, and each reader
has its own view of a text's end: a path may end in a separator, a name must have
something behind the last one. That is the only thing a name is ever said to miss;
whatever else is wrong with a text is an empty segment, for both readers. Where a
path's text does not end in a separator the two meet: the name that it is read as
is the path's last segment, qualified by the rest.

## Main definitions

* `Separator.withoutLeading` — a text without one leading separator

## Main results

* `QualifiedName.parse_eq_missingFinal_iff` — when nothing follows the last separator
* `QualifiedName.exists_parse_of_namespace` — the path of a name's text is the body of the name
* `QualifiedName.readers_meet` — both readers on every text
-/

namespace ScopedSignatures

namespace Separator

variable {body path last : List Char}

/-- A text without one leading separator; a text that begins with none stays. -/
def withoutLeading (text : List Char) : List Char :=
  (text.dropPrefix? Separator.text.toList).getD text

/-- Nothing is left behind the rightmost cut exactly if the text is empty or ends
in a separator. -/
theorem last_eq_nil_iff (hcut : (cutAtLast? body).getD ([], body) = (path, last)) :
    last = [] ↔ body = [] ∨ text.toList <:+ body := by
  constructor
  · rintro rfl
    cases h : cutAtLast? body with
    | none =>
      rw [h] at hcut
      exact Or.inl (congrArg Prod.snd hcut)
    | some parts =>
      rw [h] at hcut
      cases hcut
      exact Or.inr ⟨path, (cutAtLast?_eq_some h).symm⟩
  · rintro (rfl | ⟨before, rfl⟩)
    · exact (congrArg Prod.snd hcut).symm
    · -- no later cut is possible, since nothing stands behind that separator
      have hlast : cutAtLast? (before ++ text.toList) = some (before, []) :=
        cutAtLast?_append before List.not_mem_nil
      rw [hlast] at hcut
      exact (congrArg Prod.snd hcut).symm

end Separator

/-- What both readers put aside first is one leading separator. -/
theorem Anchor.split_snd (text : List Char) :
    (Anchor.split text).2 = Separator.withoutLeading text := by
  by_cases hsep : Separator.text.toList <+: text
  · obtain ⟨body, rfl⟩ := hsep
    rw [Separator.withoutLeading, List.dropPrefix?_append_of_beq body (beq_self_eq_true _)]
    rfl
  · have hnone : text.dropPrefix? Separator.text.toList = none := by
      rw [Option.eq_none_iff_forall_ne_some]
      intro body hbody
      obtain ⟨front, htext, hfront⟩ := List.dropPrefix?_eq_some_iff.1 hbody
      obtain rfl := eq_of_beq hfront
      exact hsep ⟨body, htext.symm⟩
    rw [Separator.withoutLeading, hnone, Anchor.split]
    · rfl
    · exact fun body htext => hsep ⟨body, htext.symm⟩

namespace QualifiedName

variable {vocabulary : Vocabulary} {input : String}

/-- The last segment of a name is missing exactly if nothing stands behind the
anchor, or nothing behind the last separator there. -/
theorem parse_eq_missingFinal_iff {text : String} :
    (parse input : Except NameError (QualifiedName vocabulary)) = .error (.missingFinal text) ↔
      text = input ∧ (Separator.withoutLeading input.toList = [] ∨
        Separator.text.toList <:+ Separator.withoutLeading input.toList) := by
  rcases hsplit : Anchor.split input.toList with ⟨anchor, body⟩
  rcases hcut : (Separator.cutAtLast? body).getD ([], body) with ⟨path, last⟩
  have hbody : Separator.withoutLeading input.toList = body := by
    rw [← Anchor.split_snd, hsplit]
  rw [parse_of_cut hsplit hcut, hbody, ← Separator.last_eq_nil_iff hcut]
  by_cases hne : last = []
  · simp [hne, eq_comm]
  · by_cases hcolon : ':' ∈ last
    · simp [hne, hcolon]
    · cases Separator.segments? path <;> simp [hne, hcolon]

/-- Every refusal shows the whole text, and has one of two causes. -/
theorem eq_of_parse_eq_error {error : NameError}
    (h : (parse input : Except NameError (QualifiedName vocabulary)) = .error error) :
    error = .missingFinal input ∨ error = .emptySegment input := by
  rcases hsplit : Anchor.split input.toList with ⟨anchor, body⟩
  rcases hcut : (Separator.cutAtLast? body).getD ([], body) with ⟨path, last⟩
  rw [parse_of_cut hsplit hcut] at h
  by_cases hne : last = []
  · rw [if_pos hne] at h
    cases h
    exact Or.inl rfl
  · right
    by_cases hcolon : ':' ∈ last
    · rw [if_neg hne, if_pos hcolon] at h
      cases h
      rfl
    · rw [if_neg hne, if_neg hcolon] at h
      cases hsegments : Separator.segments? path with
      | none =>
        rw [hsegments] at h
        cases h
        rfl
      | some segments =>
        rw [hsegments] at h
        cases h

/-- The text of a path that has segments and does not end in a separator is that
of a name as well, and the path is the scope of that module's body. -/
theorem exists_parse_of_namespace {ns : Namespace} (h : Namespace.parse input = .ok ns)
    (hne : Separator.withoutLeading input.toList ≠ [])
    (hend : ¬ Separator.text.toList <:+ Separator.withoutLeading input.toList) :
    ∃ name : ModuleName, parse input = .ok name ∧ name.toNamespace = ns := by
  obtain ⟨body, htext, hspells⟩ := Namespace.parse_eq_ok_iff_spells.1 h
  have hbody : Separator.withoutLeading input.toList = body := by
    rw [← Anchor.split_snd, Anchor.split_eq_iff.2 ⟨htext, fun _ _ => hspells.ne_colon_cons _⟩]
  rw [hbody] at hne hend
  obtain ⟨hsegments, hjoined | ⟨-, hjoined⟩⟩ := Separator.spells_iff.1 hspells
  · rcases ns with ⟨segments, anchor⟩
    have hsome : segments ≠ [] := by
      rintro rfl
      exact hne hjoined
    obtain ⟨front, last, rfl⟩ := (List.eq_nil_or_concat segments).resolve_left hsome
    rw [List.concat_eq_append] at *
    rw [List.map_append, List.forall_mem_append, List.forall_mem_map] at hsegments
    refine ⟨⟨⟨front, anchor⟩, last⟩, parse_eq_ok_iff.2 ⟨⟨hsegments.1, ?_⟩, Or.inl ?_⟩, rfl⟩
    · exact hsegments.2 _ (List.mem_singleton_self _)
    · rw [← String.toList_inj, toList_toString, htext, hjoined, List.map_append]
      rfl
  · exact absurd ⟨_, hjoined.symm⟩ hend

/-- **The two readers on one text.** Reading a name misses its last segment exactly
if the text, without one leading separator, is empty or ends in a separator. Any
other refusal of a name is for an empty segment, as is every refusal of a path, and
all of them show the whole text. A text that a path is read from, and that neither
is empty nor ends in a separator behind a leading one, is also read as a module's
name, and the path is the scope of that module's body. -/
theorem readers_meet (vocabulary : Vocabulary) (input : String) :
    ((∃ text, (parse input : Except NameError (QualifiedName vocabulary)) =
        .error (.missingFinal text)) ↔
      Separator.withoutLeading input.toList = [] ∨
        Separator.text.toList <:+ Separator.withoutLeading input.toList) ∧
    (∀ error, (parse input : Except NameError (QualifiedName vocabulary)) = .error error →
      error = .missingFinal input ∨ error = .emptySegment input) ∧
    (∀ error, Namespace.parse input = .error error → error = .emptySegment input) ∧
    ∀ ns, Namespace.parse input = .ok ns → Separator.withoutLeading input.toList ≠ [] →
      ¬ Separator.text.toList <:+ Separator.withoutLeading input.toList →
        ∃ name : ModuleName, parse input = .ok name ∧ name.toNamespace = ns := by
  refine ⟨?_, fun error => eq_of_parse_eq_error, fun error herror => ?_,
    fun ns => exists_parse_of_namespace⟩
  · simp [parse_eq_missingFinal_iff]
  · have hrefused : Namespace.parse input = .error (.emptySegment input) :=
      Namespace.parse_eq_emptySegment fun ns hparse => by rw [hparse] at herror; cases herror
    rw [hrefused] at herror
    cases herror
    rfl

/-- A text that both readers accept, and one that only paths are read from. -/
theorem path_ends_in_separator :
    (∃ name : ModuleName, parse "::a::B" = .ok name ∧
        name.toNamespace = ⟨["a", "B"], .absolute⟩) ∧
      Namespace.parse "a::" = .ok ⟨["a"], .relative⟩ ∧
      ∃ text, (parse "a::" : Except NameError ModuleName) = .error (.missingFinal text) := by
  obtain ⟨-, -, -, hmeet⟩ := readers_meet .moduleLike "::a::B"
  obtain ⟨hmissing, -⟩ := readers_meet .moduleLike "a::"
  refine ⟨hmeet _ rfl (by decide) (by decide), rfl, hmissing.2 (by decide)⟩

end QualifiedName

end ScopedSignatures
