import ScopedSignatures.QualifiedName.Written
import ScopedSignatures.Proofs.Namespace.Reading

/-!
# Reading qualified names

A name is read from the text that it is written as. One more text is accepted:
with the last segment right behind two separators, the path between them is taken
for a path without segments. Every other text with an empty part is refused.

## Main definitions

* `QualifiedName.WellFormed` — the name can be read back
* `QualifiedName.DoublyAnchored` — the texts that are accepted although no name is written so

## Main results

* `QualifiedName.parse_eq_ok_iff` — which texts denote a name
* `QualifiedName.parse_eq_ok_iff_written` — apart from doubly anchored texts, those that a name
  is written as
-/

namespace ScopedSignatures

open Separator (IsSegment)

namespace Separator

variable {body last : List Char} {segments : List String}

/-- What the rightmost cut makes of a text. The last part stands alone, follows
the segments it is joined to, or follows a separator with nothing in front. -/
theorem exists_cutAtLast?_iff :
    (∃ path, (cutAtLast? body).getD ([], body) = (path, last) ∧ segments? path = some segments) ∧
        IsSegment last ↔
      (∀ segment ∈ segments, IsSegment segment.toList) ∧ IsSegment last ∧
        (body = joined (segments.map String.toList ++ [last]) ∨
          segments = [] ∧ body = ':' :: ':' :: last) := by
  constructor
  · intro hread
    obtain ⟨⟨path, hcut, hpath⟩, hlast⟩ := hread
    obtain ⟨hsegments, hjoined⟩ := segments?_eq_some_iff.1 hpath
    refine ⟨hsegments, hlast, ?_⟩
    cases h : cutAtLast? body with
    | none =>
      rw [h] at hcut
      cases hcut
      obtain rfl := Option.some.inj hpath
      exact Or.inl (joined_singleton body).symm
    | some parts =>
      rw [h] at hcut
      cases hcut
      rw [cutAtLast?_eq_some h]
      by_cases hne : segments = []
      · -- the separator has an empty path in front of it, which counts as one without segments
        subst hne
        exact Or.inr ⟨rfl, by rw [hjoined]; rfl⟩
      · have hne' : segments.map String.toList ≠ [] := fun h => hne (List.map_eq_nil_iff.1 h)
        exact Or.inl (by rw [hjoined, joined_append_singleton_of_ne_nil hne'])
  · intro hwritten
    obtain ⟨hsegments, hlast, hbody⟩ := hwritten
    refine ⟨⟨joined (segments.map String.toList), ?_, segments?_eq_some_iff.2 ⟨hsegments, rfl⟩⟩,
      hlast⟩
    by_cases hne : segments = []
    · subst hne
      rcases hbody with rfl | ⟨-, rfl⟩
      · rw [List.map_nil, List.nil_append, joined_singleton, cutAtLast?_of_not_mem hlast.2]
        rfl
      · rw [← List.nil_append (':' :: ':' :: last), cutAtLast?_append [] hlast.2]
        rfl
    · have hne' : segments.map String.toList ≠ [] := fun h => hne (List.map_eq_nil_iff.1 h)
      rcases hbody with rfl | ⟨hnil, -⟩
      · rw [joined_append_singleton_of_ne_nil hne', cutAtLast?_append _ hlast.2]
        rfl
      · exact absurd hnil hne

end Separator

namespace QualifiedName

variable {vocabulary : Vocabulary} {name : QualifiedName vocabulary} {input : String}

/-- The last segment and all segments in front of it are non-empty and have no colon. -/
def WellFormed (name : QualifiedName vocabulary) : Prop :=
  name.qualifier.WellFormed ∧ IsSegment name.last.toList

instance (name : QualifiedName vocabulary) : Decidable name.WellFormed :=
  inferInstanceAs (Decidable (_ ∧ _))

/-- The text of a name is its anchor and the join of all its segments. -/
theorem toList_toString (name : QualifiedName vocabulary) :
    name.toString.toList = name.qualifier.anchor.text.toList ++
      Separator.joined (name.qualifier.segments.map String.toList ++ [name.last.toList]) := by
  simp [QualifiedName.toString, Separator.joined_append_singleton, List.flatMap_map]

/-- Reading cuts off the anchor, then the last segment, and complains about the
last segment before it looks at the others. -/
theorem parse_of_cut {anchor : Anchor} {body path last : List Char}
    (hsplit : Anchor.split input.toList = (anchor, body))
    (hcut : (Separator.cutAtLast? body).getD ([], body) = (path, last)) :
    (parse input : Except NameError (QualifiedName vocabulary)) =
      if last = [] then .error (.missingFinal input)
      else if ':' ∈ last then .error (.emptySegment input)
      else (Separator.segments? path).elim (.error (.emptySegment input))
        fun segments => .ok ⟨⟨segments, anchor⟩, String.ofList last⟩ := by
  rw [parse, hsplit]
  simp only [hcut]
  cases Separator.segments? path <;> rfl

theorem parse_eq_ok_iff_cut :
    (parse input : Except NameError (QualifiedName vocabulary)) = .ok name ↔
      ∃ body, Anchor.split input.toList = (name.qualifier.anchor, body) ∧
        (∃ path, (Separator.cutAtLast? body).getD ([], body) = (path, name.last.toList) ∧
          Separator.segments? path = some name.qualifier.segments) ∧
        IsSegment name.last.toList := by
  constructor
  · intro h
    rcases hsplit : Anchor.split input.toList with ⟨anchor, body⟩
    rcases hcut : (Separator.cutAtLast? body).getD ([], body) with ⟨path, last⟩
    rw [parse_of_cut hsplit hcut] at h
    by_cases hne : last = []
    · rw [if_pos hne] at h
      cases h
    · by_cases hcolon : ':' ∈ last
      · rw [if_neg hne, if_pos hcolon] at h
        cases h
      · rw [if_neg hne, if_neg hcolon] at h
        cases hsegments : Separator.segments? path with
        | none =>
          rw [hsegments] at h
          cases h
        | some segments =>
          rw [hsegments] at h
          cases h
          refine ⟨body, rfl, ⟨path, ?_, hsegments⟩, ?_⟩
          · rw [hcut, String.toList_ofList]
          · rw [String.toList_ofList]
            exact ⟨hne, hcolon⟩
  · intro hread
    obtain ⟨body, hsplit, ⟨path, hcut, hsegments⟩, hne, hcolon⟩ := hread
    rw [parse_of_cut hsplit hcut, if_neg hne, if_neg hcolon, hsegments, String.ofList_toList]
    rfl

/-- All segments of a well-formed name, the last one included, are segments. -/
theorem WellFormed.isSegment (h : name.WellFormed) :
    ∀ part ∈ name.qualifier.segments.map String.toList ++ [name.last.toList], IsSegment part := by
  intro part hpart
  rcases List.mem_append.1 hpart with hmem | hmem
  · obtain ⟨segment, hsegment, rfl⟩ := List.mem_map.1 hmem
    exact h.1 segment hsegment
  · rw [List.mem_singleton.1 hmem]
    exact h.2

theorem toString_root_qualified (last : String) :
    (⟨.root, last⟩ : QualifiedName vocabulary).toString = Separator.text ++ last := by
  rw [← String.toList_inj, toList_toString, String.toList_append]
  exact congrArg (Separator.text.toList ++ ·) (Separator.joined_singleton last.toList)

/-- One more separator in front of a name at the root stands in front of its last segment. -/
theorem toList_separator_append (hroot : name.qualifier = .root) :
    (Separator.text ++ name.toString).toList =
      name.qualifier.anchor.text.toList ++ ':' :: ':' :: name.last.toList := by
  rcases name with ⟨qualifier, last⟩
  obtain rfl : qualifier = .root := hroot
  rw [toString_root_qualified, String.toList_append, String.toList_append]
  rfl

/-- A text denotes a name exactly if the name is well formed and the text is that
of the name, or that of a name at the root with one more separator in front. -/
theorem parse_eq_ok_iff :
    (parse input : Except NameError (QualifiedName vocabulary)) = .ok name ↔
      name.WellFormed ∧
        (name.toString = input ∨
          name.qualifier = .root ∧ input = Separator.text ++ name.toString) := by
  rw [parse_eq_ok_iff_cut]
  simp only [Anchor.split_eq_iff, Separator.exists_cutAtLast?_iff]
  constructor
  · intro hread
    obtain ⟨body, ⟨htext, hrelative⟩, hsegments, hlast, hbody⟩ := hread
    refine ⟨⟨hsegments, hlast⟩, ?_⟩
    rcases hbody with rfl | ⟨hnil, rfl⟩
    · left
      rw [← String.toList_inj, toList_toString, htext]
    · right
      have hroot : name.qualifier = .root := by
        cases hanchor : name.qualifier.anchor with
        | relative => exact absurd rfl (hrelative hanchor _)
        | absolute => exact Namespace.ext hnil hanchor
      refine ⟨hroot, ?_⟩
      rw [← String.toList_inj, htext, toList_separator_append hroot]
  · intro hwritten
    obtain ⟨hwell, rfl | ⟨hroot, rfl⟩⟩ := hwritten
    · refine ⟨_, ⟨toList_toString name, fun _ rest => ?_⟩, hwell.1, hwell.2, Or.inl rfl⟩
      exact Separator.joined_ne_colon_cons hwell.isSegment _
    · refine ⟨':' :: ':' :: name.last.toList, ⟨?_, fun h => ?_⟩, hwell.1, hwell.2,
        Or.inr ⟨by rw [hroot]; rfl, rfl⟩⟩
      · rw [toList_separator_append hroot]
      · rw [hroot] at h
        exact Anchor.noConfusion h

/-! ## One separator too many -/

/-- The text of a name at the root with one more separator in front. -/
def DoublyAnchored (input : String) : Prop :=
  ∃ last : String, IsSegment last.toList ∧ input = Separator.text ++ Separator.text ++ last

theorem separator_append_root_qualified (last : String) :
    Separator.text ++ (⟨.root, last⟩ : QualifiedName vocabulary).toString =
      Separator.text ++ Separator.text ++ last := by
  rw [toString_root_qualified, String.append_assoc]

theorem wellFormed_root_qualified {last : String} (hlast : IsSegment last.toList) :
    (⟨.root, last⟩ : QualifiedName vocabulary).WellFormed :=
  ⟨fun _ hmem => absurd hmem List.not_mem_nil, hlast⟩

theorem doublyAnchored_iff (vocabulary : Vocabulary) :
    DoublyAnchored input ↔
      ∃ name : QualifiedName vocabulary, name.WellFormed ∧ name.qualifier = .root ∧
        input = Separator.text ++ name.toString := by
  constructor
  · intro hdoubly
    obtain ⟨last, hlast, rfl⟩ := hdoubly
    exact ⟨⟨.root, last⟩, wellFormed_root_qualified hlast, rfl,
      (separator_append_root_qualified last).symm⟩
  · intro hname
    obtain ⟨⟨qualifier, last⟩, hwell, rfl, rfl⟩ := hname
    exact ⟨last, hwell.2, separator_append_root_qualified last⟩

/-- No well-formed name is written with two separators in front. -/
theorem WellFormed.not_doublyAnchored (h : name.WellFormed) : ¬ DoublyAnchored name.toString := by
  intro hdoubly
  obtain ⟨last, -, htext⟩ := hdoubly
  have hlist : name.toString.toList = ':' :: ':' :: ':' :: ':' :: last.toList := by
    rw [htext, String.toList_append]
    rfl
  rw [toList_toString] at hlist
  -- behind the anchor, if there is one, the text would still begin with a colon
  cases hanchor : name.qualifier.anchor with
  | relative =>
    rw [hanchor] at hlist
    exact Separator.joined_ne_colon_cons h.isSegment _ hlist
  | absolute =>
    rw [hanchor] at hlist
    exact Separator.joined_ne_colon_cons h.isSegment _ (List.cons.inj (List.cons.inj hlist).2).2

/-- With one separator too many, the name is read as if it were not there. -/
theorem parse_of_doublyAnchored {last : String} (hlast : IsSegment last.toList) :
    (parse (Separator.text ++ Separator.text ++ last) :
      Except NameError (QualifiedName vocabulary)) = .ok ⟨.root, last⟩ := by
  rw [parse_eq_ok_iff]
  refine ⟨wellFormed_root_qualified hlast, Or.inr ⟨rfl, ?_⟩⟩
  exact (separator_append_root_qualified last).symm

/-- Of the other texts, exactly those of well-formed names are read. -/
theorem parse_eq_ok_iff_of_not_doublyAnchored (h : ¬ DoublyAnchored input) :
    (parse input : Except NameError (QualifiedName vocabulary)) = .ok name ↔
      name.WellFormed ∧ name.toString = input := by
  rw [parse_eq_ok_iff]
  constructor
  · intro hread
    obtain ⟨hwell, htext | ⟨hroot, htext⟩⟩ := hread
    · exact ⟨hwell, htext⟩
    · exact absurd ((doublyAnchored_iff vocabulary).2 ⟨name, hwell, hroot, htext⟩) h
  · intro hwritten
    obtain ⟨hwell, htext⟩ := hwritten
    exact ⟨hwell, Or.inl htext⟩

/-- However the text of a well-formed name is cut behind its anchor, no part is empty. -/
theorem WellFormed.nil_notMem {parts : List (List Char)} (h : name.WellFormed)
    (hparts : (Anchor.split name.toString.toList).2 = Separator.joined parts) : [] ∉ parts := by
  have hsplit : Anchor.split name.toString.toList =
      (name.qualifier.anchor,
        Separator.joined (name.qualifier.segments.map String.toList ++ [name.last.toList])) := by
    rw [Anchor.split_eq_iff]
    exact ⟨toList_toString name, fun _ rest => Separator.joined_ne_colon_cons h.isSegment _⟩
  rw [hsplit] at hparts
  exact Separator.nil_notMem_of_joined_eq (List.append_ne_nil_of_right_ne_nil _
    (List.cons_ne_nil _ _)) h.isSegment hparts.symm

/-- **What is read is what is written, but for one separator too many.** A text
is read as exactly the well-formed name that is written so, unless it is the text
of a name at the root behind one more separator. Those texts are read as if the
separator were not there; they alone are accepted with an empty part, and they
alone share their name with another text. -/
theorem parse_eq_ok_iff_written (vocabulary : Vocabulary) :
    (∀ input,
      (∀ name : QualifiedName vocabulary,
        parse input = .ok name ↔ name.WellFormed ∧ name.toString = input) ↔
      ¬ DoublyAnchored input) ∧
    (∀ last : String, IsSegment last.toList →
      parse (Separator.text ++ Separator.text ++ last) =
        .ok (⟨.root, last⟩ : QualifiedName vocabulary)) ∧
    (∀ input parts, (Anchor.split input.toList).2 = Separator.joined parts → [] ∈ parts →
      ((∃ name : QualifiedName vocabulary, parse input = .ok name) ↔ DoublyAnchored input)) ∧
    ∀ first second, ∀ name : QualifiedName vocabulary,
      parse first = .ok name → parse second = .ok name →
        (first = second ↔ (DoublyAnchored first ↔ DoublyAnchored second)) := by
  refine ⟨fun input => ⟨?_, ?_⟩, fun last hlast => parse_of_doublyAnchored hlast,
    fun input parts hparts hnil => ⟨?_, ?_⟩, fun first second name hfirst hsecond => ⟨?_, ?_⟩⟩
  · intro hwritten hdoubly
    obtain ⟨last, hlast, rfl⟩ := hdoubly
    have hread := (hwritten ⟨.root, last⟩).1 (parse_of_doublyAnchored hlast)
    exact hread.1.not_doublyAnchored ⟨last, hlast, hread.2⟩
  · intro h name
    exact parse_eq_ok_iff_of_not_doublyAnchored h
  · intro haccepted
    obtain ⟨name, hread⟩ := haccepted
    refine Classical.byContradiction fun h => ?_
    obtain ⟨hwell, rfl⟩ := (parse_eq_ok_iff_of_not_doublyAnchored h).1 hread
    exact hwell.nil_notMem hparts hnil
  · intro hdoubly
    obtain ⟨last, hlast, rfl⟩ := hdoubly
    exact ⟨_, parse_of_doublyAnchored hlast⟩
  · rintro rfl
    exact Iff.rfl
  · intro hsame
    obtain ⟨hwell, hfirst⟩ := parse_eq_ok_iff.1 hfirst
    obtain ⟨-, hsecond⟩ := parse_eq_ok_iff.1 hsecond
    -- each text is the name's own or has one more separator, and both agree on which
    rcases hfirst with rfl | ⟨hroot, rfl⟩ <;> rcases hsecond with rfl | ⟨hroot', rfl⟩
    · rfl
    · exact absurd (hsame.2 ((doublyAnchored_iff vocabulary).2 ⟨name, hwell, hroot', rfl⟩))
        hwell.not_doublyAnchored
    · exact absurd (hsame.1 ((doublyAnchored_iff vocabulary).2 ⟨name, hwell, hroot, rfl⟩))
        hwell.not_doublyAnchored
    · rfl

theorem parse_path_not_gap :
    (parse "::a::B" : Except NameError ModuleName) = .ok ⟨⟨["a"], .absolute⟩, "B"⟩ ∧
      ¬ ∃ name : ModuleName, parse "a::::B" = .ok name := by
  obtain ⟨hwritten, -, hgap, -⟩ := parse_eq_ok_iff_written .moduleLike
  constructor
  · have hplain : ¬ DoublyAnchored "::a::B" := by
      intro hdoubly
      obtain ⟨last, -, htext⟩ := hdoubly
      have hlist := congrArg String.toList htext
      simp [Separator.text] at hlist
    exact ((hwritten "::a::B").2 hplain _).2 (by decide)
  · rw [hgap "a::::B" [['a'], [], ['B']] (by decide) (by decide)]
    intro hdoubly
    obtain ⟨last, -, htext⟩ := hdoubly
    have hlist := congrArg String.toList htext
    simp [Separator.text] at hlist

/-- A text that denotes a name although no name is written so, and though a part
of it is empty. -/
theorem parse_doubly_anchored :
    (parse "::::A" : Except NameError ModuleName) = .ok ⟨.root, "A"⟩ ∧
      (parse "::A" : Except NameError ModuleName) = .ok ⟨.root, "A"⟩ ∧
      (⟨.root, "A"⟩ : ModuleName).toString ≠ "::::A" ∧
      (Anchor.split "::::A".toList).2 = Separator.joined [[], ['A']] :=
  ⟨rfl, rfl, by decide, rfl⟩

end QualifiedName

end ScopedSignatures
