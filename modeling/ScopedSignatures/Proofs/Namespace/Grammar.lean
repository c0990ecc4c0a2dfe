import ScopedSignatures.Proofs.Namespace.Reading
import ScopedSignatures.Proofs.Text.Spelled

/-!
# The grammar of paths

Which texts denote a path can be told from their colons alone: they have to come
in pairs. A pair at the very beginning anchors the path, and one more at the end
changes nothing. What stands between the pairs are the segments, so none of them
is empty and none has a colon.

## Main results

* `Namespace.parse_eq_ok_iff_spells` — a text is an anchor and what spells the segments
* `Namespace.parse_eq_ok_iff` — which texts denote a path, by the text of the path
* `Namespace.parse_accepts_paired_colons` — which texts denote a path, by their colons
-/

namespace ScopedSignatures.Namespace

open Separator (IsSegment Spells Paired words)

variable {ns : Namespace} {input : String}

/-! ## Reading behind the anchor -/

theorem parse_of_split {anchor : Anchor} {body : List Char}
    (hsplit : Anchor.split input.toList = (anchor, body)) :
    parse input = (Separator.segments? (Separator.trimFinal body)).elim
      (.error (.emptySegment input)) fun segments => .ok ⟨segments, anchor⟩ := by
  rw [parse, hsplit]
  dsimp only
  cases Separator.segments? (Separator.trimFinal body) <;> rfl

/-- A text that denotes no path has an empty segment, and the report shows all of it. -/
theorem parse_eq_emptySegment (h : ∀ ns, parse input ≠ .ok ns) :
    parse input = .error (.emptySegment input) := by
  rcases hsplit : Anchor.split input.toList with ⟨anchor, body⟩
  have hparse := parse_of_split hsplit
  cases hsegments : Separator.segments? (Separator.trimFinal body) with
  | none =>
    rw [hsegments] at hparse
    exact hparse
  | some segments =>
    rw [hsegments] at hparse
    exact absurd hparse (h _)

/-- A text denotes a path exactly if it is the path's anchor and what spells its segments. -/
theorem parse_eq_ok_iff_spells :
    parse input = .ok ns ↔
      ∃ body, input.toList = ns.anchor.text.toList ++ body ∧
        Spells (ns.segments.map String.toList) body := by
  constructor
  · intro h
    rcases hsplit : Anchor.split input.toList with ⟨anchor, body⟩
    rw [parse_of_split hsplit] at h
    cases hsegments : Separator.segments? (Separator.trimFinal body) with
    | none =>
      rw [hsegments] at h
      cases h
    | some segments =>
      rw [hsegments] at h
      cases h
      exact ⟨body, (Anchor.split_eq_iff.1 hsplit).1,
        Separator.segments?_trimFinal_eq_some_iff.1 hsegments⟩
  · intro hspelled
    obtain ⟨body, htext, hspells⟩ := hspelled
    have hsplit : Anchor.split input.toList = (ns.anchor, body) :=
      Anchor.split_eq_iff.2 ⟨htext, fun _ rest => hspells.ne_colon_cons _⟩
    rw [parse_of_split hsplit, Separator.segments?_trimFinal_eq_some_iff.2 hspells]
    rfl

/-- The text of a path is its anchor and the join of its segments. -/
theorem toList_toString (ns : Namespace) :
    ns.toString.toList =
      ns.anchor.text.toList ++ Separator.joined (ns.segments.map String.toList) := by
  rw [Namespace.toString, String.toList_append, String.toList_intercalate]
  rfl

theorem toList_toString_append_separator (ns : Namespace) :
    (ns.toString ++ Separator.text).toList =
      ns.anchor.text.toList ++
        (Separator.joined (ns.segments.map String.toList) ++ [':', ':']) := by
  rw [String.toList_append, toList_toString, List.append_assoc]
  rfl

/-- A text denotes a path exactly if the path is well formed and the text is that
of the path, or that of the path and one more separator behind its segments. -/
theorem parse_eq_ok_iff :
    parse input = .ok ns ↔
      ns.WellFormed ∧
        (input = ns.toString ∨ ns.segments ≠ [] ∧ input = ns.toString ++ Separator.text) := by
  have hwell : (∀ good ∈ ns.segments.map String.toList, IsSegment good) ↔ ns.WellFormed :=
    List.forall_mem_map
  have hne : ns.segments.map String.toList ≠ [] ↔ ns.segments ≠ [] :=
    not_congr List.map_eq_nil_iff
  rw [parse_eq_ok_iff_spells, ← String.toList_inj, ← String.toList_inj, toList_toString,
    toList_toString_append_separator]
  simp only [Separator.spells_iff, hwell, hne]
  constructor
  · intro hread
    obtain ⟨body, htext, h, rfl | ⟨hsegments, rfl⟩⟩ := hread
    · exact ⟨h, Or.inl htext⟩
    · exact ⟨h, Or.inr ⟨hsegments, htext⟩⟩
  · intro hwritten
    obtain ⟨h, htext | ⟨hsegments, htext⟩⟩ := hwritten
    · exact ⟨_, htext, h, Or.inl rfl⟩
    · exact ⟨_, htext, h, Or.inr ⟨hsegments, rfl⟩⟩

/-! ## Colons in pairs -/

/-- The anchor of a text is one more pair of colons, and no word. -/
theorem paired_and_words_of_spells {anchor : Anchor} {goods : List (List Char)} {body : List Char}
    (h : Spells goods body) :
    Paired (anchor.text.toList ++ body) ∧ words (anchor.text.toList ++ body) = goods := by
  obtain ⟨hpaired, hwords⟩ := h.paired_and_words
  cases anchor with
  | relative => exact ⟨hpaired, hwords⟩
  | absolute =>
    have hrun : Separator.IsRunBefore [':', ':'] body :=
      Separator.isRunBefore_separator h.ne_colon_cons
    change Paired ([':', ':'] ++ body) ∧ words ([':', ':'] ++ body) = goods
    rw [Separator.paired_append_iff hrun, Separator.words_append hrun,
      if_pos List.mem_cons_self]
    exact ⟨⟨fun _ => rfl, hpaired⟩, hwords⟩

/-- A text with colons in pairs only is an anchor and what spells something. -/
theorem exists_anchor_of_paired {text : List Char} (h : Paired text) :
    ∃ (anchor : Anchor) (body : List Char) (goods : List (List Char)),
      text = anchor.text.toList ++ body ∧ Spells goods body := by
  by_cases hcolon : ∃ tail, text = ':' :: tail
  · obtain ⟨tail, rfl⟩ := hcolon
    obtain ⟨body, rfl, hbody, hnext⟩ := Separator.exists_separator_append h
    obtain ⟨goods, hgoods⟩ := Separator.exists_spells_of_paired hbody hnext
    exact ⟨.absolute, body, goods, rfl, hgoods⟩
  · obtain ⟨goods, hgoods⟩ :=
      Separator.exists_spells_of_paired h fun rest hrest => hcolon ⟨rest, hrest⟩
    exact ⟨.relative, text, goods, rfl, hgoods⟩

theorem exists_parse_eq_ok_iff_paired :
    (∃ ns, parse input = .ok ns) ↔ Paired input.toList := by
  constructor
  · intro hread
    obtain ⟨ns, hparse⟩ := hread
    obtain ⟨body, htext, hspells⟩ := parse_eq_ok_iff_spells.1 hparse
    rw [htext]
    exact (paired_and_words_of_spells hspells).1
  · intro hpaired
    obtain ⟨anchor, body, goods, htext, hspells⟩ := exists_anchor_of_paired hpaired
    refine ⟨⟨goods.map String.ofList, anchor⟩, parse_eq_ok_iff_spells.2 ⟨body, htext, ?_⟩⟩
    have hid : String.toList ∘ String.ofList = id := funext fun _ => String.toList_ofList
    rw [List.map_map, hid, List.map_id]
    exact hspells

/-- The segments of a path are the words of its text. -/
theorem segments_eq_words (h : parse input = .ok ns) :
    ns.segments = (words input.toList).map String.ofList := by
  obtain ⟨body, htext, hspells⟩ := parse_eq_ok_iff_spells.1 h
  have hid : String.ofList ∘ String.toList = id := funext fun _ => String.ofList_toList
  rw [htext, (paired_and_words_of_spells hspells).2, List.map_map, hid, List.map_id]

/-- A path is absolute exactly if its text begins with a separator. -/
theorem isAbsolute_iff_begins (h : parse input = .ok ns) :
    ns.isAbsolute = true ↔ Separator.text.toList <+: input.toList := by
  obtain ⟨body, htext, hspells⟩ := parse_eq_ok_iff_spells.1 h
  rw [htext, isAbsolute_iff]
  cases ns.anchor with
  | absolute => exact iff_of_true rfl (List.prefix_append _ _)
  | relative =>
    refine iff_of_false Anchor.noConfusion fun hbegins => ?_
    obtain ⟨rest, hrest⟩ := hbegins
    exact hspells.ne_colon_cons _ hrest.symm

/-- **Colons in pairs.** A text denotes a path exactly if every maximal run of
colons in it is two colons long. The path is absolute if the text begins with such
a run, and its segments are the runs of other characters in their order; the text
is that of the path, or has one more separator behind the last segment. Any other
text is refused for an empty segment, with all of it in the report. -/
theorem parse_accepts_paired_colons (input : String) :
    ((∃ ns, parse input = .ok ns) ↔
      ∀ run ∈ Separator.runs input.toList, ':' ∈ run → run.length = 2) ∧
    (∀ ns, parse input = .ok ns →
      (ns.isAbsolute = true ↔ Separator.text.toList <+: input.toList) ∧
      ns.segments =
        ((Separator.runs input.toList).filter (':' ∉ ·)).map String.ofList ∧
      (input = ns.toString ∨ ns.segments ≠ [] ∧ input = ns.toString ++ Separator.text)) ∧
    ((¬ ∀ run ∈ Separator.runs input.toList, ':' ∈ run → run.length = 2) →
      parse input = .error (.emptySegment input)) := by
  refine ⟨exists_parse_eq_ok_iff_paired, fun ns hparse => ?_, fun hunpaired => ?_⟩
  · exact ⟨isAbsolute_iff_begins hparse, segments_eq_words hparse, (parse_eq_ok_iff.1 hparse).2⟩
  · apply parse_eq_emptySegment
    intro ns hparse
    exact hunpaired (exists_parse_eq_ok_iff_paired.1 ⟨ns, hparse⟩)

/-- A path with a separator behind it, and a text with a run of three colons. -/
theorem parse_pair_not_three :
    (parse "::a::b::" = .ok ⟨["a", "b"], .absolute⟩) ∧
      parse "a:::b" = .error (.emptySegment "a:::b") := by
  obtain ⟨haccepted, hread, -⟩ := parse_accepts_paired_colons "::a::b::"
  obtain ⟨-, -, hrefused⟩ := parse_accepts_paired_colons "a:::b"
  constructor
  · obtain ⟨ns, hparse⟩ := haccepted.2 (by decide)
    obtain ⟨habsolute, hsegments, -⟩ := hread ns hparse
    have hanchor : ns.anchor = .absolute := isAbsolute_iff.1 (habsolute.2 (by decide))
    rw [hparse, Except.ok.injEq]
    exact Namespace.ext (hsegments.trans (by decide)) hanchor
  · exact hrefused (by decide)

end ScopedSignatures.Namespace
