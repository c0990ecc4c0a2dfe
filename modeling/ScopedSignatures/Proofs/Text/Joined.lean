import ScopedSignatures.Text.Separator

/-!
# Joined text

Parts with a separator between neighbours make up a text. Cutting and joining
are inverse where the parts hold no colon; parts that do can meet a separator and
be cut elsewhere, and the empty text cannot tell no parts from one empty part.
So the segments of a path are exactly the parts of colon-free, non-empty text
that it is joined from.

## Main definitions

* `Separator.joined` — the text of a row of parts

## Main results

* `Separator.joined_pieces`, `Separator.pieces_joined` — cutting from the left and joining
* `Separator.cutAtLast?_append` — cutting at the rightmost separator
* `Separator.segments?_eq_some_iff` — the segments of a path are what it is joined from
* `Separator.nil_notMem_of_joined_eq` — text that is joined from segments has no empty part,
  however it is cut
-/

namespace ScopedSignatures.Separator

variable {part path last : List Char} {parts goods : List (List Char)}

/-- The parts with a separator between neighbours. -/
def joined (parts : List (List Char)) : List Char := text.toList.intercalate parts

@[simp] theorem joined_nil : joined [] = [] := rfl

@[simp] theorem joined_singleton (part : List Char) : joined [part] = part :=
  List.intercalate_singleton

theorem joined_cons_of_ne_nil (part : List Char) (h : parts ≠ []) :
    joined (part :: parts) = part ++ ':' :: ':' :: joined parts := by
  rw [joined, List.intercalate_cons_of_ne_nil h, List.append_assoc]
  rfl

theorem joined_append_singleton (parts : List (List Char)) (last : List Char) :
    joined (parts ++ [last]) = parts.flatMap (· ++ text.toList) ++ last := by
  induction parts with
  | nil => simp
  | cons part parts ih =>
    rw [List.cons_append, joined_cons_of_ne_nil part (by simp), ih, List.flatMap_cons]
    simp [text]

theorem joined_append_singleton_of_ne_nil (h : parts ≠ []) (last : List Char) :
    joined (parts ++ [last]) = joined parts ++ ':' :: ':' :: last := by
  induction parts with
  | nil => exact absurd rfl h
  | cons part parts ih =>
    rw [List.cons_append, joined_cons_of_ne_nil part (by simp)]
    by_cases hparts : parts = []
    · subst hparts
      simp
    · rw [ih hparts, joined_cons_of_ne_nil part hparts, List.append_assoc]
      rfl

theorem joined_modifyHead_cons (c : Char) (h : parts ≠ []) :
    joined (parts.modifyHead (c :: ·)) = c :: joined parts := by
  cases parts with
  | nil => exact absurd rfl h
  | cons part parts =>
    rw [List.modifyHead_cons]
    by_cases hparts : parts = []
    · subst hparts
      simp
    · rw [joined_cons_of_ne_nil _ hparts, joined_cons_of_ne_nil _ hparts, List.cons_append]

/-! ## Cutting from the left -/

/-- Joining the pieces of a text gives the text back. -/
theorem joined_pieces (path : List Char) : joined (pieces path) = path := by
  -- along the cutting: the empty text, a separator in front, any other character
  fun_induction pieces path with
  | case1 => rfl
  | case2 rest ih =>
    rw [joined_cons_of_ne_nil [] (pieces_ne_nil rest), ih]
    rfl
  | case3 c rest _ ih => rw [joined_modifyHead_cons c (pieces_ne_nil rest), ih]

/-- A part without colons that stands before a separator is the first piece. -/
theorem pieces_append (h : ':' ∉ part) (rest : List Char) :
    pieces (part ++ ':' :: ':' :: rest) = part :: pieces rest := by
  induction part with
  | nil => rfl
  | cons c part ih =>
    have hc : c ≠ ':' := fun hc => h (hc ▸ List.mem_cons_self)
    have hpart : ':' ∉ part := fun hmem => h (List.mem_cons_of_mem c hmem)
    rw [List.cons_append, pieces_cons_of_ne hc, ih hpart, List.modifyHead_cons]

/-- Parts without colons are the pieces of the text they are joined to. -/
theorem pieces_joined (hne : parts ≠ []) (h : ∀ part ∈ parts, ':' ∉ part) :
    pieces (joined parts) = parts := by
  induction parts with
  | nil => exact absurd rfl hne
  | cons part parts ih =>
    have hpart := h part List.mem_cons_self
    by_cases hparts : parts = []
    · subst hparts
      rw [joined_singleton, pieces_of_not_mem hpart]
    · rw [joined_cons_of_ne_nil part hparts, pieces_append hpart,
        ih hparts fun other hother => h other (List.mem_cons_of_mem part hother)]

/-! ## Cutting at the rightmost separator -/

theorem cutAtLast?_of_not_mem (h : ':' ∉ path) : cutAtLast? path = none := by
  induction path with
  | nil => rfl
  | cons c rest ih =>
    have hc : c ≠ ':' := fun hc => h (hc ▸ List.mem_cons_self)
    rw [cutAtLast?, ih fun hmem => h (List.mem_cons_of_mem c hmem)]
    exact fun after hcolon => absurd hcolon hc

/-- Text without colons that follows a separator is what the last cut leaves. -/
theorem cutAtLast?_append (before : List Char) (h : ':' ∉ last) :
    cutAtLast? (before ++ ':' :: ':' :: last) = some (before, last) := by
  induction before with
  | nil =>
    have hsecond : cutAtLast? (':' :: last) = none := by
      rw [cutAtLast?, cutAtLast?_of_not_mem h]
      exact fun after _ hlast => h (hlast ▸ List.mem_cons_self)
    rw [List.nil_append, cutAtLast?, hsecond]
  | cons c before ih => simp only [List.cons_append, cutAtLast?.eq_def (c :: _), ih]

/-! ## Segments -/

theorem joined_ne_nil (hne : goods ≠ []) (h : ∀ good ∈ goods, IsSegment good) :
    joined goods ≠ [] := by
  obtain ⟨good, rest, rfl⟩ := List.exists_cons_of_ne_nil hne
  have hgood := (h good List.mem_cons_self).1
  by_cases hrest : rest = []
  · subst hrest
    rwa [joined_singleton]
  · rw [joined_cons_of_ne_nil good hrest]
    exact List.append_ne_nil_of_left_ne_nil hgood _

/-- Text that is joined from segments does not begin with a colon. -/
theorem joined_ne_colon_cons (h : ∀ good ∈ goods, IsSegment good) (rest : List Char) :
    joined goods ≠ ':' :: rest := by
  cases goods with
  | nil => exact (List.cons_ne_nil ':' rest).symm
  | cons good goods =>
    obtain ⟨hgood, hcolon⟩ := h good List.mem_cons_self
    obtain ⟨c, good, rfl⟩ := List.exists_cons_of_ne_nil hgood
    have hc : c ≠ ':' := fun hc => hcolon (hc ▸ List.mem_cons_self)
    by_cases hgoods : goods = []
    · subst hgoods
      rw [joined_singleton]
      exact fun heq => hc (List.cons.inj heq).1
    · rw [joined_cons_of_ne_nil _ hgoods]
      exact fun heq => hc (List.cons.inj heq).1

/-- The segments of a path's text are what the text is joined from. -/
theorem segments?_eq_some_iff {segments : List String} :
    segments? path = some segments ↔
      (∀ segment ∈ segments, IsSegment segment.toList) ∧
        path = joined (segments.map String.toList) := by
  constructor
  · intro h
    rw [segments?] at h
    split at h
    · next hpath =>
      obtain rfl := Option.some.inj h
      exact ⟨fun segment hmem => absurd hmem List.not_mem_nil, hpath⟩
    · split at h
      · next hpieces =>
        obtain rfl := Option.some.inj h
        constructor
        · intro segment hsegment
          obtain ⟨piece, hpiece, rfl⟩ := List.mem_map.1 hsegment
          rw [String.toList_ofList]
          exact hpieces piece hpiece
        · have hid : String.toList ∘ String.ofList = id := funext fun _ => String.toList_ofList
          rw [List.map_map, hid, List.map_id, joined_pieces]
      · cases h
  · intro hjoined
    obtain ⟨hsegments, rfl⟩ := hjoined
    have hgoods : ∀ good ∈ segments.map String.toList, IsSegment good := by
      intro good hgood
      obtain ⟨segment, hsegment, rfl⟩ := List.mem_map.1 hgood
      exact hsegments segment hsegment
    by_cases hne : segments = []
    · subst hne
      rfl
    · have hne' : segments.map String.toList ≠ [] := fun h => hne (List.map_eq_nil_iff.1 h)
      have hid : String.ofList ∘ String.toList = id := funext fun _ => String.ofList_toList
      rw [segments?, if_neg (joined_ne_nil hne' hgoods),
        pieces_joined hne' fun good hgood => (hgoods good hgood).2, if_pos hgoods, List.map_map,
        hid, List.map_id]

/-- Two cuts of one text, the second behind a part without colons and in front of
text that begins with none: they are the same cut, or the first comes later. -/
theorem eq_or_cut_later {good rest tail : List Char} (hgood : ':' ∉ good)
    (htail : ∀ other, tail ≠ ':' :: other)
    (h : part ++ ':' :: ':' :: rest = good ++ ':' :: ':' :: tail) :
    (part = good ∧ rest = tail) ∨
      ∃ behind, part = good ++ ':' :: ':' :: behind ∧ tail = behind ++ ':' :: ':' :: rest := by
  rcases List.append_eq_append_iff.1 h with ⟨behind, hbehind, hrest⟩ | ⟨behind, hbehind, hrest⟩
  · cases behind with
    | nil =>
      rw [List.append_nil] at hbehind
      exact Or.inl ⟨hbehind.symm, by simpa using hrest⟩
    | cons c behind =>
      obtain ⟨rfl, -⟩ := List.cons.inj hrest
      exact absurd (hbehind ▸ by simp) hgood
  · match behind with
    | [] =>
      rw [List.append_nil] at hbehind
      exact Or.inl ⟨hbehind, by simpa using hrest.symm⟩
    | [c] =>
      simp only [List.cons_append, List.nil_append, List.cons.injEq] at hrest
      exact absurd hrest.2.2 (htail _)
    | c :: d :: behind =>
      simp only [List.cons_append, List.cons.injEq] at hrest
      obtain ⟨rfl, rfl, hrest⟩ := hrest
      exact Or.inr ⟨behind, hbehind, hrest⟩

/-- However a text is cut at separators, it has no empty part if it can be cut into segments. -/
theorem nil_notMem_of_joined_eq (hne : goods ≠ []) (hgoods : ∀ good ∈ goods, IsSegment good)
    (h : joined parts = joined goods) : [] ∉ parts := by
  -- by induction on the segments: the first cut of the other row falls behind the first
  -- segment or further on, and what is left of it is a cut of the other segments
  induction goods generalizing parts with
  | nil => exact absurd rfl hne
  | cons good goods ih =>
    have hgood := hgoods good List.mem_cons_self
    have hrest : ∀ other ∈ goods, IsSegment other :=
      fun other hother => hgoods other (List.mem_cons_of_mem good hother)
    match parts with
    | [] => exact List.not_mem_nil
    | [part] =>
      rw [joined_singleton] at h
      rw [List.mem_singleton]
      intro hnil
      exact joined_ne_nil hne hgoods (hnil ▸ h).symm
    | part :: next :: others =>
      rw [joined_cons_of_ne_nil part (List.cons_ne_nil next others)] at h
      by_cases hlast : goods = []
      · subst hlast
        rw [joined_singleton] at h
        exact absurd (h ▸ by simp) hgood.2
      · rw [joined_cons_of_ne_nil good hlast] at h
        rw [List.mem_cons, not_or]
        rcases eq_or_cut_later hgood.2 (joined_ne_colon_cons hrest) h with
          ⟨rfl, htail⟩ | ⟨behind, rfl, htail⟩
        · exact ⟨Ne.symm hgood.1, ih hlast hrest htail⟩
        · rw [← joined_cons_of_ne_nil behind (List.cons_ne_nil next others)] at htail
          have hothers := ih hlast hrest htail.symm
          rw [List.mem_cons, not_or] at hothers
          exact ⟨(List.append_ne_nil_of_left_ne_nil hgood.1 _).symm, hothers.2⟩

end ScopedSignatures.Separator
