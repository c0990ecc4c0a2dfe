/-!
# Separated text

A written path is a row of segments with two colons between neighbours. Texts
are cut as lists of characters, so that every function here recurses on its
text. A run of more than two colons can be cut in several places: `pieces` cuts
as far left as possible and `cutAtLast?` as far right as possible.

## Main definitions

* `pieces` — the parts of a text between separators, cut from the left
* `cutAtLast?` — what stands before and after the rightmost separator
* `beforeFinal?` — what stands before a separator that ends the text
* `IsSegment` — a text that can stand between two separators
* `segments?` — the segments of a path's text, if all its pieces are segments

## Main results

* `pieces_of_not_mem` — a text without colons is one piece
* `cutAtLast?_eq_some` — the two parts and the separator make up the text
* `beforeFinal?_eq_some_iff` — a final separator is found exactly when the text ends in one
-/

namespace ScopedSignatures.Separator

/-- The separator as it is written. -/
def text : String := "::"

/-- The parts of a text between separators, cut as far left as possible. -/
def pieces : List Char → List (List Char)
  | [] => [[]]
  | ':' :: ':' :: rest => [] :: pieces rest
  | c :: rest => (pieces rest).modifyHead (c :: ·)

/-- What stands before and after the rightmost separator of a text. -/
def cutAtLast? : List Char → Option (List Char × List Char)
  | [] => none
  | c :: rest =>
    match cutAtLast? rest with
    | some (before, after) => some (c :: before, after)
    | none =>
      match c, rest with
      | ':', ':' :: after => some ([], after)
      | _, _ => none

/-- What stands before a separator that ends the text. -/
def beforeFinal? : List Char → Option (List Char)
  | [] => none
  | [':', ':'] => some []
  | c :: rest => (beforeFinal? rest).map (c :: ·)

/-- The text without one separator at its end. A text that is nothing but a
separator stays, since a path needs a segment before its final separator. -/
def trimFinal (path : List Char) : List Char :=
  match beforeFinal? path with
  | some (c :: before) => c :: before
  | _ => path

/-- A segment has at least one character and no colon. -/
def IsSegment (piece : List Char) : Prop := piece ≠ [] ∧ ':' ∉ piece

instance (piece : List Char) : Decidable (IsSegment piece) :=
  inferInstanceAs (Decidable (_ ∧ _))

/-- The segments of a path's text: none for the empty text, else its pieces,
each of which has to be a segment. -/
def segments? (path : List Char) : Option (List String) :=
  if path = [] then some []
  else if ∀ piece ∈ pieces path, IsSegment piece then some ((pieces path).map String.ofList)
  else none

theorem pieces_ne_nil (path : List Char) : pieces path ≠ [] := by
  fun_induction pieces path with
  | case1 => simp
  | case2 => simp
  | case3 c rest _ ih => cases h : pieces rest <;> simp_all

/-- A character other than a colon belongs to the first piece. -/
theorem pieces_cons_of_ne {c : Char} (h : c ≠ ':') (rest : List Char) :
    pieces (c :: rest) = (pieces rest).modifyHead (c :: ·) := by
  rw [pieces]
  intro rest' hc
  exact absurd hc h

theorem pieces_of_not_mem {piece : List Char} (h : ':' ∉ piece) : pieces piece = [piece] := by
  induction piece with
  | nil => rfl
  | cons c rest ih =>
    have hc : c ≠ ':' := fun hc => h (hc ▸ List.mem_cons_self)
    rw [pieces_cons_of_ne hc, ih fun hr => h (List.mem_cons_of_mem c hr), List.modifyHead_cons]

/-- Cutting loses nothing: the two parts with a separator between them are the text. -/
theorem cutAtLast?_eq_some {path before after : List Char}
    (h : cutAtLast? path = some (before, after)) : path = before ++ ':' :: ':' :: after := by
  fun_induction cutAtLast? path generalizing before after with
  | case1 => cases h
  | case2 c rest front back hcut ih =>
    cases h
    rw [ih hcut, List.cons_append]
  | case3 =>
    cases h
    rfl
  | case4 => cases h

/-- A final separator is found exactly when the text ends in one. -/
theorem beforeFinal?_eq_some_iff {path before : List Char} :
    beforeFinal? path = some before ↔ path = before ++ [':', ':'] := by
  fun_induction beforeFinal? path generalizing before with
  | case1 => simp
  | case2 =>
    constructor
    · rintro h
      cases h
      rfl
    · intro h
      cases before with
      | nil => rfl
      | cons c before => cases before <;> simp at h
  | case3 c rest hne ih =>
    constructor
    · intro h
      obtain ⟨front, hfront, rfl⟩ := Option.map_eq_some_iff.1 h
      rw [ih.1 hfront, List.cons_append]
    · intro h
      cases before with
      | nil => exact absurd (List.cons.inj h).2 (fun hr => hne (List.cons.inj h).1 hr)
      | cons d before =>
        obtain ⟨rfl, hrest⟩ := List.cons.inj h
        exact Option.map_eq_some_iff.2 ⟨before, ih.2 hrest, rfl⟩

end ScopedSignatures.Separator
