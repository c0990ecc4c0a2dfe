import Mathlib.Data.List.SplitBy

/-!
# Taking text off

A reader takes what a text begins with off the text. What it takes may depend on
what follows: a name ends where a character comes that no name has. So a reader is
described by the characters that may follow, and readers of rows are described by
the reader of one item.

## Main definitions

* `Reader` — what a text begins with, and the text behind it
* `Reader.Follows` — what a text may go on with
* `Reader.TakesOff` — a reader takes a written value off
* `Reader.row`, `Reader.listed` — rows of items, open and up to a closing bracket

## Main results

* `Reader.takesOff_row`, `Reader.listed_append` — rows are taken off if each of their items is
-/

namespace ScopedSignatures

/-- Reads what a text begins with, if it can be read, and gives the text behind it. -/
abbrev Reader (α : Type) := List Char → Option (α × List Char)

namespace Reader

variable {α ι : Type} {read : Reader α} {few many followers rest : List Char} {c : Char}

/-- The text is over, or goes on with one of the followers. -/
def Follows (followers rest : List Char) : Prop := ∀ c ∈ rest.head?, c ∈ followers

/-- The reader takes the text off for the value, if one of the followers comes next. -/
def TakesOff (read : Reader α) (followers text : List Char) (value : α) : Prop :=
  ∀ rest, Follows followers rest → read (text ++ rest) = some (value, rest)

theorem follows_nil (followers : List Char) : Follows followers [] := by
  simp [Follows]

@[simp] theorem follows_cons : Follows followers (c :: rest) ↔ c ∈ followers := by
  simp [Follows]

theorem Follows.mono (h : Follows few rest) (hsub : few ⊆ many) : Follows many rest :=
  fun c hc => hsub (h c hc)

theorem TakesOff.mono {text : List Char} {value : α} (h : TakesOff read many text value)
    (hsub : few ⊆ many) : TakesOff read few text value :=
  fun rest hrest => h rest (hrest.mono hsub)

/-- Text that does not begin with a follower does not follow. -/
theorem Follows.dropPrefix?_eq_none (h : Follows followers rest) (hc : c ∉ followers)
    (more : List Char) : rest.dropPrefix? (c :: more) = none := by
  cases rest with
  | nil => rfl
  | cons d rest =>
    have hne : d ≠ c := by
      rintro rfl
      exact hc (follows_cons.1 h)
    simp [List.dropPrefix?, hne]

theorem dropPrefix?_append (text rest : List Char) : (text ++ rest).dropPrefix? text = some rest :=
  List.dropPrefix?_append_of_beq rest (beq_self_eq_true text)

/-! ## Rows -/

/-- Reads at least one item and at most `limit`, with a separator between neighbours. -/
def row (separator : List Char) (item : Reader α) : Nat → Reader (List α)
  | 0, _ => none
  | limit + 1, text => do
    let (first, rest) ← item text
    match rest.dropPrefix? separator with
    | none => return ([first], rest)
    | some behind =>
      let (others, rest) ← row separator item limit behind
      return (first :: others, rest)

/-- Reads at most `limit` items with commas between them, and the bracket that closes the row. -/
def listed (close : Char) (item : Reader α) (limit : Nat) : Reader (List α) := fun text => do
  let (items, rest) := (row [',', ' '] item limit text).getD ([], text)
  let rest ← rest.dropPrefix? [close]
  return (items, rest)

/-- A row is taken off if each of its items is, the separator being one more follower. -/
theorem takesOff_row (more : List Char) {written : ι → List Char} {value : ι → α} {items : List ι}
    {limit : Nat} (hne : items ≠ []) (hlimit : items.length ≤ limit) (hc : c ∉ followers)
    (hitems : ∀ item ∈ items, TakesOff read (c :: followers) (written item) (value item)) :
    TakesOff (row (c :: more) read limit) followers
      ((c :: more).intercalate (items.map written)) (items.map value) := by
  -- along the row: the last item is followed as the row is, any other one by the separator
  induction items generalizing limit with
  | nil => exact absurd rfl hne
  | cons item items ih =>
    intro rest hrest
    obtain ⟨limit, rfl⟩ := Nat.exists_eq_add_one_of_ne_zero (Nat.ne_zero_of_lt hlimit)
    have hitem := hitems item List.mem_cons_self
    have hothers : ∀ other ∈ items, TakesOff read (c :: followers) (written other) (value other) :=
      fun other hother => hitems other (List.mem_cons_of_mem item hother)
    by_cases hlast : items = []
    · subst hlast
      have hread := hitem rest (hrest.mono (List.subset_cons_self c followers))
      have hstop := hrest.dropPrefix?_eq_none hc more
      simp [row, hread, hstop]
    · have hmap : items.map written ≠ [] := fun h => hlast (List.map_eq_nil_iff.1 h)
      have hread := hitem ((c :: more) ++ ((c :: more).intercalate (items.map written) ++ rest))
        (follows_cons.2 List.mem_cons_self)
      have hbehind := ih hlast (Nat.le_of_succ_le_succ hlimit) hothers rest hrest
      rw [List.map_cons, List.intercalate_cons_of_ne_nil hmap, List.append_assoc, List.append_assoc,
        row, hread]
      simp only [Option.bind_eq_bind, Option.bind_some, dropPrefix?_append, hbehind]
      rfl

/-- A closed row is taken off whatever follows, if no item can be read from the closing bracket. -/
theorem listed_append {close : Char} {written : ι → List Char} {value : ι → α} {items : List ι}
    {limit : Nat} (hclose : close ≠ ',') (hlimit : items.length ≤ limit)
    (hempty : ∀ rest, read (close :: rest) = none)
    (hitems : ∀ item ∈ items, TakesOff read [',', close] (written item) (value item))
    (rest : List Char) :
    listed close read limit (List.intercalate [',', ' '] (items.map written) ++ close :: rest) =
      some (items.map value, rest) := by
  have hrow : (row [',', ' '] read limit
      (List.intercalate [',', ' '] (items.map written) ++ close :: rest)).getD
        ([], List.intercalate [',', ' '] (items.map written) ++ close :: rest) =
      (items.map value, close :: rest) := by
    by_cases hne : items = []
    · subst hne
      have hnone : row [',', ' '] read limit (close :: rest) = none := by
        cases limit with
        | zero => rfl
        | succ limit => simp [row, hempty]
      simp [hnone]
    · have hcomma : ',' ∉ [close] := fun h => hclose (List.mem_singleton.1 h).symm
      rw [takesOff_row [' '] hne hlimit hcomma hitems (close :: rest) (by simp)]
      rfl
  rw [listed, hrow]
  simp [List.dropPrefix?]

end Reader

end ScopedSignatures
