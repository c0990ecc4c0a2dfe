import ScopedSignatures.Proofs.Text.TakenOff
import ScopedSignatures.Proofs.TypeExpr.Plain

/-!
# Reading types

A reader of types, for what they show. A type is a row of members with bars
between them; a member is a procedure or a closed type, and any number of question
marks may stand behind a closed type. What a name is the name of cannot be read, so
the reader takes every name for that of a class.

## Main definitions

* `TypeExpr.Reading.member`, `TypeExpr.Reading.whole` — the reader of a member and of a type
* `TypeExpr.written` — the text of a type as a list of characters

## Main results

* `TypeExpr.Reading.named_name`, `TypeExpr.Reading.named_generic` — names without and with
  arguments are taken off
-/

namespace ScopedSignatures.TypeExpr

/-- The text of a type, character by character. -/
def written (type : TypeExpr) : List Char := type.toString.toList

namespace Reading

variable {rest : List Char} {limit : Nat}

/-! ## The reader -/

/-- The characters of names. -/
def isNameChar (c : Char) : Bool := c.isAlphanum || c == '_' || c == ':'

/-- The base type that a word is the keyword of. -/
def keyword? (word : List Char) : Option BaseType :=
  [BaseType.any, .nil, .bool, .void, .bottom, .top, .selfType, .instanceType].find?
    fun type => type.keyword == String.ofList word

/-- The name that a word denotes. -/
def name? (word : List Char) : Option ModuleName :=
  (QualifiedName.parse (String.ofList word)).toOption

/-- Reads a keyword, a name with or without arguments, or the name of a singleton. -/
def named (args : Reader (List TypeExpr)) : Reader TypeExpr := fun text =>
  match text.dropWhile isNameChar with
  | '(' :: rest =>
    if text.takeWhile isNameChar = "singleton".toList then do
      let name ← name? (rest.takeWhile isNameChar)
      let rest ← (rest.dropWhile isNameChar).dropPrefix? [')']
      return (singleton name, rest)
    else none
  | '[' :: rest => do
    let name ← name? (text.takeWhile isNameChar)
    let (args, rest) ← args rest
    return (ofClass name args, rest)
  | rest =>
    match keyword? (text.takeWhile isNameChar) with
    | some type => return (base type, rest)
    | none => do
      let name ← name? (text.takeWhile isNameChar)
      return (ofClass name [], rest)

/-- Reads a type that ends in a name or in a bracket. -/
def closed (whole : Reader TypeExpr) (types : Char → Reader (List TypeExpr)) : Reader TypeExpr
  | '(' :: text => do
    let (inner, rest) ← whole text
    let rest ← rest.dropPrefix? [')', '?']
    return (optional inner, rest)
  | '[' :: text => do
    let (items, rest) ← types ']' text
    return (tuple items, rest)
  | text => named (types ']') text

/-- Takes off the question marks behind a type. -/
def marked : TypeExpr → Reader TypeExpr
  | type, '?' :: rest => marked (optional type) rest
  | type, rest => some (type, rest)

/-- The type with the given members. -/
def ofMembers : List TypeExpr → TypeExpr
  | [only] => only
  | members => union members

/-- Reads a type, given the reader of its members. -/
def wholeOf (member : Reader TypeExpr) (limit : Nat) : Reader TypeExpr := fun text => do
  let (members, rest) ← Reader.row [' ', '|', ' '] member limit text
  return (ofMembers members, rest)

/-- Reads a type that is no union. The limit bounds the depth of types and the length of rows. -/
def member : Nat → Reader TypeExpr
  | 0, _ => none
  | limit + 1, '^' :: '(' :: text => do
    let (params, rest) ← Reader.listed ')' (wholeOf (member limit) limit) limit text
    let rest ← rest.dropPrefix? [' ', '-', '>', ' ']
    let (result, rest) ← member limit rest
    return (proc params result, rest)
  | limit + 1, text => do
    let (type, rest) ← closed (wholeOf (member limit) limit)
      (fun close => Reader.listed close (wholeOf (member limit) limit) limit) text
    marked type rest

/-- Reads a type. -/
def whole (limit : Nat) : Reader TypeExpr := wholeOf (member limit) limit

theorem ofMembers_of_two_le {members : List TypeExpr} (h : 2 ≤ members.length) :
    ofMembers members = union members := by
  match members with
  | _ :: _ :: _ => rfl

/-! ## What may follow -/

/-- What may stand behind a type: nothing, a comma or a closing bracket. -/
def afterWhole : List Char := [',', ')', ']']

/-- What may stand behind a member: what may stand behind a type, or a bar. -/
def afterMember : List Char := ' ' :: afterWhole

/-- What may stand behind a closed type: what may stand behind a member, or a question mark. -/
def afterClosed : List Char := '?' :: afterMember

theorem isNameChar_of_mem_afterClosed {c : Char} (h : c ∈ afterClosed) : isNameChar c = false := by
  have hall : (afterClosed.all fun c => !isNameChar c) = true := by decide
  simpa using List.all_eq_true.1 hall c h

/-- Where no question mark follows, none is taken off. -/
theorem marked_of_follows {type : TypeExpr} (h : Reader.Follows afterMember rest) :
    marked type rest = some (type, rest) := by
  rw [marked]
  rintro behind rfl
  exact absurd (Reader.follows_cons.1 h) (by decide)

/-! ## Names -/

theorem keyword?_keyword (type : BaseType) : keyword? type.keyword.toList = some type := by
  cases type <;> decide

theorem reserved_iff {text : String} : Reserved text ↔ (keyword? text.toList).isSome = true := by
  constructor
  · rintro ⟨type, rfl⟩
    rw [keyword?_keyword]
    rfl
  · intro h
    obtain ⟨type, htype⟩ := Option.isSome_iff_exists.1 h
    rw [keyword?, String.ofList_toList] at htype
    have hkeyword := List.find?_some htype
    exact ⟨type, (eq_of_beq hkeyword).symm⟩

instance (text : String) : Decidable (Reserved text) := decidable_of_iff' _ reserved_iff

theorem keyword?_eq_none {text : String} (h : ¬ Reserved text) : keyword? text.toList = none := by
  rwa [reserved_iff, Option.not_isSome_iff_eq_none] at h

theorem all_keyword (type : BaseType) : type.keyword.toList.all isNameChar = true := by
  cases type <;> decide

theorem all_of_isWord {symbol : Symbol} (h : Symbol.IsWord symbol) :
    symbol.toList.all isNameChar = true := by
  rw [List.all_eq_true]
  intro c hc
  rcases h.2 c hc with halnum | rfl
  · rw [isNameChar, halnum, Bool.true_or, Bool.true_or]
  · rfl

/-- A plain name is made of words and separators. -/
theorem all_toString {name : ModuleName} (h : name.Plain) :
    name.toString.toList.all isNameChar = true := by
  have hanchor : name.qualifier.anchor.text.toList.all isNameChar = true := by
    cases name.qualifier.anchor <;> decide
  have hsegments : ((name.qualifier.segments.map String.toList).flatMap
      (· ++ Separator.text.toList)).all isNameChar = true := by
    rw [List.all_flatMap, List.all_map, List.all_eq_true]
    intro segment hsegment
    have hseparator : Separator.text.toList.all isNameChar = true := by decide
    simp [all_of_isWord (h.1 segment hsegment), hseparator]
  rw [QualifiedName.toList_toString, Separator.joined_append_singleton, List.all_append,
    List.all_append, hanchor, hsegments, all_of_isWord h.2]
  rfl

theorem name?_toString {name : ModuleName} (h : name.Plain) :
    name? name.toString.toList = some name := by
  rw [name?, String.ofList_toList, QualifiedName.parse_eq_ok_iff.2 ⟨h.wellFormed, Or.inl rfl⟩]
  rfl

/-- The characters of names in front of anything else are those that a name begins with. -/
theorem span_append {word : List Char} (hword : word.all isNameChar = true)
    (hrest : ∀ c ∈ rest.head?, isNameChar c = false) :
    (word ++ rest).takeWhile isNameChar = word ∧ (word ++ rest).dropWhile isNameChar = rest := by
  rw [List.takeWhile_append_of_pos (List.all_eq_true.1 hword),
    List.dropWhile_append_of_pos (List.all_eq_true.1 hword)]
  cases rest with
  | nil => exact ⟨List.append_nil word, rfl⟩
  | cons c rest =>
    have hc : isNameChar c = false := hrest c rfl
    simp [hc]

theorem span_of_follows {word : List Char} (hword : word.all isNameChar = true)
    (hrest : Reader.Follows afterClosed rest) :
    (word ++ rest).takeWhile isNameChar = word ∧ (word ++ rest).dropWhile isNameChar = rest :=
  span_append hword fun c hc => isNameChar_of_mem_afterClosed (hrest c hc)

section Named

variable {args : Reader (List TypeExpr)} {name : ModuleName}

/-- A word that no bracket follows is a keyword or a name without arguments. -/
theorem named_of_follows {word : List Char} (hword : word.all isNameChar = true)
    (hrest : Reader.Follows afterClosed rest) :
    named args (word ++ rest) =
      match keyword? word with
      | some type => some (base type, rest)
      | none => (name? word).map fun name => (ofClass name [], rest) := by
  obtain ⟨htake, hdrop⟩ := span_of_follows hword hrest
  rw [named, htake, hdrop]
  split
  · exact absurd (Reader.follows_cons.1 hrest) (by decide)
  · exact absurd (Reader.follows_cons.1 hrest) (by decide)
  · cases keyword? word with
    | some type => rfl
    | none => cases name? word <;> rfl

theorem named_keyword (type : BaseType) (hrest : Reader.Follows afterClosed rest) :
    named args (type.keyword.toList ++ rest) = some (base type, rest) := by
  rw [named_of_follows (all_keyword type) hrest, keyword?_keyword]

theorem named_name (hname : name.Plain) (hfree : ¬ Reserved name.toString)
    (hrest : Reader.Follows afterClosed rest) :
    named args (name.toString.toList ++ rest) = some (ofClass name [], rest) := by
  rw [named_of_follows (all_toString hname) hrest, keyword?_eq_none hfree]
  simp only [name?_toString hname, Option.map_some]

theorem named_generic {types : List TypeExpr} {text : List Char} (hname : name.Plain)
    (hargs : args text = some (types, rest)) :
    named args (name.toString.toList ++ '[' :: text) = some (ofClass name types, rest) := by
  have hbracket : ∀ c ∈ ('[' :: text).head?, isNameChar c = false := by simp [isNameChar]
  obtain ⟨htake, hdrop⟩ := span_append (all_toString hname) hbracket
  rw [named, htake, hdrop]
  simp [name?_toString hname, hargs]

theorem named_singleton (hname : name.Plain) (rest : List Char) :
    named args ("singleton".toList ++ '(' :: (name.toString.toList ++ ')' :: rest)) =
      some (singleton name, rest) := by
  have hword : "singleton".toList.all isNameChar = true := by decide
  have hopen : ∀ c ∈ ('(' :: (name.toString.toList ++ ')' :: rest)).head?,
      isNameChar c = false := by
    simp [isNameChar]
  have hclose : ∀ c ∈ (')' :: rest).head?, isNameChar c = false := by simp [isNameChar]
  obtain ⟨htake, hdrop⟩ := span_append hword hopen
  obtain ⟨htake', hdrop'⟩ := span_append (all_toString hname) hclose
  rw [named, htake, hdrop]
  simp [htake', hdrop', name?_toString hname, List.dropPrefix?]

end Named

end Reading

end ScopedSignatures.TypeExpr
