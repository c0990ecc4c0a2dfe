import ScopedSignatures.Proofs.TypeExpr.Reading

/-!
# Reading types back

The reader gives back what is shown of a plain type. By induction on the type, it
takes the text of a part off, provided that what follows could not go on with that
part. What that is depends on the part: nothing can go on with a whole type, a bar
goes on with a member, and a question mark with a closed type. So the induction
carries one statement for each of the three.

## Main definitions

* `TypeExpr.Reading.ReadsBack` — the text of a type is taken off as a whole, as a member and as
  a closed type

## Main results

* `TypeExpr.Reading.readsBack` — plain types are read back
* `TypeExpr.text_shows_type` — plain types of one text differ in what their names stand for at most
-/

namespace ScopedSignatures.TypeExpr

/-! ## Texts of rows -/

theorem map_toList_texts (types : List TypeExpr) :
    (texts types).map String.toList = types.map written := by
  rw [texts_eq_map, List.map_map]
  rfl

theorem toList_bracketed_texts (types : List TypeExpr) :
    (bracketed (texts types)).toList =
      '[' :: (List.intercalate [',', ' '] (types.map written) ++ [']']) := by
  simp [bracketed, map_toList_texts]

theorem toList_argumentText_texts {types : List TypeExpr} (h : types ≠ []) :
    (argumentText (texts types)).toList =
      '[' :: (List.intercalate [',', ' '] (types.map written) ++ [']']) := by
  rw [← toList_bracketed_texts, argumentText, texts_eq_map, if_neg]
  simpa using h

/-! ## Sizes -/

theorem sizeOf_pos (type : TypeExpr) : 0 < sizeOf type := by
  cases type <;> simp +arith

theorem length_le_sizeOf (types : List TypeExpr) : types.length ≤ sizeOf types := by
  induction types with
  | nil => simp
  | cons type types ih =>
    rw [List.length_cons, List.cons.sizeOf_spec]
    have := sizeOf_pos type
    omega

/-- A limit that is enough for a type is not zero. -/
theorem of_limit_succ {type : TypeExpr} {P : Nat → Prop}
    (h : ∀ limit, sizeOf type ≤ limit + 1 → P (limit + 1)) (limit : Nat)
    (hlimit : sizeOf type ≤ limit) : P limit := by
  cases limit with
  | zero => exact absurd (sizeOf_pos type) (Nat.not_lt.2 hlimit)
  | succ limit => exact h limit hlimit

namespace Reading

open Reader (Follows TakesOff listed)

variable {type inner result : TypeExpr} {types : List TypeExpr} {text rest : List Char}
  {limit : Nat} {close : Char}

/-! ## Where the reader goes -/

/-- A member that does not begin with a caret is a closed type with its question marks. -/
theorem member_succ (h : ∀ behind, text ≠ '^' :: behind) :
    member (limit + 1) text =
      (closed (whole limit) (fun close => listed close (whole limit) limit) text).bind
        fun found => marked found.1 found.2 := by
  rw [member]
  · rfl
  · exact fun behind htext => h _ htext

/-- What begins with a character of names is a keyword, a name or a singleton. -/
theorem member_succ_word {word : List Char} (hne : word ≠ [])
    (hword : word.all isNameChar = true) :
    member (limit + 1) (word ++ rest) =
      (named (listed ']' (whole limit) limit) (word ++ rest)).bind
        fun found => marked found.1 found.2 := by
  obtain ⟨c, word, rfl⟩ := List.exists_cons_of_ne_nil hne
  have hc := List.all_eq_true.1 hword c List.mem_cons_self
  have hother : ∀ d, isNameChar d = false → ∀ behind, c :: word ++ rest ≠ d :: behind := by
    rintro d hd behind htext
    rw [(List.cons.inj htext).1, hd] at hc
    cases hc
  rw [member_succ (hother '^' (by decide)), closed]
  · exact hother '(' (by decide)
  · exact hother '[' (by decide)

/-- No member begins with a closing bracket: no name does, and no type has another bracket there. -/
theorem member_close (hclose : close = ')' ∨ close = ']') (rest : List Char) :
    member limit (close :: rest) = none := by
  cases limit with
  | zero => rfl
  | succ limit =>
    have hfollows : Follows afterClosed (close :: rest) := by
      rcases hclose with rfl | rfl <;> exact Reader.follows_cons.2 (by decide)
    have hnamed : named (listed ']' (whole limit) limit) ([] ++ close :: rest) = none := by
      rw [named_of_follows rfl hfollows]
      rfl
    have hclosed : closed (whole limit) (fun close => listed close (whole limit) limit)
        (close :: rest) = none := by
      rcases hclose with rfl | rfl <;> exact hnamed
    rw [member_succ (by rcases hclose with rfl | rfl <;> simp), hclosed]
    rfl

theorem whole_close (hclose : close = ')' ∨ close = ']') (rest : List Char) :
    whole limit (close :: rest) = none := by
  cases limit with
  | zero => rfl
  | succ limit => simp [whole, wholeOf, Reader.row, member_close hclose]

/-! ## Types that are read back -/

/-- With a limit of at least its size, the reader gives back what is shown of the type. -/
structure ReadsBack (type : TypeExpr) : Prop where
  whole : ∀ limit, sizeOf type ≤ limit →
    TakesOff (whole limit) afterWhole type.written type.shown
  member : type.isUnion = false → ∀ limit, sizeOf type ≤ limit →
    TakesOff (member limit) afterMember type.written type.shown
  closed : type.isOpen = false → ∀ limit, sizeOf type ≤ limit → ∀ rest, Follows afterClosed rest →
    Reading.member limit (type.written ++ rest) = marked type.shown rest

/-- A type that is taken off as a member is taken off as a whole: no bar follows. -/
theorem takesOff_whole (hlimit : sizeOf type ≤ limit)
    (h : TakesOff (member limit) afterMember type.written type.shown) :
    TakesOff (whole limit) afterWhole type.written type.shown := by
  have hitems : ∀ item ∈ [type], TakesOff (member limit) afterMember item.written item.shown := by
    intro item hitem
    rwa [List.mem_singleton.1 hitem]
  have hlength : [type].length ≤ limit := Nat.le_trans (sizeOf_pos type) hlimit
  intro rest hrest
  have hrow := Reader.takesOff_row ['|', ' '] (List.cons_ne_nil type []) hlength (by decide) hitems
    rest hrest
  rw [List.map_singleton, List.map_singleton, List.intercalate_singleton] at hrow
  rw [whole, wholeOf, hrow]
  rfl

theorem ReadsBack.of_member (hopen : type.isOpen = true)
    (h : ∀ limit, sizeOf type ≤ limit + 1 →
      TakesOff (Reading.member (limit + 1)) afterMember type.written type.shown) :
    ReadsBack type := by
  have hmember : ∀ limit, sizeOf type ≤ limit →
      TakesOff (Reading.member limit) afterMember type.written type.shown := of_limit_succ h
  refine ⟨fun limit hlimit => takesOff_whole hlimit (hmember limit hlimit), fun _ => hmember,
    fun hclosed => ?_⟩
  rw [hopen] at hclosed
  cases hclosed

/-- A closed type is a member: no question mark follows. -/
theorem ReadsBack.of_closed
    (h : ∀ limit, sizeOf type ≤ limit + 1 → ∀ rest, Follows afterClosed rest →
      Reading.member (limit + 1) (type.written ++ rest) = marked type.shown rest) :
    ReadsBack type := by
  have hclosed : ∀ limit, sizeOf type ≤ limit → ∀ rest, Follows afterClosed rest →
      Reading.member limit (type.written ++ rest) = marked type.shown rest := of_limit_succ h
  have hmember : ∀ limit, sizeOf type ≤ limit →
      TakesOff (Reading.member limit) afterMember type.written type.shown := by
    intro limit hlimit rest hrest
    rw [hclosed limit hlimit rest (hrest.mono (List.subset_cons_self _ _)),
      marked_of_follows hrest]
  exact ⟨fun limit hlimit => takesOff_whole hlimit (hmember limit hlimit), fun _ => hmember,
    fun _ => hclosed⟩

/-- Rows of types up to a closing bracket. -/
theorem listed_types (htypes : ∀ type ∈ types, ReadsBack type) (hlimit : sizeOf types ≤ limit)
    (hclose : close = ')' ∨ close = ']') (rest : List Char) :
    listed close (whole limit) limit
        (List.intercalate [',', ' '] (types.map written) ++ close :: rest) =
      some (types.map shown, rest) := by
  have hsub : [',', close] ⊆ afterWhole := by
    rcases hclose with rfl | rfl <;> decide
  have hcomma : close ≠ ',' := by
    rcases hclose with rfl | rfl <;> decide
  refine Reader.listed_append hcomma (Nat.le_trans (length_le_sizeOf types) hlimit)
    (whole_close hclose) (fun type htype => ?_) rest
  have hsize := List.sizeOf_lt_of_mem htype
  exact ((htypes type htype).whole limit (by omega)).mono hsub

/-- Types that are written as a name with arguments, or as a name alone. -/
theorem readsBack_named {name : ModuleName} {args : List TypeExpr} (hname : name.Plain)
    (hfree : ¬ Reserved name.toString) (hargs : ∀ arg ∈ args, ReadsBack arg)
    (hsize : args ≠ [] → sizeOf args < sizeOf type)
    (hwritten : type.written = name.toString.toList ++ (argumentText (texts args)).toList)
    (hshown : type.shown = ofClass name (args.map shown)) : ReadsBack type := by
  have hword := all_toString hname
  have hne : name.toString.toList ≠ [] := by
    rw [QualifiedName.toList_toString, Separator.joined_append_singleton]
    simp [hname.2.1]
  refine .of_closed fun limit hlimit rest hrest => ?_
  rw [hwritten, hshown, List.append_assoc, member_succ_word hne hword]
  by_cases hnone : args = []
  · subst hnone
    rw [show (argumentText (texts [])).toList = [] from rfl, List.nil_append,
      named_name hname hfree hrest]
    rfl
  · have hbehind := listed_types hargs (Nat.le_of_lt_succ (Nat.lt_of_lt_of_le (hsize hnone) hlimit))
      (Or.inr rfl) rest
    rw [toList_argumentText_texts hnone, List.cons_append, List.append_assoc,
      List.singleton_append, named_generic hname hbehind]
    rfl

/-- Types that are always written as a name alone. -/
theorem readsBack_name {name : ModuleName} (hname : name.Plain) (hfree : ¬ Reserved name.toString)
    (hwritten : type.written = name.toString.toList) (hshown : type.shown = ofClass name []) :
    ReadsBack type := by
  refine readsBack_named hname hfree (fun _ h => absurd h List.not_mem_nil) (absurd rfl) ?_ hshown
  rw [hwritten]
  exact (List.append_nil _).symm

theorem readsBack_base (base : BaseType) : ReadsBack (.base base) := by
  refine .of_closed fun limit _ rest hrest => ?_
  have hne : base.keyword.toList ≠ [] := by cases base <;> decide
  change member (limit + 1) (base.keyword.toList ++ rest) = _
  rw [member_succ_word hne (all_keyword base), named_keyword base hrest]
  rfl

theorem readsBack_singleton {name : ModuleName} (hname : name.Plain) :
    ReadsBack (.singleton name) := by
  refine .of_closed fun limit _ rest hrest => ?_
  have hwritten : (TypeExpr.singleton name).written ++ rest =
      "singleton".toList ++ '(' :: (name.toString.toList ++ ')' :: rest) := by
    simp [written, TypeExpr.toString]
  rw [hwritten, member_succ_word (by decide) (by decide), named_singleton hname]
  rfl

theorem readsBack_tuple (hitems : ∀ item ∈ types, ReadsBack item) : ReadsBack (.tuple types) := by
  refine .of_closed fun limit hlimit rest hrest => ?_
  have hsize : sizeOf types ≤ limit := by
    rw [tuple.sizeOf_spec] at hlimit
    omega
  have hbehind := listed_types hitems hsize (Or.inr rfl) rest
  rw [written, TypeExpr.toString, toList_bracketed_texts, List.cons_append, List.append_assoc,
    member_succ (by simp), closed]
  simp only [List.singleton_append, hbehind, Option.bind_eq_bind, Option.bind_some, shown,
    shownAll_eq_map]
  rfl

/-- A question mark behind a union or a procedure stands behind its parentheses. -/
theorem readsBack_optional (hinner : ReadsBack inner) : ReadsBack (.optional inner) := by
  refine .of_closed fun limit hlimit rest hrest => ?_
  rw [optional.sizeOf_spec] at hlimit
  cases hopen : inner.isOpen with
  | true =>
    have hwritten : (optional inner).written ++ rest =
        '(' :: (inner.written ++ ([')', '?'] ++ rest)) := by
      simp [written, TypeExpr.toString, hopen]
    have hread := hinner.whole limit (by omega) ([')', '?'] ++ rest)
      (Reader.follows_cons.2 (by decide))
    rw [hwritten, member_succ (by simp), closed, hread]
    simp only [Option.bind_eq_bind, Option.bind_some, Reader.dropPrefix?_append, shown]
    rfl
  | false =>
    have hwritten : (optional inner).written ++ rest = inner.written ++ '?' :: rest := by
      simp [written, TypeExpr.toString, hopen]
    rw [hwritten, hinner.closed hopen (limit + 1) (by omega) ('?' :: rest)
      (Reader.follows_cons.2 (by decide)), marked]
    rfl

theorem readsBack_proc (hparams : ∀ param ∈ types, ReadsBack param) (hresult : ReadsBack result)
    (hunion : result.isUnion = false) : ReadsBack (.proc types result) := by
  refine .of_member rfl fun limit hlimit rest hrest => ?_
  rw [proc.sizeOf_spec] at hlimit
  have hwritten : (proc types result).written ++ rest =
      '^' :: '(' :: (List.intercalate [',', ' '] (types.map written) ++
        ')' :: ([' ', '-', '>', ' '] ++ (result.written ++ rest))) := by
    simp [written, TypeExpr.toString, map_toList_texts]
  have hbehind := listed_types hparams (show sizeOf types ≤ limit by omega) (Or.inl rfl)
    ([' ', '-', '>', ' '] ++ (result.written ++ rest))
  have hread := hresult.member hunion limit (by omega) rest hrest
  rw [whole] at hbehind
  rw [hwritten, member, hbehind]
  simp only [Option.bind_eq_bind, Option.bind_some, Reader.dropPrefix?_append, hread, shown,
    shownAll_eq_map]
  rfl

theorem readsBack_union (hlength : 2 ≤ types.length)
    (hunion : ∀ member ∈ types, member.isUnion = false)
    (hmembers : ∀ member ∈ types, ReadsBack member) : ReadsBack (.union types) where
  whole limit hlimit := by
    rw [union.sizeOf_spec] at hlimit
    have hne : types ≠ [] := List.length_pos_iff.1 (Nat.lt_of_lt_of_le Nat.zero_lt_two hlength)
    have hitems : ∀ item ∈ types, TakesOff (member limit) afterMember item.written item.shown := by
      intro item hitem
      have hsize := List.sizeOf_lt_of_mem hitem
      exact (hmembers item hitem).member (hunion item hitem) limit (by omega)
    have hfits : types.length ≤ limit := by
      have := length_le_sizeOf types
      omega
    intro rest hrest
    have hrow := Reader.takesOff_row ['|', ' '] hne hfits (by decide) hitems rest hrest
    have hwritten : (union types).written =
        List.intercalate [' ', '|', ' '] (types.map written) := by
      simp [written, TypeExpr.toString, map_toList_texts]
    rw [hwritten, whole, wholeOf, hrow, shown, shownAll_eq_map]
    exact congrArg (fun found => some (found, rest)) (ofMembers_of_two_le (by simpa using hlength))
  member h := by cases h
  closed h := by cases h

/-- The reader gives back what is shown of a plain type. -/
theorem readsBack (h : type.Plain) : ReadsBack type := by
  induction h with
  | base base => exact readsBack_base base
  | @var name hword hfree =>
    have hplain : (Symbol.asModuleName name).Plain :=
      ⟨fun _ h => absurd h List.not_mem_nil, hword⟩
    rw [← Symbol.toString_asModuleName name] at hfree
    refine readsBack_name hplain hfree ?_ rfl
    rw [written, TypeExpr.toString, Symbol.toString_asModuleName]
  | @ofClass name args hname hfree _ ih =>
    refine readsBack_named hname hfree ih (fun _ => ?_) ?_ ?_
    · rw [ofClass.sizeOf_spec]
      omega
    · rw [written, TypeExpr.toString, String.toList_append]
    · rw [shown, shownAll_eq_map]
  | singleton hname => exact readsBack_singleton hname
  | @ofInterface name args hname hfree _ ih =>
    have hplain : name.asModuleName.Plain := hname
    rw [← QualifiedName.toString_asModuleName name] at hfree
    refine readsBack_named hplain hfree ih (fun _ => ?_) ?_ ?_
    · rw [ofInterface.sizeOf_spec]
      omega
    · rw [written, TypeExpr.toString, String.toList_append, QualifiedName.toString_asModuleName]
    · rw [shown, shownAll_eq_map]
  | @ofAlias name hname hfree =>
    have hplain : name.asModuleName.Plain := hname
    rw [← QualifiedName.toString_asModuleName name] at hfree
    exact readsBack_name hplain hfree rfl rfl
  | union hlength hunion _ _ ih => exact readsBack_union hlength hunion ih
  | optional _ ih => exact readsBack_optional ih
  | tuple _ ih => exact readsBack_tuple ih
  | proc _ _ hunion ihparams ihresult => exact readsBack_proc ihparams ihresult hunion

/-- With nothing behind it, the text of a plain type is taken off completely. -/
theorem whole_written (h : type.Plain) (hlimit : sizeOf type ≤ limit) :
    whole limit type.written = some (type.shown, []) := by
  have hread := (readsBack h).whole limit hlimit [] (Reader.follows_nil afterWhole)
  rwa [List.append_nil] at hread

example : whole 5 "A[B?] | nil".toList =
    some (union [ofClass ⟨.empty, "A"⟩ [optional (ofClass ⟨.empty, "B"⟩ [])], base .nil], []) := by
  decide

end Reading

/-- **The text shows the type.** Two plain types have one text exactly if they are the
same up to what their names stand for, a variable or an alias counting as a name
without arguments. -/
theorem text_shows_type {first second : TypeExpr} (hfirst : first.Plain)
    (hsecond : second.Plain) :
    first.toString = second.toString ↔ first.shown = second.shown := by
  constructor
  · intro htext
    -- one reader, with a limit that is enough for both, reads both from their common text
    have hread := Reading.whole_written hfirst (Nat.le_add_right _ (sizeOf second))
    have hread' := Reading.whole_written hsecond (Nat.le_add_left _ (sizeOf first))
    rw [written, htext, ← written, hread', Option.some.injEq, Prod.mk.injEq] at hread
    exact hread.1.symm
  · intro hshown
    rw [← toString_shown first, hshown, toString_shown]

/-- An alias and an interface of one name, in a union under a question mark. -/
theorem alias_looks_like_interface :
    (optional (union [ofAlias ⟨.empty, "a"⟩, proc [] (base .nil)])).toString = "(a | ^() -> nil)?" ∧
      (optional (union [ofInterface ⟨.empty, "a"⟩ [], proc [] (base .nil)])).toString =
        "(a | ^() -> nil)?" ∧
      (optional (union [ofAlias ⟨.empty, "a"⟩, proc [] (base .nil)])).shown =
        (optional (union [ofInterface ⟨.empty, "a"⟩ [], proc [] (base .nil)])).shown := by
  have hproc : (proc [] (base .nil)).Plain := .proc (by simp) (.base .nil) rfl
  have halias : (ofAlias ⟨.empty, "a"⟩).Plain := .ofAlias (by decide) (by decide)
  have hinterface : (ofInterface ⟨.empty, "a"⟩ []).Plain :=
    .ofInterface (by decide) (by decide) (by simp)
  have hfirst : (union [ofAlias ⟨.empty, "a"⟩, proc [] (base .nil)]).Plain :=
    .union (by decide) (by decide) (by decide) (by simp [hproc, halias])
  have hsecond : (union [ofInterface ⟨.empty, "a"⟩ [], proc [] (base .nil)]).Plain :=
    .union (by decide) (by decide) (by decide) (by simp [hproc, hinterface])
  exact ⟨rfl, rfl, (text_shows_type (.optional hfirst) (.optional hsecond)).1 rfl⟩

end ScopedSignatures.TypeExpr
