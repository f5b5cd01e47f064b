import Igloo.QueryEngine
import Mathlib.Data.List.Perm.Basic

/-!
# The types of placeholders

`ordered_param_types` walks over a hash set and a hash map and writes the type
of each placeholder into a vector.  Two ids can name the same number (`$1` and
`$01`); then the one visited last decides.  The result is the same for every
order exactly when ids with the same number have the same type.
-/

namespace Igloo

namespace DataFusionEngine

open Arrow RustText

/-- The value of a text of decimal digits. -/
def decimal (digits : List Char) : Option Nat :=
  if digits ≠ [] ∧ digits.all Char.isDigit then
    some (Nat.ofDigitChars 10 digits 0)
  else none

/-- The number that an id names: a `$` and decimal digits. -/
def numberOf (id : String) : Option Nat :=
  if id.toList.head? = some '$' then decimal id.toList.tail else none

/-- Ids as the tokenizer delivers them: alphanumeric text has no sign, and the
numbers fit in `usize`. -/
structure Tokenized (ids : List String) : Prop where
  unsigned : ∀ id ∈ ids, '+' ∉ id.toList
  bounded : ∀ id ∈ ids, ∀ number, numberOf id = some number → number < 2 ^ 64

theorem tokenized_iff {ids : List String} :
    Tokenized ids ↔ ∀ id ∈ ids, '+' ∉ id.toList ∧
      (numberOf id).all (fun number => number < 2 ^ 64) = true := by
  constructor
  · rintro ⟨unsigned, bounded⟩ id idMem
    refine ⟨unsigned id idMem, ?_⟩
    cases named : numberOf id with
    | none => rfl
    | some number => exact decide_eq_true (bounded id idMem number named)
  · intro fits
    refine ⟨fun id idMem => (fits id idMem).1, ?_⟩
    intro id idMem number named
    have small := (fits id idMem).2
    rw [named] at small
    exact of_decide_eq_true small

instance (ids : List String) : Decidable (Tokenized ids) :=
  decidable_of_iff _ tokenized_iff.symm

/-- All ids of a description. -/
def allIds (placeholderIds : List String)
    (paramTypes : List (String × Option DataType)) : List String :=
  placeholderIds ++ paramTypes.map Prod.fst

/-- The vector of types that a description stands for, in whatever order its
two collections are visited. -/
structure TypesEveryOrder (placeholderIds : List String)
    (paramTypes : List (String × Option DataType))
    (out : List (Option DataType)) : Prop where
  every_order : ∀ otherIds otherTypes, otherIds.Perm placeholderIds →
    otherTypes.Perm paramTypes → orderedParamTypes otherIds otherTypes = out
  le_length : ∀ id ∈ allIds placeholderIds paramTypes, ∀ number,
    numberOf id = some number → number ≤ out.length
  length_named : out.length = 0 ∨
    ∃ id ∈ allIds placeholderIds paramTypes, numberOf id = some out.length
  typed : ∀ id dataType index, (id, some dataType) ∈ paramTypes →
    numberOf id = some (index + 1) → out[index]? = some (some dataType)
  untyped : ∀ index < out.length, (∀ id dataType,
    (id, some dataType) ∈ paramTypes → numberOf id ≠ some (index + 1)) →
      out[index]? = some none
  numbers_only :
    orderedParamTypes (placeholderIds.filter fun id => (numberOf id).isSome)
      (paramTypes.filter fun entry => (numberOf entry.1).isSome) = out

/-- Ids that name the same number, from 1 on, have the same type. -/
def Consistent (paramTypes : List (String × Option DataType)) : Prop :=
  ∀ first ∈ paramTypes, ∀ second ∈ paramTypes, ∀ number, 0 < number →
    numberOf first.1 = some number → numberOf second.1 = some number →
      first.2 = second.2

/-- The largest number the ids name. -/
def largestNumber (ids : List String) : Nat :=
  (ids.filterMap placeholderIndex).foldl max 0

/-- One write of the loop. -/
def writeType (count : Nat) (out : List (Option DataType))
    (entry : String × Option DataType) : List (Option DataType) :=
  match placeholderIndex entry.1 with
  | some index =>
      if 1 ≤ index ∧ index ≤ count then out.set (index - 1) entry.2 else out
  | none => out

/-- The type that the last entry with a number gives it. -/
def lastType (paramTypes : List (String × Option DataType))
    (number : Nat) : Option DataType :=
  (paramTypes.reverse.find? fun entry =>
    placeholderIndex entry.1 = some number).bind Prod.snd

theorem parseUsize_eq_decimal {digits : List Char} (unsigned : '+' ∉ digits)
    (bounded : ∀ number, decimal digits = some number → number < 2 ^ 64) :
    parseUsize digits = decimal digits := by
  have noSign : parseUsize digits =
      if digits.isEmpty || !digits.all Char.isDigit then none
      else if Nat.ofDigitChars 10 digits 0 < 2 ^ 64 then
        some (Nat.ofDigitChars 10 digits 0)
      else none := by
    unfold parseUsize
    split
    · exact absurd List.mem_cons_self unsigned
    · rfl
  rw [noSign]
  unfold decimal at bounded ⊢
  by_cases isNumber : digits ≠ [] ∧ digits.all Char.isDigit
  · rw [if_pos isNumber] at bounded ⊢
    rw [if_neg (by simp [isNumber]), if_pos (bounded _ rfl)]
  · rw [if_neg isNumber, if_pos]
    by_cases empty : digits = []
    · simp [empty]
    · simp only [ne_eq, empty, not_false_eq_true, true_and] at isNumber
      simp [isNumber]

theorem placeholderIndex_eq {ids : List String} (tokenized : Tokenized ids)
    {id : String} (idMem : id ∈ ids) : placeholderIndex id = numberOf id := by
  have unsigned := tokenized.unsigned id idMem
  have bounded := tokenized.bounded id idMem
  unfold numberOf at bounded
  unfold placeholderIndex numberOf
  generalize id.toList = text at unsigned bounded
  split
  · rename_i digits
    rw [List.head?_cons, if_pos rfl, List.tail_cons] at bounded ⊢
    exact parseUsize_eq_decimal
      (fun sign => unsigned (List.mem_cons_of_mem _ sign)) bounded
  · rename_i noDollar
    rw [if_neg]
    intro isDollar
    obtain ⟨digits, rfl⟩ := List.head?_eq_some_iff.mp isDollar
    exact noDollar digits rfl

section Writing

variable {count : Nat} {paramTypes : List (String × Option DataType)}

theorem orderedParamTypes_eq (placeholderIds : List String)
    (paramTypes : List (String × Option DataType)) :
    orderedParamTypes placeholderIds paramTypes =
      paramTypes.foldl
        (writeType (largestNumber (allIds placeholderIds paramTypes)))
        (List.replicate (largestNumber (allIds placeholderIds paramTypes))
          none) :=
  rfl

theorem length_writeType (count : Nat) (out : List (Option DataType))
    (entry : String × Option DataType) :
    (writeType count out entry).length = out.length := by
  unfold writeType
  split
  · split
    · exact List.length_set
    · rfl
  · rfl

theorem length_foldl_writeType (count : Nat)
    (entries : List (String × Option DataType)) :
    (entries.foldl (writeType count) (List.replicate count none)).length =
      count := by
  refine List.foldlRecOn (motive := fun out : List (Option DataType) =>
    out.length = count) entries _ List.length_replicate ?_
  intro out lengthEq entry _
  rw [length_writeType, lengthEq]

@[simp]
theorem length_orderedParamTypes (placeholderIds : List String)
    (paramTypes : List (String × Option DataType)) :
    (orderedParamTypes placeholderIds paramTypes).length =
      largestNumber (allIds placeholderIds paramTypes) := by
  rw [orderedParamTypes_eq, length_foldl_writeType]

theorem lastType_concat (paramTypes : List (String × Option DataType))
    (entry : String × Option DataType) (number : Nat) :
    lastType (paramTypes ++ [entry]) number =
      if placeholderIndex entry.1 = some number then entry.2
      else lastType paramTypes number := by
  unfold lastType
  rw [List.reverse_concat, List.find?_cons]
  split
  · rename_i isNumber
    rw [if_pos (of_decide_eq_true isNumber)]
    rfl
  · rename_i isOther
    rw [if_neg (of_decide_eq_false isOther)]

/-- The last write of each number stays. -/
theorem getElem?_foldl_writeType {index : Nat} (small : index < count)
    (paramTypes : List (String × Option DataType)) :
    (paramTypes.foldl (writeType count) (List.replicate count none))[index]? =
      some (lastType paramTypes (index + 1)) := by
  induction paramTypes using List.reverseRecOn with
  | nil => simp [lastType, small]
  | append_singleton entries entry induction =>
      rw [List.foldl_append, List.foldl_cons, List.foldl_nil, lastType_concat,
        writeType]
      cases named : placeholderIndex entry.1 with
      | none => simp [induction]
      | some number =>
          dsimp only
          by_cases here : number = index + 1
          · subst here
            rw [if_pos ⟨by omega, by omega⟩, if_pos rfl, Nat.add_sub_cancel,
              List.getElem?_set_self (by rw [length_foldl_writeType]; exact small)]
          · rw [if_neg (fun same => here (Option.some.inj same))]
            split
            · rw [List.getElem?_set_ne (by omega), induction]
            · exact induction

theorem getElem?_orderedParamTypes {placeholderIds : List String}
    {paramTypes : List (String × Option DataType)} {index : Nat}
    (small : index < largestNumber (allIds placeholderIds paramTypes)) :
    (orderedParamTypes placeholderIds paramTypes)[index]? =
      some (lastType paramTypes (index + 1)) := by
  rw [orderedParamTypes_eq, getElem?_foldl_writeType small]

theorem lastType_eq_none {number : Nat}
    (unnamed : ∀ entry ∈ paramTypes, placeholderIndex entry.1 ≠ some number) :
    lastType paramTypes number = none := by
  have notFound : (paramTypes.reverse.find? fun entry =>
      placeholderIndex entry.1 = some number) = none := by
    rw [List.find?_eq_none]
    intro entry entryMem
    simpa using unnamed entry (List.mem_reverse.mp entryMem)
  rw [lastType, notFound]
  rfl

theorem exists_lastType {number : Nat} {entry : String × Option DataType}
    (entryMem : entry ∈ paramTypes)
    (named : placeholderIndex entry.1 = some number) :
    ∃ last ∈ paramTypes, placeholderIndex last.1 = some number ∧
      lastType paramTypes number = last.2 := by
  cases found : paramTypes.reverse.find? fun entry =>
      placeholderIndex entry.1 = some number with
  | none =>
      rw [List.find?_eq_none] at found
      exact absurd (decide_eq_true named)
        (found entry (List.mem_reverse.mpr entryMem))
  | some last =>
      refine ⟨last, List.mem_reverse.mp (List.mem_of_find?_eq_some found),
        by simpa using List.find?_some found, ?_⟩
      rw [lastType, found]
      rfl

end Writing

section Orders

theorem largestNumber_perm {first second : List String}
    (perm : first.Perm second) : largestNumber first = largestNumber second :=
  (perm.filterMap placeholderIndex).foldl_eq 0

/-- The fold is the greatest of zero and the numbers. -/
theorem largestNumber_spec (ids : List String) :
    largestNumber ids ∈ 0 :: ids.filterMap placeholderIndex ∧
      ∀ number ∈ 0 :: ids.filterMap placeholderIndex,
        number ≤ largestNumber ids :=
  List.max?_eq_some_iff.mp List.max?_cons'

theorem le_largestNumber {ids : List String} {id : String} {number : Nat}
    (idMem : id ∈ ids) (named : placeholderIndex id = some number) :
    number ≤ largestNumber ids :=
  (largestNumber_spec ids).2 number
    (List.mem_cons_of_mem _ (List.mem_filterMap.mpr ⟨id, idMem, named⟩))

theorem largestNumber_named (ids : List String) : largestNumber ids = 0 ∨
    ∃ id ∈ ids, placeholderIndex id = some (largestNumber ids) := by
  rcases List.mem_cons.mp (largestNumber_spec ids).1 with isZero | isNamed
  · exact Or.inl isZero
  · exact Or.inr (List.mem_filterMap.mp isNamed)

theorem largestNumber_filter {ids : List String} {named : String → Bool}
    (others : ∀ id ∈ ids, named id = false → placeholderIndex id = none) :
    largestNumber (ids.filter named) = largestNumber ids := by
  have same : (ids.filter named).filterMap placeholderIndex =
      ids.filterMap placeholderIndex := by
    rw [List.filterMap_filter]
    apply List.filterMap_congr
    intro id idMem
    cases isNamed : named id with
    | true => rfl
    | false => exact (others id idMem isNamed).symm
  rw [largestNumber, largestNumber, same]

/-- Entries that share an index share their type. -/
def SharedTypes (paramTypes : List (String × Option DataType)) : Prop :=
  ∀ first ∈ paramTypes, ∀ second ∈ paramTypes, ∀ number, 0 < number →
    placeholderIndex first.1 = some number →
      placeholderIndex second.1 = some number → first.2 = second.2

variable {placeholderIds : List String}
variable {paramTypes : List (String × Option DataType)}

variable (placeholderIds) in
theorem key_mem_allIds {entry : String × Option DataType}
    (entryMem : entry ∈ paramTypes) :
    entry.1 ∈ allIds placeholderIds paramTypes :=
  List.mem_append_right _ (List.mem_map_of_mem entryMem)

theorem lastType_eq_of_mem (shared : SharedTypes paramTypes)
    {entry : String × Option DataType} (entryMem : entry ∈ paramTypes)
    {number : Nat} (positive : 0 < number)
    (named : placeholderIndex entry.1 = some number) :
    lastType paramTypes number = entry.2 := by
  obtain ⟨last, lastMem, lastNamed, isLast⟩ := exists_lastType entryMem named
  rw [isLast]
  exact shared last lastMem entry entryMem number positive lastNamed named

theorem lastType_perm (shared : SharedTypes paramTypes)
    {otherTypes : List (String × Option DataType)}
    (perm : otherTypes.Perm paramTypes) {number : Nat}
    (positive : 0 < number) :
    lastType otherTypes number = lastType paramTypes number := by
  by_cases isNamed : ∃ entry ∈ otherTypes,
      placeholderIndex entry.1 = some number
  · obtain ⟨entry, entryMem, named⟩ := isNamed
    obtain ⟨last, lastMem, lastNamed, isLast⟩ := exists_lastType entryMem named
    rw [isLast, lastType_eq_of_mem shared (perm.mem_iff.mp lastMem) positive
      lastNamed]
  · have unnamed : ∀ entry ∈ otherTypes,
        placeholderIndex entry.1 ≠ some number :=
      fun entry entryMem named => isNamed ⟨entry, entryMem, named⟩
    rw [lastType_eq_none unnamed, lastType_eq_none
      fun entry entryMem => unnamed entry (perm.mem_iff.mpr entryMem)]

theorem orderedParamTypes_perm (shared : SharedTypes paramTypes)
    {otherIds : List String} {otherTypes : List (String × Option DataType)}
    (idsPerm : otherIds.Perm placeholderIds)
    (typesPerm : otherTypes.Perm paramTypes) :
    orderedParamTypes otherIds otherTypes =
      orderedParamTypes placeholderIds paramTypes := by
  have sameLargest : largestNumber (allIds otherIds otherTypes) =
      largestNumber (allIds placeholderIds paramTypes) :=
    largestNumber_perm (idsPerm.append (typesPerm.map Prod.fst))
  apply List.ext_getElem?
  intro index
  by_cases small : index < largestNumber (allIds placeholderIds paramTypes)
  · rw [getElem?_orderedParamTypes small,
      getElem?_orderedParamTypes (sameLargest ▸ small),
      lastType_perm shared typesPerm (Nat.succ_pos index)]
  · rw [List.getElem?_eq_none (by simp; omega),
      List.getElem?_eq_none (by simp; omega)]

variable (placeholderIds) in
theorem exists_order_getElem? {entry : String × Option DataType}
    (entryMem : entry ∈ paramTypes) {index : Nat}
    (named : placeholderIndex entry.1 = some (index + 1)) :
    ∃ otherTypes, otherTypes.Perm paramTypes ∧
      (orderedParamTypes placeholderIds otherTypes)[index]? =
        some entry.2 := by
  refine ⟨paramTypes.erase entry ++ [entry], ?_, ?_⟩
  · exact (List.perm_append_singleton entry _).trans
      (List.perm_cons_erase entryMem).symm
  · have idMem : entry.1 ∈ allIds placeholderIds
        (paramTypes.erase entry ++ [entry]) := by
      simp [allIds]
    rw [getElem?_orderedParamTypes (le_largestNumber idMem named),
      lastType_concat, if_pos named]

/-- Ids that are no numbers are passed over. -/
theorem orderedParamTypes_filter {named : String → Bool}
    (others : ∀ id ∈ allIds placeholderIds paramTypes, named id = false →
      placeholderIndex id = none) :
    orderedParamTypes (placeholderIds.filter named)
        (paramTypes.filter fun entry => named entry.1) =
      orderedParamTypes placeholderIds paramTypes := by
  have filtered : allIds (placeholderIds.filter named)
        (paramTypes.filter fun entry => named entry.1) =
      (allIds placeholderIds paramTypes).filter named := by
    rw [allIds, allIds, List.filter_append, List.filter_map]
    rfl
  rw [orderedParamTypes_eq, orderedParamTypes_eq, filtered,
    largestNumber_filter others, List.foldl_filter]
  apply List.foldl_ext
  intro out entry entryMem
  cases isNamed : named entry.1 with
  | true => rfl
  | false =>
      rw [writeType,
        others entry.1 (key_mem_allIds placeholderIds entryMem) isNamed]
      rfl

end Orders

section Typing

variable {placeholderIds : List String}
variable {paramTypes : List (String × Option DataType)}

theorem sharedTypes_iff_consistent
    (tokenized : Tokenized (allIds placeholderIds paramTypes)) :
    SharedTypes paramTypes ↔ Consistent paramTypes := by
  have sameNumber : ∀ entry ∈ paramTypes,
      placeholderIndex entry.1 = numberOf entry.1 :=
    fun entry entryMem =>
      placeholderIndex_eq tokenized (key_mem_allIds placeholderIds entryMem)
  constructor
  · intro shared first firstMem second secondMem number positive
    rw [← sameNumber first firstMem, ← sameNumber second secondMem]
    exact shared first firstMem second secondMem number positive
  · intro consistent first firstMem second secondMem number positive
    rw [sameNumber first firstMem, sameNumber second secondMem]
    exact consistent first firstMem second secondMem number positive

theorem typesEveryOrder_of_sharedTypes
    (tokenized : Tokenized (allIds placeholderIds paramTypes))
    (shared : SharedTypes paramTypes) :
    TypesEveryOrder placeholderIds paramTypes
      (orderedParamTypes placeholderIds paramTypes) where
  every_order := fun _ _ idsPerm typesPerm =>
    orderedParamTypes_perm shared idsPerm typesPerm
  le_length := by
    intro id idMem number named
    rw [length_orderedParamTypes]
    exact le_largestNumber idMem
      ((placeholderIndex_eq tokenized idMem).trans named)
  length_named := by
    rw [length_orderedParamTypes]
    rcases largestNumber_named (allIds placeholderIds paramTypes) with
      isZero | ⟨id, idMem, named⟩
    · exact Or.inl isZero
    · exact Or.inr ⟨id, idMem,
        (placeholderIndex_eq tokenized idMem).symm.trans named⟩
  typed := by
    intro id dataType index entryMem named
    have idMem := key_mem_allIds placeholderIds entryMem
    have indexed := (placeholderIndex_eq tokenized idMem).trans named
    rw [getElem?_orderedParamTypes (le_largestNumber idMem indexed),
      lastType_eq_of_mem shared entryMem (Nat.succ_pos index) indexed]
  untyped := by
    intro index small unknown
    rw [length_orderedParamTypes] at small
    rw [getElem?_orderedParamTypes small]
    by_cases isNamed : ∃ entry ∈ paramTypes,
        placeholderIndex entry.1 = some (index + 1)
    · obtain ⟨entry, entryMem, indexed⟩ := isNamed
      rw [lastType_eq_of_mem shared entryMem (Nat.succ_pos index) indexed]
      cases isType : entry.2 with
      | none => rfl
      | some dataType =>
          have named := (placeholderIndex_eq tokenized
            (key_mem_allIds placeholderIds entryMem)).symm.trans indexed
          exact absurd named
            (unknown entry.1 dataType (isType ▸ entryMem))
    · rw [lastType_eq_none fun entry entryMem indexed =>
        isNamed ⟨entry, entryMem, indexed⟩]
  numbers_only := by
    apply orderedParamTypes_filter
    intro id idMem noNumber
    rw [placeholderIndex_eq tokenized idMem]
    exact Option.not_isSome_iff_eq_none.mp (by simp [noNumber])

theorem sharedTypes_of_every_order {out : List (Option DataType)}
    (everyOrder : ∀ otherTypes, otherTypes.Perm paramTypes →
      orderedParamTypes placeholderIds otherTypes = out) :
    SharedTypes paramTypes := by
  have written : ∀ entry ∈ paramTypes, ∀ index,
      placeholderIndex entry.1 = some (index + 1) →
        out[index]? = some entry.2 := by
    intro entry entryMem index named
    obtain ⟨otherTypes, perm, isWritten⟩ :=
      exists_order_getElem? placeholderIds entryMem named
    rw [← everyOrder otherTypes perm]
    exact isWritten
  intro first firstMem second secondMem number positive firstNamed secondNamed
  obtain ⟨index, rfl⟩ := Nat.exists_eq_add_one.mpr positive
  have same := written first firstMem index firstNamed
  rw [written second secondMem index secondNamed] at same
  exact (Option.some.inj same).symm

end Typing

/-- The vector of types is one for every order of the two collections, and says
the type of every placeholder, exactly when ids that name the same number have
the same type. -/
theorem exists_typesEveryOrder_iff {placeholderIds : List String}
    {paramTypes : List (String × Option DataType)}
    (tokenized : Tokenized (allIds placeholderIds paramTypes)) :
    (∃ out, TypesEveryOrder placeholderIds paramTypes out) ↔
      Consistent paramTypes := by
  rw [← sharedTypes_iff_consistent tokenized]
  constructor
  · rintro ⟨out, types⟩
    exact sharedTypes_of_every_order fun otherTypes perm =>
      types.every_order placeholderIds otherTypes (List.Perm.refl _) perm
  · intro shared
    exact ⟨_, typesEveryOrder_of_sharedTypes tokenized shared⟩

/-- Two spellings of one number with one type. -/
theorem exists_typesEveryOrder_iff_sameType :
    (∃ out, TypesEveryOrder ["$1", "$01", "$3"]
        [("$1", some .int64), ("$01", some .int64)] out) ↔
      Consistent [("$1", some .int64), ("$01", some .int64)] :=
  exists_typesEveryOrder_iff (by decide +kernel)

/-- Two spellings of one number with two types. -/
theorem not_typesEveryOrder_twoTypes :
    Tokenized (allIds ["$1", "$01"]
      [("$1", some .int64), ("$01", some .utf8)]) ∧
    ¬ ∃ out, TypesEveryOrder ["$1", "$01"]
      [("$1", some .int64), ("$01", some .utf8)] out := by
  refine ⟨by decide +kernel, ?_⟩
  rintro ⟨out, types⟩
  have asListed := types.every_order _ _ (List.Perm.refl _) (List.Perm.refl _)
  have swapped := types.every_order _
    [("$01", some .utf8), ("$1", some .int64)] (List.Perm.refl _)
    (List.Perm.swap _ _ [])
  rw [← asListed] at swapped
  exact absurd swapped (by decide +kernel)

end DataFusionEngine

end Igloo
