import Mathlib.Data.List.ReduceOption

/-!
# Greedy choices

Every item of a list names some options, the preferred one first.  The items
are visited in order and each gets its first option that is not taken yet,
either from the beginning or by an earlier item; an item all of whose options
are taken gets none.

Besides the rule itself this file has what follows from it: the options chosen
are distinct and were free, the items at the front of a longer list choose as
they do alone, and the choices are described item by item through the choices
of the earlier items.
-/

namespace Igloo

namespace GreedyChoices

variable {Item Name : Type*} [DecidableEq Name]

/-- What the items choose, one after the other. -/
def choices (options : Item → List Name) :
    List Name → List Item → List (Option Name)
  | _, [] => []
  | used, item :: items =>
      match (options item).find? fun name => name ∉ used with
      | some chosen => some chosen :: choices options (chosen :: used) items
      | none => none :: choices options used items

/-- The names used once the items have chosen. -/
def usedAfter (options : Item → List Name) (used : List Name)
    (items : List Item) : List Name :=
  (choices options used items).reduceOption.reverse ++ used

theorem mem_usedAfter {options : Item → List Name} {used : List Name}
    {items : List Item} {name : Name} :
    name ∈ usedAfter options used items ↔
      name ∈ used ∨ some name ∈ choices options used items := by
  simp only [usedAfter, List.mem_append, List.mem_reverse,
    List.reduceOption_mem_iff]
  exact or_comm

@[simp]
theorem usedAfter_nil (options : Item → List Name) (used : List Name) :
    usedAfter options used [] = used :=
  rfl

theorem choices_cons_of_some {options : Item → List Name} {used : List Name}
    {item : Item} {chosen : Name}
    (found : (options item).find? (fun name => name ∉ used) = some chosen)
    (items : List Item) :
    choices options used (item :: items) =
      some chosen :: choices options (chosen :: used) items := by
  simp only [choices, found]

theorem choices_cons_of_none {options : Item → List Name} {used : List Name}
    {item : Item}
    (allTaken : (options item).find? (fun name => name ∉ used) = none)
    (items : List Item) :
    choices options used (item :: items) =
      none :: choices options used items := by
  simp only [choices, allTaken]

theorem usedAfter_cons_of_some {options : Item → List Name} {used : List Name}
    {item : Item} {chosen : Name}
    (found : (options item).find? (fun name => name ∉ used) = some chosen)
    (items : List Item) :
    usedAfter options used (item :: items) =
      usedAfter options (chosen :: used) items := by
  simp [usedAfter, choices_cons_of_some found]

theorem usedAfter_cons_of_none {options : Item → List Name} {used : List Name}
    {item : Item}
    (allTaken : (options item).find? (fun name => name ∉ used) = none)
    (items : List Item) :
    usedAfter options used (item :: items) = usedAfter options used items := by
  simp [usedAfter, choices_cons_of_none allTaken]

@[simp]
theorem length_choices (options : Item → List Name) (used : List Name)
    (items : List Item) :
    (choices options used items).length = items.length := by
  induction items generalizing used with
  | nil => rfl
  | cons item items induction =>
      cases found : (options item).find? fun name => name ∉ used with
      | some chosen => simp [choices_cons_of_some found, induction]
      | none => simp [choices_cons_of_none found, induction]

/-- The items at the front choose as they do alone, and the others find the
names of the front used. -/
theorem choices_append (options : Item → List Name) (used : List Name)
    (items further : List Item) :
    choices options used (items ++ further) =
      choices options used items ++
        choices options (usedAfter options used items) further := by
  induction items generalizing used with
  | nil => rfl
  | cons item items induction =>
      cases found : (options item).find? fun name => name ∉ used with
      | some chosen =>
          rw [List.cons_append, choices_cons_of_some found,
            choices_cons_of_some found, usedAfter_cons_of_some found,
            induction, List.cons_append]
      | none =>
          rw [List.cons_append, choices_cons_of_none found,
            choices_cons_of_none found, usedAfter_cons_of_none found,
            induction, List.cons_append]

theorem not_mem_used_of_mem_choices {options : Item → List Name}
    {used : List Name} {items : List Item} {name : Name}
    (mem : some name ∈ choices options used items) : name ∉ used := by
  induction items generalizing used with
  | nil => simp [choices] at mem
  | cons item items induction =>
      cases found : (options item).find? fun name => name ∉ used with
      | some chosen =>
          have free : chosen ∉ used := by simpa using List.find?_some found
          rw [choices_cons_of_some found, List.mem_cons] at mem
          rcases mem with first | later
          · rwa [Option.some.inj first]
          · exact fun used => induction later (List.mem_cons_of_mem _ used)
      | none =>
          rw [choices_cons_of_none found, List.mem_cons] at mem
          rcases mem with first | later
          · cases first
          · exact induction later

theorem mem_options_of_mem_zip {options : Item → List Name}
    {used : List Name} {items : List Item} {item : Item} {name : Name}
    (mem : (item, some name) ∈ items.zip (choices options used items)) :
    name ∈ options item := by
  induction items generalizing used with
  | nil => simp at mem
  | cons first items induction =>
      cases found : (options first).find? fun name => name ∉ used with
      | some chosen =>
          rw [choices_cons_of_some found, List.zip_cons_cons,
            List.mem_cons] at mem
          rcases mem with here | later
          · cases here
            exact List.mem_of_find?_eq_some found
          · exact induction later
      | none =>
          rw [choices_cons_of_none found, List.zip_cons_cons,
            List.mem_cons] at mem
          rcases mem with here | later
          · cases here
          · exact induction later

theorem nodup_choices (options : Item → List Name) (used : List Name)
    (items : List Item) :
    (choices options used items).reduceOption.Nodup := by
  induction items generalizing used with
  | nil => exact List.nodup_nil
  | cons item items induction =>
      cases found : (options item).find? fun name => name ∉ used with
      | some chosen =>
          rw [choices_cons_of_some found, List.reduceOption_cons_of_some,
            List.nodup_cons, List.reduceOption_mem_iff]
          refine ⟨fun again => ?_, induction _⟩
          exact not_mem_used_of_mem_choices again List.mem_cons_self
      | none =>
          rw [choices_cons_of_none found, List.reduceOption_cons_of_none]
          exact induction _

/-- The choice of the item in the middle is its first option that the items
before it left free. -/
theorem getElem?_choices {options : Item → List Name} {used : List Name}
    {items : List Item} {index : Nat} {item : Item}
    (isItem : items[index]? = some item) :
    (choices options used items)[index]? =
      some ((options item).find? fun name =>
        name ∉ usedAfter options used (items.take index)) := by
  obtain ⟨inBounds, rfl⟩ := List.getElem?_eq_some_iff.mp isItem
  have split : items =
      items.take index ++ items[index] :: items.drop (index + 1) := by
    rw [List.getElem_cons_drop, List.take_append_drop]
  have lengthTake : (items.take index).length = index :=
    List.length_take_of_le (Nat.le_of_lt inBounds)
  conv_lhs => rw [split, choices_append]
  have lengthChoices :
      (choices options used (items.take index)).length = index := by
    rw [length_choices, lengthTake]
  rw [List.getElem?_append_right (Nat.le_of_eq lengthChoices),
    length_choices, lengthTake, Nat.sub_self]
  cases found : (options items[index]).find? fun name =>
      name ∉ usedAfter options used (items.take index) with
  | some chosen => rw [choices_cons_of_some found]; rfl
  | none => rw [choices_cons_of_none found]; rfl

theorem take_choices (options : Item → List Name) (used : List Name)
    (items : List Item) (count : Nat) :
    (choices options used items).take count =
      choices options used (items.take count) := by
  by_cases short : items.length ≤ count
  · rw [List.take_of_length_le short,
      List.take_of_length_le (by rw [length_choices]; exact short)]
  · have split := choices_append options used (items.take count)
      (items.drop count)
    rw [List.take_append_drop] at split
    have lengthChoices :
        (choices options used (items.take count)).length = count := by
      rw [length_choices, List.length_take_of_le (by omega)]
    rw [split, List.take_append_of_le_length (Nat.le_of_eq lengthChoices.symm),
      List.take_of_length_le (Nat.le_of_eq lengthChoices)]

/-- A name is taken for an item when it was from the beginning or an earlier
item chose it. -/
def Taken (used : List Name) (earlier : List (Option Name))
    (name : Name) : Prop :=
  name ∈ used ∨ some name ∈ earlier

/-- The outcomes of the items are greedy: an item has a name exactly when the
name is the first of its options that is not taken, and none exactly when all
of them are. -/
structure IsGreedy (options : Item → List Name) (used : List Name)
    (items : List Item) (outcomes : List (Option Name)) : Prop where
  length_eq : outcomes.length = items.length
  chosen_iff : ∀ index item name, items[index]? = some item →
    (outcomes[index]? = some (some name) ↔
      ∃ preferred others, options item = preferred ++ name :: others ∧
        (∀ other ∈ preferred, Taken used (outcomes.take index) other) ∧
          ¬ Taken used (outcomes.take index) name)
  leftOut_iff : ∀ index item, items[index]? = some item →
    (outcomes[index]? = some none ↔
      ∀ name ∈ options item, Taken used (outcomes.take index) name)

theorem isGreedy_choices (options : Item → List Name) (used : List Name)
    (items : List Item) :
    IsGreedy options used items (choices options used items) where
  length_eq := length_choices options used items
  chosen_iff := by
    intro index item name isItem
    rw [getElem?_choices isItem, Option.some.injEq,
      List.find?_eq_some_iff_append]
    simp only [Taken, take_choices, decide_eq_true_eq, mem_usedAfter,
      Bool.not_eq_true', decide_eq_false_iff_not, not_not]
    constructor
    · rintro ⟨free, preferred, others, isSplit, taken⟩
      exact ⟨preferred, others, isSplit, taken, free⟩
    · rintro ⟨preferred, others, isSplit, taken, free⟩
      exact ⟨free, preferred, others, isSplit, taken⟩
  leftOut_iff := by
    intro index item isItem
    rw [getElem?_choices isItem, Option.some.injEq, List.find?_eq_none]
    simp only [Taken, take_choices, decide_eq_true_eq, mem_usedAfter, not_not]

end GreedyChoices

end Igloo
