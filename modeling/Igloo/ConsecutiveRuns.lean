import Mathlib.Data.List.Induction
import Mathlib.Data.List.Nodup

/-!
# Grouping consecutive items

A list is cut into runs of items with one key by a loop that compares each item
only with the last run.  When the items of every key stand together, the runs
have distinct keys and each holds exactly the items of its key, in their order.
-/

namespace Igloo

namespace ConsecutiveRuns

variable {Item Key : Type*} [DecidableEq Key]

/-- The item joins the last run if it has the key of that run, and starts a run
of its own otherwise. -/
def addToRuns (key : Item → Key) (runs : List (Key × List Item))
    (item : Item) : List (Key × List Item) :=
  match runs.getLast? with
  | some last =>
      if last.1 = key item then
        runs.dropLast ++ [(last.1, last.2 ++ [item])]
      else runs ++ [(key item, [item])]
  | none => runs ++ [(key item, [item])]

/-- The runs of a list. -/
def runsOf (key : Item → Key) (items : List Item) : List (Key × List Item) :=
  items.foldl (addToRuns key) []

/-- The items of each key stand together: what stands between two of them has
their key too. -/
def Contiguous (key : Item → Key) (items : List Item) : Prop :=
  ∀ first between last, [first, between, last].Sublist items →
    key first = key last → key between = key first

/-- What the runs of a contiguous list are. -/
structure AreRuns (key : Item → Key) (items : List Item)
    (runs : List (Key × List Item)) : Prop where
  keys_nodup : (runs.map Prod.fst).Nodup
  mem_keys_iff : ∀ anyKey, anyKey ∈ runs.map Prod.fst ↔
    ∃ item ∈ items, key item = anyKey
  items_eq : ∀ run ∈ runs, run.2 = items.filter fun item => key item = run.1
  last_key : (runs.getLast?).map Prod.fst = (items.getLast?).map key

variable {key : Item → Key} {items : List Item}

omit [DecidableEq Key] in
theorem contiguous_of_concat {item : Item}
    (contiguous : Contiguous key (items ++ [item])) :
    Contiguous key items :=
  fun first between last sublist =>
    contiguous first between last (sublist.trans (List.sublist_append_left ..))

omit [DecidableEq Key] in
/-- In a contiguous list an item with a new key ends the run before it for
good. -/
theorem new_key_of_concat {last item : Item}
    (contiguous : Contiguous key (items ++ [item]))
    (isLast : items.getLast? = some last) (differs : key last ≠ key item) :
    ∀ other ∈ items, key other ≠ key item := by
  obtain ⟨front, rfl⟩ := List.getLast?_eq_some_iff.mp isLast
  intro other otherMem same
  rcases List.mem_append.mp otherMem with inFront | isEnd
  · have triple : [other, last, item].Sublist (front ++ [last] ++ [item]) := by
      rw [List.append_assoc]
      exact (List.singleton_sublist.mpr inFront).append
        (List.Sublist.refl [last, item])
    exact differs ((contiguous other last item triple same).trans same)
  · rw [List.mem_singleton.mp isEnd] at same
    exact differs same

theorem areRuns_nil : AreRuns key [] [] :=
  ⟨List.nodup_nil, by simp, by simp, rfl⟩

theorem areRuns_concat_new {runs : List (Key × List Item)} {item : Item}
    (areRuns : AreRuns key items runs)
    (isNew : ∀ other ∈ items, key other ≠ key item) :
    AreRuns key (items ++ [item]) (runs ++ [(key item, [item])]) where
  keys_nodup := by
    rw [List.map_append, List.nodup_append]
    refine ⟨areRuns.keys_nodup, List.nodup_singleton _, ?_⟩
    rintro anyKey anyMem other otherMem rfl
    obtain ⟨earlier, earlierMem, same⟩ := (areRuns.mem_keys_iff _).mp anyMem
    exact isNew earlier earlierMem
      (same.trans (List.mem_singleton.mp otherMem))
  mem_keys_iff := by
    intro anyKey
    rw [List.map_append, List.mem_append, areRuns.mem_keys_iff]
    simp only [List.map_cons, List.map_nil, List.mem_singleton,
      List.mem_append, or_and_right, exists_or, exists_eq_left]
    rw [eq_comm (a := anyKey)]
  items_eq := by
    intro run runMem
    rw [List.filter_append]
    rcases List.mem_append.mp runMem with before | isEnd
    · have present : run.1 ∈ runs.map Prod.fst := List.mem_map_of_mem before
      obtain ⟨earlier, earlierMem, same⟩ := (areRuns.mem_keys_iff _).mp present
      have other : key item ≠ run.1 := fun isKey =>
        isNew earlier earlierMem (same.trans isKey.symm)
      rw [areRuns.items_eq run before]
      simp [other]
    · rw [List.mem_singleton.mp isEnd]
      have nothing : items.filter (fun other => key other = key item) = [] := by
        simpa [List.filter_eq_nil_iff] using isNew
      simp [nothing]
  last_key := by simp

theorem areRuns_concat_same {front : List (Key × List Item)}
    {last : Key × List Item} {item : Item}
    (areRuns : AreRuns key items (front ++ [last]))
    (same : last.1 = key item) :
    AreRuns key (items ++ [item])
      (front ++ [(last.1, last.2 ++ [item])]) := by
  have sameKeys : (front ++ [(last.1, last.2 ++ [item])]).map Prod.fst =
      (front ++ [last]).map Prod.fst := by
    simp
  refine ⟨?_, ?_, ?_, ?_⟩
  · rw [sameKeys]
    exact areRuns.keys_nodup
  · intro anyKey
    rw [sameKeys, areRuns.mem_keys_iff]
    have lastMem : last.1 ∈ (front ++ [last]).map Prod.fst := by simp
    obtain ⟨earlier, earlierMem, earlierKey⟩ :=
      (areRuns.mem_keys_iff _).mp lastMem
    constructor
    · rintro ⟨other, otherMem, isKey⟩
      exact ⟨other, List.mem_append_left _ otherMem, isKey⟩
    · rintro ⟨other, otherMem, isKey⟩
      rcases List.mem_append.mp otherMem with before | isEnd
      · exact ⟨other, before, isKey⟩
      · rw [List.mem_singleton.mp isEnd] at isKey
        exact ⟨earlier, earlierMem, earlierKey.trans (same.trans isKey)⟩
  · intro run runMem
    rw [List.filter_append]
    have distinct := areRuns.keys_nodup
    rw [List.map_append, List.nodup_append] at distinct
    rcases List.mem_append.mp runMem with before | isEnd
    · have other : key item ≠ run.1 := by
        rw [← same]
        exact fun isKey => distinct.2.2 run.1 (List.mem_map_of_mem before)
          last.1 (by simp) isKey.symm
      rw [areRuns.items_eq run (List.mem_append_left _ before)]
      simp [other]
    · rw [List.mem_singleton.mp isEnd,
        areRuns.items_eq last (by simp)]
      simp [same]
  · simp [same]

/-- The runs of a contiguous list have distinct keys and hold the items of their
keys. -/
theorem areRuns_runsOf (contiguous : Contiguous key items) :
    AreRuns key items (runsOf key items) := by
  induction items using List.reverseRecOn with
  | nil => exact areRuns_nil
  | append_singleton items item induction =>
      have areRuns := induction (contiguous_of_concat contiguous)
      rw [runsOf, List.foldl_concat, ← runsOf]
      unfold addToRuns
      cases isLastRun : (runsOf key items).getLast? with
      | none =>
          refine areRuns_concat_new areRuns ?_
          have lastKey := areRuns.last_key
          rw [isLastRun] at lastKey
          rw [List.getLast?_eq_none_iff.mp
            (Option.map_eq_none_iff.mp lastKey.symm)]
          simp
      | some last =>
          have lastKey := areRuns.last_key
          rw [isLastRun, Option.map_some, eq_comm,
            Option.map_eq_some_iff] at lastKey
          obtain ⟨lastItem, isLastItem, keyEq⟩ := lastKey
          obtain ⟨front, runsEq⟩ := List.getLast?_eq_some_iff.mp isLastRun
          dsimp only
          split
          · rename_i same
            rw [runsEq] at areRuns ⊢
            rw [List.dropLast_concat]
            exact areRuns_concat_same areRuns same
          · rename_i differs
            exact areRuns_concat_new areRuns
              (new_key_of_concat contiguous isLastItem (keyEq ▸ differs))

end ConsecutiveRuns

end Igloo
