import Mathlib.Data.List.Nodup
import Mathlib.Logic.Function.Basic

/-!
# Maps that never overwrite

A registry refuses a key that is already taken.  Inserting a list of entries
succeeds exactly when their keys are distinct and all of them are free, and
afterwards each entry is found under its own key.
-/

namespace Igloo

namespace ExclusiveMaps

variable {Key Value : Type*} [DecidableEq Key]

/-- Insert an entry unless its key is taken. -/
def insertNew (map : Key → Option Value) (entry : Key × Value) :
    Option (Key → Option Value) :=
  match map entry.1 with
  | some _ => none
  | none => some (Function.update map entry.1 (some entry.2))

/-- Insert a list of entries in order. -/
def insertAllNew : (Key → Option Value) → List (Key × Value) →
    Option (Key → Option Value)
  | map, [] => some map
  | map, entry :: entries =>
      (insertNew map entry).bind fun next => insertAllNew next entries

theorem insertNew_eq_some_iff {map next : Key → Option Value}
    {entry : Key × Value} :
    insertNew map entry = some next ↔
      map entry.1 = none ∧
        next = Function.update map entry.1 (some entry.2) := by
  unfold insertNew
  cases map entry.1 <;> simp [eq_comm]

theorem insertAllNew_cons_eq_some_iff {map final : Key → Option Value}
    {entry : Key × Value} {entries : List (Key × Value)} :
    insertAllNew map (entry :: entries) = some final ↔
      map entry.1 = none ∧
        insertAllNew (Function.update map entry.1 (some entry.2)) entries =
          some final := by
  simp [insertAllNew, Option.bind_eq_some_iff, insertNew_eq_some_iff]

theorem insertAllNew_of_notMem {map final : Key → Option Value}
    {entries : List (Key × Value)}
    (inserted : insertAllNew map entries = some final) {key : Key}
    (other : key ∉ entries.map Prod.fst) : final key = map key := by
  induction entries generalizing map with
  | nil =>
      cases inserted
      rfl
  | cons entry entries induction =>
      obtain ⟨-, rest⟩ := insertAllNew_cons_eq_some_iff.mp inserted
      simp only [List.map_cons, List.mem_cons, not_or] at other
      rw [induction rest other.2, Function.update_of_ne other.1]

theorem insertAllNew_isSome_iff {map : Key → Option Value}
    {entries : List (Key × Value)} :
    (insertAllNew map entries).isSome ↔
      (entries.map Prod.fst).Nodup ∧
        ∀ key ∈ entries.map Prod.fst, map key = none := by
  induction entries generalizing map with
  | nil => simp [insertAllNew]
  | cons entry entries induction =>
      simp only [Option.isSome_iff_exists, insertAllNew_cons_eq_some_iff,
        exists_and_left, List.map_cons, List.nodup_cons, List.forall_mem_cons]
      simp only [← Option.isSome_iff_exists, induction]
      constructor
      · rintro ⟨free, nodup, othersFree⟩
        have fresh : entry.1 ∉ entries.map Prod.fst := by
          intro taken
          simpa using othersFree entry.1 taken
        refine ⟨⟨fresh, nodup⟩, free, ?_⟩
        intro key keyMem
        have different : key ≠ entry.1 := fun same => fresh (same ▸ keyMem)
        rw [← othersFree key keyMem, Function.update_of_ne different]
      · rintro ⟨⟨fresh, nodup⟩, free, othersFree⟩
        refine ⟨free, nodup, ?_⟩
        intro key keyMem
        have different : key ≠ entry.1 := fun same => fresh (same ▸ keyMem)
        rw [Function.update_of_ne different, othersFree key keyMem]

/-- Every inserted entry is found under its key. -/
theorem insertAllNew_of_mem {map final : Key → Option Value}
    {entries : List (Key × Value)}
    (inserted : insertAllNew map entries = some final) {entry : Key × Value}
    (entryMem : entry ∈ entries) : final entry.1 = some entry.2 := by
  induction entries generalizing map with
  | nil => cases entryMem
  | cons first entries induction =>
      have distinct : ((first :: entries).map Prod.fst).Nodup :=
        (insertAllNew_isSome_iff.mp
          (Option.isSome_iff_exists.mpr ⟨final, inserted⟩)).1
      obtain ⟨-, rest⟩ := insertAllNew_cons_eq_some_iff.mp inserted
      rcases List.mem_cons.mp entryMem with rfl | later
      · rw [insertAllNew_of_notMem rest (List.nodup_cons.mp distinct).1,
          Function.update_self]
      · exact induction rest later

end ExclusiveMaps

end Igloo
