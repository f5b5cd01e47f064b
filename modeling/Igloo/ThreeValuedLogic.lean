import Mathlib.Tactic.TypeStar

/-!
# Three-valued logic

The truth values of SQL conditions.  `NULL` is a third value: a conjunction is
false as soon as one side is, and otherwise `NULL` as soon as one side is.
Membership in a list is the disjunction of the equalities, and its negation is
the conjunction of their negations.
-/

namespace Igloo

/-- A truth value of SQL. -/
inductive Truth
  | true
  | false
  | null
  deriving DecidableEq, Repr

namespace Truth

def ofBool : Bool → Truth
  | .true => true
  | .false => false

def not : Truth → Truth
  | true => false
  | false => true
  | null => null

def and : Truth → Truth → Truth
  | false, _ => false
  | true, right => right
  | null, false => false
  | null, _ => null

def or : Truth → Truth → Truth
  | true, _ => true
  | false, right => right
  | null, true => true
  | null, _ => null

/-- The conjunction of a list. -/
def all (values : List Truth) : Truth :=
  values.foldr and true

/-- The disjunction of a list. -/
def any (values : List Truth) : Truth :=
  values.foldr or false

@[simp]
theorem all_nil : all [] = true :=
  rfl

@[simp]
theorem all_cons (value : Truth) (values : List Truth) :
    all (value :: values) = value.and (all values) :=
  rfl

@[simp]
theorem any_nil : any [] = false :=
  rfl

@[simp]
theorem any_cons (value : Truth) (values : List Truth) :
    any (value :: values) = value.or (any values) :=
  rfl

@[simp]
theorem not_not (value : Truth) : value.not.not = value := by
  cases value <;> rfl

theorem not_or (left right : Truth) :
    (left.or right).not = left.not.and right.not := by
  cases left <;> cases right <;> rfl

theorem and_eq_true_iff {left right : Truth} :
    left.and right = true ↔ left = true ∧ right = true := by
  cases left <;> cases right <;> decide

theorem ofBool_eq_true_iff {value : Bool} :
    ofBool value = true ↔ value = .true := by
  cases value <;> decide

theorem ofBool_not (value : Bool) : ofBool (!value) = (ofBool value).not := by
  cases value <;> rfl

theorem all_eq_true_iff {values : List Truth} :
    all values = true ↔ ∀ value ∈ values, value = true := by
  induction values with
  | nil => simp
  | cons value values induction =>
      rw [all_cons, and_eq_true_iff, induction, List.forall_mem_cons]

theorem not_any (values : List Truth) :
    (any values).not = all (values.map not) := by
  induction values with
  | nil => rfl
  | cons value values induction =>
      rw [any_cons, not_or, induction, List.map_cons, all_cons]

theorem any_map_ofBool {α : Type*} (test : α → Bool) (values : List α) :
    any (values.map fun value => ofBool (test value)) =
      ofBool (values.any test) := by
  induction values with
  | nil => rfl
  | cons value values induction =>
      rw [List.map_cons, any_cons, induction, List.any_cons]
      cases test value <;> rfl

/-- A nonempty disjunction of unknown conditions is unknown. -/
theorem any_map_null {α : Type*} {values : List α} (nonempty : values ≠ []) :
    any (values.map fun _ => null) = null := by
  induction values with
  | nil => exact absurd rfl nonempty
  | cons value values induction =>
      cases values with
      | nil => rfl
      | cons other rest =>
          rw [List.map_cons, any_cons, induction (List.cons_ne_nil _ _)]
          rfl

/-- A test on two nullable values, unknown when one of them is missing. -/
def test {α : Type*} (holds : α → α → Bool) : Option α → Option α → Truth
  | some left, some right => ofBool (holds left right)
  | _, _ => null

end Truth

end Igloo
