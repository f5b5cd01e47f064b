import Igloo.SqlSyntax
import Igloo.ThreeValuedLogic
import Mathlib.Data.List.Perm.Subperm

/-!
# What a scan returns

The meaning of the statements that read one table.  A literal is compared as a
value of the column's type, and a statement with a literal that the type does
not accept is rejected before it runs.  `WHERE` keeps the rows whose condition
is true, in any order, and `LIMIT` keeps the first ones of these.  Limits are
natural numbers here.
-/

namespace Igloo

namespace SqlSemantics

open SqlSyntax SqlLexer

/-- How the values of a column compare with literals. -/
structure ColumnType (Datum : Type) where
  /-- The value a literal is compared as, unless the comparison is rejected. -/
  operand : Literal → Option Datum
  order : Datum → Datum → Ordering

/-- The columns of a table by name. -/
abbrev Columns (Datum : Type) :=
  String → Option (ColumnType Datum)

/-- The values of a row by column name; `none` is `NULL`. -/
abbrev Row (Datum : Type) :=
  String → Option Datum

/-- A table, whose rows are in no particular order. -/
structure Table (Datum : Type) where
  columns : Columns Datum
  rows : List (Row Datum)

/-- The tables by schema and name. -/
abbrev Database (Datum : Type) :=
  String → String → Option (Table Datum)

def holds : Comparison → Ordering → Bool
  | .eq, order => order == .eq
  | .ne, order => order != .eq
  | .lt, order => order == .lt
  | .le, order => order != .gt
  | .gt, order => order == .gt
  | .ge, order => order != .lt

variable {Datum : Type}

/-- A comparison of a value with a literal. -/
def ColumnType.compare (type : ColumnType Datum) (comparison : Comparison)
    (value : Option Datum) (literal : Literal) : Truth :=
  Truth.test (fun left right => holds comparison (type.order left right))
    value (type.operand literal)

/-- `IN` is some equality, and `NOT IN` the absence of all of them. -/
def ColumnType.inList (type : ColumnType Datum) (negated : Bool)
    (value : Option Datum) (literals : List Literal) : Truth :=
  if negated then Truth.all (literals.map (type.compare .ne value))
  else Truth.any (literals.map (type.compare .eq value))

def predicateAccepted (columns : Columns Datum) : Predicate → Prop
  | .compare column _ literal =>
      ∃ type, columns column = some type ∧ (type.operand literal).isSome
  | .isNull column _ => (columns column).isSome
  | .inList column _ literals =>
      ∃ type, columns column = some type ∧
        ∀ literal ∈ literals, (type.operand literal).isSome

def predicateTruth (columns : Columns Datum) (row : Row Datum) :
    Predicate → Truth
  | .compare column comparison literal =>
      match columns column with
      | some type => type.compare comparison (row column) literal
      | none => .null
  | .isNull column negated =>
      Truth.ofBool ((row column).isNone != negated)
  | .inList column negated literals =>
      match columns column with
      | some type => type.inList negated (row column) literals
      | none => .null

/-- Whether the analysis of a condition succeeds. -/
def accepted (columns : Columns Datum) : Condition → Prop
  | .predicate predicate => predicateAccepted columns predicate
  | .and left right => accepted columns left ∧ accepted columns right

def truth (columns : Columns Datum) (row : Row Datum) : Condition → Truth
  | .predicate predicate => predicateTruth columns row predicate
  | .and left right => (truth columns row left).and (truth columns row right)

/-- The truth of a `WHERE` clause. -/
def whereTruth (columns : Columns Datum) (conditions : List Condition)
    (row : Row Datum) : Truth :=
  Truth.all (conditions.map (truth columns row))

/-- The rows that a scan can yield.  PostgreSQL rejects a limit from 2^63 on,
its bound of a `bigint`; here such a limit yields all rows. -/
def Yields (table : Table Datum) (conditions : List Condition)
    (limit : Option Nat) (kept : List (Row Datum)) : Prop :=
  ∃ arranged : List (Row Datum),
    arranged.Perm (table.rows.filter fun row =>
      whereTruth table.columns conditions row = .true) ∧
    kept =
      match limit with
      | none => arranged
      | some limit => arranged.take limit

/-- What a statement returns. -/
inductive Result (Datum : Type)
  | rows (rows : List (List (Option Datum)))
  | count (number : Nat)
  deriving DecidableEq

/-- The table of a scan, provided all its conditions are accepted. -/
def Scans (database : Database Datum) (scan : Scan) (table : Table Datum)
    (kept : List (Row Datum)) : Prop :=
  database scan.schema scan.table = some table ∧
    (∀ condition ∈ scan.conditions, accepted table.columns condition) ∧
    Yields table scan.conditions scan.limit kept

def Returns (database : Database Datum) : Statement → Result Datum → Prop
  | .select columns scan, result =>
      ∃ table kept, Scans database scan table kept ∧
        (∀ column ∈ columns, (table.columns column).isSome) ∧
        result = .rows (kept.map fun row => columns.map row)
  | .count scan, result =>
      ∃ table kept, Scans database scan table kept ∧
        result = .count kept.length

/-- What a text returns. -/
def Executes (database : Database Datum) (text : String)
    (result : Result Datum) : Prop :=
  ∃ statement, parse text = some statement ∧
    Returns database statement result

theorem holds_flip (comparison : Comparison) (order : Ordering) :
    holds comparison.flip order = holds comparison order.swap := by
  cases comparison <;> cases order <;> rfl

theorem holds_ne (order : Ordering) : holds .ne order = !holds .eq order := by
  cases order <;> rfl

/-- `NOT IN` is the negation of `IN`. -/
theorem inList_true (type : ColumnType Datum) (value : Option Datum)
    (literals : List Literal) :
    type.inList true value literals =
      (type.inList false value literals).not := by
  have negates : type.compare .ne value =
      Truth.not ∘ type.compare .eq value := by
    funext literal
    simp only [ColumnType.compare, Function.comp_apply]
    cases value <;> cases type.operand literal <;>
      simp [Truth.test, Truth.not, holds_ne, Truth.ofBool_not]
  simp [ColumnType.inList, Truth.not_any, negates]

theorem inList_eq_true_iff {type : ColumnType Datum} {literals : List Literal}
    (acceptedAll : ∀ literal ∈ literals, (type.operand literal).isSome)
    {negated : Bool} {value : Datum} :
    type.inList negated (some value) literals = .true ↔
      ((∃ literal ∈ literals, ∃ operand, type.operand literal = some operand ∧
        type.order value operand = .eq) ↔ negated = false) := by
  have tests : literals.map (type.compare .eq (some value)) =
      literals.map fun literal => Truth.ofBool
        ((type.operand literal).any fun operand =>
          type.order value operand == .eq) := by
    refine List.map_congr_left fun literal literalMem => ?_
    obtain ⟨operand, operandEq⟩ :=
      Option.isSome_iff_exists.mp (acceptedAll literal literalMem)
    simp only [ColumnType.compare, operandEq, Truth.test, Option.any_some,
      holds]
  have searched : type.inList false (some value) literals =
      Truth.ofBool (literals.any fun literal =>
        (type.operand literal).any fun operand =>
          type.order value operand == .eq) := by
    rw [ColumnType.inList, if_neg Bool.false_ne_true, tests,
      Truth.any_map_ofBool]
  have found : (literals.any fun literal =>
        (type.operand literal).any fun operand =>
          type.order value operand == .eq) = .true ↔
      ∃ literal ∈ literals, ∃ operand, type.operand literal = some operand ∧
        type.order value operand = .eq := by
    simp [Option.any_eq_true]
  rw [← found]
  cases negated with
  | false => rw [searched, Truth.ofBool_eq_true_iff]; simp
  | true =>
      rw [inList_true, searched, ← Truth.ofBool_not, Truth.ofBool_eq_true_iff]
      simp

theorem exists_yields (table : Table Datum) (conditions : List Condition)
    (limit : Option Nat) : ∃ kept, Yields table conditions limit kept :=
  ⟨_, _, List.Perm.refl _, rfl⟩

variable {table : Table Datum} {conditions : List Condition}

theorem Yields.subperm {limit : Option Nat} {kept : List (Row Datum)}
    (yields : Yields table conditions limit kept) :
    kept.Subperm (table.rows.filter fun row =>
      whereTruth table.columns conditions row = .true) := by
  obtain ⟨arranged, arrangement, rfl⟩ := yields
  cases limit with
  | none => exact arrangement.subperm
  | some limit =>
      exact (List.take_sublist limit arranged).subperm.trans
        arrangement.subperm

theorem Yields.perm {kept : List (Row Datum)}
    (yields : Yields table conditions none kept) :
    kept.Perm (table.rows.filter fun row =>
      whereTruth table.columns conditions row = .true) := by
  obtain ⟨arranged, arrangement, rfl⟩ := yields
  exact arrangement

theorem Yields.length {limit : Nat} {kept : List (Row Datum)}
    (yields : Yields table conditions (some limit) kept) :
    kept.length = min limit (table.rows.filter fun row =>
      whereTruth table.columns conditions row = .true).length := by
  obtain ⟨arranged, arrangement, rfl⟩ := yields
  rw [List.length_take, arrangement.length_eq]

end SqlSemantics

end Igloo
