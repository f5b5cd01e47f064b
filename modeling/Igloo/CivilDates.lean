import Mathlib.Data.List.Basic

/-!
# Civil dates

The dates of the proleptic Gregorian calendar, and their numbers of days since
1970.
-/

namespace Igloo

namespace CivilDates

def isLeap (year : Int) : Bool :=
  year % 4 = 0 && (year % 100 ≠ 0 || year % 400 = 0)

def daysInMonth (year : Int) (month : Nat) : Nat :=
  if month = 2 then if isLeap year then 29 else 28
  else if month ∈ [4, 6, 9, 11] then 30
  else 31

/-- The days of a year before its months. -/
def daysBeforeMonth (year : Int) : Nat → Nat
  | 0 => 0
  | 1 => 0
  | month + 2 => daysBeforeMonth year (month + 1) + daysInMonth year (month + 1)

/-- The days between the first days of the year 1 and of a year. -/
def daysBeforeYear (year : Int) : Int :=
  365 * (year - 1) + (year - 1) / 4 - (year - 1) / 100 + (year - 1) / 400

end CivilDates

open CivilDates

/-- A date that the calendar has. -/
structure CivilDate where
  year : Int
  month : Nat
  day : Nat
  isMonth : 1 ≤ month ∧ month ≤ 12
  isDay : 1 ≤ day ∧ day ≤ daysInMonth year month
  deriving DecidableEq

namespace CivilDate

/-- The days since 1970-01-01. -/
def dayNumber (date : CivilDate) : Int :=
  daysBeforeYear date.year + daysBeforeMonth date.year date.month +
    date.day - 719163

/-- The date of a year, a month and a day, if there is one. -/
def ofFields (year month day : Int) : Option CivilDate :=
  if fields : (1 ≤ month.toNat ∧ month.toNat ≤ 12) ∧
      1 ≤ day.toNat ∧ day.toNat ≤ daysInMonth year month.toNat then
    some ⟨year, month.toNat, day.toNat, fields.1, fields.2⟩
  else none

theorem ofFields_eq_some_iff {year month day : Int} {date : CivilDate} :
    ofFields year month day = some date ↔
      year = date.year ∧ month = date.month ∧ day = date.day := by
  unfold ofFields
  constructor
  · intro found
    split at found
    · rename_i fields
      cases found
      dsimp only
      exact ⟨rfl, by omega, by omega⟩
    · cases found
  · rintro ⟨rfl, rfl, rfl⟩
    rw [dif_pos ⟨date.isMonth, date.isDay⟩]
    rfl

example : (ofFields 1970 1 1).map dayNumber = some 0 := by decide

example : (ofFields 2024 2 29).map dayNumber = some 19782 := by decide

example : ofFields 2023 2 29 = none := by decide

end CivilDate

end Igloo
