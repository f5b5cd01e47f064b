import Igloo.FloatOrder
import Mathlib.Algebra.Order.Field.Basic
import Mathlib.Algebra.Order.Field.Power
import Mathlib.Data.Nat.Log
import Mathlib.Tactic.FieldSimp
import Mathlib.Tactic.Linarith
import Mathlib.Tactic.Ring

/-!
# Rounding to the nearest float

The patterns of a float format are a scale of growing values, and a number is
rounded to the closest value of the scale, to the even one of two closest
patterns, and to the top of the scale beyond its end.  The pattern that
`nearestBits` computes by integer arithmetic is the one that this determines.
-/

namespace Igloo

/-- The pattern up to `top` whose value is closest to the number, the even one
of two. -/
structure IsNearest (value : Nat → ℚ) (top : Nat) (number : ℚ)
    (pattern : Nat) : Prop where
  le_top : pattern ≤ top
  closest : ∀ other ≤ top,
    |number - value pattern| ≤ |number - value other|
  even : ∀ other ≤ top, other ≠ pattern →
    |number - value pattern| = |number - value other| → pattern % 2 = 0

section Scales

variable {value : Nat → ℚ} {top : Nat} {number : ℚ}

/-- Two closest patterns are even, so that another one lies between them. -/
theorem IsNearest.le (grows : StrictMono value) {first second : Nat}
    (isFirst : IsNearest value top number first)
    (isSecond : IsNearest value top number second) : second ≤ first := by
  by_contra notLe
  have less : first < second := not_le.mp notLe
  have equal : |number - value first| = |number - value second| :=
    le_antisymm (isFirst.closest second isSecond.le_top)
      (isSecond.closest first isFirst.le_top)
  have firstEven := isFirst.even second isSecond.le_top less.ne' equal
  have secondEven := isSecond.even first isFirst.le_top less.ne equal.symm
  have between : first + 1 < second := by omega
  have low : value first < value (first + 1) := grows (Nat.lt_succ_self first)
  have high : value (first + 1) < value second := grows between
  have closest := isFirst.closest (first + 1)
    (between.le.trans isSecond.le_top)
  have middle : number - value first = -(number - value second) := by
    rcases abs_eq_abs.mp equal with same | opposite
    · linarith
    · exact opposite
  have above : 0 < number - value first := by linarith
  rw [abs_of_pos above] at closest
  rcases abs_cases (number - value (first + 1)) with ⟨eq, _⟩ | ⟨eq, _⟩
  · linarith
  · linarith

theorem IsNearest.unique (grows : StrictMono value) {first second : Nat}
    (isFirst : IsNearest value top number first)
    (isSecond : IsNearest value top number second) : first = second :=
  le_antisymm (isSecond.le grows isFirst) (isFirst.le grows isSecond)

theorem isNearest_top (grows : StrictMono value) (beyond : value top ≤ number) :
    IsNearest value top number top where
  le_top := le_rfl
  closest other below := by
    have least := grows.monotone below
    rw [abs_of_nonneg (by linarith), abs_of_nonneg (by linarith)]
    linarith
  even other below different equal := by
    have less := grows (below.lt_of_ne different)
    rw [abs_of_nonneg (by linarith), abs_of_nonneg (by linarith)] at equal
    linarith

/-- The pattern below or above the number, whichever is closer, the even one if
they are equally close, and at most the top. -/
theorem isNearest_of_between (grows : StrictMono value) {floor : Nat}
    (below : value floor ≤ number) (above : number < value (floor + 1)) :
    IsNearest value top number
      (min
        (if value (floor + 1) - number < number - value floor ∨
            value (floor + 1) - number = number - value floor ∧
              floor % 2 = 1 then floor + 1 else floor) top) := by
  by_cases inScale : floor < top
  · have toBelow : ∀ other ≤ floor,
        |number - value other| = number - value other ∧
          value other ≤ value floor := by
      intro other less
      have least := grows.monotone less
      exact ⟨abs_of_nonneg (by linarith), least⟩
    have toAbove : ∀ other, floor < other →
        |number - value other| = value other - number ∧
          value (floor + 1) ≤ value other := by
      intro other greater
      have greatest := grows.monotone (Nat.succ_le_of_lt greater)
      exact ⟨by rw [abs_sub_comm, abs_of_pos (by linarith)], greatest⟩
    split
    · rename_i up
      have notAbove : value (floor + 1) - number ≤ number - value floor := by
        rcases up with closer | ⟨equal, -⟩
        · exact closer.le
        · exact equal.le
      rw [min_eq_left inScale]
      refine ⟨inScale, ?_, ?_⟩
      · intro other _
        rw [(toAbove (floor + 1) (Nat.lt_succ_self floor)).1]
        rcases Nat.lt_or_ge floor other with greater | less
        · rw [(toAbove other greater).1]
          linarith [(toAbove other greater).2]
        · rw [(toBelow other less).1]
          linarith [(toBelow other less).2]
      · intro other _ different equal
        rw [(toAbove (floor + 1) (Nat.lt_succ_self floor)).1] at equal
        rcases Nat.lt_or_ge floor other with greater | less
        · rw [(toAbove other greater).1] at equal
          linarith [grows (Nat.lt_of_le_of_ne greater different.symm)]
        · rw [(toBelow other less).1] at equal
          rcases up with closer | ⟨-, odd⟩
          · linarith [(toBelow other less).2]
          · omega
    · rename_i notUp
      have notBelow : number - value floor ≤ value (floor + 1) - number :=
        not_lt.mp fun closer => notUp (Or.inl closer)
      rw [min_eq_left inScale.le]
      refine ⟨inScale.le, ?_, ?_⟩
      · intro other _
        rw [(toBelow floor le_rfl).1]
        rcases Nat.lt_or_ge floor other with greater | less
        · rw [(toAbove other greater).1]
          linarith [(toAbove other greater).2]
        · rw [(toBelow other less).1]
          linarith [(toBelow other less).2]
      · intro other _ different equal
        rw [(toBelow floor le_rfl).1] at equal
        rcases Nat.lt_or_ge floor other with greater | less
        · rw [(toAbove other greater).1] at equal
          have tie : value (floor + 1) - number = number - value floor := by
            linarith [(toAbove other greater).2]
          have notOdd : floor % 2 ≠ 1 := fun odd => notUp (Or.inr ⟨tie, odd⟩)
          omega
        · rw [(toBelow other less).1] at equal
          linarith [grows (Nat.lt_of_le_of_ne less different)]
  · have beyond : top ≤ floor := not_lt.mp inScale
    have isTop : ∀ rounded, floor ≤ rounded → min rounded top = top :=
      fun rounded least => min_eq_right (beyond.trans least)
    rw [isTop _ (by split <;> omega)]
    exact isNearest_top grows ((grows.monotone beyond).trans below)

end Scales

/-- The magnitude of a pattern, in the format whose least positive float is
`2 ^ -leastScale`. -/
def floatValue (fractionBits leastScale pattern : Nat) : ℚ :=
  floatUnits fractionBits pattern / 2 ^ leastScale

theorem strictMono_floatValue (fractionBits leastScale : Nat) :
    StrictMono (floatValue fractionBits leastScale) := by
  intro low high less
  have grows := strictMono_floatUnits fractionBits less
  unfold floatValue
  gcongr

/-- A significand of the full width, or of any width at the least scale. -/
theorem floatUnits_of_significand {fractionBits raised significand : Nat}
    (normal : raised = 0 ∨ 2 ^ fractionBits ≤ significand)
    (narrow : significand ≤ 2 * 2 ^ fractionBits) :
    floatUnits fractionBits (raised * 2 ^ fractionBits + significand) =
      significand * 2 ^ raised := by
  have positive : 0 < 2 ^ fractionBits := by positivity
  rcases Nat.lt_or_ge significand (2 ^ fractionBits) with small | large
  · obtain rfl : raised = 0 := normal.resolve_right (by omega)
    rw [floatUnits_of_fields 0 small, if_pos rfl, pow_zero, mul_one]
  · rcases narrow.lt_or_eq with below | carried
    · have split : raised * 2 ^ fractionBits + significand =
          (raised + 1) * 2 ^ fractionBits +
            (significand - 2 ^ fractionBits) := by
        rw [Nat.add_mul]
        omega
      rw [split, floatUnits_of_fields _ (by omega), if_neg (by omega),
        Nat.add_sub_cancel, Nat.add_sub_cancel' large]
    · have split : raised * 2 ^ fractionBits + significand =
          (raised + 2) * 2 ^ fractionBits + 0 := by
        rw [Nat.add_mul]
        omega
      rw [split, floatUnits_of_fields _ positive, if_neg (by omega), carried,
        Nat.add_zero, show raised + 2 - 1 = raised + 1 from rfl, pow_succ]
      ring

section Decimals

variable {numerator denominator : Nat}

/-- The exponent of a fraction from the lengths of its parts, corrected by one
comparison. -/
theorem zpow_exponent_le (numerator_pos : 0 < numerator)
    (denominator_pos : 0 < denominator) {estimate exponent : Int}
    (isEstimate : estimate = numerator.log2 - denominator.log2)
    (isExponent : exponent =
      if numerator * 2 ^ (-estimate).toNat <
          denominator * 2 ^ estimate.toNat then estimate - 1
      else estimate) :
    (2 : ℚ) ^ exponent ≤ numerator / denominator ∧
      (numerator / denominator : ℚ) < 2 ^ (exponent + 1) := by
  have two_ne : (2 : ℚ) ≠ 0 := two_ne_zero
  have denominator_pos' : (0 : ℚ) < denominator := by
    exact_mod_cast denominator_pos
  have lowNumerator : (2 : ℚ) ^ numerator.log2 ≤ numerator := by
    exact_mod_cast Nat.log2_self_le numerator_pos.ne'
  have highNumerator : (numerator : ℚ) < 2 ^ (numerator.log2 + 1) := by
    exact_mod_cast Nat.lt_log2_self
  have lowDenominator : (2 : ℚ) ^ denominator.log2 ≤ denominator := by
    exact_mod_cast Nat.log2_self_le denominator_pos.ne'
  have highDenominator : (denominator : ℚ) < 2 ^ (denominator.log2 + 1) := by
    exact_mod_cast Nat.lt_log2_self
  have above : (2 : ℚ) ^ (estimate - 1) ≤ numerator / denominator := by
    rw [le_div_iff₀ denominator_pos']
    calc (2 : ℚ) ^ (estimate - 1) * denominator ≤
          2 ^ (estimate - 1) * 2 ^ (denominator.log2 + 1) := by gcongr
      _ = 2 ^ numerator.log2 := by
          rw [← zpow_natCast, ← zpow_natCast, ← zpow_add₀ two_ne, isEstimate]
          congr 1
          push_cast
          ring
      _ ≤ numerator := lowNumerator
  have below : (numerator / denominator : ℚ) < 2 ^ (estimate + 1) := by
    rw [div_lt_iff₀ denominator_pos']
    calc (numerator : ℚ) < 2 ^ (numerator.log2 + 1) := highNumerator
      _ = 2 ^ (estimate + 1) * 2 ^ denominator.log2 := by
          rw [← zpow_natCast, ← zpow_natCast, ← zpow_add₀ two_ne, isEstimate]
          congr 1
          push_cast
          ring
      _ ≤ 2 ^ (estimate + 1) * denominator := by gcongr
  have tooHigh : numerator * 2 ^ (-estimate).toNat <
      denominator * 2 ^ estimate.toNat ↔
        (numerator / denominator : ℚ) < 2 ^ estimate := by
    rw [div_lt_iff₀ denominator_pos']
    rcases Int.eq_nat_or_neg estimate with ⟨size, rfl | rfl⟩
    · rw [zpow_natCast]
      norm_cast
      simp [mul_comm]
    · rw [zpow_neg, zpow_natCast, inv_mul_eq_div, lt_div_iff₀ (by positivity)]
      norm_cast
      simp
  split at isExponent
  · rename_i high
    rw [isExponent, Int.sub_add_cancel]
    exact ⟨above, tooHigh.mp high⟩
  · rename_i notHigh
    rw [isExponent]
    exact ⟨not_lt.mp (mt tooHigh.mpr notHigh), below⟩

theorem scaled_fraction (numerator denominator : Nat) (scale : Int) :
    ((numerator * 2 ^ (-scale).toNat : Nat) : ℚ) /
        ((denominator * 2 ^ scale.toNat : Nat) : ℚ) =
      numerator / denominator / 2 ^ scale := by
  rcases Int.eq_nat_or_neg scale with ⟨size, rfl | rfl⟩
  · rw [zpow_natCast, div_div]
    simp
  · rw [zpow_neg, zpow_natCast, div_inv_eq_mul]
    simp [mul_div_right_comm]

end Decimals

theorem floatValue_of_significand {fractionBits leastScale : Nat} {scale : Int}
    (least : -(leastScale : Int) ≤ scale) {significand : Nat}
    (normal : scale = -(leastScale : Int) ∨ 2 ^ fractionBits ≤ significand)
    (narrow : significand ≤ 2 * 2 ^ fractionBits) :
    floatValue fractionBits leastScale
        ((scale + leastScale).toNat * 2 ^ fractionBits + significand) =
      significand * 2 ^ scale := by
  have raised : (2 : ℚ) ^ (scale + leastScale).toNat / 2 ^ leastScale =
      2 ^ scale := by
    rw [div_eq_iff (by positivity), ← zpow_natCast, ← zpow_natCast,
      ← zpow_add₀ two_ne_zero, Int.toNat_of_nonneg (by omega)]
  rw [floatValue, floatUnits_of_significand
    (normal.imp_left fun atLeast => by omega) narrow]
  push_cast
  rw [mul_div_assoc, raised]

theorem div_eq_whole_add_rest (magnitude : Nat) {unit : Nat}
    (unit_pos : 0 < unit) :
    (magnitude : ℚ) / unit =
        ↑(magnitude / unit) + ↑(magnitude % unit) / unit ∧
      (0 : ℚ) ≤ ↑(magnitude % unit) / unit ∧
      (↑(magnitude % unit) / unit : ℚ) < 1 := by
  have unit_pos' : (0 : ℚ) < unit := by exact_mod_cast unit_pos
  have divided : (magnitude : ℚ) =
      unit * ↑(magnitude / unit) + ↑(magnitude % unit) := by
    exact_mod_cast (Nat.div_add_mod magnitude unit).symm
  refine ⟨?_, by positivity, ?_⟩
  · conv_lhs => rw [divided]
    rw [add_div, mul_div_cancel_left₀ _ unit_pos'.ne']
  · rw [div_lt_one unit_pos']
    exact_mod_cast Nat.mod_lt magnitude unit_pos

/-- Rounding a scaled significand rounds the number, the carry included. -/
theorem isNearest_of_significand {fractionBits leastScale : Nat}
    (some_bits : 0 < fractionBits) {scale : Int}
    (least : -(leastScale : Int) ≤ scale) {number : ℚ} {magnitude unit : Nat}
    (unit_pos : 0 < unit)
    (scaled : (magnitude : ℚ) / unit = number / 2 ^ scale)
    (normal : scale = -(leastScale : Int) ∨
      2 ^ fractionBits ≤ magnitude / unit)
    (narrow : magnitude / unit < 2 * 2 ^ fractionBits) (top : Nat) :
    IsNearest (floatValue fractionBits leastScale) top number
      (min
        ((scale + leastScale).toNat * 2 ^ fractionBits +
          if unit < 2 * (magnitude % unit) ∨
              unit = 2 * (magnitude % unit) ∧ magnitude / unit % 2 = 1 then
            magnitude / unit + 1
          else magnitude / unit) top) := by
  have unit_pos' : (0 : ℚ) < unit := by exact_mod_cast unit_pos
  have scale_pos : (0 : ℚ) < 2 ^ scale := by positivity
  obtain ⟨parts, rest_nonneg, rest_lt⟩ :=
    div_eq_whole_add_rest magnitude unit_pos
  have isNumber : number =
      (↑(magnitude / unit) + ↑(magnitude % unit) / unit) * 2 ^ scale := by
    rw [← parts, scaled, div_mul_cancel₀ _ scale_pos.ne']
  -- the values of the two patterns around the number
  have low := floatValue_of_significand least normal narrow.le
  have successor : magnitude / unit + 1 ≤ 2 * 2 ^ fractionBits := narrow
  have high := floatValue_of_significand least
    (normal.imp_right fun large => large.trans (Nat.le_add_right _ 1))
    successor
  generalize floorEq : (scale + leastScale).toNat * 2 ^ fractionBits +
    magnitude / unit = floor at *
  rw [← Nat.add_assoc, floorEq] at high
  push_cast at high
  have below : floatValue fractionBits leastScale floor ≤ number := by
    rw [low, isNumber]
    gcongr
    linarith
  have above : number < floatValue fractionBits leastScale (floor + 1) := by
    rw [high, isNumber]
    gcongr
  have closer : floatValue fractionBits leastScale (floor + 1) - number <
      number - floatValue fractionBits leastScale floor ↔
        unit < 2 * (magnitude % unit) := by
    have half : (1 : ℚ) < 2 * (↑(magnitude % unit) / unit) ↔
        unit < 2 * (magnitude % unit) := by
      rw [← mul_div_assoc, one_lt_div unit_pos']
      norm_cast
    rw [← half, low, high, isNumber, ← sub_mul, ← sub_mul,
      mul_lt_mul_iff_left₀ scale_pos]
    constructor <;> intro less <;> linarith
  have tie : floatValue fractionBits leastScale (floor + 1) - number =
      number - floatValue fractionBits leastScale floor ↔
        unit = 2 * (magnitude % unit) := by
    have half : (1 : ℚ) = 2 * (↑(magnitude % unit) / unit) ↔
        unit = 2 * (magnitude % unit) := by
      rw [← mul_div_assoc, eq_div_iff unit_pos'.ne', one_mul]
      norm_cast
    rw [← half, low, high, isNumber, ← sub_mul, ← sub_mul,
      mul_left_inj' scale_pos.ne']
    constructor <;> intro equal <;> linarith
  have parity : floor % 2 = magnitude / unit % 2 := by
    obtain ⟨bits, rfl⟩ := Nat.exists_eq_succ_of_ne_zero some_bits.ne'
    rw [← floorEq, pow_succ, ← mul_assoc, Nat.mul_add_mod_self_right]
  have rounded : ((scale + leastScale).toNat * 2 ^ fractionBits +
      if unit < 2 * (magnitude % unit) ∨
          unit = 2 * (magnitude % unit) ∧ magnitude / unit % 2 = 1 then
        magnitude / unit + 1
      else magnitude / unit) =
        if floatValue fractionBits leastScale (floor + 1) - number <
              number - floatValue fractionBits leastScale floor ∨
            floatValue fractionBits leastScale (floor + 1) - number =
              number - floatValue fractionBits leastScale floor ∧
            floor % 2 = 1 then floor + 1
        else floor := by
    simp only [closer, tie, parity]
    split <;> omega
  rw [rounded]
  exact isNearest_of_between (strictMono_floatValue fractionBits leastScale)
    below above

/-- `nearestBits` rounds a decimal to the nearest pattern. -/
theorem isNearest_nearestBits {fractionBits : Nat}
    (some_bits : 0 < fractionBits)
    (leastScale infiniteExponent digits : Nat) (tens : Int) :
    IsNearest (floatValue fractionBits leastScale)
      (infiniteExponent * 2 ^ fractionBits) (digits * 10 ^ tens)
      (nearestBits fractionBits leastScale infiniteExponent digits tens) := by
  have isNumber : ((digits * 10 ^ tens.toNat : Nat) : ℚ) /
      ((10 ^ (-tens).toNat : Nat) : ℚ) = digits * 10 ^ tens := by
    rcases Int.eq_nat_or_neg tens with ⟨size, rfl | rfl⟩
    · simp
    · simp [div_eq_mul_inv]
  unfold nearestBits
  dsimp only
  generalize digits * 10 ^ tens.toNat = numerator at *
  have denominator_pos : 0 < 10 ^ (-tens).toNat := by positivity
  generalize 10 ^ (-tens).toNat = denominator at *
  rw [← isNumber]
  split
  · rename_i isZero
    have zero : floatValue fractionBits leastScale 0 = 0 := by
      simp [floatValue, floatUnits]
    refine ⟨Nat.zero_le _, ?_, fun _ _ _ _ => rfl⟩
    intro other _
    rw [isZero, zero]
    simp
  · rename_i notZero
    generalize estimateEq :
      (numerator.log2 : Int) - denominator.log2 = estimate
    generalize exponentEq : (if numerator * 2 ^ (-estimate).toNat <
        denominator * 2 ^ estimate.toNat then estimate - 1 else estimate) =
          exponent
    obtain ⟨above, below⟩ := zpow_exponent_le (Nat.pos_of_ne_zero notZero)
      denominator_pos estimateEq.symm exponentEq.symm
    generalize scaleEq : max (exponent - fractionBits) (-leastScale : Int) =
      scale
    have scaled := scaled_fraction numerator denominator scale
    have unit_pos : 0 < denominator * 2 ^ scale.toNat := by positivity
    have unit_pos' : (0 : ℚ) < ((denominator * 2 ^ scale.toNat : Nat) : ℚ) := by
      exact_mod_cast unit_pos
    have scale_pos : (0 : ℚ) < 2 ^ scale := by positivity
    refine isNearest_of_significand some_bits (by omega) unit_pos scaled ?_ ?_
      _
    · rcases (show scale = -leastScale ∨ scale = exponent - fractionBits by
        omega) with atLeast | full
      · exact Or.inl atLeast
      · have large : (2 : ℚ) ^ fractionBits ≤
            numerator / denominator / 2 ^ scale := by
          rw [le_div_iff₀ scale_pos, ← zpow_natCast,
            ← zpow_add₀ two_ne_zero, full, add_sub_cancel]
          exact above
        rw [← scaled, le_div_iff₀ unit_pos'] at large
        exact Or.inr ((Nat.le_div_iff_mul_le unit_pos).mpr
          (by exact_mod_cast large))
    · have small : (numerator / denominator / 2 ^ scale : ℚ) <
          2 * 2 ^ fractionBits := by
        have raised : (2 : ℚ) ^ (exponent + 1) ≤
            2 ^ (1 + fractionBits + scale) :=
          zpow_le_zpow_right₀ one_le_two (by omega)
        rw [div_lt_iff₀ scale_pos, ← zpow_natCast, ← zpow_one_add₀ two_ne_zero,
          ← zpow_add₀ two_ne_zero]
        exact below.trans_le raised
      rw [← scaled, div_lt_iff₀ unit_pos'] at small
      exact (Nat.div_lt_iff_lt_mul unit_pos).mpr (by exact_mod_cast small)

end Igloo
