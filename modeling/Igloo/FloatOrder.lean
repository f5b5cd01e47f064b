import Igloo.IeeeFloat
import Mathlib.Order.Monotone.Basic
import Mathlib.Order.Compare

/-!
# Two orders on floats

IEEE `totalOrder` orders all bit patterns: a negative pattern is below a
positive one, so `-0.0` is below `0.0` and a negative NaN below everything.
The order by number has one zero and one NaN, which is above all numbers.
The two agree on all other pairs, because the magnitude of a float grows with
its bit pattern.
-/

namespace Igloo

/-- The magnitude of a pattern of exponent and fraction bits, in units of the
least positive float of the format. -/
def floatUnits (fractionBits pattern : Nat) : Nat :=
  if pattern / 2 ^ fractionBits = 0 then pattern % 2 ^ fractionBits
  else
    (2 ^ fractionBits + pattern % 2 ^ fractionBits) *
      2 ^ (pattern / 2 ^ fractionBits - 1)

theorem floatUnits_of_fields {fractionBits fraction : Nat} (exponent : Nat)
    (fraction_lt : fraction < 2 ^ fractionBits) :
    floatUnits fractionBits (exponent * 2 ^ fractionBits + fraction) =
      if exponent = 0 then fraction
      else (2 ^ fractionBits + fraction) * 2 ^ (exponent - 1) := by
  have positive : 0 < 2 ^ fractionBits := by positivity
  have quotient : (exponent * 2 ^ fractionBits + fraction) / 2 ^ fractionBits =
      exponent := by
    rw [Nat.add_comm, Nat.add_mul_div_right _ _ positive,
      Nat.div_eq_of_lt fraction_lt, Nat.zero_add]
  have remainder : (exponent * 2 ^ fractionBits + fraction) % 2 ^ fractionBits =
      fraction := by
    rw [Nat.add_comm, Nat.add_mul_mod_self_right, Nat.mod_eq_of_lt fraction_lt]
  rw [floatUnits, quotient, remainder]

theorem floatUnits_lt_succ (fractionBits pattern : Nat) :
    floatUnits fractionBits pattern < floatUnits fractionBits (pattern + 1) := by
  have positive : 0 < 2 ^ fractionBits := by positivity
  obtain ⟨exponent, fraction, fraction_lt, rfl⟩ :
      ∃ exponent fraction, fraction < 2 ^ fractionBits ∧
        pattern = exponent * 2 ^ fractionBits + fraction :=
    ⟨_, _, Nat.mod_lt pattern positive, (Nat.div_add_mod' _ _).symm⟩
  rw [floatUnits_of_fields exponent fraction_lt]
  by_cases carry : fraction + 1 < 2 ^ fractionBits
  · rw [Nat.add_assoc, floatUnits_of_fields exponent carry]
    split
    · exact Nat.lt_succ_self fraction
    · exact Nat.mul_lt_mul_of_pos_right (by omega) (by positivity)
  · have next : exponent * 2 ^ fractionBits + fraction + 1 =
        (exponent + 1) * 2 ^ fractionBits + 0 := by
      rw [Nat.add_mul]
      omega
    rw [next, floatUnits_of_fields (exponent + 1) positive,
      if_neg (Nat.succ_ne_zero exponent), Nat.add_zero, Nat.add_sub_cancel]
    by_cases subnormal : exponent = 0
    · rw [if_pos subnormal, subnormal]
      omega
    · rw [if_neg subnormal]
      calc
        (2 ^ fractionBits + fraction) * 2 ^ (exponent - 1) <
            (2 ^ fractionBits * 2) * 2 ^ (exponent - 1) :=
          Nat.mul_lt_mul_of_pos_right (by omega) (by positivity)
        _ = 2 ^ fractionBits * 2 ^ exponent := by
          rw [Nat.mul_assoc, mul_pow_sub_one subnormal]

theorem strictMono_floatUnits (fractionBits : Nat) :
    StrictMono (floatUnits fractionBits) :=
  strictMono_nat_of_lt_succ (floatUnits_lt_succ fractionBits)

/-- A magnitude with a sign; the two zeros are the same number. -/
def signedNumber (negative : Bool) (magnitude : Nat) : Int :=
  if negative then -(magnitude : Int) else magnitude

/-- A magnitude with a sign; the negative zero comes right below zero. -/
def signedRank (negative : Bool) (magnitude : Nat) : Int :=
  if negative then -(magnitude : Int) - 1 else magnitude

theorem signedRank_inj {first second : Bool} {low high : Nat} :
    signedRank first low = signedRank second high ↔
      first = second ∧ low = high := by
  cases first <;> cases second <;> simp [signedRank] <;> omega

/-- Numbers are ordered like ranks, but for the two zeros. -/
theorem signedNumber_lt_iff {first second : Bool} {low high : Nat}
    {value : Nat → Nat} (grows : StrictMono value) (zero : value 0 = 0)
    (oneZero : low = 0 → high = 0 → first = second) :
    signedNumber first (value low) < signedNumber second (value high) ↔
      signedRank first low < signedRank second high := by
  have ordered : value low < value high ↔ low < high := grows.lt_iff_lt
  have reversed : value high < value low ↔ high < low := grows.lt_iff_lt
  have lowPositive : value 0 < value low ↔ 0 < low := grows.lt_iff_lt
  have highPositive : value 0 < value high ↔ 0 < high := grows.lt_iff_lt
  rw [zero] at lowPositive highPositive
  cases first <;> cases second <;>
    simp only [signedNumber, signedRank, Bool.false_eq_true, if_true,
      if_false, reduceCtorEq, imp_false] at oneZero ⊢ <;> omega

theorem compare_congr {first second third fourth : Int}
    (below : first < second ↔ third < fourth)
    (above : second < first ↔ fourth < third) :
    compare first second = compare third fourth := by
  rcases lt_trichotomy first second with less | same | greater
  · rw [compare_lt_iff_lt.mpr less, compare_lt_iff_lt.mpr (below.mp less)]
  · have sameRanks : third = fourth := by omega
    rw [compare_eq_iff_eq.mpr same, compare_eq_iff_eq.mpr sameRanks]
  · rw [compare_gt_iff_gt.mpr greater, compare_gt_iff_gt.mpr
      (above.mp greater)]

namespace F64

/-- All bits but the sign. -/
def magnitude (value : F64) : Nat :=
  value.bits.toNat % 2 ^ 63

/-- `f64::is_nan`. -/
def isNan (value : F64) : Bool :=
  value.exponent == 2047 && value.fraction != 0

/-- The number a float stands for, in units of `2 ^ -1074`; an infinity is
beyond all finite numbers. -/
def number (value : F64) : Int :=
  signedNumber value.sign
    (value.significand * 2 ^ (max value.exponent 1 - 1))

/-- IEEE `totalOrder`. -/
def totalCmp (left right : F64) : Ordering :=
  compare (signedRank left.sign left.magnitude)
    (signedRank right.sign right.magnitude)

/-- The order by number, with one NaN above all numbers. -/
def numericCmp (left right : F64) : Ordering :=
  match left.isNan, right.isNan with
  | true, true => .eq
  | true, false => .gt
  | false, true => .lt
  | false, false => compare left.number right.number

def isZero (value : F64) : Bool :=
  value.magnitude == 0

/-- A zero and the zero of the other sign. -/
def AreDistinctZeros (left right : F64) : Prop :=
  left.isZero ∧ right.isZero ∧ left.sign ≠ right.sign

instance (left right : F64) : Decidable (AreDistinctZeros left right) :=
  inferInstanceAs (Decidable (_ ∧ _ ∧ _))

theorem exponent_eq (value : F64) : value.exponent = value.magnitude / 2 ^ 52 := by
  simp only [exponent, magnitude]
  omega

theorem fraction_eq (value : F64) : value.fraction = value.magnitude % 2 ^ 52 := by
  simp only [fraction, magnitude]
  omega

theorem sign_eq (value : F64) : value.sign = decide (2 ^ 63 ≤ value.bits.toNat) :=
  BitVec.msb_eq_decide value.bits

theorem number_eq (value : F64) :
    value.number = signedNumber value.sign (floatUnits 52 value.magnitude) := by
  rw [number, significand, exponent_eq, fraction_eq, floatUnits]
  split
  · rename_i subnormal
    rw [subnormal, Nat.max_eq_right (Nat.zero_le 1), Nat.sub_self, pow_zero,
      Nat.mul_one]
  · rename_i normal
    rw [Nat.max_eq_left (Nat.pos_of_ne_zero normal)]

theorem ext_iff {left right : F64} :
    left = right ↔
      left.sign = right.sign ∧ left.magnitude = right.magnitude := by
  refine ⟨by rintro rfl; exact ⟨rfl, rfl⟩, ?_⟩
  rintro ⟨signEq, magnitudeEq⟩
  obtain ⟨left⟩ := left
  obtain ⟨right⟩ := right
  simp only [sign_eq, decide_eq_decide] at signEq
  simp only [magnitude] at magnitudeEq
  have left_lt := left.isLt
  have right_lt := right.isLt
  congr 1
  apply BitVec.eq_of_toNat_eq
  omega

theorem totalCmp_eq_iff {left right : F64} :
    totalCmp left right = .eq ↔ left = right := by
  rw [totalCmp, compare_eq_iff_eq, signedRank_inj, ext_iff]

/-- Away from NaNs and from the two zeros the orders agree. -/
theorem numericCmp_eq_totalCmp {left right : F64}
    (left_number : left.isNan = false) (right_number : right.isNan = false)
    (sameZeros : ¬ AreDistinctZeros left right) :
    numericCmp left right = totalCmp left right := by
  have oneZero : left.magnitude = 0 → right.magnitude = 0 →
      left.sign = right.sign := by
    intro left_zero right_zero
    by_contra different
    exact sameZeros ⟨by simp [isZero, left_zero], by simp [isZero, right_zero],
      different⟩
  have grows := strictMono_floatUnits 52
  have below := signedNumber_lt_iff grows rfl oneZero
  have above := signedNumber_lt_iff grows rfl
    fun right_zero left_zero => (oneZero left_zero right_zero).symm
  simp only [numericCmp, left_number, right_number, totalCmp, number_eq]
  exact compare_congr below above

theorem isNan_eq (value : F64) :
    value.isNan = decide (2047 * 2 ^ 52 < value.magnitude) := by
  have bounded : value.magnitude < 2 ^ 63 := Nat.mod_lt _ (by decide)
  rw [isNan, Bool.eq_iff_iff, exponent_eq, fraction_eq]
  simp only [Bool.and_eq_true, beq_iff_eq, bne_iff_ne, decide_eq_true_eq]
  omega

theorem isNan_of_isFinite {value : F64} (finite : value.isFinite) :
    value.isNan = false := by
  simp only [isFinite, bne_iff_ne, ne_eq] at finite
  simp [isNan, finite]

/-- The two zeros are one number, and two floats. -/
theorem cmp_of_areDistinctZeros {left right : F64}
    (zeros : AreDistinctZeros left right) :
    numericCmp left right = .eq ∧
      totalCmp left right = if left.sign then .lt else .gt := by
  obtain ⟨left_zero, right_zero, different⟩ := zeros
  simp only [isZero, beq_iff_eq] at left_zero right_zero
  have left_number : left.isNan = false := by simp [isNan_eq, left_zero]
  have right_number : right.isNan = false := by simp [isNan_eq, right_zero]
  simp only [numericCmp, left_number, right_number, totalCmp, number_eq,
    left_zero, right_zero]
  revert different
  cases left.sign <;> cases right.sign <;> decide

/-- A NaN is above all numbers, by `totalOrder` only without a sign. -/
theorem cmp_of_isNan {left right : F64} (left_nan : left.isNan)
    (right_number : right.isNan = false) :
    numericCmp left right = .gt ∧
      totalCmp left right = if left.sign then .lt else .gt := by
  refine ⟨by simp [numericCmp, left_nan, right_number], ?_⟩
  rw [isNan_eq, decide_eq_true_eq] at left_nan
  rw [isNan_eq, decide_eq_false_iff_not] at right_number
  rw [totalCmp]
  cases left.sign with
  | false =>
      refine compare_gt_iff_gt.mpr ?_
      cases right.sign <;> simp only [signedRank, Bool.false_eq_true, if_true,
        if_false] <;> omega
  | true =>
      refine compare_lt_iff_lt.mpr ?_
      cases right.sign <;> simp only [signedRank, Bool.false_eq_true, if_true,
        if_false] <;> omega

theorem numericCmp_congr {value left right : F64}
    (right_number : right.isNan = false)
    (same : numericCmp left right = .eq) :
    numericCmp value left = numericCmp value right := by
  cases left_nan : left.isNan with
  | true => simp [numericCmp, left_nan, right_number] at same
  | false =>
      simp only [numericCmp, left_nan, right_number] at same ⊢
      rw [compare_eq_iff_eq.mp same]

/-- Only the two zeros are different floats and one number. -/
theorem numericCmp_eq_iff {left right : F64}
    (right_number : right.isNan = false) :
    numericCmp left right = .eq ↔
      left = right ∨ AreDistinctZeros left right := by
  by_cases zeros : AreDistinctZeros left right
  · simp [(cmp_of_areDistinctZeros zeros).1, zeros]
  · cases left_nan : left.isNan with
    | true =>
        have different : left ≠ right := by
          rintro rfl
          rw [right_number] at left_nan
          cases left_nan
        simp [numericCmp, left_nan, right_number, different, zeros]
    | false =>
        rw [numericCmp_eq_totalCmp left_nan right_number zeros,
          totalCmp_eq_iff]
        simp [zeros]

end F64

namespace F32

/-- All bits but the sign. -/
def magnitude (value : F32) : Nat :=
  value.bits.toNat % 2 ^ 31

/-- IEEE `totalOrder`. -/
def totalCmp (left right : F32) : Ordering :=
  compare (signedRank left.sign left.magnitude)
    (signedRank right.sign right.magnitude)

theorem exponent_eq (value : F32) :
    value.exponent = value.magnitude / 2 ^ 23 := by
  simp only [exponent, magnitude]
  omega

theorem fraction_eq (value : F32) :
    value.fraction = value.magnitude % 2 ^ 23 := by
  simp only [fraction, magnitude]
  omega

theorem ofFields_fields (sign : Bool) {exponent fraction : Nat}
    (exponent_lt : exponent < 2 ^ 11) (fraction_lt : fraction < 2 ^ 52) :
    (F64.ofFields sign exponent fraction).sign = sign ∧
      (F64.ofFields sign exponent fraction).magnitude =
        exponent * 2 ^ 52 + fraction := by
  have bits : (F64.ofFields sign exponent fraction).bits.toNat =
      (if sign then 2 ^ 63 else 0) + exponent * 2 ^ 52 + fraction := by
    rw [F64.ofFields, BitVec.toNat_ofNat, Nat.mod_eq_of_lt]
    cases sign <;> simp only [if_true, Bool.false_eq_true, if_false] <;> omega
  rw [F64.sign_eq, F64.magnitude, bits]
  cases sign <;> simp only [if_true, Bool.false_eq_true, if_false,
    decide_eq_false_iff_not, decide_eq_true_eq] <;> omega

theorem subnormal_bounds {fraction : Nat} (nonzero : fraction ≠ 0)
    (fraction_lt : fraction < 2 ^ 23) :
    fraction.log2 < 23 ∧ 2 ^ 52 ≤ fraction * 2 ^ (52 - fraction.log2) ∧
      fraction * 2 ^ (52 - fraction.log2) < 2 ^ 53 := by
  have top_lt : fraction.log2 < 23 := (Nat.log2_lt nonzero).mpr fraction_lt
  have low : 2 ^ fraction.log2 ≤ fraction := Nat.log2_self_le nonzero
  have high : fraction < 2 ^ (fraction.log2 + 1) := Nat.lt_log2_self
  have powers : 2 ^ fraction.log2 * 2 ^ (52 - fraction.log2) = 2 ^ 52 := by
    rw [← Nat.pow_add]
    congr 1
    omega
  refine ⟨top_lt, ?_, ?_⟩
  · calc
      2 ^ 52 = 2 ^ fraction.log2 * 2 ^ (52 - fraction.log2) := powers.symm
      _ ≤ fraction * 2 ^ (52 - fraction.log2) := Nat.mul_le_mul_right _ low
  · calc
      fraction * 2 ^ (52 - fraction.log2) <
          2 ^ (fraction.log2 + 1) * 2 ^ (52 - fraction.log2) :=
        Nat.mul_lt_mul_of_pos_right high (by positivity)
      _ = 2 ^ 53 := by
        rw [Nat.pow_succ, Nat.mul_right_comm, powers, ← Nat.pow_succ]

/-- The cast keeps the sign, and a finite number; the special patterns stay
above the finite ones. -/
theorem toF64_fields (value : F32) {shift : Nat} (shiftEq : shift = 925) :
    value.toF64.sign = value.sign ∧
      if value.exponent = 255 then
        value.toF64.magnitude = 2047 * 2 ^ 52 + value.fraction * 2 ^ 29
      else
        value.toF64.magnitude < 2047 * 2 ^ 52 ∧
          floatUnits 52 value.toF64.magnitude =
            floatUnits 23 value.magnitude * 2 ^ shift := by
  have exponent_lt : value.exponent < 2 ^ 8 := Nat.mod_lt _ (by decide)
  have fraction_lt : value.fraction < 2 ^ 23 := Nat.mod_lt _ (by decide)
  have split_magnitude : value.magnitude =
      value.exponent * 2 ^ 23 + value.fraction := by
    rw [exponent_eq, fraction_eq, Nat.div_add_mod']
  rw [split_magnitude, floatUnits_of_fields value.exponent fraction_lt, toF64]
  by_cases special : value.exponent = 255
  · rw [if_pos special, if_pos special]
    exact ofFields_fields value.sign (by omega) (by omega)
  · rw [if_neg special, if_neg special]
    by_cases subnormal : value.exponent = 0
    · rw [if_pos subnormal, if_pos subnormal]
      by_cases zero : value.fraction = 0
      · rw [if_pos zero]
        obtain ⟨signEq, magnitudeEq⟩ :=
          ofFields_fields value.sign (by decide : 0 < 2 ^ 11)
            (by decide : 0 < 2 ^ 52)
        rw [Nat.zero_mul, Nat.zero_add] at magnitudeEq
        refine ⟨signEq, by rw [magnitudeEq]; decide, ?_⟩
        rw [magnitudeEq, zero, Nat.zero_mul]
        rfl
      · rw [if_neg zero]
        obtain ⟨top_lt, low, high⟩ := subnormal_bounds zero fraction_lt
        obtain ⟨signEq, magnitudeEq⟩ := ofFields_fields value.sign
          (by omega : 874 + value.fraction.log2 < 2 ^ 11)
          (Nat.mod_lt _ (by decide) :
            value.fraction * 2 ^ (52 - value.fraction.log2) % 2 ^ 52 < 2 ^ 52)
        have fractionEq :
            value.fraction * 2 ^ (52 - value.fraction.log2) % 2 ^ 52 =
              value.fraction * 2 ^ (52 - value.fraction.log2) - 2 ^ 52 := by
          omega
        refine ⟨signEq, by rw [magnitudeEq]; omega, ?_⟩
        rw [magnitudeEq, floatUnits_of_fields _ (Nat.mod_lt _ (by decide)),
          if_neg (by omega), fractionEq, Nat.add_sub_cancel' low,
          Nat.mul_assoc, ← Nat.pow_add]
        congr 2
        omega
    · rw [if_neg subnormal, if_neg subnormal]
      obtain ⟨signEq, magnitudeEq⟩ := ofFields_fields value.sign
        (by omega : value.exponent + 896 < 2 ^ 11)
        (by omega : value.fraction * 2 ^ 29 < 2 ^ 52)
      refine ⟨signEq, by rw [magnitudeEq]; omega, ?_⟩
      have factored : 2 ^ 52 + value.fraction * 2 ^ 29 =
          (2 ^ 23 + value.fraction) * 2 ^ 29 := by
        omega
      rw [magnitudeEq, floatUnits_of_fields _ (by omega), if_neg (by omega),
        factored, Nat.mul_assoc, Nat.mul_assoc, ← Nat.pow_add, ← Nat.pow_add]
      congr 2
      omega

theorem magnitude_toF64_lt {left right : F32}
    (less : left.magnitude < right.magnitude) :
    left.toF64.magnitude < right.toF64.magnitude := by
  have leftFields := (toF64_fields left rfl).2
  have rightFields := (toF64_fields right rfl).2
  have left_lt : left.exponent < 2 ^ 8 := Nat.mod_lt _ (by decide)
  have right_lt : right.exponent < 2 ^ 8 := Nat.mod_lt _ (by decide)
  by_cases left_special : left.exponent = 255
  · rw [if_pos left_special] at leftFields
    have right_special : right.exponent = 255 := by
      rw [exponent_eq] at left_special right_lt ⊢
      omega
    rw [if_pos right_special] at rightFields
    rw [leftFields, rightFields, fraction_eq, fraction_eq]
    rw [exponent_eq] at left_special right_special
    omega
  · rw [if_neg left_special] at leftFields
    by_cases right_special : right.exponent = 255
    · rw [if_pos right_special] at rightFields
      have below := leftFields.1
      omega
    · rw [if_neg right_special] at rightFields
      rw [← (strictMono_floatUnits 52).lt_iff_lt, leftFields.2, rightFields.2]
      exact Nat.mul_lt_mul_of_pos_right (strictMono_floatUnits 23 less)
        (by positivity)

theorem magnitude_toF64_congr {left right : F32}
    (same : left.magnitude = right.magnitude) :
    left.toF64.magnitude = right.toF64.magnitude := by
  have leftFields := (toF64_fields left rfl).2
  have rightFields := (toF64_fields right rfl).2
  rw [exponent_eq, same, ← exponent_eq] at leftFields
  by_cases special : right.exponent = 255
  · rw [if_pos special] at leftFields rightFields
    rw [leftFields, rightFields, fraction_eq, fraction_eq, same]
  · rw [if_neg special] at leftFields rightFields
    rw [← (strictMono_floatUnits 52).injective.eq_iff, leftFields.2,
      rightFields.2]

theorem magnitude_toF64_lt_iff {left right : F32} :
    left.toF64.magnitude < right.toF64.magnitude ↔
      left.magnitude < right.magnitude := by
  refine ⟨?_, magnitude_toF64_lt⟩
  intro less
  by_contra notLess
  rcases Nat.lt_or_eq_of_le (Nat.le_of_not_lt notLess) with greater | same
  · exact absurd less (Nat.lt_asymm (magnitude_toF64_lt greater))
  · exact absurd less (Nat.not_lt_of_le (magnitude_toF64_congr same).le)

theorem totalCmp_toF64 (left right : F32) :
    F64.totalCmp left.toF64 right.toF64 = totalCmp left right := by
  have below := @magnitude_toF64_lt_iff left right
  have above := @magnitude_toF64_lt_iff right left
  rw [F64.totalCmp, totalCmp, (toF64_fields left rfl).1,
    (toF64_fields right rfl).1]
  cases left.sign <;> cases right.sign <;>
    refine compare_congr ?_ ?_ <;>
    simp only [signedRank, Bool.false_eq_true, if_true, if_false] <;> omega

end F32

end Igloo
