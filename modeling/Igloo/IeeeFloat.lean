import Mathlib.Data.Nat.Digits.Lemmas

/-!
# IEEE floats and their decimal display

The floats of the source are their bit patterns.  `F64.display` is what
Rust's `Display` prints: the shortest decimal that lies in the rounding
interval of the float, the closest one among those, and never an exponent.
`F64.parse` and `F32.parse` read decimals back, rounding to nearest.
-/

namespace Igloo

/-- An `f32` as its bit pattern. -/
structure F32 where
  bits : BitVec 32
  deriving DecidableEq, Repr

/-- An `f64` as its bit pattern. -/
structure F64 where
  bits : BitVec 64
  deriving DecidableEq, Repr

namespace F32

def sign (value : F32) : Bool :=
  value.bits.msb

def exponent (value : F32) : Nat :=
  value.bits.toNat / 2 ^ 23 % 2 ^ 8

def fraction (value : F32) : Nat :=
  value.bits.toNat % 2 ^ 23

end F32

namespace F64

def sign (value : F64) : Bool :=
  value.bits.msb

def exponent (value : F64) : Nat :=
  value.bits.toNat / 2 ^ 52 % 2 ^ 11

def fraction (value : F64) : Nat :=
  value.bits.toNat % 2 ^ 52

def ofFields (sign : Bool) (exponent fraction : Nat) : F64 :=
  ⟨BitVec.ofNat 64
    ((if sign then 2 ^ 63 else 0) + exponent * 2 ^ 52 + fraction)⟩

/-- `f64::is_finite`. -/
def isFinite (value : F64) : Bool :=
  value.exponent != 2047

/-- The magnitude of a finite float is `significand * 2 ^ scale`. -/
def significand (value : F64) : Nat :=
  if value.exponent = 0 then value.fraction else 2 ^ 52 + value.fraction

def scale (value : F64) : Int :=
  max value.exponent 1 - 1075

/-- Half the distances to the neighbouring floats, below and above, in
quarters of a unit in the last place.  Below a power of two the distance is
half of what it is above. -/
def halfGaps (value : F64) : Nat × Nat :=
  if value.exponent ≠ 0 ∧ value.fraction = 0 then (1, 2) else (2, 2)

/-- `magnitude * 2 ^ twos` and `digits * 10 ^ tens`, both multiplied by the
same factor so that they are natural numbers. -/
def scaledPair (magnitude : Nat) (twos : Int) (digits : Nat) (tens : Int) :
    Nat × Nat :=
  (magnitude * 2 ^ twos.toNat * 10 ^ (-tens).toNat,
    digits * 10 ^ tens.toNat * 2 ^ (-twos).toNat)

/-- Whether the decimal `digits * 10 ^ tens` rounds to the float. -/
def rounds (value : F64) (digits : Nat) (tens : Int) : Bool :=
  let quarters := 4 * value.significand
  let (below, above) := value.halfGaps
  let twos := value.scale - 2
  let (low, decimal) := scaledPair (quarters - below) twos digits tens
  let (high, _) := scaledPair (quarters + above) twos digits tens
  if value.significand % 2 = 0 then low ≤ decimal && decimal ≤ high
  else low < decimal && decimal < high

/-- The digits of the float cut off at the position `tens`. -/
def digitsAt (value : F64) (tens : Int) : Nat :=
  let (magnitude, unit) := scaledPair value.significand value.scale 1 tens
  magnitude / unit

/-- Whether the next decimal up is at least as close as the one below. -/
def roundsUp (value : F64) (tens : Int) : Bool :=
  let (magnitude, unit) := scaledPair value.significand value.scale 1 tens
  unit ≤ 2 * (magnitude % unit)

/-- The shortest decimal that rounds to the float: positions are tried from
the most significant one down.  At position `-1076`, where the search ends,
the cut-off digits are exact. -/
def shortestFrom (value : F64) : Nat → Int → Nat × Int
  | 0, tens => (value.digitsAt tens, tens)
  | remaining + 1, tens =>
      let digits := value.digitsAt tens
      match digits ≠ 0 && value.rounds digits tens,
          value.rounds (digits + 1) tens with
      | true, true =>
          (if value.roundsUp tens then digits + 1 else digits, tens)
      | true, false => (digits, tens)
      | false, true => (digits + 1, tens)
      | false, false => shortestFrom value remaining (tens - 1)

def shortest (value : F64) : Nat × Int :=
  if value.significand = 0 then (0, 0) else shortestFrom value 1385 309

/-- `digits * 10 ^ tens` in positional notation. -/
def positional (digits : Nat) (tens : Int) : List Char :=
  if 0 ≤ tens then Nat.toDigits 10 (digits * 10 ^ tens.toNat)
  else
    let places := (-tens).toNat
    let decimals := Nat.toDigits 10 (digits % 10 ^ places)
    Nat.toDigits 10 (digits / 10 ^ places) ++
      '.' :: (List.replicate (places - decimals.length) '0' ++ decimals)

/-- `Display` of a finite `f64`. -/
def display (value : F64) : String :=
  String.ofList ((if value.sign then ['-'] else []) ++
    positional value.shortest.1 value.shortest.2)

/-- Decimal notation without a sign: digits, with a fraction or without. -/
inductive Positional : List Char → Prop
  | whole (digits : List Char) (nonempty : digits ≠ [])
      (isDigit : ∀ ch ∈ digits, ch.isDigit) : Positional digits
  | fractional (digits decimals : List Char) (nonempty : digits ≠ [])
      (isDigit : ∀ ch ∈ digits, ch.isDigit) (decimals_nonempty : decimals ≠ [])
      (decimals_isDigit : ∀ ch ∈ decimals, ch.isDigit) :
      Positional (digits ++ '.' :: decimals)

theorem isDigit_toDigits (number : Nat) :
    ∀ ch ∈ Nat.toDigits 10 number, ch.isDigit :=
  fun _ digitMem => Nat.isDigit_of_mem_toDigits (by decide) (by decide) digitMem

/-- A displayed float has no exponent: its magnitude is in positional
notation. -/
theorem positional_positional (digits : Nat) (tens : Int) :
    Positional (positional digits tens) := by
  unfold positional
  split
  · exact .whole _ Nat.toDigits_ne_nil (isDigit_toDigits _)
  · refine .fractional _ _ Nat.toDigits_ne_nil (isDigit_toDigits _) ?_ ?_
    · simp [Nat.toDigits_ne_nil]
    · intro ch chMem
      rcases List.mem_append.mp chMem with padding | decimal
      · rw [List.eq_of_mem_replicate padding]
        decide
      · exact isDigit_toDigits _ ch decimal

/-- A tenth is printed with one digit although it is not a tenth. -/
example : (ofFields false 1019 0x999999999999A).display = "0.1" := by
  decide +kernel

end F64

/-- The cast `as f64`, which is exact on finite floats. -/
def F32.toF64 (value : F32) : F64 :=
  if value.exponent = 255 then
    F64.ofFields value.sign 2047 (value.fraction * 2 ^ 29)
  else if value.exponent = 0 then
    if value.fraction = 0 then F64.ofFields value.sign 0 0
    else
      -- a subnormal `f32` is a normal `f64`
      let top := value.fraction.log2
      F64.ofFields value.sign (874 + top)
        (value.fraction * 2 ^ (52 - top) % 2 ^ 52)
  else F64.ofFields value.sign (value.exponent + 896) (value.fraction * 2 ^ 29)

/-- The bits of the float nearest to `digits * 10 ^ tens`, ties to even, in
the format with the given number of fraction bits, whose least positive float
is `2 ^ -leastScale`. -/
def nearestBits (fractionBits leastScale infiniteExponent : Nat)
    (digits : Nat) (tens : Int) : Nat :=
  let numerator := digits * 10 ^ tens.toNat
  let denominator := 10 ^ (-tens).toNat
  let estimate : Int := numerator.log2 - denominator.log2
  let tooHigh :=
    numerator * 2 ^ (-estimate).toNat < denominator * 2 ^ estimate.toNat
  let exponent := if tooHigh then estimate - 1 else estimate
  let scale : Int := max (exponent - fractionBits) (-leastScale)
  let magnitude := numerator * 2 ^ (-scale).toNat
  let unit := denominator * 2 ^ scale.toNat
  let quotient := magnitude / unit
  let remainder := magnitude % unit
  let rounded :=
    if unit < 2 * remainder ∨ (unit = 2 * remainder ∧ quotient % 2 = 1) then
      quotient + 1
    else quotient
  -- a carry out of the significand raises the exponent by itself
  let bits := (scale + leastScale).toNat * 2 ^ fractionBits + rounded
  if numerator = 0 then 0
  else min bits (infiniteExponent * 2 ^ fractionBits)

/-- Digits with an optional point and an optional exponent. -/
def parseDecimal (text : List Char) : Option (Nat × Int) :=
  let (whole, afterWhole) := text.span Char.isDigit
  let (decimals, rest) :=
    match afterWhole with
    | '.' :: more => more.span Char.isDigit
    | _ => ([], afterWhole)
  let digits := Nat.ofDigitChars 10 (whole ++ decimals) 0
  if whole.isEmpty && decimals.isEmpty then none
  else
    match rest with
    | [] => some (digits, -decimals.length)
    | 'e' :: more | 'E' :: more =>
        (parseExponent more).map fun exponent =>
          (digits, exponent - decimals.length)
    | _ => none
where
  parseExponent : List Char → Option Int
    | '-' :: digits => (unsigned digits).map fun value => -(value : Int)
    | '+' :: digits => (unsigned digits).map Int.ofNat
    | digits => (unsigned digits).map Int.ofNat
  unsigned (digits : List Char) : Option Nat :=
    if digits.isEmpty || !digits.all Char.isDigit then none
    else some (Nat.ofDigitChars 10 digits 0)

/-- The text of a float: its sign, and the bits of its magnitude in a format
given as for `nearestBits`. -/
def parseFloatText (fractionBits leastScale infiniteExponent : Nat)
    (text : List Char) : Option (Bool × Nat) :=
  let (negative, unsigned) :=
    match text with
    | '-' :: rest => (true, rest)
    | '+' :: rest => (false, rest)
    | _ => (false, text)
  let folded := unsigned.map Char.toLower
  if folded = "inf".toList ∨ folded = "infinity".toList then
    some (negative, infiniteExponent * 2 ^ fractionBits)
  else if folded = "nan".toList then
    some (negative,
      infiniteExponent * 2 ^ fractionBits + 2 ^ (fractionBits - 1))
  else
    (parseDecimal unsigned).map fun (digits, tens) =>
      (negative,
        nearestBits fractionBits leastScale infiniteExponent digits tens)

/-- `str::parse::<f64>`. -/
def F64.parse (text : List Char) : Option F64 :=
  (parseFloatText 52 1074 2047 text).map fun (negative, bits) =>
    ⟨BitVec.ofNat 64 ((if negative then 2 ^ 63 else 0) + bits)⟩

/-- `str::parse::<f32>`. -/
def F32.parse (text : List Char) : Option F32 :=
  (parseFloatText 23 149 255 text).map fun (negative, bits) =>
    ⟨BitVec.ofNat 32 ((if negative then 2 ^ 31 else 0) + bits)⟩

end Igloo
