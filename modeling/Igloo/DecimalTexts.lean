import Igloo.NearestFloats
import Igloo.RustText

/-!
# Numbers as decimal texts

What the texts of numbers mean, apart from the functions that read them: an
integer is written in digits with a sign, a float as a decimal or as one of the
words for the values that are no numbers.  The readers of the standard library
accept exactly these texts, a float being the one nearest to the decimal.
-/

namespace Igloo

open RustText

/-- Decimal digits with an optional sign. -/
inductive SpellsInteger : List Char → Int → Prop
  | plain {digits : List Char} (nonempty : digits ≠ [])
      (isNumber : digits.all Char.isDigit = true) :
      SpellsInteger digits (Nat.ofDigitChars 10 digits 0)
  | plus {digits : List Char} (nonempty : digits ≠ [])
      (isNumber : digits.all Char.isDigit = true) :
      SpellsInteger ('+' :: digits) (Nat.ofDigitChars 10 digits 0)
  | minus {digits : List Char} (nonempty : digits ≠ [])
      (isNumber : digits.all Char.isDigit = true) :
      SpellsInteger ('-' :: digits) (-(Nat.ofDigitChars 10 digits 0 : Int))

/-- The exponent at the end of a decimal. -/
inductive SpellsExponent : List Char → Int → Prop
  | absent : SpellsExponent [] 0
  | written {mark : Char} {text : List Char} {exponent : Int}
      (isMark : mark = 'e' ∨ mark = 'E')
      (spells : SpellsInteger text exponent) :
      SpellsExponent (mark :: text) exponent

/-- Digits with an optional point and an optional exponent, and the number they
write. -/
inductive SpellsDecimal : List Char → ℚ → Prop
  | whole {digits scale : List Char} {exponent : Int} (nonempty : digits ≠ [])
      (isNumber : digits.all Char.isDigit = true)
      (scaled : SpellsExponent scale exponent) :
      SpellsDecimal (digits ++ scale)
        (Nat.ofDigitChars 10 digits 0 * 10 ^ exponent)
  | point {digits decimals scale : List Char} {exponent : Int}
      (nonempty : digits ++ decimals ≠ [])
      (isNumber : (digits ++ decimals).all Char.isDigit = true)
      (scaled : SpellsExponent scale exponent) :
      SpellsDecimal (digits ++ '.' :: (decimals ++ scale))
        (Nat.ofDigitChars 10 (digits ++ decimals) 0 *
          10 ^ (exponent - decimals.length))

section Floats

variable (fractionBits leastScale infiniteExponent : Nat)

/-- A float without its sign: a word, or a decimal whose nearest pattern it
is. -/
inductive SpellsMagnitude : List Char → Nat → Prop
  | infinity {text : List Char}
      (isWord : text.map Char.toLower = "inf".toList ∨
        text.map Char.toLower = "infinity".toList) :
      SpellsMagnitude text (infiniteExponent * 2 ^ fractionBits)
  | nan {text : List Char} (isWord : text.map Char.toLower = "nan".toList) :
      SpellsMagnitude text
        (infiniteExponent * 2 ^ fractionBits + 2 ^ (fractionBits - 1))
  | number {text : List Char} {number : ℚ} {pattern : Nat}
      (spells : SpellsDecimal text number)
      (nearest : IsNearest (floatValue fractionBits leastScale)
        (infiniteExponent * 2 ^ fractionBits) number pattern) :
      SpellsMagnitude text pattern

/-- A float with an optional sign, which zeros and NaNs keep. -/
inductive SpellsFloat : List Char → Bool → Nat → Prop
  | plain {text : List Char} {pattern : Nat}
      (spells : SpellsMagnitude fractionBits leastScale infiniteExponent text
        pattern) : SpellsFloat text false pattern
  | plus {text : List Char} {pattern : Nat}
      (spells : SpellsMagnitude fractionBits leastScale infiniteExponent text
        pattern) : SpellsFloat ('+' :: text) false pattern
  | minus {text : List Char} {pattern : Nat}
      (spells : SpellsMagnitude fractionBits leastScale infiniteExponent text
        pattern) : SpellsFloat ('-' :: text) true pattern

end Floats

/-- The text spells a float of 32 bits. -/
def SpellsF32 (text : List Char) (value : F32) : Prop :=
  ∃ negative pattern, SpellsFloat 23 149 255 text negative pattern ∧
    (⟨BitVec.ofNat 32 ((if negative then 2 ^ 31 else 0) + pattern)⟩ : F32) =
      value

/-- The text spells a float of 64 bits. -/
def SpellsF64 (text : List Char) (value : F64) : Prop :=
  ∃ negative pattern, SpellsFloat 52 1074 2047 text negative pattern ∧
    (⟨BitVec.ofNat 64 ((if negative then 2 ^ 63 else 0) + pattern)⟩ : F64) =
      value

section Integers

theorem spellsInteger_minus_iff {digits : List Char} {value : Int} :
    SpellsInteger ('-' :: digits) value ↔
      digits ≠ [] ∧ digits.all Char.isDigit = true ∧
        -(Nat.ofDigitChars 10 digits 0 : Int) = value := by
  constructor
  · intro spells
    cases spells with
    | plain nonempty isNumber => simp at isNumber
    | minus nonempty isNumber => exact ⟨nonempty, isNumber, rfl⟩
  · rintro ⟨nonempty, isNumber, rfl⟩
    exact .minus nonempty isNumber

theorem spellsInteger_plus_iff {digits : List Char} {value : Int} :
    SpellsInteger ('+' :: digits) value ↔
      digits ≠ [] ∧ digits.all Char.isDigit = true ∧
        (Nat.ofDigitChars 10 digits 0 : Int) = value := by
  constructor
  · intro spells
    cases spells with
    | plain nonempty isNumber => simp at isNumber
    | plus nonempty isNumber => exact ⟨nonempty, isNumber, rfl⟩
  · rintro ⟨nonempty, isNumber, rfl⟩
    exact .plus nonempty isNumber

theorem spellsInteger_unsigned_iff {text : List Char} {value : Int}
    (noMinus : ∀ rest, text ≠ '-' :: rest)
    (noPlus : ∀ rest, text ≠ '+' :: rest) :
    SpellsInteger text value ↔
      text ≠ [] ∧ text.all Char.isDigit = true ∧
        (Nat.ofDigitChars 10 text 0 : Int) = value := by
  constructor
  · intro spells
    cases spells with
    | plain nonempty isNumber => exact ⟨nonempty, isNumber, rfl⟩
    | plus nonempty isNumber => exact absurd rfl (noPlus _)
    | minus nonempty isNumber => exact absurd rfl (noMinus _)
  · rintro ⟨nonempty, isNumber, rfl⟩
    exact .plain nonempty isNumber

/-- A guard on digits lets exactly the nonempty runs of digits through. -/
theorem ite_digits_eq_some_iff {Value : Type*} {digits : List Char}
    {result : Option Value} {value : Value} :
    (if (digits.isEmpty || !digits.all Char.isDigit) = true then none
      else result) = some value ↔
      digits ≠ [] ∧ digits.all Char.isDigit = true ∧ result = some value := by
  cases digits with
  | nil => simp
  | cons ch digits => cases isNumber : (ch :: digits).all Char.isDigit <;> simp

/-- An integer is parsed exactly from its spellings, in the bounds of its
type. -/
theorem parseSigned_eq_some_iff {least greatest value : Int}
    {text : List Char} :
    parseSigned least greatest text = some value ↔
      SpellsInteger text value ∧ least ≤ value ∧ value ≤ greatest := by
  have bounded : ∀ number : Int,
      (if least ≤ number ∧ number ≤ greatest then some number else none) =
          some value ↔
        number = value ∧ least ≤ value ∧ value ≤ greatest := by
    intro number
    rw [Option.ite_none_right_eq_some, Option.some.injEq]
    constructor
    · rintro ⟨inBounds, rfl⟩
      exact ⟨rfl, inBounds⟩
    · rintro ⟨rfl, inBounds⟩
      exact ⟨inBounds, rfl⟩
  unfold parseSigned
  split
  rename_i negative digits isSplit
  rw [ite_digits_eq_some_iff]
  dsimp only
  rw [bounded]
  split at isSplit
  · cases isSplit
    rw [spellsInteger_minus_iff]
    simp only [if_true, and_assoc]
  · cases isSplit
    rw [spellsInteger_plus_iff]
    simp only [Bool.false_eq_true, if_false, and_assoc]
  · rename_i noMinus noPlus
    cases isSplit
    rw [spellsInteger_unsigned_iff noMinus noPlus]
    simp only [Bool.false_eq_true, if_false, and_assoc]

/-- The exponent of a float has no bounds. -/
theorem parseExponent_eq_some_iff {text : List Char} {value : Int} :
    parseDecimal.parseExponent text = some value ↔
      SpellsInteger text value := by
  have unsigned : ∀ (digits : List Char) (number : Nat),
      parseDecimal.unsigned digits = some number ↔
        digits ≠ [] ∧ digits.all Char.isDigit = true ∧
          Nat.ofDigitChars 10 digits 0 = number := by
    intro digits number
    rw [parseDecimal.unsigned, ite_digits_eq_some_iff, Option.some.injEq]
  unfold parseDecimal.parseExponent
  split
  · rw [spellsInteger_minus_iff]
    simp [unsigned, Option.bind_eq_some_iff, and_assoc]
  · rw [spellsInteger_plus_iff]
    simp [unsigned, and_assoc]
  · rename_i noMinus noPlus
    rw [spellsInteger_unsigned_iff noMinus noPlus]
    simp [unsigned, and_assoc]

end Integers

section Decimals

theorem span_digits {digits rest : List Char}
    (isNumber : digits.all Char.isDigit = true)
    (stops : ∀ ch ∈ rest.head?, ch.isDigit = false) :
    (digits ++ rest).span Char.isDigit = (digits, rest) := by
  have each := List.all_eq_true.mp isNumber
  rw [List.span_eq_takeWhile_dropWhile,
    List.takeWhile_append_of_pos each, List.dropWhile_append_of_pos each]
  cases rest with
  | nil => simp
  | cons ch rest => simp [stops ch rfl]

theorem SpellsExponent.head {scale : List Char} {exponent : Int}
    (spells : SpellsExponent scale exponent) :
    ∀ ch ∈ scale.head?, ch.isDigit = false ∧ ch ≠ '.' := by
  cases spells with
  | absent => simp
  | written isMark _ =>
      intro ch isHead
      cases isHead
      rcases isMark with rfl | rfl <;> exact ⟨rfl, by decide⟩

theorem spellsDecimal_of_parseDecimal {text : List Char} {digits : Nat}
    {tens : Int} (parsed : parseDecimal text = some (digits, tens)) :
    SpellsDecimal text (digits * 10 ^ tens) := by
  -- the text is cut into its digits, its decimals and its exponent
  have wholeDigits := List.all_takeWhile (p := Char.isDigit) (l := text)
  have textEq := List.takeWhile_append_dropWhile (p := Char.isDigit) (l := text)
  unfold parseDecimal at parsed
  rw [List.span_eq_takeWhile_dropWhile] at parsed
  dsimp only at parsed
  rw [← textEq]
  generalize text.takeWhile Char.isDigit = whole at *
  generalize text.dropWhile Char.isDigit = afterWhole at *
  split at parsed
  · rename_i more
    have decimalDigits := List.all_takeWhile (p := Char.isDigit) (l := more)
    have moreEq := List.takeWhile_append_dropWhile (p := Char.isDigit)
      (l := more)
    rw [List.span_eq_takeWhile_dropWhile] at parsed
    dsimp only at parsed
    rw [← moreEq]
    generalize more.takeWhile Char.isDigit = decimals at *
    generalize more.dropWhile Char.isDigit = rest at *
    rw [Option.ite_none_left_eq_some] at parsed
    obtain ⟨someDigits, parsed⟩ := parsed
    have nonempty : whole ++ decimals ≠ [] := by simpa using someDigits
    have isNumber : (whole ++ decimals).all Char.isDigit = true := by
      rw [List.all_append, wholeDigits, decimalDigits]
      rfl
    split at parsed
    · cases parsed
      simpa using SpellsDecimal.point nonempty isNumber .absent
    · obtain ⟨exponent, spelled, resultEq⟩ := Option.map_eq_some_iff.mp parsed
      cases resultEq
      exact .point nonempty isNumber
        (.written (.inl rfl) (parseExponent_eq_some_iff.mp spelled))
    · obtain ⟨exponent, spelled, resultEq⟩ := Option.map_eq_some_iff.mp parsed
      cases resultEq
      exact .point nonempty isNumber
        (.written (.inr rfl) (parseExponent_eq_some_iff.mp spelled))
    · cases parsed
  · rw [Option.ite_none_left_eq_some] at parsed
    obtain ⟨someDigits, parsed⟩ := parsed
    have nonempty : whole ≠ [] := by simpa using someDigits
    split at parsed
    · obtain rfl := ‹afterWhole = []›
      cases parsed
      simpa using SpellsDecimal.whole nonempty wholeDigits .absent
    · obtain rfl := ‹afterWhole = 'e' :: _›
      obtain ⟨exponent, spelled, resultEq⟩ := Option.map_eq_some_iff.mp parsed
      cases resultEq
      simpa using SpellsDecimal.whole nonempty wholeDigits
        (.written (.inl rfl) (parseExponent_eq_some_iff.mp spelled))
    · obtain rfl := ‹afterWhole = 'E' :: _›
      obtain ⟨exponent, spelled, resultEq⟩ := Option.map_eq_some_iff.mp parsed
      cases resultEq
      simpa using SpellsDecimal.whole nonempty wholeDigits
        (.written (.inr rfl) (parseExponent_eq_some_iff.mp spelled))
    · cases parsed

theorem exists_parseDecimal_of_spellsDecimal {text : List Char} {number : ℚ}
    (spells : SpellsDecimal text number) :
    ∃ digits tens, parseDecimal text = some (digits, tens) ∧
      number = digits * 10 ^ tens := by
  cases spells with
  | @whole digits scale exponent nonempty isNumber scaled =>
      have head := scaled.head
      refine ⟨_, exponent, ?_, rfl⟩
      rw [parseDecimal,
        span_digits isNumber fun ch isHead => (head ch isHead).1]
      cases scaled with
      | absent => simp [nonempty]
      | written isMark spelled =>
          have isExponent := parseExponent_eq_some_iff.mpr spelled
          rcases isMark with rfl | rfl <;> simp [nonempty, isExponent]
  | @point digits decimals scale exponent nonempty isNumber scaled =>
      have head := scaled.head
      rw [List.all_append, Bool.and_eq_true] at isNumber
      refine ⟨_, exponent - decimals.length, ?_, rfl⟩
      rw [parseDecimal, span_digits isNumber.1 (by simp)]
      simp only [span_digits isNumber.2 fun ch isHead => (head ch isHead).1]
      rw [if_neg (by simpa using nonempty)]
      cases scaled with
      | absent => simp
      | written isMark spelled =>
          have isExponent := parseExponent_eq_some_iff.mpr spelled
          rcases isMark with rfl | rfl <;> simp [isExponent]

theorem SpellsDecimal.head {text : List Char} {number : ℚ}
    (spells : SpellsDecimal text number) :
    ∃ ch rest, text = ch :: rest ∧ (ch.isDigit = true ∨ ch = '.') := by
  have begins : ∀ {digits : List Char} (rest : List Char),
      digits.all Char.isDigit = true → digits ≠ [] →
        ∃ ch more, digits ++ rest = ch :: more ∧
          (ch.isDigit = true ∨ ch = '.') := by
    intro digits rest isNumber nonempty
    obtain ⟨ch, digits, rfl⟩ := List.exists_cons_of_ne_nil nonempty
    rw [List.all_cons, Bool.and_eq_true] at isNumber
    exact ⟨ch, digits ++ rest, rfl, .inl isNumber.1⟩
  cases spells with
  | whole nonempty isNumber scaled => exact begins _ isNumber nonempty
  | @point digits decimals scale exponent nonempty isNumber scaled =>
      rw [List.all_append, Bool.and_eq_true] at isNumber
      cases digits with
      | nil => exact ⟨'.', _, rfl, .inr rfl⟩
      | cons ch digits => exact begins _ isNumber.1 (List.cons_ne_nil _ _)

theorem toLower_of_isDigit {ch : Char} (isDigit : ch.isDigit = true) :
    ch.toLower = ch := by
  simp only [Char.isDigit, Bool.and_eq_true, decide_eq_true_eq, ge_iff_le,
    UInt32.le_iff_toNat_le] at isDigit
  unfold Char.toLower
  split
  · rename_i isUpper
    simp only [ge_iff_le, UInt32.le_iff_toNat_le] at isUpper
    have last : ('9'.val).toNat = 57 := rfl
    have first : ('A'.val).toNat = 65 := rfl
    omega
  · rfl

theorem SpellsDecimal.map_toLower_ne {text : List Char} {number : ℚ}
    (spells : SpellsDecimal text number) {first : Char} {word : List Char}
    (isLetter : first.isDigit = false ∧ first ≠ '.') :
    text.map Char.toLower ≠ first :: word := by
  obtain ⟨ch, rest, rfl, begins⟩ := spells.head
  intro same
  rw [List.map_cons, List.cons.injEq] at same
  rcases begins with isDigit | rfl
  · rw [toLower_of_isDigit isDigit] at same
    rw [same.1, isLetter.1] at isDigit
    cases isDigit
  · exact isLetter.2 same.1.symm

end Decimals

section Reading

variable {fractionBits leastScale infiniteExponent : Nat}

/-- What `parseFloatText` does with a text after its sign. -/
def parseMagnitude (fractionBits leastScale infiniteExponent : Nat)
    (text : List Char) : Option Nat :=
  let folded := text.map Char.toLower
  if folded = "inf".toList ∨ folded = "infinity".toList then
    some (infiniteExponent * 2 ^ fractionBits)
  else if folded = "nan".toList then
    some (infiniteExponent * 2 ^ fractionBits + 2 ^ (fractionBits - 1))
  else
    (parseDecimal text).map fun (digits, tens) =>
      nearestBits fractionBits leastScale infiniteExponent digits tens

theorem parseMagnitude_eq_some_iff (some_bits : 0 < fractionBits)
    {text : List Char} {pattern : Nat} :
    parseMagnitude fractionBits leastScale infiniteExponent text =
        some pattern ↔
      SpellsMagnitude fractionBits leastScale infiniteExponent text
        pattern := by
  unfold parseMagnitude
  dsimp only
  constructor
  · intro parsed
    split at parsed
    · rename_i isWord
      cases parsed
      exact .infinity isWord
    · split at parsed
      · rename_i isWord
        cases parsed
        exact .nan isWord
      · obtain ⟨⟨digits, tens⟩, isDecimal, rfl⟩ :=
          Option.map_eq_some_iff.mp parsed
        exact .number (spellsDecimal_of_parseDecimal isDecimal)
          (isNearest_nearestBits some_bits ..)
  · intro spells
    cases spells with
    | infinity isWord => rw [if_pos isWord]
    | nan isWord =>
        rw [if_neg (by rw [isWord]; decide), if_pos isWord]
    | number spelled nearest =>
        rw [if_neg, if_neg]
        · obtain ⟨digits, tens, parsed, rfl⟩ :=
            exists_parseDecimal_of_spellsDecimal spelled
          rw [parsed, Option.map_some]
          exact congrArg some ((isNearest_nearestBits some_bits ..).unique
            (strictMono_floatValue fractionBits leastScale) nearest)
        · exact spelled.map_toLower_ne (by decide)
        · rintro (same | same)
          · exact spelled.map_toLower_ne (by decide) same
          · exact spelled.map_toLower_ne (by decide) same

theorem parseMagnitude_sign {sign : Char} (isSign : sign = '-' ∨ sign = '+')
    (rest : List Char) :
    parseMagnitude fractionBits leastScale infiniteExponent (sign :: rest) =
      none := by
  have noDecimal : parseDecimal (sign :: rest) = none := by
    rw [parseDecimal, List.span_eq_takeWhile_dropWhile]
    rcases isSign with rfl | rfl <;> simp
  rcases isSign with rfl | rfl <;> simp [parseMagnitude, noDecimal]

theorem map_parseMagnitude (negative : Bool) (text : List Char) :
    (parseMagnitude fractionBits leastScale infiniteExponent text).map
        (negative, ·) =
      let folded := text.map Char.toLower
      if folded = "inf".toList ∨ folded = "infinity".toList then
        some (negative, infiniteExponent * 2 ^ fractionBits)
      else if folded = "nan".toList then
        some (negative,
          infiniteExponent * 2 ^ fractionBits + 2 ^ (fractionBits - 1))
      else
        (parseDecimal text).map fun (digits, tens) => (negative,
          nearestBits fractionBits leastScale infiniteExponent digits
            tens) := by
  unfold parseMagnitude
  dsimp only
  split_ifs
  · rfl
  · rfl
  · rw [Option.map_map]
    rfl

theorem parseFloatText_eq_some_iff (some_bits : 0 < fractionBits)
    {text : List Char} {negative : Bool} {pattern : Nat} :
    parseFloatText fractionBits leastScale infiniteExponent text =
        some (negative, pattern) ↔
      SpellsFloat fractionBits leastScale infiniteExponent text negative
        pattern := by
  -- a magnitude has no sign of its own
  have unsigned : ∀ {sign : Char} {rest : List Char},
      sign = '-' ∨ sign = '+' →
        ¬ SpellsMagnitude fractionBits leastScale infiniteExponent
          (sign :: rest) pattern := by
    intro sign rest isSign spells
    rw [← parseMagnitude_eq_some_iff some_bits,
      parseMagnitude_sign isSign] at spells
    cases spells
  unfold parseFloatText
  split
  rename_i isNegative magnitude isSplit
  rw [← map_parseMagnitude, Option.map_eq_some_iff]
  simp only [parseMagnitude_eq_some_iff some_bits]
  constructor
  · rintro ⟨found, spells, resultEq⟩
    cases resultEq
    split at isSplit <;> cases isSplit
    · exact .minus spells
    · exact .plus spells
    · exact .plain spells
  · intro spells
    cases spells with
    | plain spells =>
        split at isSplit
        · exact absurd spells (unsigned (.inl rfl))
        · exact absurd spells (unsigned (.inr rfl))
        · cases isSplit
          exact ⟨pattern, spells, rfl⟩
    | plus spells =>
        cases isSplit
        exact ⟨pattern, spells, rfl⟩
    | minus spells =>
        cases isSplit
        exact ⟨pattern, spells, rfl⟩

end Reading

theorem F64.parse_eq_some_iff {text : List Char} {value : F64} :
    F64.parse text = some value ↔ SpellsF64 text value := by
  rw [F64.parse, Option.map_eq_some_iff, SpellsF64]
  simp only [Prod.exists, parseFloatText_eq_some_iff (show 0 < 52 by decide)]

theorem F32.parse_eq_some_iff {text : List Char} {value : F32} :
    F32.parse text = some value ↔ SpellsF32 text value := by
  rw [F32.parse, Option.map_eq_some_iff, SpellsF32]
  simp only [Prod.exists, parseFloatText_eq_some_iff (show 0 < 23 by decide)]

end Igloo
