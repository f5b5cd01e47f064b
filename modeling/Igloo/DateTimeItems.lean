import Igloo.DecimalTexts

/-!
# Items of date and time formats

A format of dates and times is a sequence of items, each of which reads the
beginning of what is left of a text.  Numbers are greedy: one ends at its
greatest width or where the digits end.  What a format reads is stated as a
relation and computed by a scanner, and the two agree, so that a format reads a
text in one way only.
-/

namespace Igloo

namespace DateTimeItems

open RustText

/-- An item of a format; all but the first two read a number. -/
inductive Item
  | oneOf (chars : List Char)
  | space
  /-- Blanks and up to `width` digits. -/
  | number (width : Nat) (least greatest : Int)
  /-- Exactly `width` digits. -/
  | exactly (width : Nat) (least greatest : Int)
  /-- Blanks and up to four digits, or any number of them after a sign. -/
  | year
  /-- The nanoseconds of a point and digits, if there are any. -/
  | fraction
  /-- The minutes of a time zone to the east of Greenwich. -/
  | offset
  /-- Not in the text, and read as zero. -/
  | unwritten
  deriving DecidableEq

def literal (ch : Char) : Item :=
  .oneOf [ch]

/-- The digits that a number takes from the text before the rest. -/
structure DigitRun (fewest : Nat) (width : Option Nat)
    (digits rest : List Char) : Prop where
  isNumber : digits.all Char.isDigit = true
  fewest_le : fewest ≤ digits.length
  le_width : ∀ most ∈ width, digits.length ≤ most
  ends : width = some digits.length ∨ ∀ ch ∈ rest.head?, ch.isDigit = false

/-- The number that digits write. -/
def number (digits : List Char) : Int :=
  Nat.ofDigitChars 10 digits 0

/-- The nanoseconds that the digits of a fraction write. -/
def nanoseconds (digits : List Char) : Int :=
  number (digits.take 9) * 10 ^ (9 - digits.length)

/-- The side of Greenwich that a sign stands for. -/
def eastward (sign : Char) : Option Int :=
  if sign = '+' then some 1
  else if sign = '-' ∨ sign = '\u2212' then some (-1)
  else none

/-- The item reads the chunk, up to the rest, as the numbers. -/
inductive ReadsItem : Item → List Char → List Char → List Int → Prop
  | oneOf {chars : List Char} {ch : Char} (isOne : ch ∈ chars)
      (rest : List Char) : ReadsItem (.oneOf chars) [ch] rest []
  | space {blanks rest : List Char}
      (areBlank : blanks.all isWhitespace = true)
      (ends : ∀ ch ∈ rest.head?, isWhitespace ch = false) :
      ReadsItem .space blanks rest []
  | number {width : Nat} {least greatest : Int}
      {blanks digits rest : List Char}
      (areBlank : blanks.all isWhitespace = true)
      (run : DigitRun 1 (some width) digits rest)
      (inBounds : least ≤ number digits ∧ number digits ≤ greatest) :
      ReadsItem (.number width least greatest) (blanks ++ digits) rest
        [number digits]
  | exactly {width : Nat} {least greatest : Int} {digits rest : List Char}
      (run : DigitRun width (some width) digits rest)
      (inBounds : least ≤ number digits ∧ number digits ≤ greatest) :
      ReadsItem (.exactly width least greatest) digits rest [number digits]
  | year {blanks digits rest : List Char}
      (areBlank : blanks.all isWhitespace = true)
      (run : DigitRun 1 (some 4) digits rest) :
      ReadsItem .year (blanks ++ digits) rest [number digits]
  | commonEra {blanks digits rest : List Char}
      (areBlank : blanks.all isWhitespace = true)
      (run : DigitRun 1 none digits rest) :
      ReadsItem .year (blanks ++ '+' :: digits) rest [number digits]
  | beforeCommonEra {blanks digits rest : List Char}
      (areBlank : blanks.all isWhitespace = true)
      (run : DigitRun 1 none digits rest) :
      ReadsItem .year (blanks ++ '-' :: digits) rest [-number digits]
  | whole {rest : List Char} (noPoint : rest.head? ≠ some '.') :
      ReadsItem .fraction [] rest [0]
  | fraction {digits rest : List Char} (run : DigitRun 1 none digits rest) :
      ReadsItem .fraction ('.' :: digits) rest [nanoseconds digits]
  | zulu {mark : Char} (isMark : mark = 'Z' ∨ mark = 'z')
      (rest : List Char) : ReadsItem .offset [mark] rest [0]
  | offset {sign : Char} {side : Int} {hours minutes rest : List Char}
      (isSign : eastward sign = some side)
      (hoursRun : DigitRun 2 (some 2) hours (':' :: (minutes ++ rest)))
      (minutesRun : DigitRun 2 (some 2) minutes rest)
      (inBounds : number hours ≤ 23 ∧ number minutes ≤ 59) :
      ReadsItem .offset (sign :: (hours ++ ':' :: minutes)) rest
        [side * (number hours * 60 + number minutes)]
  | unwritten (rest : List Char) : ReadsItem .unwritten [] rest [0]

/-- The items read the whole text as the numbers. -/
inductive Reads : List Item → List Char → List Int → Prop
  | nil : Reads [] [] []
  | cons {item : Item} {items : List Item} {chunk rest : List Char}
      {found numbers : List Int} (first : ReadsItem item chunk rest found)
      (others : Reads items rest numbers) :
      Reads (item :: items) (chunk ++ rest) (found ++ numbers)

section Scanning

/-- As many digits as the text begins with and the width allows. -/
def takeDigits (width : Option Nat) (text : List Char) : List Char :=
  let digits := text.takeWhile Char.isDigit
  width.elim digits fun most => digits.take most

def scanDigits (fewest : Nat) (width : Option Nat) (text : List Char) :
    Option (List Char × List Char) :=
  let digits := takeDigits width text
  if fewest ≤ digits.length then some (digits, text.drop digits.length)
  else none

def scanChar (chars : List Char) : List Char → Option (List Char)
  | next :: rest => if next ∈ chars then some rest else none
  | [] => none

/-- The numbers of an item at the beginning of a text, and the rest. -/
def scanItem : Item → List Char → Option (List Int × List Char)
  | .oneOf chars, text => (scanChar chars text).map fun rest => ([], rest)
  | .space, text => some ([], trimStart text)
  | .number width least greatest, text => do
      let (digits, rest) ← scanDigits 1 (some width) (trimStart text)
      if least ≤ number digits ∧ number digits ≤ greatest then
        some ([number digits], rest)
      else none
  | .exactly width least greatest, text => do
      let (digits, rest) ← scanDigits width (some width) text
      if least ≤ number digits ∧ number digits ≤ greatest then
        some ([number digits], rest)
      else none
  | .year, text =>
      match trimStart text with
      | '+' :: signed =>
          (scanDigits 1 none signed).map fun (digits, rest) =>
            ([number digits], rest)
      | '-' :: signed =>
          (scanDigits 1 none signed).map fun (digits, rest) =>
            ([-number digits], rest)
      | plain =>
          (scanDigits 1 (some 4) plain).map fun (digits, rest) =>
            ([number digits], rest)
  | .fraction, text =>
      match text with
      | '.' :: decimals =>
          (scanDigits 1 none decimals).map fun (digits, rest) =>
            ([nanoseconds digits], rest)
      | whole => some ([0], whole)
  | .offset, text =>
      match text with
      | sign :: rest =>
          if sign = 'Z' ∨ sign = 'z' then some ([0], rest)
          else do
            let side ← eastward sign
            let (hours, afterHours) ← scanDigits 2 (some 2) rest
            let afterColon ← scanChar [':'] afterHours
            let (minutes, rest) ← scanDigits 2 (some 2) afterColon
            if number hours ≤ 23 ∧ number minutes ≤ 59 then
              some ([side * (number hours * 60 + number minutes)], rest)
            else none
      | [] => none
  | .unwritten, text => some ([0], text)

/-- The numbers of a whole text. -/
def scan : List Item → List Char → Option (List Int)
  | [], text => if text = [] then some [] else none
  | item :: items, text => do
      let (found, rest) ← scanItem item text
      let numbers ← scan items rest
      return found ++ numbers

theorem takeDigits_prefix (width : Option Nat) (text : List Char) :
    takeDigits width text <+: text := by
  cases width with
  | none => exact List.takeWhile_prefix _
  | some most =>
      exact (List.take_prefix _ _).trans (List.takeWhile_prefix _)

theorem takeDigits_subset (width : Option Nat) (text : List Char) :
    takeDigits width text ⊆ text.takeWhile Char.isDigit := by
  cases width with
  | none => exact List.Subset.refl _
  | some most => exact List.take_subset _ _

theorem head?_dropWhile_eq_false {test : Char → Bool} {text : List Char} :
    ∀ ch ∈ (text.dropWhile test).head?, test ch = false := by
  intro ch isHead
  have notHead := List.head?_dropWhile_not test text
  rw [Option.mem_def.mp isHead] at notHead
  simpa using notHead

theorem scanDigits_eq_some_iff {fewest : Nat} {width : Option Nat}
    {text digits rest : List Char} :
    scanDigits fewest width text = some (digits, rest) ↔
      text = digits ++ rest ∧ DigitRun fewest width digits rest := by
  have stops : ∀ (text : List Char), ∀ ch ∈ (text.drop
      (text.takeWhile Char.isDigit).length).head?, ch.isDigit = false := by
    intro text
    have dropped := congrArg (List.drop (text.takeWhile Char.isDigit).length)
      (List.takeWhile_append_dropWhile (p := Char.isDigit) (l := text))
    rw [List.drop_left] at dropped
    rw [← dropped]
    exact head?_dropWhile_eq_false
  rw [scanDigits, Option.ite_none_right_eq_some, Option.some.injEq,
    Prod.mk.injEq]
  constructor
  · rintro ⟨enough, rfl, rfl⟩
    have isPrefix := takeDigits_prefix width text
    refine ⟨(List.prefix_iff_eq_append.mp isPrefix).symm, ?_, enough, ?_, ?_⟩
    · exact List.all_eq_true.mpr fun ch isDigit =>
        List.all_eq_true.mp List.all_takeWhile ch
          (takeDigits_subset width text isDigit)
    · rintro most rfl
      exact List.length_take_le _ _
    · cases width with
      | none => exact .inr (stops text)
      | some most =>
          rcases Nat.le_total most (text.takeWhile Char.isDigit).length with
            full | short
          · exact .inl (congrArg some (List.length_take_of_le full).symm)
          · rw [takeDigits, Option.elim, List.take_of_length_le short]
            exact .inr (stops text)
  · rintro ⟨rfl, run⟩
    have taken : takeDigits width (digits ++ rest) = digits := by
      rw [takeDigits, List.takeWhile_append_of_pos
        (List.all_eq_true.mp run.isNumber)]
      rcases run.ends with rfl | ends
      · exact List.take_left
      · have noMore : rest.takeWhile Char.isDigit = [] := by
          cases rest with
          | nil => rfl
          | cons ch rest => simp [ends ch rfl]
        rw [noMore, List.append_nil]
        cases width with
        | none => rfl
        | some most => exact List.take_of_length_le (run.le_width most rfl)
    rw [taken]
    exact ⟨run.fewest_le, rfl, List.drop_left⟩

theorem scanChar_eq_some_iff {chars text rest : List Char} :
    scanChar chars text = some rest ↔
      ∃ ch ∈ chars, text = ch :: rest := by
  cases text with
  | nil => simp [scanChar]
  | cons next text =>
      rw [scanChar, Option.ite_none_right_eq_some, Option.some.injEq]
      constructor
      · rintro ⟨isOne, rfl⟩
        exact ⟨next, isOne, rfl⟩
      · rintro ⟨ch, isOne, textEq⟩
        cases textEq
        exact ⟨isOne, rfl⟩

theorem isWhitespace_of_isDigit {ch : Char} (isDigit : ch.isDigit = true) :
    isWhitespace ch = false := by
  simp only [Char.isDigit, Bool.and_eq_true, decide_eq_true_eq, ge_iff_le,
    UInt32.le_iff_toNat_le] at isDigit
  have first : ('0'.val).toNat = 48 := rfl
  have last : ('9'.val).toNat = 57 := rfl
  have code : ch.toNat = ch.val.toNat := rfl
  simp only [isWhitespace, Bool.or_eq_false_iff, Bool.and_eq_false_iff,
    beq_eq_false_iff_ne, decide_eq_false_iff_not]
  omega

theorem trimStart_append {blanks text : List Char}
    (areBlank : blanks.all isWhitespace = true)
    (ends : ∀ ch ∈ text.head?, isWhitespace ch = false) :
    trimStart (blanks ++ text) = text := by
  rw [trimStart, List.dropWhile_append_of_pos (List.all_eq_true.mp areBlank)]
  cases text with
  | nil => rfl
  | cons ch text => simp [ends ch rfl]

theorem exists_blanks (text : List Char) :
    ∃ blanks, blanks.all isWhitespace = true ∧
      text = blanks ++ trimStart text ∧
        ∀ ch ∈ (trimStart text).head?, isWhitespace ch = false :=
  ⟨text.takeWhile isWhitespace, List.all_takeWhile,
    List.takeWhile_append_dropWhile.symm, head?_dropWhile_eq_false⟩

theorem trimStart_blanks {fewest : Nat} {width : Option Nat}
    {blanks digits rest : List Char}
    (areBlank : blanks.all isWhitespace = true)
    (run : DigitRun (fewest + 1) width digits rest) :
    trimStart (blanks ++ (digits ++ rest)) = digits ++ rest := by
  refine trimStart_append areBlank ?_
  have nonempty : digits ≠ [] := by
    rintro rfl
    exact absurd run.fewest_le (Nat.not_succ_le_zero _)
  obtain ⟨ch, digits, rfl⟩ := List.exists_cons_of_ne_nil nonempty
  rintro _ ⟨⟩
  exact isWhitespace_of_isDigit
    (List.all_eq_true.mp run.isNumber ch List.mem_cons_self)

theorem readsItem_of_scanItem {item : Item} {text rest : List Char}
    {found : List Int} (scanned : scanItem item text = some (found, rest)) :
    ∃ chunk, text = chunk ++ rest ∧ ReadsItem item chunk rest found := by
  cases item with
  | oneOf chars =>
      obtain ⟨_, isRest, resultEq⟩ := Option.map_eq_some_iff.mp scanned
      cases resultEq
      obtain ⟨ch, isOne, rfl⟩ := scanChar_eq_some_iff.mp isRest
      exact ⟨[ch], rfl, .oneOf isOne rest⟩
  | space =>
      cases scanned
      obtain ⟨blanks, areBlank, textEq, ends⟩ := exists_blanks text
      exact ⟨blanks, textEq, .space areBlank ends⟩
  | number width least greatest =>
      obtain ⟨⟨digits, _⟩, isRun, checked⟩ :=
        Option.bind_eq_some_iff.mp scanned
      obtain ⟨inBounds, resultEq⟩ := Option.ite_none_right_eq_some.mp checked
      cases resultEq
      obtain ⟨blanks, areBlank, textEq, -⟩ := exists_blanks text
      obtain ⟨trimmedEq, run⟩ := scanDigits_eq_some_iff.mp isRun
      rw [trimmedEq, ← List.append_assoc] at textEq
      exact ⟨_, textEq, .number areBlank run inBounds⟩
  | exactly width least greatest =>
      obtain ⟨⟨digits, _⟩, isRun, checked⟩ :=
        Option.bind_eq_some_iff.mp scanned
      obtain ⟨inBounds, resultEq⟩ := Option.ite_none_right_eq_some.mp checked
      cases resultEq
      obtain ⟨textEq, run⟩ := scanDigits_eq_some_iff.mp isRun
      exact ⟨digits, textEq, .exactly run inBounds⟩
  | year =>
      obtain ⟨blanks, areBlank, textEq, -⟩ := exists_blanks text
      rw [scanItem] at scanned
      split at scanned
      · rename_i signed isSigned
        obtain ⟨⟨digits, _⟩, isRun, resultEq⟩ :=
          Option.map_eq_some_iff.mp scanned
        cases resultEq
        obtain ⟨rfl, run⟩ := scanDigits_eq_some_iff.mp isRun
        rw [isSigned, ← List.cons_append, ← List.append_assoc] at textEq
        exact ⟨_, textEq, .commonEra areBlank run⟩
      · rename_i signed isSigned
        obtain ⟨⟨digits, _⟩, isRun, resultEq⟩ :=
          Option.map_eq_some_iff.mp scanned
        cases resultEq
        obtain ⟨rfl, run⟩ := scanDigits_eq_some_iff.mp isRun
        rw [isSigned, ← List.cons_append, ← List.append_assoc] at textEq
        exact ⟨_, textEq, .beforeCommonEra areBlank run⟩
      · obtain ⟨⟨digits, _⟩, isRun, resultEq⟩ :=
          Option.map_eq_some_iff.mp scanned
        cases resultEq
        obtain ⟨plainEq, run⟩ := scanDigits_eq_some_iff.mp isRun
        rw [plainEq, ← List.append_assoc] at textEq
        exact ⟨_, textEq, .year areBlank run⟩
  | fraction =>
      unfold scanItem at scanned
      dsimp only at scanned
      split at scanned
      · obtain ⟨⟨digits, _⟩, isRun, resultEq⟩ :=
          Option.map_eq_some_iff.mp scanned
        cases resultEq
        obtain ⟨rfl, run⟩ := scanDigits_eq_some_iff.mp isRun
        exact ⟨_, rfl, .fraction run⟩
      · rename_i noPoint
        cases scanned
        refine ⟨[], rfl, .whole ?_⟩
        intro isPoint
        obtain ⟨decimals, textEq⟩ := List.head?_eq_some_iff.mp isPoint
        exact noPoint decimals textEq
  | offset =>
      unfold scanItem at scanned
      dsimp only at scanned
      split at scanned
      · rename_i sign text
        split at scanned
        · rename_i isMark
          cases scanned
          exact ⟨[sign], rfl, .zulu isMark rest⟩
        · obtain ⟨side, isSign, scanned⟩ := Option.bind_eq_some_iff.mp scanned
          obtain ⟨⟨hours, _⟩, isHours, scanned⟩ :=
            Option.bind_eq_some_iff.mp scanned
          obtain ⟨_, afterHours, scanned⟩ := Option.bind_eq_some_iff.mp scanned
          obtain ⟨⟨minutes, _⟩, isMinutes, scanned⟩ :=
            Option.bind_eq_some_iff.mp scanned
          obtain ⟨inBounds, resultEq⟩ :=
            Option.ite_none_right_eq_some.mp scanned
          cases resultEq
          obtain ⟨rfl, minutesRun⟩ := scanDigits_eq_some_iff.mp isMinutes
          obtain ⟨colon, isColon, rfl⟩ := scanChar_eq_some_iff.mp afterHours
          cases List.mem_singleton.mp isColon
          obtain ⟨rfl, hoursRun⟩ := scanDigits_eq_some_iff.mp isHours
          refine ⟨sign :: (hours ++ ':' :: minutes), ?_,
            .offset isSign hoursRun minutesRun inBounds⟩
          simp
      · cases scanned
  | unwritten =>
      cases scanned
      exact ⟨[], rfl, .unwritten _⟩

theorem scanItem_of_readsItem {item : Item} {chunk rest : List Char}
    {found : List Int} (reads : ReadsItem item chunk rest found) :
    scanItem item (chunk ++ rest) = some (found, rest) := by
  cases reads with
  | oneOf isOne => simp [scanItem, scanChar, isOne]
  | space areBlank ends => rw [scanItem, trimStart_append areBlank ends]
  | number areBlank run inBounds =>
      rw [scanItem, List.append_assoc, trimStart_blanks areBlank run,
        scanDigits_eq_some_iff.mpr ⟨rfl, run⟩]
      exact if_pos inBounds
  | exactly run inBounds =>
      rw [scanItem, scanDigits_eq_some_iff.mpr ⟨rfl, run⟩]
      exact if_pos inBounds
  | @year blanks digits _ areBlank run =>
      have unsigned : ∀ ch, ch.isDigit = false → ∀ more,
          digits ++ rest ≠ ch :: more := by
        intro ch notDigit more begins
        have nonempty : digits ≠ [] := List.length_pos_iff.mp run.fewest_le
        obtain ⟨first, digits, rfl⟩ := List.exists_cons_of_ne_nil nonempty
        cases begins
        have isDigit := List.all_eq_true.mp run.isNumber ch
          List.mem_cons_self
        rw [notDigit] at isDigit
        cases isDigit
      rw [scanItem, List.append_assoc, trimStart_blanks areBlank run]
      split
      · exact absurd ‹_› (unsigned '+' rfl _)
      · exact absurd ‹_› (unsigned '-' rfl _)
      · rw [scanDigits_eq_some_iff.mpr ⟨rfl, run⟩]
        rfl
  | commonEra areBlank run =>
      rw [scanItem, List.append_assoc, List.cons_append,
        trimStart_append areBlank (by rintro _ ⟨⟩; rfl)]
      simp [scanDigits_eq_some_iff.mpr ⟨rfl, run⟩]
  | beforeCommonEra areBlank run =>
      rw [scanItem, List.append_assoc, List.cons_append,
        trimStart_append areBlank (by rintro _ ⟨⟩; rfl)]
      simp [scanDigits_eq_some_iff.mpr ⟨rfl, run⟩]
  | whole noPoint =>
      unfold scanItem
      dsimp only
      split
      · rename_i isPoint
        cases isPoint
        exact absurd rfl noPoint
      · rfl
  | fraction run =>
      simp [scanItem, scanDigits_eq_some_iff.mpr ⟨rfl, run⟩]
  | zulu isMark => simp [scanItem, isMark]
  | @offset sign side hours minutes _ isSign hoursRun minutesRun inBounds =>
      have noMark : ¬ (sign = 'Z' ∨ sign = 'z') := by
        rintro (rfl | rfl) <;> cases isSign
      simp [scanItem, scanChar, noMark, isSign, inBounds,
        scanDigits_eq_some_iff.mpr ⟨rfl, hoursRun⟩,
        scanDigits_eq_some_iff.mpr ⟨rfl, minutesRun⟩]
  | unwritten => rfl

/-- The scanner computes what the items read. -/
theorem scan_eq_some_iff {items : List Item} {text : List Char}
    {numbers : List Int} :
    scan items text = some numbers ↔ Reads items text numbers := by
  induction items generalizing text numbers with
  | nil =>
      rw [scan, Option.ite_none_right_eq_some]
      constructor
      · rintro ⟨rfl, ⟨⟩⟩
        exact .nil
      · rintro ⟨⟩
        exact ⟨rfl, rfl⟩
  | cons item items ih =>
      constructor
      · intro scanned
        obtain ⟨⟨found, rest⟩, first, scanned⟩ :=
          Option.bind_eq_some_iff.mp scanned
        obtain ⟨more, others, resultEq⟩ := Option.bind_eq_some_iff.mp scanned
        cases resultEq
        obtain ⟨chunk, rfl, readsFirst⟩ := readsItem_of_scanItem first
        exact .cons readsFirst (ih.mp others)
      · rintro (_ | ⟨first, others⟩)
        rw [scan, scanItem_of_readsItem first]
        exact Option.bind_eq_some_iff.mpr ⟨_, rfl,
          Option.bind_eq_some_iff.mpr ⟨_, ih.mpr others, rfl⟩⟩

theorem Reads.unique {items : List Item} {text : List Char}
    {numbers others : List Int} (reads : Reads items text numbers)
    (alsoReads : Reads items text others) : numbers = others :=
  Option.some.inj ((scan_eq_some_iff.mpr reads).symm.trans
    (scan_eq_some_iff.mpr alsoReads))

theorem Reads.unwritten {items : List Item} {count : Nat} {text : List Char}
    {numbers : List Int}
    (reads : Reads (items ++ List.replicate count .unwritten) text numbers) :
    ∃ found, numbers = found ++ List.replicate count 0 := by
  induction items generalizing text numbers with
  | nil =>
      refine ⟨[], ?_⟩
      induction count generalizing text numbers with
      | zero =>
          cases reads
          rfl
      | succ count ih =>
          rcases reads with _ | ⟨⟨⟩, others⟩
          simpa [List.replicate_succ] using ih others
  | cons item items ih =>
      rcases reads with _ | ⟨first, others⟩
      obtain ⟨found, rfl⟩ := ih others
      exact ⟨_, (List.append_assoc _ _ _).symm⟩

end Scanning

section Marks

/-- The characters that tell the texts of one format from those of another. -/
def isMark (ch : Char) : Bool :=
  ch ∈ [':', 'T', 'Z', 'z']

/-- The marks that an item can read. -/
def Item.marks : Item → List (List Char)
  | .oneOf chars => chars.map fun ch => [ch].filter isMark
  | .offset => [['Z'], ['z'], [':']]
  | _ => [[]]

/-- The marks of the texts that items can read. -/
def marks : List Item → List (List Char)
  | [] => [[]]
  | item :: items =>
      item.marks.flatMap fun first => (marks items).map (first ++ ·)

theorem filter_isMark_eq_nil {test : Char → Bool} {text : List Char}
    (unmarked : [':', 'T', 'Z', 'z'].any test = false)
    (passes : text.all test = true) : text.filter isMark = [] := by
  rw [List.filter_eq_nil_iff]
  intro ch member marked
  have passed := List.all_eq_true.mp passes ch member
  exact List.any_eq_false.mp unmarked ch (of_decide_eq_true marked) passed

theorem filter_isMark_blanks {blanks : List Char}
    (areBlank : blanks.all isWhitespace = true) :
    blanks.filter isMark = [] :=
  filter_isMark_eq_nil rfl areBlank

theorem DigitRun.filter_isMark {fewest : Nat} {width : Option Nat}
    {digits rest : List Char} (run : DigitRun fewest width digits rest) :
    digits.filter isMark = [] :=
  filter_isMark_eq_nil rfl run.isNumber

theorem ReadsItem.filter_mem_marks {item : Item} {chunk rest : List Char}
    {found : List Int} (reads : ReadsItem item chunk rest found) :
    chunk.filter isMark ∈ item.marks := by
  cases reads with
  | oneOf isOne => exact List.mem_map.mpr ⟨_, isOne, rfl⟩
  | space areBlank =>
      exact List.mem_singleton.mpr (filter_isMark_blanks areBlank)
  | number areBlank run | year areBlank run =>
      simp [Item.marks, filter_isMark_blanks areBlank, run.filter_isMark]
  | commonEra areBlank run | beforeCommonEra areBlank run =>
      simp [Item.marks, filter_isMark_blanks areBlank, run.filter_isMark,
        isMark]
  | exactly run => simp [Item.marks, run.filter_isMark]
  | whole | unwritten => exact List.mem_singleton.mpr rfl
  | fraction run =>
      simp [Item.marks, run.filter_isMark, isMark]
  | zulu isMark =>
      rcases isMark with rfl | rfl <;> decide
  | @offset sign side hours minutes _ isSign hoursRun minutesRun inBounds =>
      have unmarked : isMark sign = false := by
        by_contra marked
        simp only [isMark, Bool.not_eq_false, decide_eq_true_eq, List.mem_cons,
          List.not_mem_nil, or_false] at marked
        rcases marked with rfl | rfl | rfl | rfl <;> cases isSign
      have colon : isMark ':' = true := rfl
      simp [Item.marks, hoursRun.filter_isMark, minutesRun.filter_isMark,
        unmarked, colon]

theorem Reads.filter_mem_marks {items : List Item} {text : List Char}
    {numbers : List Int} (reads : Reads items text numbers) :
    text.filter isMark ∈ marks items := by
  induction reads with
  | nil => exact List.mem_singleton.mpr rfl
  | cons first _ ih =>
      rw [List.filter_append]
      exact List.mem_flatMap.mpr ⟨_, first.filter_mem_marks,
        List.mem_map.mpr ⟨_, ih, rfl⟩⟩

/-- One of several formats reads a text in one way only, if no two of them
share their marks. -/
theorem Reads.unique_of_marks {formats : List (List Item)}
    (apart : ∀ items ∈ formats, ∀ others ∈ formats,
      ∀ common ∈ marks items, common ∈ marks others → items = others)
    {items others : List Item} (isFormat : items ∈ formats)
    (isOther : others ∈ formats) {text : List Char} {numbers found : List Int}
    (reads : Reads items text numbers) (alsoReads : Reads others text found) :
    numbers = found := by
  obtain rfl := apart items isFormat others isOther _ reads.filter_mem_marks
    alsoReads.filter_mem_marks
  exact reads.unique alsoReads

end Marks

end DateTimeItems

end Igloo
