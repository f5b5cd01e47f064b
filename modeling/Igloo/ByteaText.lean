import Igloo.ParameterDecoding
import Igloo.TextTrimming

/-!
# The text form of bytea values

`parse_bytea_hex` against the grammar of the PostgreSQL hex format: an optional
`\x`, then two hexadecimal digits for each byte.  The function cuts the UTF-8
bytes of the text in pairs and leaves each pair to a number parser that also
takes a plus sign, so the texts it decodes outside the grammar are exactly
those with a plus sign in place of a high digit.
-/

namespace Igloo

namespace RustText

theorem toUtf8_ofList (text : List Char) :
    toUtf8 (String.ofList text) = text.flatMap String.utf8EncodeChar := by
  change (List.utf8Encode text).data.toList = _
  rw [List.utf8Encode, List.toList_data_toByteArray]

theorem utf8EncodeChar_of_ascii {ch : Char} (ascii : ch.toNat < 128) :
    String.utf8EncodeChar ch = [UInt8.ofNat ch.toNat] := by
  rw [String.utf8EncodeChar]
  exact if_pos (Nat.le_of_lt_succ ascii)

theorem exists_utf8EncodeChar_of_not_ascii {ch : Char}
    (notAscii : ¬ ch.toNat < 128) :
    ∃ first rest, String.utf8EncodeChar ch = first :: rest ∧ 128 ≤ first := by
  have large : ¬ ch.val.toNat ≤ 0x7f := fun small =>
    notAscii (Nat.lt_succ_of_le small)
  have atLeast : ∀ value < 256, 128 ≤ value → 128 ≤ UInt8.ofNat value := by
    intro value small large
    rw [UInt8.le_iff_toNat_le, UInt8.toNat_ofNat_of_lt' small]
    exact large
  rw [String.utf8EncodeChar, if_neg large]
  split
  · exact ⟨_, _, rfl, atLeast _ (by omega) (by omega)⟩
  · split
    · exact ⟨_, _, rfl, atLeast _ (by omega) (by omega)⟩
    · exact ⟨_, _, rfl, atLeast _ (by omega) (by omega)⟩

end RustText

namespace Server

open RustText

/-- The value of a hexadecimal digit of either case. -/
def digitValue (ch : Char) : Option Nat :=
  if '0' ≤ ch ∧ ch ≤ '9' then some (ch.toNat - 48)
  else if 'a' ≤ ch ∧ ch ≤ 'f' then some (ch.toNat - 87)
  else if 'A' ≤ ch ∧ ch ≤ 'F' then some (ch.toNat - 55)
  else none

/-- The digits spell the bytes, two for each, the high one first. -/
inductive SpellsBytes : List Char → List UInt8 → Prop
  | nil : SpellsBytes [] []
  | cons {high low : Char} {highValue lowValue : Nat} {digits : List Char}
      {bytes : List UInt8} (highDigit : digitValue high = some highValue)
      (lowDigit : digitValue low = some lowValue)
      (others : SpellsBytes digits bytes) :
      SpellsBytes (high :: low :: digits)
        (UInt8.ofNat (16 * highValue + lowValue) :: bytes)

/-- The trimmed text is an optional `\x` and digits that spell the bytes. -/
def HexText (text : String) (bytes : List UInt8) : Prop :=
  ∃ digits, (trim text.toList = digits ∨
    trim text.toList = '\\' :: 'x' :: digits) ∧ SpellsBytes digits bytes

/-- The text less the optional `\x`. -/
def afterPrefix (text : List Char) : List Char :=
  match text with
  | '\\' :: 'x' :: rest => rest
  | _ => text

/-- Pairs of a digit, or a plus sign in its place, and a digit. -/
def loosePairs : List Char → Bool
  | [] => true
  | [_] => false
  | first :: second :: rest =>
      (first == '+' || (digitValue first).isSome) &&
        (digitValue second).isSome && loosePairs rest

/-- The text has at least one plus sign where a high digit belongs, and is in
the hex format otherwise. -/
def PlusSpelled (text : String) : Prop :=
  '+' ∈ afterPrefix (trim text.toList) ∧
    loosePairs (afterPrefix (trim text.toList)) = true

instance (text : String) : Decidable (PlusSpelled text) :=
  inferInstanceAs (Decidable (_ ∧ _))

/-- The byte that a pair of characters is decoded to. -/
def pairValue (first second : Char) : Option UInt8 :=
  if first = '+' then (digitValue second).map UInt8.ofNat
  else do
    let high ← digitValue first
    let low ← digitValue second
    return UInt8.ofNat (16 * high + low)

/-- The pairs of characters, decoded. -/
def charPairs : List Char → Option (List UInt8)
  | [] => some []
  | [_] => none
  | first :: second :: rest => do
      let byte ← pairValue first second
      let bytes ← charPairs rest
      return byte :: bytes

section Characters

theorem hexDigit_of_ascii : ∀ code < 128,
    hexDigit (UInt8.ofNat code) =
      (digitValue (Char.ofNat code)).map UInt8.ofNat := by
  decide +kernel

theorem ascii_of_digitValue {ch : Char} {value : Nat}
    (isDigit : digitValue ch = some value) : ch.toNat < 128 := by
  unfold digitValue at isDigit
  simp only [Char.le_def, UInt32.le_iff_toNat_le] at isDigit
  change ch.val.toNat < 128
  split at isDigit
  · rename_i range; exact lt_of_le_of_lt range.2 (by decide)
  · split at isDigit
    · rename_i range; exact lt_of_le_of_lt range.2 (by decide)
    · split at isDigit
      · rename_i range; exact lt_of_le_of_lt range.2 (by decide)
      · cases isDigit

theorem hexDigit_of_not_ascii {byte : UInt8} (notAscii : 128 ≤ byte) :
    hexDigit byte = none := by
  unfold hexDigit
  rw [if_neg, if_neg, if_neg]
  all_goals
    rintro ⟨-, small⟩
    exact absurd (UInt8.le_trans notAscii small) (by decide)

theorem u8FromHexPair_of_ascii {first second : Char}
    (firstAscii : first.toNat < 128) (secondAscii : second.toNat < 128) :
    u8FromHexPair (UInt8.ofNat first.toNat) (UInt8.ofNat second.toNat) =
      pairValue first second := by
  have high := hexDigit_of_ascii first.toNat firstAscii
  have low := hexDigit_of_ascii second.toNat secondAscii
  rw [Char.ofNat_toNat] at high low
  have isPlus : UInt8.ofNat first.toNat = 43 ↔ first = '+' := by
    rw [← UInt8.toNat_inj, UInt8.toNat_ofNat_of_lt' (lt_trans firstAscii (by decide)),
      Char.ext_iff, ← UInt32.toNat_inj]
    rfl
  unfold u8FromHexPair pairValue
  simp only [isPlus, high, low]
  split
  · rfl
  · cases digitValue first with
    | none => rfl
    | some highValue =>
        cases digitValue second with
        | none => rfl
        | some lowValue =>
            simp [UInt8.ofNat_add, UInt8.ofNat_mul, mul_comm]

theorem u8FromHexPair_of_not_ascii {first second : UInt8}
    (notAscii : 128 ≤ first ∨ 128 ≤ second) :
    u8FromHexPair first second = none := by
  unfold u8FromHexPair
  split
  · rename_i isPlus
    subst isPlus
    rcases notAscii with firstLarge | secondLarge
    · exact absurd firstLarge (by decide)
    · exact hexDigit_of_not_ascii secondLarge
  · rcases notAscii with firstLarge | secondLarge
    · rw [hexDigit_of_not_ascii firstLarge]; rfl
    · rw [hexDigit_of_not_ascii secondLarge]
      cases hexDigit first <;> rfl

theorem pairValue_eq_none_of_not_ascii {first second : Char}
    (notAscii : ¬ first.toNat < 128 ∨ ¬ second.toNat < 128) :
    pairValue first second = none := by
  have noDigit : ∀ {ch : Char}, ¬ ch.toNat < 128 → digitValue ch = none := by
    intro ch large
    exact Option.eq_none_iff_forall_ne_some.mpr
      fun value isDigit => large (ascii_of_digitValue isDigit)
  unfold pairValue
  split
  · rename_i isPlus
    subst isPlus
    rcases notAscii with firstLarge | secondLarge
    · exact absurd (by decide) firstLarge
    · rw [noDigit secondLarge]; rfl
  · rcases notAscii with firstLarge | secondLarge
    · rw [noDigit firstLarge]; rfl
    · rw [noDigit secondLarge]
      cases digitValue first <;> rfl

theorem pairs_eq_none_of_first {first : UInt8} (notAscii : 128 ≤ first)
    (rest : List UInt8) : parseByteaHex.pairs (first :: rest) = none := by
  cases rest with
  | nil => rfl
  | cons second rest =>
      rw [parseByteaHex.pairs, u8FromHexPair_of_not_ascii (Or.inl notAscii)]
      rfl

/-- Pairs of bytes are pairs of characters: a character of several bytes is
rejected wherever it stands. -/
theorem pairs_utf8 (text : List Char) :
    parseByteaHex.pairs (text.flatMap String.utf8EncodeChar) =
      charPairs text := by
  induction text using charPairs.induct with
  | case1 => rfl
  | case2 ch =>
      rw [List.flatMap_singleton]
      by_cases ascii : ch.toNat < 128
      · rw [utf8EncodeChar_of_ascii ascii]
        rfl
      · obtain ⟨byte, bytes, encoded, large⟩ :=
          exists_utf8EncodeChar_of_not_ascii ascii
        rw [encoded, pairs_eq_none_of_first large]
        rfl
  | case3 first second rest induction =>
      rw [List.flatMap_cons, List.flatMap_cons, charPairs]
      by_cases firstAscii : first.toNat < 128
      · rw [utf8EncodeChar_of_ascii firstAscii, List.singleton_append]
        by_cases secondAscii : second.toNat < 128
        · rw [utf8EncodeChar_of_ascii secondAscii, List.singleton_append,
            parseByteaHex.pairs, induction,
            u8FromHexPair_of_ascii firstAscii secondAscii]
        · obtain ⟨byte, bytes, encoded, large⟩ :=
            exists_utf8EncodeChar_of_not_ascii secondAscii
          rw [encoded, List.cons_append, parseByteaHex.pairs,
            u8FromHexPair_of_not_ascii (Or.inr large),
            pairValue_eq_none_of_not_ascii (Or.inr secondAscii)]
          rfl
      · obtain ⟨byte, bytes, encoded, large⟩ :=
          exists_utf8EncodeChar_of_not_ascii firstAscii
        rw [encoded, List.cons_append, pairs_eq_none_of_first large,
          pairValue_eq_none_of_not_ascii (Or.inl firstAscii)]
        rfl

theorem parseByteaHex_eq (text : String) :
    parseByteaHex text = charPairs (afterPrefix (trim text.toList)) := by
  rw [← pairs_utf8, ← toUtf8_ofList]
  rfl

end Characters

section Grammar

variable {digits : List Char} {bytes : List UInt8}

theorem pairValue_eq_some_iff {first second : Char} {byte : UInt8}
    (notPlus : first ≠ '+') :
    pairValue first second = some byte ↔
      ∃ high low, digitValue first = some high ∧
        digitValue second = some low ∧ UInt8.ofNat (16 * high + low) = byte := by
  simp [pairValue, notPlus, Option.bind_eq_some_iff]

theorem isSome_pairValue (first second : Char) :
    (pairValue first second).isSome =
      ((first == '+' || (digitValue first).isSome) &&
        (digitValue second).isSome) := by
  unfold pairValue
  by_cases isPlus : first = '+'
  · subst isPlus
    cases digitValue second <;> rfl
  · simp only [isPlus, if_false, beq_eq_false_iff_ne.mpr isPlus,
      Bool.false_or]
    cases digitValue first with
    | none => rfl
    | some high => cases digitValue second <;> rfl

theorem isSome_charPairs (text : List Char) :
    (charPairs text).isSome = loosePairs text := by
  induction text using charPairs.induct with
  | case1 => rfl
  | case2 ch => rfl
  | case3 first second rest induction =>
      rw [loosePairs, ← isSome_pairValue, ← induction, charPairs]
      cases pairValue first second with
      | none => rfl
      | some byte => cases charPairs rest <;> rfl

theorem notMem_plus_of_spellsBytes (spells : SpellsBytes digits bytes) :
    '+' ∉ digits := by
  have noDigit : ∀ {ch : Char} {value : Nat},
      digitValue ch = some value → '+' ≠ ch := by
    rintro ch value isDigit rfl
    exact absurd isDigit (by decide +revert)
  induction spells with
  | nil => exact List.not_mem_nil
  | cons highDigit lowDigit others induction =>
      rw [List.mem_cons, List.mem_cons]
      rintro (isHigh | isLow | later)
      · exact noDigit highDigit isHigh
      · exact noDigit lowDigit isLow
      · exact induction later

/-- Without a plus sign the pairs are decoded exactly by the grammar. -/
theorem charPairs_eq_some_iff (noPlus : '+' ∉ digits) :
    charPairs digits = some bytes ↔ SpellsBytes digits bytes := by
  constructor
  · intro decoded
    induction digits using charPairs.induct generalizing bytes with
    | case1 =>
        cases decoded
        exact .nil
    | case2 ch => cases decoded
    | case3 first second rest induction =>
        simp only [List.mem_cons, not_or] at noPlus
        simp only [charPairs, Option.bind_eq_bind, Option.bind_eq_some_iff,
          Option.pure_def, Option.some.injEq] at decoded
        obtain ⟨byte, isByte, others, isOthers, rfl⟩ := decoded
        obtain ⟨high, low, highDigit, lowDigit, rfl⟩ :=
          (pairValue_eq_some_iff (Ne.symm noPlus.1)).mp isByte
        exact .cons highDigit lowDigit (induction noPlus.2.2 isOthers)
  · intro spells
    induction spells with
    | nil => rfl
    | cons highDigit lowDigit others induction =>
        simp only [List.mem_cons, not_or] at noPlus
        rw [charPairs, induction noPlus.2.2,
          (pairValue_eq_some_iff (Ne.symm noPlus.1)).mpr
            ⟨_, _, highDigit, lowDigit, rfl⟩]
        rfl

/-- The prefix is never part of the digits. -/
theorem hexText_iff {text : String} :
    HexText text bytes ↔
      SpellsBytes (afterPrefix (trim text.toList)) bytes := by
  constructor
  · rintro ⟨digits, isText, spells⟩
    rcases isText with unprefixed | prefixed
    · rw [unprefixed]
      cases spells with
      | nil => exact .nil
      | @cons high low highValue lowValue digits bytes highDigit lowDigit
          others =>
          have notEscape : high ≠ '\\' := by
            rintro rfl
            exact absurd highDigit (by decide +revert)
          have unchanged : afterPrefix (high :: low :: digits) =
              high :: low :: digits := by
            unfold afterPrefix
            split
            · rename_i same
              exact absurd (List.cons.inj same).1 notEscape
            · rfl
          rw [unchanged]
          exact .cons highDigit lowDigit others
    · rw [prefixed]
      exact spells
  · intro spells
    refine ⟨_, ?_, spells⟩
    unfold afterPrefix
    split
    · rename_i isPrefixed
      exact Or.inr isPrefixed
    · exact Or.inl rfl

theorem parseByteaHex_of_hexText {text : String} (isHex : HexText text bytes) :
    parseByteaHex text = some bytes := by
  have spells := hexText_iff.mp isHex
  rw [parseByteaHex_eq]
  exact (charPairs_eq_some_iff (notMem_plus_of_spellsBytes spells)).mpr spells

end Grammar

section Rendering

/-- A hexadecimal digit in lower or upper case. -/
def hexChar (upper : Bool) (value : Nat) : Char :=
  if upper then (Nat.digitChar value).toUpper else Nat.digitChar value

/-- The digits of the bytes, two for each. -/
def hexDigits (upper : Bool) (bytes : List UInt8) : List Char :=
  bytes.flatMap fun byte =>
    [hexChar upper (byte.toNat / 16), hexChar upper (byte.toNat % 16)]

/-- The hex rendering of bytes, with or without the prefix. -/
def hexRendering (upper prefixed : Bool) (bytes : List UInt8) : String :=
  String.ofList ((if prefixed then ['\\', 'x'] else []) ++
    hexDigits upper bytes)

theorem digitValue_hexChar : ∀ upper, ∀ value < 16,
    digitValue (hexChar upper value) = some value := by
  decide +kernel

theorem spellsBytes_hexDigits (upper : Bool) (bytes : List UInt8) :
    SpellsBytes (hexDigits upper bytes) bytes := by
  induction bytes with
  | nil => exact .nil
  | cons byte bytes induction =>
      have highSmall : byte.toNat / 16 < 16 :=
        Nat.div_lt_of_lt_mul byte.toNat_lt
      have lowSmall : byte.toNat % 16 < 16 := Nat.mod_lt _ (by decide)
      have spelled := SpellsBytes.cons
        (digitValue_hexChar upper _ highSmall)
        (digitValue_hexChar upper _ lowSmall) induction
      rwa [Nat.div_add_mod, UInt8.ofNat_toNat] at spelled

theorem visible_of_spellsBytes {digits : List Char} {bytes : List UInt8}
    (spells : SpellsBytes digits bytes) :
    ∀ ch ∈ digits, isWhitespace ch = false := by
  have visible : ∀ {ch : Char} {value : Nat},
      digitValue ch = some value → isWhitespace ch = false := by
    intro ch value isDigit
    have small : ∀ code < 128, digitValue (Char.ofNat code) ≠ none →
        isWhitespace (Char.ofNat code) = false := by
      decide +kernel
    have atCode := small ch.toNat (ascii_of_digitValue isDigit)
    rw [Char.ofNat_toNat, isDigit] at atCode
    exact atCode (by simp)
  induction spells with
  | nil => simp
  | cons highDigit lowDigit others induction =>
      intro ch charMem
      rw [List.mem_cons, List.mem_cons] at charMem
      rcases charMem with rfl | rfl | later
      · exact visible highDigit
      · exact visible lowDigit
      · exact induction ch later

theorem hexText_hexRendering (upper prefixed : Bool) (bytes : List UInt8) :
    HexText (hexRendering upper prefixed bytes) bytes := by
  have spells := spellsBytes_hexDigits upper bytes
  have visible : ∀ ch ∈ (if prefixed then ['\\', 'x'] else []) ++
      hexDigits upper bytes, isWhitespace ch = false := by
    intro ch charMem
    rcases List.mem_append.mp charMem with inPrefix | inDigits
    · cases prefixed with
      | false => cases inPrefix
      | true =>
          rcases List.mem_cons.mp inPrefix with rfl | isLetter
          · decide
          · rw [List.mem_singleton.mp isLetter]
            decide
    · exact visible_of_spellsBytes spells ch inDigits
  refine ⟨hexDigits upper bytes, ?_, spells⟩
  rw [hexRendering, String.toList_ofList, trim_of_visible visible]
  cases prefixed with
  | false => exact Or.inl rfl
  | true => exact Or.inr rfl

end Rendering

/-- Decoding accepts exactly the hex format on the texts that have no plus sign
in place of a high digit, and on no others; in particular it restores the bytes
of every rendering. -/
theorem parseByteaHex_iff_hexText (text : String) :
    ((∀ bytes, parseByteaHex text = some bytes ↔ HexText text bytes) ↔
      ¬ PlusSpelled text) ∧
    ∀ upper prefixed bytes,
      parseByteaHex (hexRendering upper prefixed bytes) = some bytes := by
  constructor
  · rw [PlusSpelled, ← isSome_charPairs]
    simp only [hexText_iff, parseByteaHex_eq]
    constructor
    · rintro agrees ⟨plus, decoded⟩
      obtain ⟨bytes, isBytes⟩ := Option.isSome_iff_exists.mp decoded
      exact notMem_plus_of_spellsBytes ((agrees bytes).mp isBytes) plus
    · intro notPlusSpelled bytes
      by_cases plus : '+' ∈ afterPrefix (trim text.toList)
      · have rejected : charPairs (afterPrefix (trim text.toList)) = none :=
          Option.not_isSome_iff_eq_none.mp
            fun decoded => notPlusSpelled ⟨plus, decoded⟩
        rw [rejected]
        constructor
        · intro decoded
          cases decoded
        · intro spells
          exact absurd plus (notMem_plus_of_spellsBytes spells)
      · exact charPairs_eq_some_iff plus
  · intro upper prefixed bytes
    exact parseByteaHex_of_hexText (hexText_hexRendering upper prefixed bytes)

/-- A plus sign and a digit are decoded to a byte. -/
theorem not_hexText_plus :
    ¬ ∀ bytes, parseByteaHex "\\x+f" = some bytes ↔ HexText "\\x+f" bytes := by
  intro agrees
  have decoded : parseByteaHex "\\x+f" = some [15] := by decide +kernel
  have spells := hexText_iff.mp ((agrees [15]).mp decoded)
  have plus : '+' ∈ afterPrefix (trim "\\x+f".toList) := by decide +kernel
  exact notMem_plus_of_spellsBytes spells plus

end Server

end Igloo
