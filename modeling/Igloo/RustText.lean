import Mathlib.Algebra.Group.Nat.Defs
import Mathlib.Data.List.DropRight

/-!
# Text helpers of the Rust standard library

The parts of `str` and `char` that the repository calls, over the characters
of a Lean string.
-/

namespace Igloo

namespace RustText

/-- `char::is_whitespace`: the Unicode `White_Space` property. -/
def isWhitespace (ch : Char) : Bool :=
  let code := ch.toNat
  (9 ≤ code && code ≤ 13) || code == 0x20 || code == 0x85 || code == 0xA0 ||
    code == 0x1680 || (0x2000 ≤ code && code ≤ 0x200A) || code == 0x2028 ||
    code == 0x2029 || code == 0x202F || code == 0x205F || code == 0x3000

/-- `str::trim_start`. -/
def trimStart (text : List Char) : List Char :=
  text.dropWhile isWhitespace

/-- `str::trim_end`. -/
def trimEnd (text : List Char) : List Char :=
  text.rdropWhile isWhitespace

/-- `str::trim`. -/
def trim (text : List Char) : List Char :=
  trimEnd (trimStart text)

/-- `char::is_ascii_alphabetic`. -/
def isAsciiAlphabetic (ch : Char) : Bool :=
  ('a' ≤ ch && ch ≤ 'z') || ('A' ≤ ch && ch ≤ 'Z')

/-- `char::to_ascii_lowercase`. -/
def toAsciiLowercase (ch : Char) : Char :=
  if 'A' ≤ ch && ch ≤ 'Z' then Char.ofNat (ch.toNat + 32) else ch

/-- `str::eq_ignore_ascii_case`. -/
def eqIgnoreAsciiCase (first second : List Char) : Bool :=
  first.map toAsciiLowercase == second.map toAsciiLowercase

/-- `str::strip_suffix` with a single character. -/
def stripSuffix (text : List Char) (suffix : Char) : Option (List Char) :=
  if text.getLast? = some suffix then some text.dropLast else none

/-- The bytes of a `str`. -/
def toUtf8 (text : String) : List UInt8 :=
  text.toUTF8.data.toList

/-- `str::from_utf8`. -/
def fromUtf8 (raw : List UInt8) : Option String :=
  String.fromUTF8? ⟨raw.toArray⟩

@[simp]
theorem fromUtf8_toUtf8 (text : String) :
    fromUtf8 (toUtf8 text) = some text := by
  simp only [fromUtf8, toUtf8, String.fromUTF8?]
  exact dif_pos text.isValidUTF8

/-- `str::parse` at a signed integer type with the given bounds. -/
def parseSigned (least greatest : Int) (text : List Char) : Option Int :=
  let (negative, digits) :=
    match text with
    | '-' :: rest => (true, rest)
    | '+' :: rest => (false, rest)
    | _ => (false, text)
  if digits.isEmpty || !digits.all Char.isDigit then none
  else
    let magnitude : Int := Nat.ofDigitChars 10 digits 0
    let value := if negative then -magnitude else magnitude
    if least ≤ value ∧ value ≤ greatest then some value else none

/-- `str::parse::<usize>`. -/
def parseUsize (text : List Char) : Option Nat :=
  let digits :=
    match text with
    | '+' :: rest => rest
    | _ => text
  if digits.isEmpty || !digits.all Char.isDigit then none
  else
    let value := Nat.ofDigitChars 10 digits 0
    if value < 2 ^ 64 then some value else none

/-- `char::to_digit` at radix 16, over bytes. -/
def hexDigit (byte : UInt8) : Option UInt8 :=
  if 48 ≤ byte ∧ byte ≤ 57 then some (byte - 48)
  else if 97 ≤ byte ∧ byte ≤ 102 then some (byte - 87)
  else if 65 ≤ byte ∧ byte ≤ 70 then some (byte - 55)
  else none

/-- `u8::from_str_radix` at radix 16 of a two-byte text, which takes a leading
plus sign. -/
def u8FromHexPair (first second : UInt8) : Option UInt8 :=
  if first = 43 then hexDigit second
  else do
    let high ← hexDigit first
    let low ← hexDigit second
    return high * 16 + low

/-- `Debug` of a `str`; which characters count as printable is a table of the
Unicode standard. -/
def debugStr (printable : Char → Bool) (text : String) : String :=
  String.ofList ('"' :: text.toList.flatMap escaped ++ ['"'])
where
  escaped (ch : Char) : List Char :=
    if ch = '"' ∨ ch = '\\' then ['\\', ch]
    else if ch = '\n' then ['\\', 'n']
    else if ch = '\r' then ['\\', 'r']
    else if ch = '\t' then ['\\', 't']
    else if ch.toNat = 0 then ['\\', '0']
    else if printable ch then [ch]
    else "\\u\x7b".toList ++ Nat.toDigits 16 ch.toNat ++ ['\x7d']

end RustText

end Igloo
