import Mathlib.Data.List.Basic

/-!
# UUIDs

A UUID is sixteen bytes.  It is written in lower case with hyphens in four
places, and read in either case, with a hyphen or none after every second
byte, and inside braces or not.
-/

namespace Igloo

/-- A 128-bit value. -/
structure Uuid where
  bytes : List UInt8
  length_eq : bytes.length = 16
  deriving DecidableEq

namespace Uuid

/-- The two digits of a byte. -/
def hexPair (byte : UInt8) : List Char :=
  [Nat.digitChar (byte.toNat / 16), Nat.digitChar (byte.toNat % 16)]

/-- The last bytes of a UUID; a hyphen stands before the last 12, 10, 8 and 6
bytes. -/
def displayBytes : List UInt8 → List Char
  | [] => []
  | byte :: bytes =>
      hexPair byte ++
        (if bytes.length ∈ [12, 10, 8, 6] then ['-'] else []) ++
        displayBytes bytes

/-- The hyphenated spelling in lower case. -/
def display (value : Uuid) : String :=
  String.ofList (displayBytes value.bytes)

/-- The value of a digit of either case. -/
def hexValue (ch : Char) : Option Nat :=
  "0123456789abcdef".toList.idxOf? ch.toLower

def dropHyphen : List Char → List Char
  | '-' :: rest => rest
  | text => text

/-- The bytes that are left to be read, and the text after them. -/
def readBytes : Nat → List Char → Option (List UInt8 × List Char)
  | 0, text => some ([], text)
  | left + 1, high :: low :: text => do
      let high ← hexValue high
      let low ← hexValue low
      let text := if left % 2 = 0 ∧ 0 < left then dropHyphen text else text
      let (bytes, text) ← readBytes left text
      return (UInt8.ofNat (16 * high + low) :: bytes, text)
  | _ + 1, _ => none

def ofBytes (bytes : List UInt8) : Option Uuid :=
  if length_eq : bytes.length = 16 then some ⟨bytes, length_eq⟩ else none

/-- The value a text denotes, if it denotes any. -/
def read (text : String) : Option Uuid :=
  match text.toList with
  | '\x7b' :: rest =>
      match readBytes 16 rest with
      | some (bytes, ['\x7d']) => ofBytes bytes
      | _ => none
  | text =>
      match readBytes 16 text with
      | some (bytes, []) => ofBytes bytes
      | _ => none

theorem hexValue_digitChar : ∀ value < 16,
    hexValue (Nat.digitChar value) = some value := by
  decide

theorem digitChar_ne_hyphen : ∀ value < 16, Nat.digitChar value ≠ '-' := by
  decide

theorem digitChar_ne_brace : ∀ value < 16, Nat.digitChar value ≠ '\x7b' := by
  decide

theorem high_lt (byte : UInt8) : byte.toNat / 16 < 16 := by
  have bounded := byte.toNat_lt
  omega

theorem low_lt (byte : UInt8) : byte.toNat % 16 < 16 :=
  Nat.mod_lt _ (by decide)

theorem dropHyphen_of_ne {first : Char} (notHyphen : first ≠ '-')
    (rest : List Char) : dropHyphen (first :: rest) = first :: rest := by
  unfold dropHyphen
  split
  · rename_i same
    exact absurd (List.cons.inj same).1 notHyphen
  · rfl

/-- The reader passes over the hyphens of the spelling, and over no others. -/
theorem dropHyphen_displayBytes (bytes : List UInt8) (rest : List Char) :
    (if bytes.length % 2 = 0 ∧ 0 < bytes.length then
        dropHyphen ((if bytes.length ∈ [12, 10, 8, 6] then ['-'] else []) ++
          displayBytes bytes ++ rest)
      else (if bytes.length ∈ [12, 10, 8, 6] then ['-'] else []) ++
        displayBytes bytes ++ rest) =
      displayBytes bytes ++ rest := by
  by_cases hyphenated : bytes.length ∈ [12, 10, 8, 6]
  · have even : bytes.length % 2 = 0 ∧ 0 < bytes.length := by
      revert hyphenated
      generalize bytes.length = length
      simp only [List.mem_cons, List.not_mem_nil, or_false]
      omega
    rw [if_pos even, if_pos hyphenated]
    rfl
  · rw [if_neg hyphenated, List.nil_append]
    split
    · rename_i even
      cases bytes with
      | nil => exact absurd even.2 (by decide)
      | cons byte bytes =>
          exact dropHyphen_of_ne (digitChar_ne_hyphen _ (high_lt byte)) _
    · rfl

theorem readBytes_displayBytes (bytes : List UInt8) (rest : List Char) :
    readBytes bytes.length (displayBytes bytes ++ rest) =
      some (bytes, rest) := by
  induction bytes with
  | nil => rfl
  | cons byte bytes induction =>
      have restored : UInt8.ofNat
          (16 * (byte.toNat / 16) + byte.toNat % 16) = byte := by
        rw [Nat.div_add_mod, UInt8.ofNat_toNat]
      have spelled : displayBytes (byte :: bytes) ++ rest =
          Nat.digitChar (byte.toNat / 16) :: Nat.digitChar (byte.toNat % 16) ::
            ((if bytes.length ∈ [12, 10, 8, 6] then ['-'] else []) ++
              displayBytes bytes ++ rest) := by
        simp only [displayBytes, hexPair, List.append_assoc, List.cons_append,
          List.nil_append]
      rw [spelled, List.length_cons, readBytes,
        hexValue_digitChar _ (high_lt byte), hexValue_digitChar _ (low_lt byte)]
      simp only [Option.bind_eq_bind, Option.bind_some,
        dropHyphen_displayBytes, induction, restored]
      rfl

theorem read_display (value : Uuid) : read value.display = some value := by
  obtain ⟨bytes, length_eq⟩ := value
  have reads := readBytes_displayBytes bytes []
  rw [length_eq, List.append_nil] at reads
  unfold read display
  rw [String.toList_ofList]
  split
  · rename_i spelled
    cases bytes with
    | nil => cases length_eq
    | cons byte bytes =>
        exact absurd (List.cons.inj spelled).1
          (digitChar_ne_brace _ (high_lt byte))
  · rw [reads]
    exact dif_pos length_eq

end Uuid

end Igloo
