import Igloo.ByteaText
import Igloo.TimestampTexts

/-!
# Agreement of text and binary parameters

A client sends each parameter as text or in a binary encoding, and the two are
decoded by different code.  A text is accepted exactly when it spells a value
of the expected type, and it becomes the scalar that the binary encoding of
this value becomes.
-/

namespace Igloo

namespace Server

open Arrow RustText

theorem map_parseSigned_eq_some_iff {Word : Type} {ofInt : Int → Word}
    {toInt : Word → Int} {least greatest : Int}
    (ofInt_toInt : ∀ word, ofInt (toInt word) = word)
    (toInt_ofInt : ∀ number, least ≤ number → number ≤ greatest →
      toInt (ofInt number) = number)
    (bounds : ∀ word, least ≤ toInt word ∧ toInt word ≤ greatest)
    {text : List Char} {word : Word} :
    (parseSigned least greatest text).map ofInt = some word ↔
      SpellsInteger text (toInt word) := by
  rw [Option.map_eq_some_iff]
  constructor
  · rintro ⟨number, parsed, rfl⟩
    obtain ⟨spells, above, below⟩ := parseSigned_eq_some_iff.mp parsed
    rwa [toInt_ofInt number above below]
  · intro spells
    exact ⟨toInt word, parseSigned_eq_some_iff.mpr ⟨spells, bounds word⟩,
      ofInt_toInt word⟩

/-- The words for a boolean, in lower case. -/
def boolWords : Bool → List String
  | true => ["true", "t", "yes", "on", "1"]
  | false => ["false", "f", "no", "off", "0"]

theorem parseBoolText_eq_some_iff {text : String} {value : Bool} :
    parseBoolText text = some value ↔
      String.ofList ((trim text.toList).map toAsciiLowercase) ∈
        boolWords value := by
  unfold parseBoolText
  generalize String.ofList ((trim text.toList).map toAsciiLowercase) = folded
  have apart : ∀ word ∈ boolWords true, word ∉ boolWords false := by decide
  change (if folded ∈ boolWords true then some true
    else if folded ∈ boolWords false then some false else none) =
      some value ↔ _
  by_cases isTrue : folded ∈ boolWords true
  · rw [if_pos isTrue]
    cases value with
    | true => simp [isTrue]
    | false => simp [apart folded isTrue]
  · rw [if_neg isTrue]
    cases value with
    | true => simp [isTrue]
    | false =>
        by_cases isFalse : folded ∈ boolWords false <;> simp [isFalse]

/-- The text spells the value. -/
def Spells (calendar : Calendar) (text : String) : BoundValue → Prop
  | .int2 value => SpellsInteger text.toList value.toInt
  | .int4 value => SpellsInteger text.toList value.toInt
  | .int8 value => SpellsInteger text.toList value.toInt
  | .float4 value => SpellsF32 text.toList value
  | .float8 value => SpellsF64 text.toList value
  | .text value => text = value
  | .bool value =>
      String.ofList ((trim text.toList).map toAsciiLowercase) ∈ boolWords value
  | .date days =>
      SpellsDate calendar text.toList (BoundValue.daysFrom1970 days)
  | .timestamp micros =>
      SpellsTimestamp calendar (trim text.toList)
        (BoundValue.nanosFrom1970 micros)
  | .bytea value => HexText text value

section Reading

variable (libraries : ParameterLibraries)

/-- The text half of `decode_scalar_value`, by the binary encoding of its
values. -/
def readText (encoding : BinaryEncoding) (text : String) :
    Option ScalarValue :=
  match encoding with
  | .int2 =>
      ((parseSigned (-2 ^ 15) (2 ^ 15 - 1) text.toList).map Int16.ofInt).map
        fun value => .int16 (some value)
  | .int4 =>
      ((parseSigned (-2 ^ 31) (2 ^ 31 - 1) text.toList).map Int32.ofInt).map
        fun value => .int32 (some value)
  | .int8 =>
      ((parseSigned (-2 ^ 63) (2 ^ 63 - 1) text.toList).map Int64.ofInt).map
        fun value => .int64 (some value)
  | .float4 => (F32.parse text.toList).map fun value => .float32 (some value)
  | .float8 => (F64.parse text.toList).map fun value => .float64 (some value)
  | .bool => (parseBoolText text).map fun value => .boolean (some value)
  | .date =>
      (libraries.parseDate text "%Y-%m-%d").toOption.map fun days =>
        .date32 (some (Int32.ofInt days))
  | .timestamp =>
      (parseTimestampText libraries text).bind fun datetime =>
        (timestampNanosOpt datetime).map fun nanos =>
          .timestampNanosecond (some nanos) none
  | .bytea => (parseByteaHex text).map fun bytes => .binary (some bytes)
  | .text => some (.utf8 (some text))

theorem refused_iff {error : PgWireError} {scalar : ScalarValue} :
    (Except.error error : PgWireResult ScalarValue) = .ok scalar ↔
      (none : Option ScalarValue) = some scalar := by
  constructor <;> rintro ⟨⟩

theorem scalarFrom_text {Value : Type} {raw : List UInt8} {text : String}
    (isText : fromUtf8 raw = some text) (binaryName : String)
    (read : List UInt8 → Except String Value)
    (parseText : List Char → Option Value)
    (toScalar : Option Value → ScalarValue) (index : Nat)
    {scalar : ScalarValue} :
    scalarFrom libraries raw true binaryName read parseText toScalar index =
        .ok scalar ↔
      (parseText text.toList).map (fun value => toScalar (some value)) =
        some scalar := by
  simp only [scalarFrom, if_true, textOf, isText, bind, Except.bind]
  cases parseText text.toList with
  | none => exact refused_iff
  | some value => simp [pure, Except.pure]

/-- On a text, `decode_scalar_value` reads the text of its expected type. -/
theorem decodeScalarValue_text {raw : List UInt8} {text : String}
    (isText : fromUtf8 raw = some text) (expected : Option DataType)
    (index : Nat) {scalar : ScalarValue} :
    decodeScalarValue libraries raw true expected index = .ok scalar ↔
      readText libraries ((expected.map binaryEncoding).getD .text) text =
        some scalar := by
  have asText : (do
      let text ← textOf raw index "value is not valid UTF-8"
      return ScalarValue.utf8 (some text)) = (.ok scalar : PgWireResult _) ↔
        readText libraries .text text = some scalar := by
    simp [textOf, isText, readText, bind, Except.bind, pure, Except.pure]
  cases expected with
  | none => exact asText
  | some dataType =>
      cases dataType with
      | utf8 => exact asText
      | other debug => exact asText
      | int16 | int32 | int64 | float32 | float64 =>
          simp only [decodeScalarValue, scalarFrom_text libraries isText]
          rfl
      | boolean =>
          simp only [decodeScalarValue, if_true, textOf, isText, readText,
            binaryEncoding, Option.map_some, Option.getD_some, bind,
            Except.bind]
          cases parseBoolText text with
          | none => exact refused_iff
          | some value => simp [pure, Except.pure]
      | date32 =>
          simp only [decodeScalarValue, if_true, textOf, isText, readText,
            binaryEncoding, Option.map_some, Option.getD_some, bind,
            Except.bind, fromSql]
          cases libraries.parseDate text "%Y-%m-%d" with
          | error message => exact refused_iff
          | ok days => simp [Except.mapError, Except.toOption, pure, Except.pure]
      | timestampNanosecond timezone =>
          simp only [decodeScalarValue, if_true, textOf, isText, readText,
            binaryEncoding, Option.map_some, Option.getD_some, bind,
            Except.bind]
          cases parseTimestampText libraries text with
          | none => exact refused_iff
          | some datetime =>
              simp only [pure, Except.pure, Option.bind_some]
              cases timestampNanosOpt datetime with
              | none => exact refused_iff
              | some nanos => simp
      | binary =>
          simp only [decodeScalarValue, if_true, textOf, isText, readText,
            binaryEncoding, Option.map_some, Option.getD_some, bind,
            Except.bind]
          cases parseByteaHex text with
          | none => exact refused_iff
          | some bytes => simp [pure, Except.pure]

theorem exists_text_of_decodeScalarValue {raw : List UInt8}
    {expected : Option DataType} {index : Nat} {scalar : ScalarValue}
    (decoded : decodeScalarValue libraries raw true expected index =
      .ok scalar) : ∃ text, fromUtf8 raw = some text := by
  cases isText : fromUtf8 raw with
  | some text => exact ⟨text, rfl⟩
  | none =>
      exfalso
      unfold decodeScalarValue at decoded
      split at decoded <;>
        simp [scalarFrom, textOf, isText, bind, Except.bind] at decoded

end Reading

/-- The texts whose value has a binary encoding: a hex text without a plus sign
for a digit, and a timestamp of whole microseconds. -/
structure HasBinaryForm (calendar : Calendar) (encoding : BinaryEncoding)
    (text : String) : Prop where
  bytea : encoding = .bytea → ¬ PlusSpelled text
  timestamp : encoding = .timestamp → ∀ nanos,
    SpellsTimestamp calendar (trim text.toList) nanos → 1000 ∣ nanos

/-- The scalar of a value. -/
def BoundValue.scalar : BoundValue → ScalarValue
  | int2 value => .int16 (some value)
  | int4 value => .int32 (some value)
  | int8 value => .int64 (some value)
  | float4 value => .float32 (some value)
  | float8 value => .float64 (some value)
  | text value => .utf8 (some value)
  | bool value => .boolean (some value)
  | date days => .date32 (some (Int32.ofInt (daysFrom1970 days)))
  | timestamp micros =>
      .timestampNanosecond (some (Int64.ofInt (nanosFrom1970 micros))) none
  | bytea value => .binary (some value)

section Agreement

variable {libraries : ParameterLibraries} {calendar : Calendar}

theorem eq_ofInt_of_timestampNanosOpt {nanos : Int} {stored : Int64}
    (fits : timestampNanosOpt nanos = some stored) :
    stored = Int64.ofInt nanos := by
  unfold timestampNanosOpt at fits
  split at fits <;> cases fits
  rfl

theorem readBinary_encode_eq_ok_iff (faithful : libraries.Faithful calendar)
    {value : BoundValue} {scalar : ScalarValue} :
    readBinary libraries value.encoding value.encode = .ok scalar ↔
      value.InRange calendar ∧ value.scalar = scalar := by
  have reads : value.InRange calendar →
      readBinary libraries value.encoding value.encode = .ok value.scalar := by
    intro inRange
    cases value with
    | int2 value =>
        simp [readBinary, BoundValue.encoding, BoundValue.scalar, Except.map,
          (faithful.int2 _ value).mpr rfl]
    | int4 value =>
        simp [readBinary, BoundValue.encoding, BoundValue.scalar, Except.map,
          (faithful.int4 _ value).mpr rfl]
    | int8 value =>
        simp [readBinary, BoundValue.encoding, BoundValue.scalar, Except.map,
          (faithful.int8 _ value).mpr rfl]
    | float4 value =>
        simp [readBinary, BoundValue.encoding, BoundValue.scalar, Except.map,
          faithful.float4]
    | float8 value =>
        simp [readBinary, BoundValue.encoding, BoundValue.scalar, Except.map,
          faithful.float8]
    | text value =>
        simp [readBinary, BoundValue.encoding, BoundValue.scalar,
          BoundValue.encode]
    | bool value =>
        simp [readBinary, BoundValue.encoding, BoundValue.scalar, Except.map,
          faithful.bool]
    | date days =>
        have read := (faithful.date days _).mpr ⟨rfl, inRange⟩
        simp [readBinary, BoundValue.encoding, BoundValue.scalar, Except.map,
          read]
    | timestamp micros =>
        obtain ⟨inCalendar, fits⟩ := inRange
        have read := (faithful.timestamp micros _).mpr ⟨rfl, inCalendar⟩
        obtain ⟨stored, isStored⟩ := Option.isSome_iff_exists.mp fits
        have storedEq := eq_ofInt_of_timestampNanosOpt isStored
        simp [readBinary, BoundValue.encoding, BoundValue.scalar, read,
          isStored, storedEq, bind, Except.bind, pure, Except.pure]
    | bytea value =>
        simp [readBinary, BoundValue.encoding, BoundValue.scalar, Except.map,
          BoundValue.encode, faithful.bytea]
  constructor
  · intro read
    have inRange := inRange_of_readBinary faithful read
    rw [reads inRange] at read
    exact ⟨inRange, Except.ok.inj read⟩
  · rintro ⟨inRange, rfl⟩
    exact reads inRange

section Integers

variable {text : List Char}

theorem map_parseSigned_int16 {value : Int16} :
    (parseSigned (-2 ^ 15) (2 ^ 15 - 1) text).map Int16.ofInt = some value ↔
      SpellsInteger text value.toInt := by
  refine map_parseSigned_eq_some_iff (fun _ => Int16.ofInt_toInt _) ?_ ?_
  · intro number above below
    exact Int16.toInt_ofInt_of_le above (by omega)
  · intro word
    have above := word.le_toInt
    have below := word.toInt_lt
    omega

theorem map_parseSigned_int32 {value : Int32} :
    (parseSigned (-2 ^ 31) (2 ^ 31 - 1) text).map Int32.ofInt = some value ↔
      SpellsInteger text value.toInt := by
  refine map_parseSigned_eq_some_iff (fun _ => Int32.ofInt_toInt _) ?_ ?_
  · intro number above below
    exact Int32.toInt_ofInt_of_le above (by omega)
  · intro word
    have above := word.le_toInt
    have below := word.toInt_lt
    omega

theorem map_parseSigned_int64 {value : Int64} :
    (parseSigned (-2 ^ 63) (2 ^ 63 - 1) text).map Int64.ofInt = some value ↔
      SpellsInteger text value.toInt := by
  refine map_parseSigned_eq_some_iff (fun _ => Int64.ofInt_toInt _) ?_ ?_
  · intro number above below
    exact Int64.toInt_ofInt_of_le above (by omega)
  · intro word
    have above := word.le_toInt
    have below := word.toInt_lt
    omega

end Integers

/-- A hex text is decoded to its bytes, and nothing else is but for plus
signs. -/
theorem parseByteaHex_eq_some_iff {text : String} {bytes : List UInt8}
    (notPlusSpelled : ¬ PlusSpelled text) :
    parseByteaHex text = some bytes ↔ HexText text bytes := by
  constructor
  · intro parsed
    rw [parseByteaHex_eq] at parsed
    rw [hexText_iff]
    by_cases plus : '+' ∈ afterPrefix (trim text.toList)
    · have decoded := Option.isSome_iff_exists.mpr ⟨bytes, parsed⟩
      rw [isSome_charPairs] at decoded
      exact absurd ⟨plus, decoded⟩ notPlusSpelled
    · exact (charPairs_eq_some_iff plus).mp parsed
  · exact parseByteaHex_of_hexText

theorem readText_of_spells (reads : libraries.ReadsTexts calendar)
    {text : String} {value : BoundValue} (spells : Spells calendar text value)
    (inRange : value.InRange calendar) :
    readText libraries value.encoding text = some value.scalar := by
  cases value with
  | int2 value =>
      exact congrArg (Option.map _) (map_parseSigned_int16.mpr spells)
  | int4 value =>
      exact congrArg (Option.map _) (map_parseSigned_int32.mpr spells)
  | int8 value =>
      exact congrArg (Option.map _) (map_parseSigned_int64.mpr spells)
  | float4 value =>
      exact congrArg (Option.map _) (F32.parse_eq_some_iff.mpr spells)
  | float8 value =>
      exact congrArg (Option.map _) (F64.parse_eq_some_iff.mpr spells)
  | text value =>
      obtain rfl : text = value := spells
      rfl
  | bool value =>
      exact congrArg (Option.map _) (parseBoolText_eq_some_iff.mpr spells)
  | date days =>
      have parsed : libraries.parseDate text "%Y-%m-%d" =
          .ok (BoundValue.daysFrom1970 days) :=
        (reads.parseDate dateFormat List.mem_cons_self _ _).mpr spells
      simp [readText, BoundValue.encoding, BoundValue.scalar, parsed,
        Except.toOption]
  | timestamp micros =>
      have parsed := (parseTimestampText_eq_some_iff reads).mpr spells
      obtain ⟨stored, isStored⟩ := Option.isSome_iff_exists.mp inRange.2
      have storedEq := eq_ofInt_of_timestampNanosOpt isStored
      simp [readText, BoundValue.encoding, BoundValue.scalar, parsed, isStored,
        storedEq]
  | bytea value =>
      exact congrArg (Option.map _) (parseByteaHex_of_hexText spells)

theorem exists_spelled_of_readText
    (reads : libraries.ReadsTexts calendar) {encoding : BinaryEncoding}
    {text : String} (hasForm : HasBinaryForm calendar encoding text)
    {scalar : ScalarValue}
    (read : readText libraries encoding text = some scalar) :
    ∃ value : BoundValue, value.encoding = encoding ∧
      Spells calendar text value ∧ value.InRange calendar ∧
        value.scalar = scalar := by
  cases encoding with
  | int2 =>
      obtain ⟨value, parsed, rfl⟩ := Option.map_eq_some_iff.mp read
      exact ⟨.int2 value, rfl, map_parseSigned_int16.mp parsed, trivial, rfl⟩
  | int4 =>
      obtain ⟨value, parsed, rfl⟩ := Option.map_eq_some_iff.mp read
      exact ⟨.int4 value, rfl, map_parseSigned_int32.mp parsed, trivial, rfl⟩
  | int8 =>
      obtain ⟨value, parsed, rfl⟩ := Option.map_eq_some_iff.mp read
      exact ⟨.int8 value, rfl, map_parseSigned_int64.mp parsed, trivial, rfl⟩
  | float4 =>
      obtain ⟨value, parsed, rfl⟩ := Option.map_eq_some_iff.mp read
      exact ⟨.float4 value, rfl, F32.parse_eq_some_iff.mp parsed, trivial,
        rfl⟩
  | float8 =>
      obtain ⟨value, parsed, rfl⟩ := Option.map_eq_some_iff.mp read
      exact ⟨.float8 value, rfl, F64.parse_eq_some_iff.mp parsed, trivial,
        rfl⟩
  | text =>
      cases read
      exact ⟨.text text, rfl, rfl, trivial, rfl⟩
  | bool =>
      obtain ⟨value, parsed, rfl⟩ := Option.map_eq_some_iff.mp read
      exact ⟨.bool value, rfl, parseBoolText_eq_some_iff.mp parsed, trivial,
        rfl⟩
  | date =>
      obtain ⟨days, parsed, rfl⟩ := Option.map_eq_some_iff.mp read
      have isDate : libraries.parseDate text "%Y-%m-%d" = .ok days := by
        cases found : libraries.parseDate text "%Y-%m-%d" with
        | error message =>
            rw [found] at parsed
            cases parsed
        | ok other =>
            rw [found] at parsed
            cases parsed
            rfl
      have spells : SpellsDate calendar text.toList days :=
        (reads.parseDate dateFormat List.mem_cons_self _ _).mp isDate
      have inCalendar := spells.hasDate
      obtain ⟨-, below⟩ := calendar.hasDate_int32 days inCalendar
      have above := reads.since2000 days inCalendar
      have sameDays : BoundValue.daysFrom1970 (Int32.ofInt (days - 10957)) =
          days := by
        rw [BoundValue.daysFrom1970, Int32.toInt_ofInt_of_le above (by
          have greatest : Int32.maxValue.toInt = 2147483647 := by decide
          omega)]
        omega
      refine ⟨.date (Int32.ofInt (days - 10957)), rfl, ?_, ?_, ?_⟩
      · rw [Spells, sameDays]
        exact spells
      · rw [BoundValue.InRange, sameDays]
        exact inCalendar
      · rw [BoundValue.scalar, sameDays]
  | timestamp =>
      obtain ⟨nanos, parsed, fits⟩ := Option.bind_eq_some_iff.mp read
      obtain ⟨stored, isStored, rfl⟩ := Option.map_eq_some_iff.mp fits
      have spells := (parseTimestampText_eq_some_iff reads).mp parsed
      obtain ⟨sinceEpoch, wholeMicros⟩ := hasForm.timestamp rfl nanos spells
      have storedEq := toInt_of_timestampNanosOpt isStored
      have above := stored.le_toInt
      have below := stored.toInt_lt
      have sameNanos : BoundValue.nanosFrom1970
          (Int64.ofInt (sinceEpoch - 946684800000000)) = nanos := by
        rw [BoundValue.nanosFrom1970,
          Int64.toInt_ofInt_of_le (by omega) (by omega)]
        omega
      refine ⟨.timestamp (Int64.ofInt (sinceEpoch - 946684800000000)), rfl,
        ?_, ?_, ?_⟩
      · rw [Spells, sameNanos]
        exact spells
      · rw [BoundValue.InRange, sameNanos]
        exact ⟨storedEq ▸ reads.hasInstants stored,
          Option.isSome_iff_exists.mpr ⟨stored, isStored⟩⟩
      · rw [BoundValue.scalar, sameNanos,
          eq_ofInt_of_timestampNanosOpt isStored]
  | bytea =>
      obtain ⟨bytes, parsed, rfl⟩ := Option.map_eq_some_iff.mp read
      exact ⟨.bytea bytes, rfl,
        (parseByteaHex_eq_some_iff (hasForm.bytea rfl)).mp parsed, trivial,
        rfl⟩

theorem fromUtf8_eq_some_iff {raw : List UInt8} {text : String} :
    fromUtf8 raw = some text ↔ raw = toUtf8 text := by
  constructor
  · intro decoded
    unfold fromUtf8 String.fromUTF8? at decoded
    split at decoded
    · cases decoded
      rfl
    · cases decoded
  · rintro rfl
    exact fromUtf8_toUtf8 text

/-- A parameter sent as text is decoded to a scalar exactly when the text
spells a value of the expected type whose binary encoding is decoded to the
same scalar. -/
theorem decode_text_iff_binary (faithful : libraries.Faithful calendar)
    (reads : libraries.ReadsTexts calendar) {raw : List UInt8}
    {expected : Option DataType}
    (hasForm : ∀ text, raw = toUtf8 text → HasBinaryForm calendar
      ((expected.map binaryEncoding).getD .text) text)
    (index : Nat) (scalar : ScalarValue) :
    decodeScalarValue libraries raw true expected index = .ok scalar ↔
      ∃ text value, raw = toUtf8 text ∧ Spells calendar text value ∧
        value.encoding = (expected.map binaryEncoding).getD .text ∧
          decodeScalarValue libraries value.encode false expected index =
            .ok scalar := by
  simp only [decodeScalarValue_binary, fromSql_eq_ok_iff]
  constructor
  · intro decoded
    obtain ⟨text, isText⟩ := exists_text_of_decodeScalarValue libraries decoded
    have rawEq := fromUtf8_eq_some_iff.mp isText
    rw [decodeScalarValue_text libraries isText] at decoded
    obtain ⟨value, sameEncoding, spells, inRange, scalarEq⟩ :=
      exists_spelled_of_readText reads (hasForm text rawEq) decoded
    refine ⟨text, value, rawEq, spells, sameEncoding, ?_⟩
    rw [← sameEncoding]
    exact (readBinary_encode_eq_ok_iff faithful).mpr ⟨inRange, scalarEq⟩
  · rintro ⟨text, value, rfl, spells, sameEncoding, decoded⟩
    rw [← sameEncoding, readBinary_encode_eq_ok_iff faithful] at decoded
    obtain ⟨inRange, rfl⟩ := decoded
    rw [decodeScalarValue_text libraries (fromUtf8_toUtf8 text),
      ← sameEncoding]
    exact readText_of_spells reads spells inRange

end Agreement

/-- A text with a time zone is decoded to the instant in Greenwich. -/
theorem decode_text_iff_binary_offset :
    decodeScalarValue chronoLibraries (toUtf8 "2024-01-15T10:00:00+02:00") true
        (some (.timestampNanosecond none)) 0 =
        .ok (.timestampNanosecond (some 1705305600000000000) none) ↔
      ∃ text value, toUtf8 "2024-01-15T10:00:00+02:00" = toUtf8 text ∧
        Spells chronoCalendar text value ∧ value.encoding = .timestamp ∧
          decodeScalarValue chronoLibraries value.encode false
              (some (.timestampNanosecond none)) 0 =
            .ok (.timestampNanosecond (some 1705305600000000000) none) := by
  have hasForm : ∀ text, toUtf8 "2024-01-15T10:00:00+02:00" = toUtf8 text →
      HasBinaryForm chronoCalendar .timestamp text := by
    intro text sameBytes
    have sameText := congrArg fromUtf8 sameBytes
    rw [fromUtf8_toUtf8, fromUtf8_toUtf8] at sameText
    cases sameText
    have parsed : parseTimestampText chronoLibraries
        "2024-01-15T10:00:00+02:00" = some 1705305600000000000 := by
      decide
    constructor
    · intro isBytea
      cases isBytea
    · intro _ nanos spells
      have found :=
        (parseTimestampText_eq_some_iff chronoLibraries_readsTexts).mpr spells
      rw [parsed] at found
      cases found
      decide
  exact decode_text_iff_binary chronoLibraries_faithful
    chronoLibraries_readsTexts hasForm 0 _

end Server

end Igloo
