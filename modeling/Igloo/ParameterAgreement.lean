import Igloo.BigEndian
import Igloo.ParameterDecoding

/-!
# Agreement of Describe and Bind

`describe_parameters` announces a type for every parameter, and a client binds
its value in the binary encoding of that type.  `decode_portal_params` reads
the bytes at a type it settles on by itself, and it ranks the declared and the
inferred types the other way round.  The value arrives unchanged exactly when
the inferred type, if there is one, reads the same binary encoding as the
announced one and the value has a scalar at all.
-/

namespace Igloo

namespace Server

open Arrow RustText

/-- A value as a client binds it; a date counts days and a timestamp
microseconds from the first day of 2000. -/
inductive BoundValue
  | int2 (value : Int16)
  | int4 (value : Int32)
  | int8 (value : Int64)
  | float4 (value : F32)
  | float8 (value : F64)
  | text (value : String)
  | bool (value : Bool)
  | date (days : Int32)
  | timestamp (micros : Int64)
  | bytea (value : List UInt8)
  deriving DecidableEq

/-- What a bound value or a scalar stands for; a date counts days and an
instant nanoseconds from 1970. -/
inductive Meaning
  | integer (value : Int)
  | single (value : F32)
  | double (value : F64)
  | text (value : String)
  | boolean (value : Bool)
  | date (days : Int)
  | instant (nanos : Int)
  | bytes (value : List UInt8)
  deriving DecidableEq

/-- The binary encodings of the parameter types that the server can read. -/
inductive BinaryEncoding
  | int2
  | int4
  | int8
  | float4
  | float8
  | text
  | bool
  | date
  | timestamp
  | bytea
  deriving DecidableEq

namespace BoundValue

def encoding : BoundValue → BinaryEncoding
  | int2 _ => .int2
  | int4 _ => .int4
  | int8 _ => .int8
  | float4 _ => .float4
  | float8 _ => .float8
  | text _ => .text
  | bool _ => .bool
  | date _ => .date
  | timestamp _ => .timestamp
  | bytea _ => .bytea

/-- The PostgreSQL binary encoding. -/
def encode : BoundValue → List UInt8
  | int2 value => BigEndian.encode 2 value.toBitVec.toNat
  | int4 value => BigEndian.encode 4 value.toBitVec.toNat
  | int8 value => BigEndian.encode 8 value.toBitVec.toNat
  | float4 value => BigEndian.encode 4 value.bits.toNat
  | float8 value => BigEndian.encode 8 value.bits.toNat
  | text value => toUtf8 value
  | bool value => [if value then 1 else 0]
  | date days => BigEndian.encode 4 days.toBitVec.toNat
  | timestamp micros => BigEndian.encode 8 micros.toBitVec.toNat
  | bytea value => value

/-- Days from 1970 of a date counted from 2000. -/
def daysFrom1970 (days : Int32) : Int :=
  days.toInt + 10957

/-- Nanoseconds from 1970 of microseconds counted from 2000. -/
def nanosFrom1970 (micros : Int64) : Int :=
  (micros.toInt + 946684800000000) * 1000

def meaning : BoundValue → Meaning
  | int2 value => .integer value.toInt
  | int4 value => .integer value.toInt
  | int8 value => .integer value.toInt
  | float4 value => .single value
  | float8 value => .double value
  | text value => .text value
  | bool value => .boolean value
  | date days => .date (daysFrom1970 days)
  | timestamp micros => .instant (nanosFrom1970 micros)
  | bytea value => .bytes value

end BoundValue

/-- The binary encoding in which values of a type are bound. -/
def PgType.boundAs : PgType → Option BinaryEncoding
  | .int2 => some .int2
  | .int4 => some .int4
  | .int8 => some .int8
  | .float4 => some .float4
  | .float8 => some .float8
  | .text | .varchar | .bpchar => some .text
  | .bool => some .bool
  | .date => some .date
  | .timestamp => some .timestamp
  | .bytea => some .bytea
  | .unknown | .other _ => none

/-- The meaning of a scalar that a parameter can decode to. -/
def scalarMeaning : ScalarValue → Option Meaning
  | .int16 (some value) => some (.integer value.toInt)
  | .int32 (some value) => some (.integer value.toInt)
  | .int64 (some value) => some (.integer value.toInt)
  | .float32 (some value) => some (.single value)
  | .float64 (some value) => some (.double value)
  | .utf8 (some value) => some (.text value)
  | .boolean (some value) => some (.boolean value)
  | .date32 (some days) => some (.date days.toInt)
  | .timestampNanosecond (some nanos) _ => some (.instant nanos.toInt)
  | .binary (some value) => some (.bytes value)
  | _ => none

/-- The binary encoding that `decode_scalar_value` reads at a type. -/
def binaryEncoding : DataType → BinaryEncoding
  | .int16 => .int2
  | .int32 => .int4
  | .int64 => .int8
  | .float32 => .float4
  | .float64 => .float8
  | .boolean => .bool
  | .date32 => .date
  | .timestampNanosecond _ => .timestamp
  | .binary => .bytea
  | .utf8 | .other _ => .text

/-- The range of chrono's calendar, in days and nanoseconds from 1970. -/
structure Calendar where
  hasDate : Int → Bool
  hasDateTime : Int → Bool
  hasDate_int32 : ∀ days, hasDate days = true →
    Int32.minValue.toInt ≤ days ∧ days ≤ Int32.maxValue.toInt

/-- What the decoder relies on in the readers of postgres-types: numbers are
big-endian words of exactly their own width, and each encoding reads back. -/
structure ParameterLibraries.Faithful (libraries : ParameterLibraries)
    (calendar : Calendar) : Prop where
  int2 : ∀ raw value, libraries.int2 raw = .ok value ↔
    raw = BoundValue.encode (.int2 value)
  int4 : ∀ raw value, libraries.int4 raw = .ok value ↔
    raw = BoundValue.encode (.int4 value)
  int8 : ∀ raw value, libraries.int8 raw = .ok value ↔
    raw = BoundValue.encode (.int8 value)
  float4 : ∀ value,
    libraries.float4 (BoundValue.encode (.float4 value)) = .ok value
  float8 : ∀ value,
    libraries.float8 (BoundValue.encode (.float8 value)) = .ok value
  bool : ∀ value,
    libraries.bool (BoundValue.encode (.bool value)) = .ok value
  date : ∀ days result,
    libraries.date (BoundValue.encode (.date days)) = .ok result ↔
      result = BoundValue.daysFrom1970 days ∧ calendar.hasDate result
  timestamp : ∀ micros result,
    libraries.timestamp (BoundValue.encode (.timestamp micros)) =
        .ok result ↔
      result = BoundValue.nanosFrom1970 micros ∧ calendar.hasDateTime result
  bytea : ∀ value, libraries.bytea value = .ok value

/-- Whether a value of a date or time type lies in the range of the calendar
and of a nanosecond count in 64 bits. -/
def BoundValue.InRange (calendar : Calendar) : BoundValue → Prop
  | .date days => calendar.hasDate (daysFrom1970 days)
  | .timestamp micros =>
      calendar.hasDateTime (nanosFrom1970 micros) ∧
        (timestampNanosOpt (nanosFrom1970 micros)).isSome
  | _ => True

section Reading

variable (libraries : ParameterLibraries)

/-- The binary half of `decode_scalar_value`, by the encoding it reads. -/
def readBinary (encoding : BinaryEncoding) (raw : List UInt8) :
    Except String ScalarValue :=
  match encoding with
  | .int2 => (libraries.int2 raw).map fun value => .int16 (some value)
  | .int4 => (libraries.int4 raw).map fun value => .int32 (some value)
  | .int8 => (libraries.int8 raw).map fun value => .int64 (some value)
  | .float4 => (libraries.float4 raw).map fun value => .float32 (some value)
  | .float8 => (libraries.float8 raw).map fun value => .float64 (some value)
  | .bool => (libraries.bool raw).map fun value => .boolean (some value)
  | .date =>
      (libraries.date raw).map fun days => .date32 (some (Int32.ofInt days))
  | .timestamp => do
      let datetime ← libraries.timestamp raw
      match timestampNanosOpt datetime with
      | some nanos => return .timestampNanosecond (some nanos) none
      | none => throw "timestamp is out of range for nanosecond precision"
  | .bytea => (libraries.bytea raw).map fun bytes => .binary (some bytes)
  | .text =>
      match fromUtf8 raw with
      | some text => .ok (.utf8 (some text))
      | none => .error "value is not valid UTF-8"

@[simp]
theorem fromSql_eq_ok_iff {Value : Type} {index : Nat}
    {result : Except String Value} {value : Value} :
    fromSql index result = .ok value ↔ result = .ok value := by
  cases result <;> simp [fromSql, Except.mapError]

theorem scalarFrom_binary {Value : Type} (raw : List UInt8)
    (binaryName : String) (read : List UInt8 → Except String Value)
    (parseText : List Char → Option Value)
    (toScalar : Option Value → ScalarValue) (index : Nat) :
    scalarFrom libraries raw false binaryName read parseText toScalar index =
      fromSql index ((read raw).map fun value => toScalar (some value)) := by
  simp only [scalarFrom, Bool.false_eq_true, ↓reduceIte]
  cases read raw <;> rfl

private theorem textOf_eq (raw : List UInt8) (index : Nat) :
    (do
      let text ← textOf raw index "value is not valid UTF-8"
      return ScalarValue.utf8 (some text)) =
        fromSql index (readBinary libraries .text raw) := by
  simp only [textOf, readBinary]
  cases fromUtf8 raw <;> rfl

/-- On a binary value, `decode_scalar_value` only reads the encoding of its
expected type. -/
theorem decodeScalarValue_binary (raw : List UInt8)
    (expected : Option DataType) (index : Nat) :
    decodeScalarValue libraries raw false expected index =
      fromSql index (readBinary libraries
        ((expected.map binaryEncoding).getD .text) raw) := by
  cases expected with
  | none => exact textOf_eq libraries raw index
  | some dataType =>
      cases dataType with
      | utf8 => exact textOf_eq libraries raw index
      | other debug => exact textOf_eq libraries raw index
      | boolean =>
          simp only [decodeScalarValue, Option.map_some, Option.getD_some,
            binaryEncoding, readBinary]
          cases libraries.bool raw <;> rfl
      | date32 =>
          simp only [decodeScalarValue, Option.map_some, Option.getD_some,
            binaryEncoding, readBinary]
          cases libraries.date raw <;> rfl
      | timestampNanosecond timezone =>
          simp only [decodeScalarValue, Option.map_some, Option.getD_some,
            binaryEncoding, readBinary]
          cases libraries.timestamp raw with
          | error message => rfl
          | ok datetime =>
              simp only [fromSql, Except.mapError, bind, Except.bind]
              cases timestampNanosOpt datetime <;> rfl
      | binary =>
          simp only [decodeScalarValue, Option.map_some, Option.getD_some,
            binaryEncoding, readBinary]
          cases libraries.bytea raw <;> rfl
      | int16 | int32 | int64 | float32 | float64 =>
          simp only [decodeScalarValue, scalarFrom_binary]
          rfl

end Reading

/-- The number of bytes of an integer encoding. -/
def BinaryEncoding.integerWidth : BinaryEncoding → Nat
  | .int2 => 2
  | .int4 => 4
  | .int8 => 8
  | _ => 0

/-- The encodings whose scalars can have a meaning. -/
def Meaning.CarriedBy : Meaning → BinaryEncoding → Prop
  | .integer _, encoding =>
      encoding = .int2 ∨ encoding = .int4 ∨ encoding = .int8
  | .single _, encoding => encoding = .float4
  | .double _, encoding => encoding = .float8
  | .text _, encoding => encoding = .text
  | .boolean _, encoding => encoding = .bool
  | .date _, encoding => encoding = .date
  | .instant _, encoding => encoding = .timestamp
  | .bytes _, encoding => encoding = .bytea

section Faithful

variable {libraries : ParameterLibraries} {calendar : Calendar}

theorem carriedBy_of_readBinary {encoding : BinaryEncoding}
    {raw : List UInt8} {scalar : ScalarValue} {meaning : Meaning}
    (read : readBinary libraries encoding raw = .ok scalar)
    (means : scalarMeaning scalar = some meaning) :
    meaning.CarriedBy encoding := by
  cases encoding with
  | timestamp =>
      simp only [readBinary, bind, Except.bind] at read
      split at read
      · cases read
      · split at read <;> cases read
        cases means
        rfl
  | text =>
      simp only [readBinary] at read
      split at read <;> cases read
      cases means
      rfl
  | _ =>
      simp only [readBinary, Except.map] at read
      split at read <;> cases read
      cases means
      simp [Meaning.CarriedBy]

theorem length_of_readBinary (faithful : libraries.Faithful calendar)
    {encoding : BinaryEncoding} {raw : List UInt8} {scalar : ScalarValue}
    {number : Int} (read : readBinary libraries encoding raw = .ok scalar)
    (carried : (Meaning.integer number).CarriedBy encoding) :
    raw.length = encoding.integerWidth := by
  rcases carried with rfl | rfl | rfl
  · cases result : libraries.int2 raw with
    | error message => simp [readBinary, result, Except.map] at read
    | ok value =>
        rw [(faithful.int2 raw value).mp result]
        exact BigEndian.length_encode _ _
  · cases result : libraries.int4 raw with
    | error message => simp [readBinary, result, Except.map] at read
    | ok value =>
        rw [(faithful.int4 raw value).mp result]
        exact BigEndian.length_encode _ _
  · cases result : libraries.int8 raw with
    | error message => simp [readBinary, result, Except.map] at read
    | ok value =>
        rw [(faithful.int8 raw value).mp result]
        exact BigEndian.length_encode _ _

/-- Bytes that read to the meaning of the value they encode were read at the
encoding of that value. -/
theorem encoding_eq_of_readBinary (faithful : libraries.Faithful calendar)
    {encoding : BinaryEncoding} {value : BoundValue} {scalar : ScalarValue}
    (read : readBinary libraries encoding value.encode = .ok scalar)
    (means : scalarMeaning scalar = some value.meaning) :
    encoding = value.encoding := by
  have carried := carriedBy_of_readBinary read means
  cases value with
  | int2 value | int4 value | int8 value =>
      have width := length_of_readBinary faithful read carried
      simp only [BoundValue.encode, BigEndian.length_encode] at width
      rcases carried with rfl | rfl | rfl
      all_goals first | rfl | cases width
  | float4 | float8 | text | bool | date | timestamp | bytea => exact carried

theorem inRange_of_readBinary (faithful : libraries.Faithful calendar)
    {value : BoundValue} {scalar : ScalarValue}
    (read : readBinary libraries value.encoding value.encode = .ok scalar) :
    value.InRange calendar := by
  cases value with
  | date days =>
      cases result : libraries.date (BoundValue.encode (.date days)) with
      | error message =>
          simp [readBinary, BoundValue.encoding, result, Except.map] at read
      | ok found =>
          obtain ⟨rfl, inCalendar⟩ := (faithful.date days found).mp result
          exact inCalendar
  | timestamp micros =>
      cases result :
          libraries.timestamp (BoundValue.encode (.timestamp micros)) with
      | error message =>
          simp [readBinary, BoundValue.encoding, result, bind,
            Except.bind] at read
      | ok found =>
          obtain ⟨rfl, inCalendar⟩ :=
            (faithful.timestamp micros found).mp result
          refine ⟨inCalendar, ?_⟩
          by_contra outOfRange
          rw [Option.not_isSome_iff_eq_none] at outOfRange
          simp [readBinary, BoundValue.encoding, result, outOfRange, bind,
            Except.bind, throw, throwThe, MonadExceptOf.throw] at read
  | _ => trivial

theorem toInt_of_timestampNanosOpt {nanos : Int} {stored : Int64}
    (fits : timestampNanosOpt nanos = some stored) : stored.toInt = nanos := by
  unfold timestampNanosOpt at fits
  split at fits
  · rename_i bounds
    cases fits
    exact Int64.toInt_ofInt_of_le bounds.1 (Int.lt_add_one_of_le bounds.2)
  · cases fits

theorem exists_readBinary_encode (faithful : libraries.Faithful calendar)
    {value : BoundValue} (inRange : value.InRange calendar) :
    ∃ scalar,
      readBinary libraries value.encoding value.encode = .ok scalar ∧
        scalarMeaning scalar = some value.meaning := by
  cases value with
  | int2 value =>
      have read := (faithful.int2 _ value).mpr rfl
      exact ⟨.int16 (some value), by
        simp [readBinary, BoundValue.encoding, read, Except.map], rfl⟩
  | int4 value =>
      have read := (faithful.int4 _ value).mpr rfl
      exact ⟨.int32 (some value), by
        simp [readBinary, BoundValue.encoding, read, Except.map], rfl⟩
  | int8 value =>
      have read := (faithful.int8 _ value).mpr rfl
      exact ⟨.int64 (some value), by
        simp [readBinary, BoundValue.encoding, read, Except.map], rfl⟩
  | float4 value =>
      exact ⟨.float32 (some value), by
        simp [readBinary, BoundValue.encoding, faithful.float4,
          Except.map], rfl⟩
  | float8 value =>
      exact ⟨.float64 (some value), by
        simp [readBinary, BoundValue.encoding, faithful.float8,
          Except.map], rfl⟩
  | text value =>
      exact ⟨.utf8 (some value), by
        simp [readBinary, BoundValue.encoding, BoundValue.encode], rfl⟩
  | bool value =>
      exact ⟨.boolean (some value), by
        simp [readBinary, BoundValue.encoding, faithful.bool,
          Except.map], rfl⟩
  | bytea value =>
      exact ⟨.binary (some value), by
        simp [readBinary, BoundValue.encoding, BoundValue.encode,
          faithful.bytea, Except.map], rfl⟩
  | date days =>
      have read := (faithful.date days _).mpr ⟨rfl, inRange⟩
      have bounds := calendar.hasDate_int32 _ inRange
      refine ⟨.date32 (some (Int32.ofInt (BoundValue.daysFrom1970 days))), by
        simp [readBinary, BoundValue.encoding, read, Except.map], ?_⟩
      have stored : (Int32.ofInt (BoundValue.daysFrom1970 days)).toInt =
          BoundValue.daysFrom1970 days :=
        Int32.toInt_ofInt_of_le bounds.1 (Int.lt_add_one_of_le bounds.2)
      simp only [scalarMeaning, stored, BoundValue.meaning]
  | timestamp micros =>
      obtain ⟨inCalendar, fits⟩ := inRange
      obtain ⟨nanos, nanosEq⟩ := Option.isSome_iff_exists.mp fits
      have read := (faithful.timestamp micros _).mpr ⟨rfl, inCalendar⟩
      refine ⟨.timestampNanosecond (some nanos) none, by
        simp [readBinary, BoundValue.encoding, read, nanosEq, bind,
          Except.bind, pure, Except.pure], ?_⟩
      simp only [scalarMeaning, toInt_of_timestampNanosOpt nanosEq,
        BoundValue.meaning]

theorem readBinary_encode_iff (faithful : libraries.Faithful calendar)
    (encoding : BinaryEncoding) (value : BoundValue) :
    (∃ scalar, readBinary libraries encoding value.encode = .ok scalar ∧
        scalarMeaning scalar = some value.meaning) ↔
      encoding = value.encoding ∧ value.InRange calendar := by
  constructor
  · rintro ⟨scalar, read, means⟩
    have same := encoding_eq_of_readBinary faithful read means
    subst same
    exact ⟨rfl, inRange_of_readBinary faithful read⟩
  · rintro ⟨rfl, inRange⟩
    exact exists_readBinary_encode faithful inRange

end Faithful

theorem map_binaryEncoding_pgTypeToArrow (declared : PgType) :
    (pgTypeToArrow declared).map binaryEncoding = declared.boundAs := by
  cases declared <;> rfl

theorem describeParameters_getElem? {declared : List PgType}
    {inferred : List (Option DataType)} {index : Nat} {announced : PgType}
    (described : (describeParameters declared inferred)[index]? =
      some announced) :
    declared[index]? = some announced ∧ announced ≠ .unknown ∨
      describeParameters.fromInference inferred index = announced := by
  simp only [describeParameters, List.getElem?_map,
    Option.map_eq_some_iff] at described
  obtain ⟨position, positionEq, announcedEq⟩ := described
  obtain ⟨_, rfl⟩ := List.getElem?_eq_some_iff.mp positionEq
  simp only [List.getElem_range] at announcedEq
  split at announcedEq
  · rename_i declaredType found
    split at announcedEq
    · subst announcedEq
      exact Or.inl ⟨found, ‹_›⟩
    · exact Or.inr announcedEq
  · exact Or.inr announcedEq

/-- The decoder settles on the announced encoding unless the engine inferred
a type that reads another one. -/
theorem encoding_inferredType {portal : Portal}
    {inferred : List (Option DataType)} {index : Nat} {announced : PgType}
    {encoding : BinaryEncoding}
    (described : (describeParameters portal.statement.parameterTypes
      inferred)[index]? = some announced)
    (bound : announced.boundAs = some encoding) :
    ((inferredType portal inferred index).map binaryEncoding).getD .text =
        encoding ↔
      ∀ dataType, inferred[index]?.join = some dataType →
        binaryEncoding dataType = encoding := by
  cases found : inferred[index]?.join with
  | some dataType => simp [inferredType, found]
  | none =>
      have declared : portal.statement.parameterTypes[index]? =
          some announced ∧ announced ≠ .unknown := by
        rcases describeParameters_getElem? described with declared | fallback
        · exact declared
        · simp only [describeParameters.fromInference, found] at fallback
          subst fallback
          cases bound
      have settled : inferredType portal inferred index =
          pgTypeToArrow announced := by
        simp [inferredType, found, declared.1, declared.2]
      rw [settled, map_binaryEncoding_pgTypeToArrow, bound]
      simp

/-- Iteration `index` of the loop in `decode_portal_params` yields a scalar
that denotes the bound value. -/
def BindsFaithfully (libraries : ParameterLibraries) (portal : Portal)
    (inferred : List (Option DataType)) (index : Nat) (value : BoundValue) :
    Prop :=
  ∃ scalar,
    decodePortalParam libraries portal index
        (inferredType portal inferred index) = .ok scalar ∧
      scalarMeaning scalar = some value.meaning

/-- A value bound in the binary encoding of the announced type arrives
unchanged if and only if no inferred type reads another encoding and the value
lies within the calendar and the nanosecond range. -/
theorem bindsFaithfully_iff {libraries : ParameterLibraries}
    {calendar : Calendar} (faithful : libraries.Faithful calendar)
    {portal : Portal} {inferred : List (Option DataType)} {index : Nat}
    {announced : PgType} {value : BoundValue}
    (described : (describeParameters portal.statement.parameterTypes
      inferred)[index]? = some announced)
    (typed : announced.boundAs = some value.encoding)
    (bound : portal.parameters[index]? = some (some value.encode))
    (binary : portal.parameterFormat.formatFor index = .binary) :
    BindsFaithfully libraries portal inferred index value ↔
      (∀ dataType, inferred[index]?.join = some dataType →
        binaryEncoding dataType = value.encoding) ∧
          value.InRange calendar := by
  have isBinary : portal.parameterFormat.isText index = false := by
    simp [Format.isText, binary]
  simp only [BindsFaithfully, decodePortalParam, bound, isBinary,
    decodeScalarValue_binary, fromSql_eq_ok_iff]
  rw [readBinary_encode_iff faithful, encoding_inferredType described typed]

section BigEndianLibraries

/-- The calendar of chrono. -/
def chronoCalendar : Calendar where
  hasDate days := -96465292 ≤ days && days ≤ 95026236
  hasDateTime nanos :=
    -96465292 ≤ nanos / 86400000000000 && nanos / 86400000000000 ≤ 95026236
  hasDate_int32 days inRange := by
    simp only [Bool.and_eq_true, decide_eq_true_eq] at inRange
    have least : Int32.minValue.toInt = -2147483648 := by decide
    have greatest : Int32.maxValue.toInt = 2147483647 := by decide
    omega

/-- A word of exactly the given number of bytes. -/
def readWord {Value : Type} {size : Nat} (width : Nat)
    (ofBits : BitVec size → Value) (raw : List UInt8) :
    Except String Value :=
  if raw.length = width then
    .ok (ofBits (BitVec.ofNat size (BigEndian.decode raw)))
  else .error "invalid buffer size"

theorem readWord_eq_ok_iff {Value : Type} {size width : Nat}
    (sized : 2 ^ size = 256 ^ width) {ofBits : BitVec size → Value}
    {bits : Value → BitVec size}
    (ofBits_bits : ∀ value, ofBits (bits value) = value)
    (bits_ofBits : ∀ word, bits (ofBits word) = word)
    (raw : List UInt8) (value : Value) :
    readWord width ofBits raw = .ok value ↔
      raw = BigEndian.encode width (bits value).toNat := by
  unfold readWord
  constructor
  · intro read
    split at read
    · rename_i lengthEq
      cases read
      have small := BigEndian.decode_lt raw
      rw [lengthEq, ← sized] at small
      rw [bits_ofBits, BitVec.toNat_ofNat, Nat.mod_eq_of_lt small, ← lengthEq,
        BigEndian.encode_decode]
    · cases read
  · rintro rfl
    have small : (bits value).toNat < 256 ^ width := sized ▸ (bits value).isLt
    rw [if_pos (BigEndian.length_encode _ _), BigEndian.decode_encode small,
      BitVec.ofNat_toNat, BitVec.setWidth_eq, ofBits_bits]

/-- Readers that behave as those of postgres-types on binary values. -/
def bigEndianLibraries : ParameterLibraries where
  int2 := readWord 2 Int16.ofBitVec
  int4 := readWord 4 Int32.ofBitVec
  int8 := readWord 8 Int64.ofBitVec
  float4 := readWord 4 F32.mk
  float8 := readWord 8 F64.mk
  bool raw :=
    match raw with
    | [byte] => .ok (byte ≠ 0)
    | _ => .error "invalid buffer size"
  date raw := do
    let days ← readWord 4 Int32.ofBitVec raw
    let result := BoundValue.daysFrom1970 days
    if chronoCalendar.hasDate result then return result
    else throw "value too large to decode"
  timestamp raw := do
    let micros ← readWord 8 Int64.ofBitVec raw
    let result := BoundValue.nanosFrom1970 micros
    if chronoCalendar.hasDateTime result then return result
    else throw "value too large to decode"
  bytea raw := .ok raw
  parseDate _ _ := .error "input contains invalid characters"
  parseDateTime _ _ := none
  parseRfc3339 _ := none
  printable ch := 32 ≤ ch.toNat

private theorem readWord_int4 (raw : List UInt8) (value : Int32) :
    readWord 4 Int32.ofBitVec raw = .ok value ↔
      raw = BigEndian.encode 4 value.toBitVec.toNat :=
  readWord_eq_ok_iff (by decide) (fun _ => rfl) (fun _ => rfl) raw value

private theorem readWord_int8 (raw : List UInt8) (value : Int64) :
    readWord 8 Int64.ofBitVec raw = .ok value ↔
      raw = BigEndian.encode 8 value.toBitVec.toNat :=
  readWord_eq_ok_iff (by decide) (fun _ => rfl) (fun _ => rfl) raw value

private theorem readWord_float4 (raw : List UInt8) (value : F32) :
    readWord 4 F32.mk raw = .ok value ↔
      raw = BigEndian.encode 4 value.bits.toNat :=
  readWord_eq_ok_iff (by decide) (fun _ => rfl) (fun _ => rfl) raw value

private theorem readWord_float8 (raw : List UInt8) (value : F64) :
    readWord 8 F64.mk raw = .ok value ↔
      raw = BigEndian.encode 8 value.bits.toNat :=
  readWord_eq_ok_iff (by decide) (fun _ => rfl) (fun _ => rfl) raw value

private theorem checked_eq_ok_iff {Value : Type} {inRange : Value → Bool}
    {decoded result : Value} {error : String} :
    (if inRange decoded then return decoded else throw error :
        Except String Value) = .ok result ↔
      result = decoded ∧ inRange result := by
  split
  · rename_i passes
    simp only [pure, Except.pure, Except.ok.injEq]
    constructor
    · rintro rfl
      exact ⟨rfl, passes⟩
    · exact fun found => found.1.symm
  · rename_i fails
    simp only [throw, throwThe, MonadExceptOf.throw, reduceCtorEq,
      false_iff, not_and]
    rintro rfl
    exact fails

theorem bigEndianLibraries_faithful :
    bigEndianLibraries.Faithful chronoCalendar where
  int2 raw value :=
    readWord_eq_ok_iff (by decide) (fun _ => rfl) (fun _ => rfl) raw value
  int4 := readWord_int4
  int8 := readWord_int8
  float4 value := (readWord_float4 _ value).mpr rfl
  float8 value := (readWord_float8 _ value).mpr rfl
  bool value := by cases value <;> rfl
  date days result := by
    have read := (readWord_int4 _ days).mpr rfl
    simp only [bigEndianLibraries, BoundValue.encode, read, bind, Except.bind]
    exact checked_eq_ok_iff
  timestamp micros result := by
    have read := (readWord_int8 _ micros).mpr rfl
    simp only [bigEndianLibraries, BoundValue.encode, read, bind, Except.bind]
    exact checked_eq_ok_iff
  bytea _ := rfl

/-- A portal with one parameter bound in binary format. -/
private def oneParameter (declared : PgType) (value : BoundValue) : Portal where
  name := ""
  statement := ⟨"s1", "SELECT * FROM t WHERE id = $1", [declared]⟩
  parameterFormat := ⟨fun _ => .binary⟩
  parameters := [some value.encode]
  resultColumnFormat := .unifiedText

/-- An undeclared parameter takes the inferred type on both sides. -/
theorem bindsFaithfully_iff_undeclared :
    BindsFaithfully bigEndianLibraries (oneParameter .unknown (.int8 42))
        [some .int64] 0 (.int8 42) ↔
      (∀ dataType, [some DataType.int64][0]?.join = some dataType →
        binaryEncoding dataType = .int8) ∧ True :=
  @bindsFaithfully_iff bigEndianLibraries chronoCalendar
    bigEndianLibraries_faithful (oneParameter .unknown (.int8 42))
    [some .int64] 0 .int8 (.int8 42) rfl rfl rfl rfl

/-- A `float8` parameter compared with a `bigint` column: the bits of 1.5 are
taken for an integer. -/
theorem float8_decodes_as_int8 :
    describeParameters [.float8] [some .int64] = [.float8] ∧
      decodePortalParams bigEndianLibraries
          (oneParameter .float8 (.float8 ⟨0x3FF8000000000000⟩))
          [some .int64] =
        .ok [.int64 (some 4609434218613702656)] ∧
      ¬ BindsFaithfully bigEndianLibraries
          (oneParameter .float8 (.float8 ⟨0x3FF8000000000000⟩))
          [some .int64] 0 (.float8 ⟨0x3FF8000000000000⟩) := by
  refine ⟨rfl, rfl, ?_⟩
  rintro ⟨scalar, decoded, means⟩
  have scalarEq : scalar = .int64 (some 4609434218613702656) :=
    Except.ok.inj decoded.symm
  subst scalarEq
  cases means

end BigEndianLibraries

end Server

end Igloo
