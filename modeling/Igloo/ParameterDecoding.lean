import Igloo.RustText
import Igloo.WireResponse

/-!
# Decoding bound parameters

The helpers of the extended query protocol that turn raw parameter bytes into
scalars.  The third-party readers (`FromSql` of postgres-types, the calendar
of chrono) are parameters, gathered in `ParameterLibraries`.
-/

namespace Igloo

namespace Server

open Arrow RustText

/-- The prepared statement behind a portal. -/
structure StoredStatement where
  id : String
  statement : String
  parameterTypes : List PgType
  deriving DecidableEq, Repr

structure Portal where
  name : String
  statement : StoredStatement
  parameterFormat : Format
  parameters : List (Option (List UInt8))
  resultColumnFormat : Format

def Portal.parameterLen (portal : Portal) : Nat :=
  portal.parameters.length

/-- Third-party readers.  Errors are known by their `Display` text; a date is
its number of days since 1970, a datetime its number of nanoseconds. -/
structure ParameterLibraries where
  int2 : List UInt8 → Except String Int16
  int4 : List UInt8 → Except String Int32
  int8 : List UInt8 → Except String Int64
  float4 : List UInt8 → Except String F32
  float8 : List UInt8 → Except String F64
  bool : List UInt8 → Except String Bool
  date : List UInt8 → Except String Int
  timestamp : List UInt8 → Except String Int
  bytea : List UInt8 → Except String (List UInt8)
  parseDate : String → String → Except String Int
  parseDateTime : String → String → Option Int
  parseRfc3339 : String → Option Int
  printable : Char → Bool

/-- `arrow_to_pg_type`. -/
def arrowToPgType : DataType → Option PgType
  | .binary => some .bytea
  | other => (mapArrowType other).toOption

/-- `pg_type_to_arrow`, on the types a client can declare. -/
def pgTypeToArrow : PgType → Option DataType
  | .int2 => some .int16
  | .int4 => some .int32
  | .int8 => some .int64
  | .float4 => some .float32
  | .float8 => some .float64
  | .text | .varchar | .bpchar => some .utf8
  | .bool => some .boolean
  | .date => some .date32
  | .timestamp => some (.timestampNanosecond none)
  | .bytea => some .binary
  | _ => none

/-- `describe_parameters`. -/
def describeParameters (declared : List PgType)
    (inferred : List (Option DataType)) : List PgType :=
  (List.range (max declared.length inferred.length)).map fun index =>
    match declared[index]? with
    | some declaredType =>
        if declaredType ≠ .unknown then declaredType
        else fromInference index
    | none => fromInference index
where
  fromInference (index : Nat) : PgType :=
    (inferred[index]?.join.bind arrowToPgType).getD .unknown

/-- `param_decode_error`. -/
def paramDecodeError (index : Nat) (reason : String) : PgWireError :=
  userError ("cannot decode parameter $" ++ toString (index + 1) ++ ": " ++
    reason)

/-- `null_scalar`. -/
def nullScalar : Option DataType → ScalarValue
  | some .int16 => .int16 none
  | some .int32 => .int32 none
  | some .int64 => .int64 none
  | some .float32 => .float32 none
  | some .float64 => .float64 none
  | some .boolean => .boolean none
  | some .date32 => .date32 none
  | some (.timestampNanosecond _) => .timestampNanosecond none none
  | some .binary => .binary none
  | _ => .utf8 none

/-- `parse_bool_text`. -/
def parseBoolText (text : String) : Option Bool :=
  let folded := String.ofList ((trim text.toList).map toAsciiLowercase)
  if folded ∈ ["true", "t", "yes", "on", "1"] then some true
  else if folded ∈ ["false", "f", "no", "off", "0"] then some false
  else none

/-- `parse_bytea_hex`. -/
def parseByteaHex (text : String) : Option (List UInt8) :=
  let trimmed := trim text.toList
  let hex :=
    match trimmed with
    | '\\' :: 'x' :: rest => rest
    | _ => trimmed
  pairs (toUtf8 (String.ofList hex))
where
  pairs : List UInt8 → Option (List UInt8)
    | [] => some []
    | [_] => none
    | first :: second :: rest => do
        let byte ← u8FromHexPair first second
        let bytes ← pairs rest
        return byte :: bytes

section Decoding

variable (libraries : ParameterLibraries)

/-- `parse_timestamp_text`. -/
def parseTimestampText (text : String) : Option Int :=
  let trimmed := String.ofList (trim text.toList)
  let formats := ["%Y-%m-%d %H:%M:%S%.f", "%Y-%m-%dT%H:%M:%S%.f",
    "%Y-%m-%d %H:%M", "%Y-%m-%dT%H:%M", "%Y-%m-%d"]
  let spelled := formats.findSome? fun format =>
    match libraries.parseDateTime trimmed format with
    | some datetime => some datetime
    | none =>
        match libraries.parseDate trimmed format with
        | .ok days => some (days * 86400000000000)
        | .error _ => none
  spelled.or (libraries.parseRfc3339 trimmed)

/-- `str::from_utf8`, with the message of the call site. -/
def textOf (raw : List UInt8) (index : Nat) (message : String) :
    PgWireResult String :=
  match fromUtf8 raw with
  | some text => .ok text
  | none => .error (paramDecodeError index message)

/-- The result of a binary reader. -/
def fromSql {Value : Type} (index : Nat) (result : Except String Value) :
    PgWireResult Value :=
  result.mapError (paramDecodeError index)

/-- `scalar_from`. -/
def scalarFrom {Value : Type} (raw : List UInt8) (isText : Bool)
    (binaryName : String) (read : List UInt8 → Except String Value)
    (parseText : List Char → Option Value)
    (toScalar : Option Value → ScalarValue) (index : Nat) :
    PgWireResult ScalarValue :=
  if isText then do
    let text ← textOf raw index "not valid UTF-8"
    match parseText text.toList with
    | some value => return toScalar (some value)
    | none =>
        throw (paramDecodeError index (debugStr libraries.printable text ++
          " is not a valid " ++ binaryName))
  else do
    let value ← fromSql index (read raw)
    return toScalar (some value)

/-- `timestamp_nanos_opt`. -/
def timestampNanosOpt (nanos : Int) : Option Int64 :=
  if Int64.minValue.toInt ≤ nanos ∧ nanos ≤ Int64.maxValue.toInt then
    some (Int64.ofInt nanos)
  else none

/-- `decode_scalar_value`. -/
def decodeScalarValue (raw : List UInt8) (isText : Bool)
    (expected : Option DataType) (index : Nat) : PgWireResult ScalarValue :=
  match expected with
  | some .int64 =>
      scalarFrom libraries raw isText "int8" libraries.int8
        (fun text => (parseSigned (-2 ^ 63) (2 ^ 63 - 1) text).map Int64.ofInt)
        .int64 index
  | some .int32 =>
      scalarFrom libraries raw isText "int4" libraries.int4
        (fun text => (parseSigned (-2 ^ 31) (2 ^ 31 - 1) text).map Int32.ofInt)
        .int32 index
  | some .int16 =>
      scalarFrom libraries raw isText "int2" libraries.int2
        (fun text => (parseSigned (-2 ^ 15) (2 ^ 15 - 1) text).map Int16.ofInt)
        .int16 index
  | some .float64 =>
      scalarFrom libraries raw isText "float8" libraries.float8 F64.parse
        .float64 index
  | some .float32 =>
      scalarFrom libraries raw isText "float4" libraries.float4 F32.parse
        .float32 index
  | some .boolean =>
      if isText then do
        let text ← textOf raw index "value is not valid UTF-8"
        match parseBoolText text with
        | some value => return .boolean (some value)
        | none =>
            throw (paramDecodeError index
              "expected one of true/false/t/f/yes/no/on/off/1/0")
      else do
        let value ← fromSql index (libraries.bool raw)
        return .boolean (some value)
  | some .date32 => do
      let days ←
        if isText then do
          let text ← textOf raw index "value is not valid UTF-8"
          fromSql index (libraries.parseDate text "%Y-%m-%d")
        else fromSql index (libraries.date raw)
      return .date32 (some (Int32.ofInt days))
  | some (.timestampNanosecond _) => do
      let datetime ←
        if isText then do
          let text ← textOf raw index "value is not valid UTF-8"
          match parseTimestampText libraries text with
          | some datetime => pure datetime
          | none =>
              throw (paramDecodeError index
                (debugStr libraries.printable text ++
                  " is not a supported timestamp spelling"))
        else fromSql index (libraries.timestamp raw)
      match timestampNanosOpt datetime with
      | some nanos => return .timestampNanosecond (some nanos) none
      | none =>
          throw (paramDecodeError index
            "timestamp is out of range for nanosecond precision")
  | some .binary => do
      let bytes ←
        if isText then do
          let text ← textOf raw index "bytea value is not valid UTF-8"
          match parseByteaHex text with
          | some bytes => pure bytes
          | none =>
              throw (paramDecodeError index
                "expected PostgreSQL hex format (\"\\x…\")")
        else fromSql index (libraries.bytea raw)
      return .binary (some bytes)
  | _ => do
      let text ← textOf raw index "value is not valid UTF-8"
      return .utf8 (some text)

/-- `decode_portal_param`. -/
def decodePortalParam (portal : Portal) (index : Nat)
    (expected : Option DataType) : PgWireResult ScalarValue :=
  match portal.parameters[index]? with
  | none => .ok (nullScalar expected)
  | some none => .ok (nullScalar expected)
  | some (some raw) =>
      decodeScalarValue libraries raw (portal.parameterFormat.isText index)
        expected index

/-- The type that `decode_portal_params` settles on for one parameter. -/
def inferredType (portal : Portal) (expected : List (Option DataType))
    (index : Nat) : Option DataType :=
  expected[index]?.join.or
    (portal.statement.parameterTypes[index]?.bind fun declaredType =>
      if declaredType ≠ .unknown then pgTypeToArrow declaredType else none)

/-- `decode_portal_params`. -/
def decodePortalParams (portal : Portal)
    (expected : List (Option DataType)) : PgWireResult (List ScalarValue) :=
  if portal.parameterLen ≠ expected.length then
    .error (userError ("bind sent " ++ toString portal.parameterLen ++
      " parameter(s) but statement " ++
      debugStr libraries.printable portal.statement.id ++ " has " ++
      toString expected.length ++ " placeholder(s)"))
  else
    (List.range portal.parameterLen).mapM fun index =>
      decodePortalParam libraries portal index
        (inferredType portal expected index)

end Decoding

end Server

end Igloo
