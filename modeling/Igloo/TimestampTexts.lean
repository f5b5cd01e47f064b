import Igloo.CivilDates
import Igloo.DateTimeItems
import Igloo.ParameterAgreement

/-!
# Texts of dates and timestamps

The server tries the text of a timestamp in five formats, in each of them first
as a datetime and then as a date, and at last as RFC 3339.  The formats of
chrono are given by their items.  No text fits two of them, so that the server
reads a text exactly as the format that it is written in, whatever comes before
this format.
-/

namespace Igloo

namespace Server

open DateTimeItems RustText

/-- A date with a time of day in a time zone, which is known by its minutes to
the east of Greenwich. -/
structure ZonedTime where
  date : CivilDate
  hour : Int
  minute : Int
  second : Int
  nanosecond : Int
  offset : Int
  deriving DecidableEq

namespace ZonedTime

/-- The numbers that a format reads. -/
def numbers (moment : ZonedTime) : List Int :=
  [moment.date.year, moment.date.month, moment.date.day, moment.hour,
    moment.minute, moment.second, moment.nanosecond, moment.offset]

def ofNumbers : List Int → Option ZonedTime
  | [year, month, day, hour, minute, second, nanosecond, offset] =>
      (CivilDate.ofFields year month day).map fun date =>
        ⟨date, hour, minute, second, nanosecond, offset⟩
  | _ => none

/-- The nanoseconds since the beginning of 1970 in Greenwich. -/
def nanos (moment : ZonedTime) : Int :=
  (((moment.date.dayNumber * 24 + moment.hour) * 60 + moment.minute -
    moment.offset) * 60 + moment.second) * 1000000000 + moment.nanosecond

theorem ofNumbers_eq_some_iff {numbers : List Int} {moment : ZonedTime} :
    ofNumbers numbers = some moment ↔ numbers = moment.numbers := by
  constructor
  · intro found
    unfold ofNumbers at found
    split at found
    · obtain ⟨date, isDate, rfl⟩ := Option.map_eq_some_iff.mp found
      obtain ⟨rfl, rfl, rfl⟩ := CivilDate.ofFields_eq_some_iff.mp isDate
      rfl
    · cases found
  · rintro rfl
    have isDate : CivilDate.ofFields moment.date.year moment.date.month
        moment.date.day = some moment.date :=
      CivilDate.ofFields_eq_some_iff.mpr ⟨rfl, rfl, rfl⟩
    rw [numbers, ofNumbers, isDate]
    rfl

theorem numbers_injective : Function.Injective numbers := by
  intro moment other same
  have found := ofNumbers_eq_some_iff.mpr same
  rw [ofNumbers_eq_some_iff.mpr rfl] at found
  exact Option.some.inj found

end ZonedTime

section Formats

/-- `%Y-%m-%d`. -/
def dateItems : List Item :=
  [.year, literal '-', .number 2 1 12, literal '-', .number 2 1 31]

/-- `%H:%M`. -/
def minuteItems : List Item :=
  [.number 2 0 23, literal ':', .number 2 0 59]

/-- `:%S%.f`. -/
def secondItems : List Item :=
  [literal ':', .number 2 0 60, .fraction]

def dateFormat : String × List Item :=
  ("%Y-%m-%d", dateItems ++ List.replicate 5 .unwritten)

/-- The formats with a time of day. -/
def clockFormats : List (String × List Item) :=
  [("%Y-%m-%d %H:%M:%S%.f",
      dateItems ++ .space :: minuteItems ++ secondItems ++ [.unwritten]),
    ("%Y-%m-%dT%H:%M:%S%.f",
      dateItems ++ literal 'T' :: minuteItems ++ secondItems ++ [.unwritten]),
    ("%Y-%m-%d %H:%M",
      dateItems ++ .space :: minuteItems ++ List.replicate 3 .unwritten),
    ("%Y-%m-%dT%H:%M",
      dateItems ++ literal 'T' :: minuteItems ++ List.replicate 3 .unwritten)]

/-- The fixed widths of RFC 3339. -/
def rfc3339Items : List Item :=
  [.exactly 4 0 9999, literal '-', .exactly 2 1 12, literal '-',
    .exactly 2 1 31, .oneOf ['T', 't', ' '], .exactly 2 0 23, literal ':',
    .exactly 2 0 59, literal ':', .exactly 2 0 60, .fraction, .offset]

/-- The formats of timestamps. -/
def timestampItems : List (List Item) :=
  clockFormats.map Prod.snd ++ [dateFormat.2, rfc3339Items]

variable (calendar : Calendar)

/-- The text is written in the format, with a date of the calendar. -/
def WrittenAs (items : List Item) (text : List Char) (moment : ZonedTime) :
    Prop :=
  Reads items text moment.numbers ∧
    calendar.hasDate moment.date.dayNumber = true

/-- The text spells a number of days since 1970. -/
def SpellsDate (text : List Char) (days : Int) : Prop :=
  ∃ moment, WrittenAs calendar dateFormat.2 text moment ∧
    moment.date.dayNumber = days

/-- The text spells a number of nanoseconds since 1970. -/
def SpellsTimestamp (text : List Char) (nanos : Int) : Prop :=
  ∃ items ∈ timestampItems, ∃ moment, WrittenAs calendar items text moment ∧
    moment.nanos = nanos

end Formats

/-- What the decoder relies on in the readers of chrono: they read the formats,
a datetime needs a time of day, and a date is read past one.  The calendar has
every count of nanoseconds in 64 bits, and it is far smaller than a count of
days in 32. -/
structure ParameterLibraries.ReadsTexts (libraries : ParameterLibraries)
    (calendar : Calendar) : Prop where
  parseDate : ∀ format ∈ dateFormat :: clockFormats, ∀ text days,
    libraries.parseDate text format.1 = .ok days ↔
      ∃ moment, WrittenAs calendar format.2 text.toList moment ∧
        moment.date.dayNumber = days
  parseDateTime : ∀ format ∈ clockFormats, ∀ text nanos,
    libraries.parseDateTime text format.1 = some nanos ↔
      ∃ moment, WrittenAs calendar format.2 text.toList moment ∧
        moment.nanos = nanos
  parseDateTime_date : ∀ text,
    libraries.parseDateTime text dateFormat.1 = none
  parseRfc3339 : ∀ text nanos,
    libraries.parseRfc3339 text = some nanos ↔
      ∃ moment, WrittenAs calendar rfc3339Items text.toList moment ∧
        moment.nanos = nanos
  hasInstants : ∀ nanos : Int64, calendar.hasDateTime nanos.toInt = true
  since2000 : ∀ days, calendar.hasDate days = true →
    Int32.minValue.toInt ≤ days - 10957

section Reading

variable {libraries : ParameterLibraries} {calendar : Calendar}

/-- The formats of timestamps are told apart by their marks. -/
theorem timestampItems_apart :
    ∀ items ∈ timestampItems, ∀ others ∈ timestampItems,
      ∀ common ∈ marks items, common ∈ marks others → items = others := by
  decide

theorem SpellsTimestamp.unique {text : List Char} {nanos others : Int}
    (spells : SpellsTimestamp calendar text nanos)
    (alsoSpells : SpellsTimestamp calendar text others) : nanos = others := by
  obtain ⟨items, isFormat, moment, ⟨reads, -⟩, rfl⟩ := spells
  obtain ⟨_, isOther, other, ⟨alsoReads, -⟩, rfl⟩ := alsoSpells
  have same := ZonedTime.numbers_injective
    (reads.unique_of_marks timestampItems_apart isFormat isOther alsoReads)
  rw [same]

theorem SpellsDate.hasDate {text : List Char} {days : Int}
    (spells : SpellsDate calendar text days) :
    calendar.hasDate days = true := by
  obtain ⟨moment, ⟨-, inCalendar⟩, rfl⟩ := spells
  exact inCalendar

/-- The time of day that the format of dates leaves out is midnight. -/
theorem WrittenAs.nanos_of_date {text : List Char} {moment : ZonedTime}
    (written : WrittenAs calendar dateFormat.2 text moment) :
    moment.nanos = moment.date.dayNumber * 86400000000000 := by
  obtain ⟨found, numbersEq⟩ := written.1.unwritten
  have three : found.length = 3 := by
    have lengths := congrArg List.length numbersEq
    simp only [ZonedTime.numbers, List.length_append, List.length_cons,
      List.length_nil, List.length_replicate] at lengths
    omega
  obtain ⟨year, month, day, rfl⟩ := List.length_eq_three.mp three
  simp only [ZonedTime.numbers, List.cons_append, List.nil_append,
    List.cons.injEq, List.replicate] at numbersEq
  obtain ⟨-, -, -, hour, minute, second, nanosecond, offset, -⟩ := numbersEq
  rw [ZonedTime.nanos, hour, minute, second, nanosecond, offset]
  omega

/-- One turn of the loop over the formats. -/
def readFormat (libraries : ParameterLibraries) (text format : String) :
    Option Int :=
  (libraries.parseDateTime text format).or
    ((libraries.parseDate text format).toOption.map (· * 86400000000000))

theorem parseTimestampText_eq (text : String) :
    parseTimestampText libraries text =
      (((clockFormats ++ [dateFormat]).map Prod.fst).findSome?
        (readFormat libraries (String.ofList (trim text.toList)))).or
        (libraries.parseRfc3339 (String.ofList (trim text.toList))) := by
  rw [parseTimestampText]
  congr 2
  funext format
  rw [readFormat]
  cases libraries.parseDateTime (String.ofList (trim text.toList)) format with
  | some datetime => rfl
  | none =>
      cases libraries.parseDate (String.ofList (trim text.toList)) format <;>
        rfl

theorem mem_timestampItems_iff {items : List Item} :
    items ∈ timestampItems ↔
      items = rfc3339Items ∨
        ∃ format ∈ clockFormats ++ [dateFormat], format.2 = items := by
  have split : timestampItems =
      (clockFormats ++ [dateFormat]).map Prod.snd ++ [rfc3339Items] := rfl
  rw [split, List.mem_append, List.mem_singleton, List.mem_map, or_comm]

/-- One turn of the loop reads the texts of its format. -/
theorem readFormat_eq_some_iff (reads : libraries.ReadsTexts calendar)
    {format : String × List Item}
    (isFormat : format ∈ clockFormats ++ [dateFormat]) {text : String}
    {nanos : Int} :
    readFormat libraries text format.1 = some nanos ↔
      ∃ moment, WrittenAs calendar format.2 text.toList moment ∧
        moment.nanos = nanos := by
  have isDay : ∀ format ∈ dateFormat :: clockFormats, ∀ days,
      (libraries.parseDate text format.1).toOption = some days ↔
        ∃ moment, WrittenAs calendar format.2 text.toList moment ∧
          moment.date.dayNumber = days := by
    intro format isFormat days
    rw [← reads.parseDate format isFormat]
    cases libraries.parseDate text format.1 <;> simp [Except.toOption]
  rcases List.mem_append.mp isFormat with isClock | isDate
  · have isTime := reads.parseDateTime format isClock text
    rw [← isTime, readFormat, Option.or_eq_some_iff]
    refine or_iff_left ?_
    rintro ⟨noTime, found⟩
    -- a text with a date in this format has a time of day as well
    obtain ⟨days, isDate, -⟩ := Option.map_eq_some_iff.mp found
    obtain ⟨moment, written, -⟩ :=
      (isDay format (List.mem_cons_of_mem _ isClock) days).mp isDate
    rw [(isTime _).mpr ⟨moment, written, rfl⟩] at noTime
    cases noTime
  · obtain rfl := List.mem_singleton.mp isDate
    rw [readFormat, reads.parseDateTime_date, Option.none_or,
      Option.map_eq_some_iff]
    simp only [isDay dateFormat List.mem_cons_self]
    constructor
    · rintro ⟨_, ⟨moment, written, rfl⟩, rfl⟩
      exact ⟨moment, written, written.nanos_of_date⟩
    · rintro ⟨moment, written, rfl⟩
      exact ⟨_, ⟨moment, written, rfl⟩, written.nanos_of_date.symm⟩

/-- The text of a timestamp is decoded to what it spells after its blanks. -/
theorem parseTimestampText_eq_some_iff (reads : libraries.ReadsTexts calendar)
    {text : String} {nanos : Int} :
    parseTimestampText libraries text = some nanos ↔
      SpellsTimestamp calendar (trim text.toList) nanos := by
  have sound : ∀ {found : Int},
      parseTimestampText libraries text = some found →
        SpellsTimestamp calendar (trim text.toList) found := by
    intro found parsed
    rw [parseTimestampText_eq] at parsed
    rcases Option.or_eq_some_iff.mp parsed with loop | ⟨-, offset⟩
    · obtain ⟨name, isName, turn⟩ := List.exists_of_findSome?_eq_some loop
      obtain ⟨format, isFormat, rfl⟩ := List.mem_map.mp isName
      obtain ⟨moment, written, rfl⟩ :=
        (readFormat_eq_some_iff reads isFormat).mp turn
      rw [String.toList_ofList] at written
      exact ⟨_, mem_timestampItems_iff.mpr (.inr ⟨format, isFormat, rfl⟩),
        moment, written, rfl⟩
    · obtain ⟨moment, written, rfl⟩ := (reads.parseRfc3339 _ _).mp offset
      rw [String.toList_ofList] at written
      exact ⟨_, mem_timestampItems_iff.mpr (.inl rfl), moment, written, rfl⟩
  refine ⟨sound, ?_⟩
  rintro ⟨items, isItems, moment, written, rfl⟩
  cases isParsed : parseTimestampText libraries text with
  | some found =>
      exact congrArg some ((sound isParsed).unique
        ⟨items, isItems, moment, written, rfl⟩)
  | none =>
      exfalso
      rw [parseTimestampText_eq] at isParsed
      obtain ⟨noTurn, noOffset⟩ := Option.or_eq_none_iff.mp isParsed
      rw [← String.toList_ofList (l := trim text.toList)] at written
      rcases mem_timestampItems_iff.mp isItems with
        rfl | ⟨format, isFormat, rfl⟩
      · have found := (reads.parseRfc3339 _ _).mpr ⟨moment, written, rfl⟩
        rw [noOffset] at found
        cases found
      · have turn := (readFormat_eq_some_iff reads isFormat).mpr
          ⟨moment, written, rfl⟩
        have isName := List.mem_map_of_mem (f := Prod.fst) isFormat
        rw [List.findSome?_eq_none_iff.mp noTurn _ isName] at turn
        cases turn

end Reading

section ChronoLibraries

/-- What is written in a format. -/
def readZonedTime (calendar : Calendar) (items : List Item) (text : String) :
    Option ZonedTime :=
  ((scan items text.toList).bind ZonedTime.ofNumbers).filter fun moment =>
    calendar.hasDate moment.date.dayNumber

theorem readZonedTime_eq_some_iff {calendar : Calendar} {items : List Item}
    {text : String} {moment : ZonedTime} :
    readZonedTime calendar items text = some moment ↔
      WrittenAs calendar items text.toList moment := by
  rw [readZonedTime, Option.filter_eq_some_iff, Option.bind_eq_some_iff]
  simp only [ZonedTime.ofNumbers_eq_some_iff, exists_eq_right,
    scan_eq_some_iff]
  rfl

/-- Readers that behave as those of postgres-types and chrono. -/
def chronoLibraries : ParameterLibraries where
  int2 := bigEndianLibraries.int2
  int4 := bigEndianLibraries.int4
  int8 := bigEndianLibraries.int8
  float4 := bigEndianLibraries.float4
  float8 := bigEndianLibraries.float8
  bool := bigEndianLibraries.bool
  date := bigEndianLibraries.date
  timestamp := bigEndianLibraries.timestamp
  bytea := bigEndianLibraries.bytea
  parseDate text format :=
    match ((dateFormat :: clockFormats).lookup format).bind fun items =>
      readZonedTime chronoCalendar items text with
    | some moment => .ok moment.date.dayNumber
    | none => .error "input contains invalid characters"
  parseDateTime text format :=
    ((clockFormats.lookup format).bind fun items =>
      readZonedTime chronoCalendar items text).map ZonedTime.nanos
  parseRfc3339 text :=
    (readZonedTime chronoCalendar rfc3339Items text).map ZonedTime.nanos
  printable := bigEndianLibraries.printable

theorem chronoLibraries_faithful :
    chronoLibraries.Faithful chronoCalendar where
  int2 := bigEndianLibraries_faithful.int2
  int4 := bigEndianLibraries_faithful.int4
  int8 := bigEndianLibraries_faithful.int8
  float4 := bigEndianLibraries_faithful.float4
  float8 := bigEndianLibraries_faithful.float8
  bool := bigEndianLibraries_faithful.bool
  date := bigEndianLibraries_faithful.date
  timestamp := bigEndianLibraries_faithful.timestamp
  bytea := bigEndianLibraries_faithful.bytea

theorem chronoLibraries_readsTexts :
    chronoLibraries.ReadsTexts chronoCalendar where
  parseDate format isFormat text days := by
    have isItems : (dateFormat :: clockFormats).lookup format.1 =
        some format.2 := by
      revert format
      decide
    simp only [chronoLibraries, isItems, Option.bind_some,
      ← readZonedTime_eq_some_iff]
    cases readZonedTime chronoCalendar format.2 text <;> simp
  parseDateTime format isFormat text nanos := by
    have isItems : clockFormats.lookup format.1 = some format.2 := by
      revert format
      decide
    simp only [chronoLibraries, isItems, Option.bind_some,
      Option.map_eq_some_iff, readZonedTime_eq_some_iff]
  parseDateTime_date text := rfl
  parseRfc3339 text nanos := by
    simp only [chronoLibraries, Option.map_eq_some_iff,
      readZonedTime_eq_some_iff]
  hasInstants nanos := by
    have lower := nanos.le_toInt
    have upper := nanos.toInt_lt
    simp only [chronoCalendar, Bool.and_eq_true, decide_eq_true_eq]
    omega
  since2000 days inCalendar := by
    simp only [chronoCalendar, Bool.and_eq_true, decide_eq_true_eq]
      at inCalendar
    have least : Int32.minValue.toInt = -2147483648 := by decide
    omega

example :
    parseTimestampText chronoLibraries "2024-01-15T10:00:00+02:00" =
      some 1705305600000000000 := by
  decide

end ChronoLibraries

end Server

end Igloo
