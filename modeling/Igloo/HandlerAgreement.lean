import Igloo.ParameterAgreement
import Igloo.QueryHandlers

/-!
# The two handlers on one statement

Without parameters the simple and the extended handler look up, ask the engine
and encode alike.  They differ in one place: the simple handler encodes before
it stores and the extended one stores before it encodes, so a result that
cannot be encoded is left behind in the cache by the extended handler only.
-/

namespace Igloo

namespace Server

open Arrow RustText CacheLayer DataFusionEngine

variable {World DataFrame Batches : Type}

/-- The batches that the cache holds under each key. -/
def mapping (cache : Cache Batches) (key : String) : Option Batches :=
  (cache.entryAt key).map Entry.batches

def Reply.Failed (reply : Reply Batches) : Prop :=
  ∃ error, reply.response = .error error

/-- A failed request leaves no entry behind that was not there before. -/
def AddsNothingOnFailure (before : Cache Batches)
    (result : (World × Cache Batches) × Reply Batches) : Prop :=
  result.2.Failed → ∀ key batches,
    mapping result.1.2 key = some batches → mapping before key = some batches

/-- The two handlers reply alike and treat the cache alike, and neither adds
to it when it fails. -/
structure Agree (before : Cache Batches)
    (simple extended : (World × Cache Batches) × Reply Batches) : Prop where
  outcome : (∃ response, simple.2.response = .ok response ∧
      extended.2.response = .ok response) ∨
    (simple.2.Failed ∧ extended.2.Failed)
  mapping_eq : ∀ key, mapping simple.1.2 key = mapping extended.1.2 key
  simple_adds : AddsNothingOnFailure before simple
  extended_adds : AddsNothingOnFailure before extended

variable (handler : IglooQueryHandler World DataFrame Batches)

/-- The cache holds an entry for the statement that has not expired. -/
def HoldsFresh (cache : Cache Batches) (sql : String) (now : Nat) : Prop :=
  ∃ entry, cache.entryAt (normalizeQuery handler.parseSql sql) =
      some entry ∧
    now - entry.insertedAt ≤ cache.ttl

/-- A cacheable statement without a fresh entry, for which the engine has a
result that cannot be encoded. -/
def YieldsUnencodable (world : World) (cache : Cache Batches) (sql : String)
    (now : Nat) : Prop :=
  isCacheable sql = true ∧ ¬ HoldsFresh handler cache sql now ∧
    ∃ batches error, (query handler.engine world sql).2 = .ok batches ∧
      batchesToResponse handler.pgwire (handler.recordBatches batches) =
        .error error

section Agreement

variable {handler} {timing : Timing Batches} {world : World}
variable {cache : Cache Batches} {portal : Portal} {sql : String}

theorem mapping_getLocked {key other : String} {now : Nat}
    {batches : Batches}
    (found : mapping (cache.getLocked key now).1 other = some batches) :
    mapping cache other = some batches := by
  obtain ⟨entry, entryEq, rfl⟩ := Option.map_eq_some_iff.mp found
  obtain ⟨earlier, earlierEq, batchesEq, -⟩ :=
    Cache.exists_entry_of_entryAt_getLocked entryEq
  rw [mapping, earlierEq, ← batchesEq]
  rfl

theorem mapping_lookup {request : Request} {now : Nat} {key : String}
    {batches : Batches}
    (found : mapping (lookup handler cache request now).1 key =
      some batches) :
    mapping cache key = some batches := by
  unfold lookup at found
  split at found
  · exact mapping_getLocked found
  · exact found

theorem cacheable_extended (noParameters : portal.parameters = []) :
    (Request.extended portal).cacheable =
      (Request.simple portal.statement.statement).cacheable := by
  simp [Request.cacheable, Portal.parameterLen, noParameters]

theorem lookup_extended (noParameters : portal.parameters = []) (now : Nat) :
    lookup handler cache (.extended portal) now =
      lookup handler cache (.simple portal.statement.statement) now := by
  unfold lookup
  rw [cacheable_extended noParameters]
  rfl

theorem store_extended (noParameters : portal.parameters = [])
    (order : IterationOrder Batches) (batches : Batches) (now : Nat) :
    store handler order cache (.extended portal) batches now =
      store handler order cache (.simple portal.statement.statement) batches
        now := by
  unfold store
  rw [cacheable_extended noParameters]
  rfl

/-- A lookup hits if and only if the statement is cacheable and the cache
holds a fresh entry for it. -/
theorem lookup_eq_some_iff {now : Nat} :
    (∃ batches, (lookup handler cache (.simple sql) now).2 = some batches) ↔
      isCacheable sql = true ∧ HoldsFresh handler cache sql now := by
  by_cases cacheable : isCacheable sql = true
  · have lookupEq : lookup handler cache (.simple sql) now =
        cache.getLocked (normalizeQuery handler.parseSql sql) now := by
      simp [lookup, Request.cacheable, Request.sql, cacheable, Cache.get]
    rw [lookupEq]
    constructor
    · rintro ⟨batches, hit⟩
      obtain ⟨entry, found, -, fresh⟩ :=
        Cache.exists_entry_of_getLocked_eq_some hit
      exact ⟨cacheable, entry, found, fresh⟩
    · rintro ⟨-, entry, found, fresh⟩
      rw [Cache.getLocked_of_fresh found fresh]
      exact ⟨entry.batches, rfl⟩
  · simp [lookup, Request.cacheable, cacheable]

theorem mapping_lookup_of_miss {now : Nat} (cacheable : isCacheable sql = true)
    (miss : (lookup handler cache (.simple sql) now).2 = none) :
    mapping (lookup handler cache (.simple sql) now).1
      (normalizeQuery handler.parseSql sql) = none := by
  have lookupEq : lookup handler cache (.simple sql) now =
      cache.getLocked (normalizeQuery handler.parseSql sql) now := by
    simp [lookup, Request.cacheable, Request.sql, cacheable, Cache.get]
  rw [lookupEq] at miss ⊢
  rcases Cache.getLocked_cases cache (normalizeQuery handler.parseSql sql)
    now with ⟨entry, found, fresh⟩ | ⟨entry, found, expired⟩ | absent
  · rw [Cache.getLocked_of_fresh found fresh] at miss
    cases miss
  · rw [Cache.getLocked_of_expired found expired, mapping]
    simp [Cache.entryAt]
  · rw [Cache.getLocked_of_absent absent, mapping]
    simpa [Cache.entryAt] using absent

theorem mapping_store_self {order : IterationOrder Batches}
    {batches : Batches} {now : Nat} (cacheable : isCacheable sql = true) :
    mapping (store handler order cache (.simple sql) batches now)
      (normalizeQuery handler.parseSql sql) = some batches := by
  simp [store, Request.cacheable, Request.sql, cacheable, Cache.set, mapping]

theorem agree_self {result : (World × Cache Batches) × Reply Batches}
    (addsNothing : AddsNothingOnFailure cache result) :
    Agree cache result result where
  outcome := by
    cases response : result.2.response with
    | ok value => exact Or.inl ⟨value, rfl, rfl⟩
    | error error => exact Or.inr ⟨⟨error, response⟩, ⟨error, response⟩⟩
  mapping_eq := fun _ => rfl
  simple_adds := addsNothing
  extended_adds := addsNothing

/-- The extended handler without parameters: a lookup, the engine, and a store
before the reply is known. -/
theorem extendedDoQuery_of_miss (noParameters : portal.parameters = [])
    (textFormat : portal.resultColumnFormat = .unifiedText)
    (miss : (lookup handler cache (.simple portal.statement.statement)
      timing.getNow).2 = none) :
    extendedDoQuery handler timing world cache portal =
      (((query handler.engine world portal.statement.statement).1,
          match (query handler.engine world portal.statement.statement).2 with
          | .error _ =>
              (lookup handler cache (.simple portal.statement.statement)
                timing.getNow).1
          | .ok batches =>
              store handler timing.order
                (lookup handler cache (.simple portal.statement.statement)
                  timing.getNow).1
                (.simple portal.statement.statement) batches timing.setNow),
        directReply handler world (.simple portal.statement.statement)) := by
  have noneBound : portal.parameterLen = 0 := by
    simp [Portal.parameterLen, noParameters]
  simp only [extendedDoQuery, lookup_extended noParameters, miss, noneBound,
    if_true, queryWithParams_nil, directReply, Request.sql, Request.format,
    textFormat]
  cases (query handler.engine world portal.statement.statement).2 with
  | error message => rfl
  | ok batches => simp only [store_extended noParameters]

theorem simpleDoQuery_of_miss
    (miss : (lookup handler cache (.simple sql) timing.getNow).2 = none) :
    simpleDoQuery handler timing world cache sql =
      (((query handler.engine world sql).1,
          match (query handler.engine world sql).2 with
          | .error _ => (lookup handler cache (.simple sql) timing.getNow).1
          | .ok batches =>
              match (handler.respond .unifiedText batches).response with
              | .error _ =>
                  (lookup handler cache (.simple sql) timing.getNow).1
              | .ok _ =>
                  store handler timing.order
                    (lookup handler cache (.simple sql) timing.getNow).1
                    (.simple sql) batches timing.setNow),
        directReply handler world (.simple sql)) := by
  simp only [simpleDoQuery, miss, directReply, Request.sql, Request.format]
  cases (query handler.engine world sql).2 with
  | error message => rfl
  | ok batches =>
      simp only
      cases (handler.respond .unifiedText batches).response with
      | error error => rfl
      | ok response => rfl

theorem doQuery_of_hit {batches : Batches}
    (noParameters : portal.parameters = [])
    (textFormat : portal.resultColumnFormat = .unifiedText)
    (hit : (lookup handler cache (.simple portal.statement.statement)
      timing.getNow).2 = some batches) :
    extendedDoQuery handler timing world cache portal =
      simpleDoQuery handler timing world cache
        portal.statement.statement := by
  simp only [extendedDoQuery, simpleDoQuery, lookup_extended noParameters,
    hit, textFormat]

/-- Away from results that cannot be encoded the two handlers are one. -/
theorem extendedDoQuery_eq_simple (noParameters : portal.parameters = [])
    (textFormat : portal.resultColumnFormat = .unifiedText)
    (encodable : ¬ YieldsUnencodable handler world cache
      portal.statement.statement timing.getNow) :
    extendedDoQuery handler timing world cache portal =
      simpleDoQuery handler timing world cache
        portal.statement.statement := by
  cases found : (lookup handler cache (.simple portal.statement.statement)
      timing.getNow).2 with
  | some batches => exact doQuery_of_hit noParameters textFormat found
  | none =>
      rw [extendedDoQuery_of_miss noParameters textFormat found,
        simpleDoQuery_of_miss found]
      cases answered :
          (query handler.engine world portal.statement.statement).2 with
      | error message => rfl
      | ok batches =>
          simp only
          cases response : (handler.respond .unifiedText batches).response with
          | ok value => rfl
          | error error =>
              have notCacheable : ¬ isCacheable
                  portal.statement.statement = true := by
                intro cacheable
                apply encodable
                refine ⟨cacheable, ?_, batches, error, answered, response⟩
                intro fresh
                obtain ⟨held, hit⟩ := lookup_eq_some_iff.mpr
                  ⟨cacheable, fresh⟩
                rw [found] at hit
                cases hit
              simp [store, Request.cacheable, notCacheable]

theorem addsNothing_simpleDoQuery (handler :
      IglooQueryHandler World DataFrame Batches) (timing : Timing Batches)
    (world : World) (cache : Cache Batches) (sql : String) :
    AddsNothingOnFailure cache
      (simpleDoQuery handler timing world cache sql) := by
  rintro ⟨error, failed⟩ key batches held
  cases found : (lookup handler cache (.simple sql) timing.getNow).2 with
  | some cached =>
      simp only [simpleDoQuery, found] at held
      exact mapping_lookup held
  | none =>
      rw [simpleDoQuery_of_miss found] at held failed
      simp only [directReply, Request.sql, Request.format] at held failed
      cases answered : (query handler.engine world sql).2 with
      | error message =>
          simp only [answered] at held
          exact mapping_lookup held
      | ok result =>
          simp only [answered] at held failed
          rw [failed] at held
          exact mapping_lookup held

/-- A result that cannot be encoded stays in the cache of the extended
handler only. -/
theorem not_agree_of_unencodable (noParameters : portal.parameters = [])
    (textFormat : portal.resultColumnFormat = .unifiedText)
    (unencodable : YieldsUnencodable handler world cache
      portal.statement.statement timing.getNow) :
    ¬ Agree cache
      (simpleDoQuery handler timing world cache portal.statement.statement)
      (extendedDoQuery handler timing world cache portal) := by
  obtain ⟨cacheable, notFresh, batches, error, answered, failed⟩ :=
    unencodable
  have miss : (lookup handler cache (.simple portal.statement.statement)
      timing.getNow).2 = none := by
    rw [← Option.not_isSome_iff_eq_none, Option.isSome_iff_exists]
    intro hit
    exact notFresh (lookup_eq_some_iff.mp hit).2
  have response : (handler.respond .unifiedText batches).response =
      .error error := failed
  intro agree
  have same := agree.mapping_eq
    (normalizeQuery handler.parseSql portal.statement.statement)
  rw [simpleDoQuery_of_miss miss,
    extendedDoQuery_of_miss noParameters textFormat miss] at same
  simp only [answered, response] at same
  rw [mapping_lookup_of_miss cacheable miss, mapping_store_self cacheable]
    at same
  cases same

end Agreement

/-- On a statement without parameters, in text format, the two handlers reply
alike, leave the same batches in the cache and add none when they fail, if and
only if the statement is not a cacheable one without a fresh entry whose
result the engine delivers and the encoder rejects. -/
theorem agree_iff (handler : IglooQueryHandler World DataFrame Batches)
    (timing : Timing Batches) (world : World) (cache : Cache Batches)
    (portal : Portal) (noParameters : portal.parameters = [])
    (textFormat : portal.resultColumnFormat = .unifiedText) :
    Agree cache
        (simpleDoQuery handler timing world cache portal.statement.statement)
        (extendedDoQuery handler timing world cache portal) ↔
      ¬ YieldsUnencodable handler world cache portal.statement.statement
        timing.getNow := by
  constructor
  · intro agree unencodable
    exact not_agree_of_unencodable noParameters textFormat unencodable agree
  · intro encodable
    rw [extendedDoQuery_eq_simple noParameters textFormat encodable]
    exact agree_self (addsNothing_simpleDoQuery handler timing world cache
      portal.statement.statement)

/-- One row of a binary column. -/
private def binaryBatch : RecordBatch where
  schema := [⟨"b", .binary, true, none⟩]
  columns := [.binary [some [1]]]
  numRows := 1
  types_eq := rfl
  lengths_eq := by simp [ColumnArray.length]

/-- One row of an integer column. -/
private def integerBatch : RecordBatch where
  schema := [⟨"n", .int64, true, none⟩]
  columns := [.int64 [some 1]]
  numRows := 1
  types_eq := rfl
  lengths_eq := by simp [ColumnArray.length]

/-- An engine that answers everything with the same batches, and an encoder
that writes every value as a digit. -/
private def fixedHandler (batches : List RecordBatch) :
    IglooQueryHandler Unit Unit (List RecordBatch) where
  engine := {
    sql := fun _ _ => ((), .ok ())
    withParamValues := fun _ _ => .ok ()
    collect := fun _ _ => ((), .ok batches)
    schema := fun _ => []
    parameterNames := fun _ => .ok []
    parameterTypes := fun _ => .ok [] }
  recordBatches := id
  parseSql := fun _ => none
  pgwire := ⟨fun _ _ => .ok (some [49]), fun _ => true⟩
  libraries := bigEndianLibraries

private def emptyCache : Cache (List RecordBatch) :=
  Cache.withClock _ 16 60 (by decide) (by decide)

private def textPortal (sql : String) : Portal :=
  ⟨"", ⟨"", sql, []⟩, .unifiedText, [], .unifiedText⟩

/-- The handlers agree on the row, and both store it. -/
theorem agree_iff_oneRow :
    (simpleDoQuery (fixedHandler [integerBatch]) ⟨1, 2, .listed⟩ ()
        emptyCache "SELECT n").2.response =
          .ok (.query [⟨"n", .int8, .text⟩] [[some [49]]]) ∧
      mapping (simpleDoQuery (fixedHandler [integerBatch]) ⟨1, 2, .listed⟩
        () emptyCache "SELECT n").1.2 "SELECT n" = some [integerBatch] ∧
      Agree emptyCache
        (simpleDoQuery (fixedHandler [integerBatch]) ⟨1, 2, .listed⟩ ()
          emptyCache "SELECT n")
        (extendedDoQuery (fixedHandler [integerBatch]) ⟨1, 2, .listed⟩ ()
          emptyCache (textPortal "SELECT n")) := by
  refine ⟨rfl, rfl, ?_⟩
  apply (agree_iff (fixedHandler [integerBatch]) ⟨1, 2, .listed⟩ ()
    emptyCache (textPortal "SELECT n") rfl rfl).mpr
  rintro ⟨-, -, batches, error, answered, failed⟩
  cases answered
  cases failed

/-- The extended handler fails and leaves the binary column in the cache. -/
theorem not_agree_binaryColumn :
    (extendedDoQuery (fixedHandler [binaryBatch]) ⟨1, 2, .listed⟩ ()
        emptyCache (textPortal "SELECT b")).2.Failed ∧
      mapping (extendedDoQuery (fixedHandler [binaryBatch]) ⟨1, 2, .listed⟩
        () emptyCache (textPortal "SELECT b")).1.2 "SELECT b" =
          some [binaryBatch] ∧
      mapping (simpleDoQuery (fixedHandler [binaryBatch]) ⟨1, 2, .listed⟩
        () emptyCache "SELECT b").1.2 "SELECT b" = none ∧
      ¬ Agree emptyCache
        (simpleDoQuery (fixedHandler [binaryBatch]) ⟨1, 2, .listed⟩ ()
          emptyCache "SELECT b")
        (extendedDoQuery (fixedHandler [binaryBatch]) ⟨1, 2, .listed⟩ ()
          emptyCache (textPortal "SELECT b")) := by
  refine ⟨⟨_, rfl⟩, rfl, rfl, ?_⟩
  intro agree
  have same := agree.mapping_eq "SELECT b"
  cases same

end Server

end Igloo
