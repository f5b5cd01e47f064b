import Igloo.CacheLayer
import Igloo.ParameterDecoding
import Igloo.QueryEngine

/-!
# The query handlers

The simple and the extended query handler share one cache in front of the
engine.  `simpleDoQuery` and `extendedDoQuery` are the two functions of the
source, run without interruption.  `handlerStep` cuts them at the points where
other handlers can run in between: after the lookup, after each call of the
engine, and after the store.

The batches that the engine hands out are of an arbitrary type with a record
batch list inside, so that a development can attach ghost data to them.
-/

namespace Igloo

namespace Server

open Arrow RustText CacheLayer DataFusionEngine

/-- The query handler with the third-party functions it relies on. -/
structure IglooQueryHandler (World DataFrame Batches : Type) where
  engine : SessionContext World DataFrame Batches
  recordBatches : Batches → List RecordBatch
  parseSql : String → Option (List String)
  pgwire : Pgwire
  libraries : ParameterLibraries

/-- `is_cacheable`. -/
def isCacheable (query : String) : Bool :=
  let keyword := (trimStart query.toList).takeWhile isAsciiAlphabetic
  eqIgnoreAsciiCase keyword "SELECT".toList ||
    eqIgnoreAsciiCase keyword "WITH".toList

/-- What a handler returns, with the batches it answered from. -/
structure Reply (Batches : Type) where
  obtained : Option Batches
  response : PgWireResult Response

/-- The choices of the environment during one request: the two clock readings
and the order of an eviction scan. -/
structure Timing (Batches : Type) where
  getNow : Nat
  setNow : Nat
  order : IterationOrder Batches

/-- A request: a simple query or a bound portal. -/
inductive Request
  | simple (sql : String)
  | extended (portal : Portal)

namespace Request

def sql : Request → String
  | simple sql => sql
  | extended portal => portal.statement.statement

def parameterLen : Request → Nat
  | simple _ => 0
  | extended portal => portal.parameterLen

def format : Request → Format
  | simple _ => .unifiedText
  | extended portal => portal.resultColumnFormat

/-- Whether the handler consults the cache. -/
def cacheable : Request → Bool
  | simple sql => isCacheable sql
  | extended portal =>
      portal.parameterLen == 0 && isCacheable portal.statement.statement

theorem parameterLen_of_cacheable {request : Request}
    (cacheable : request.cacheable) : request.parameterLen = 0 := by
  cases request with
  | simple sql => rfl
  | extended portal =>
      simp only [Request.cacheable, Bool.and_eq_true, beq_iff_eq] at cacheable
      exact cacheable.1

end Request

variable {World DataFrame Batches : Type}

namespace Reply

/-- A request that failed before it obtained batches. -/
def failed (error : PgWireError) : Reply Batches :=
  ⟨none, .error error⟩

end Reply

variable (handler : IglooQueryHandler World DataFrame Batches)

namespace IglooQueryHandler

/-- `batches_to_response_in_format`. -/
def respond (format : Format) (batches : Batches) : Reply Batches :=
  ⟨some batches, batchesToResponseInFormat handler.pgwire
    (handler.recordBatches batches) format⟩

@[simp]
theorem obtained_respond (format : Format) (batches : Batches) :
    (handler.respond format batches).obtained = some batches :=
  rfl

end IglooQueryHandler

/-- The lookup that both handlers start with. -/
def lookup (cache : Cache Batches) (request : Request) (now : Nat) :
    Cache Batches × Option Batches :=
  if request.cacheable then cache.get handler.parseSql request.sql now
  else (cache, none)

/-- The store that both handlers end with. -/
def store (order : IterationOrder Batches) (cache : Cache Batches)
    (request : Request) (batches : Batches) (now : Nat) : Cache Batches :=
  if request.cacheable then
    cache.set handler.parseSql order request.sql batches now
  else cache

section Lookup

variable {handler} {cache : Cache Batches} {request : Request} {now : Nat}
variable {property : String → Batches → Nat → Prop}

theorem entriesSatisfy_lookup (satisfied : cache.EntriesSatisfy property) :
    (lookup handler cache request now).1.EntriesSatisfy property := by
  unfold lookup
  split
  · exact satisfied.getLocked _ _
  · exact satisfied

/-- Only a cacheable request hits, and it hits an entry with its key. -/
theorem exists_of_lookup_eq_some (satisfied : cache.EntriesSatisfy property)
    {batches : Batches}
    (hit : (lookup handler cache request now).2 = some batches) :
    request.cacheable ∧ ∃ insertedAt,
      property (normalizeQuery handler.parseSql request.sql) batches
        insertedAt := by
  unfold lookup at hit
  split at hit
  · rename_i cacheable
    obtain ⟨entry, found, batchesEq, -⟩ :=
      Cache.exists_entry_of_getLocked_eq_some hit
    subst batchesEq
    exact ⟨cacheable, entry.insertedAt, satisfied _ entry found⟩
  · cases hit

end Lookup

/-- `SimpleQueryHandler::do_query`. -/
def simpleDoQuery (timing : Timing Batches) (world : World)
    (cache : Cache Batches) (sql : String) :
    (World × Cache Batches) × Reply Batches :=
  let request := Request.simple sql
  let looked := lookup handler cache request timing.getNow
  match looked.2 with
  | some batches =>
      ((world, looked.1), handler.respond .unifiedText batches)
  | none =>
      let answered := query handler.engine world sql
      match answered.2 with
      | .error message =>
          ((answered.1, looked.1), .failed (userError message))
      | .ok batches =>
          let reply := handler.respond .unifiedText batches
          match reply.response with
          | .error _ => ((answered.1, looked.1), reply)
          | .ok _ =>
              ((answered.1, store handler timing.order looked.1 request batches
                timing.setNow), reply)

/-- `ExtendedQueryHandler::do_query`. -/
def extendedDoQuery (timing : Timing Batches) (world : World)
    (cache : Cache Batches) (portal : Portal) :
    (World × Cache Batches) × Reply Batches :=
  let request := Request.extended portal
  let sql := portal.statement.statement
  let looked := lookup handler cache request timing.getNow
  match looked.2 with
  | some batches =>
      ((world, looked.1), handler.respond portal.resultColumnFormat batches)
  | none =>
      let (world, params) : World × PgWireResult (List ScalarValue) :=
        if portal.parameterLen = 0 then (world, .ok [])
        else
          let described := describeQuery handler.engine world sql
          match described.2 with
          | .error message => (described.1, .error (userError message))
          | .ok description =>
              (described.1, decodePortalParams handler.libraries portal
                description.paramTypes)
      match params with
      | .error error => ((world, looked.1), .failed error)
      | .ok params =>
          let answered := queryWithParams handler.engine world sql params
          match answered.2 with
          | .error message =>
              ((answered.1, looked.1), .failed (userError message))
          | .ok batches =>
              ((answered.1, store handler timing.order looked.1 request batches
                timing.setNow),
                handler.respond portal.resultColumnFormat batches)

/-- The handler of a request. -/
def doQuery (timing : Timing Batches) (world : World) (cache : Cache Batches) :
    Request → (World × Cache Batches) × Reply Batches
  | .simple sql => simpleDoQuery handler timing world cache sql
  | .extended portal => extendedDoQuery handler timing world cache portal

/-- The reply to a statement that goes straight to the engine. -/
def directReply (world : World) (request : Request) : Reply Batches :=
  match (query handler.engine world request.sql).2 with
  | .error message => .failed (userError message)
  | .ok batches => handler.respond request.format batches

section WithoutParameters

variable {handler} {timing : Timing Batches} {world : World}
variable {cache : Cache Batches}

theorem store_cases (order : IterationOrder Batches) (request : Request)
    (batches : Batches) (now : Nat) :
    store handler order cache request batches now = cache ∨
      request.cacheable ∧
        store handler order cache request batches now =
          cache.set handler.parseSql order request.sql batches now := by
  unfold store
  split
  · exact Or.inr ⟨‹_›, rfl⟩
  · exact Or.inl rfl

/-- What a handler without parameters does: it answers from the cache and
leaves the engine alone, or it replies as the engine does and stores at most
the engine's answer. -/
theorem doQuery_cases {request : Request}
    (noParams : request.parameterLen = 0) :
    (∃ batches,
      (lookup handler cache request timing.getNow).2 = some batches ∧
        doQuery handler timing world cache request =
          ((world, (lookup handler cache request timing.getNow).1),
            handler.respond request.format batches)) ∨
      ∃ next,
        doQuery handler timing world cache request =
            (((query handler.engine world request.sql).1, next),
              directReply handler world request) ∧
          (next = (lookup handler cache request timing.getNow).1 ∨
            ∃ batches,
              (query handler.engine world request.sql).2 = .ok batches ∧
                request.cacheable ∧
                  next = (lookup handler cache request timing.getNow).1.set
                    handler.parseSql timing.order request.sql batches
                    timing.setNow) := by
  cases request with
  | simple sql =>
      simp only [doQuery, simpleDoQuery, directReply, Request.sql,
        Request.format]
      cases hit :
          (lookup handler cache (.simple sql) timing.getNow).2 with
      | some batches => exact Or.inl ⟨batches, rfl, rfl⟩
      | none =>
          refine Or.inr ?_
          dsimp only
          cases answered : (query handler.engine world sql).2 with
          | error message => exact ⟨_, rfl, Or.inl rfl⟩
          | ok batches =>
              dsimp only
              cases (handler.respond .unifiedText batches).response with
              | error error => exact ⟨_, rfl, Or.inl rfl⟩
              | ok response =>
                  refine ⟨_, rfl, ?_⟩
                  exact (store_cases timing.order (.simple sql) batches
                    timing.setNow).imp id
                    fun stored => ⟨batches, rfl, stored⟩
  | extended portal =>
      simp only [Request.parameterLen] at noParams
      simp only [doQuery, extendedDoQuery, directReply, Request.sql,
        Request.format, if_pos noParams, queryWithParams_nil]
      cases hit :
          (lookup handler cache (.extended portal) timing.getNow).2 with
      | some batches => exact Or.inl ⟨batches, rfl, rfl⟩
      | none =>
          refine Or.inr ?_
          dsimp only
          cases answered :
              (query handler.engine world portal.statement.statement).2 with
          | error message => exact ⟨_, rfl, Or.inl rfl⟩
          | ok batches =>
              refine ⟨_, rfl, ?_⟩
              exact (store_cases timing.order (.extended portal) batches
                timing.setNow).imp id
                fun stored => ⟨batches, rfl, stored⟩

end WithoutParameters

/-- Where a handler stands between two of its steps. -/
inductive HandlerState (Batches : Type)
  | received (request : Request)
  | describing (portal : Portal)
  | executing (request : Request) (params : List ScalarValue)
  | storing (request : Request) (batches : Batches) (reply : Reply Batches)
  | replied (reply : Reply Batches)

namespace HandlerState

/-- What follows a missed or skipped lookup. -/
def afterMiss : Request → HandlerState Batches
  | .simple sql => executing (.simple sql) []
  | .extended portal =>
      if portal.parameterLen = 0 then executing (.extended portal) []
      else describing portal

/-- What follows the result of the engine.  The simple handler encodes it
first and stores nothing that it cannot encode. -/
def afterQuery (request : Request) (batches : Batches) :
    HandlerState Batches :=
  let reply := handler.respond request.format batches
  match request, reply.response with
  | .simple _, .error _ => replied reply
  | _, _ =>
      if request.cacheable then storing request batches reply
      else replied reply

end HandlerState

/-- One step of a handler; a replied request takes none. -/
def handlerStep (now : Nat) (order : IterationOrder Batches) (world : World)
    (cache : Cache Batches) :
    HandlerState Batches →
      Option ((World × Cache Batches) × HandlerState Batches)
  | .received request =>
      let looked := lookup handler cache request now
      some ((world, looked.1),
        match looked.2 with
        | some batches => .replied (handler.respond request.format batches)
        | none => .afterMiss request)
  | .describing portal =>
      let described :=
        describeQuery handler.engine world portal.statement.statement
      some ((described.1, cache),
        match described.2 with
        | .error message => .replied (.failed (userError message))
        | .ok description =>
            match decodePortalParams handler.libraries portal
                description.paramTypes with
            | .error error => .replied (.failed error)
            | .ok params => .executing (.extended portal) params)
  | .executing request params =>
      let answered := queryWithParams handler.engine world request.sql params
      some ((answered.1, cache),
        match answered.2 with
        | .error message => .replied (.failed (userError message))
        | .ok batches => .afterQuery handler request batches)
  | .storing request batches reply =>
      some ((world,
        cache.set handler.parseSql order request.sql batches now),
        .replied reply)
  | .replied _ => none

section Steps

variable {handler} {now : Nat} {order : IterationOrder Batches}
variable {world next : World} {cache nextCache : Cache Batches}
variable {current after : HandlerState Batches}

/-- What a step leaves of the world and of the cache. -/
theorem handlerStep_effects
    (stepped : handlerStep handler now order world cache current =
      some ((next, nextCache), after)) :
    (next = world ∨
      (∃ sql, next = (describeQuery handler.engine world sql).1) ∨
      ∃ sql params,
        next = (queryWithParams handler.engine world sql params).1) ∧
      (nextCache = cache ∨
        (∃ request, nextCache = (lookup handler cache request now).1) ∨
        ∃ request batches reply, current = .storing request batches reply ∧
          nextCache =
            cache.set handler.parseSql order request.sql batches now) := by
  cases current with
  | received request =>
      simp only [handlerStep, Option.some.injEq, Prod.mk.injEq] at stepped
      obtain ⟨⟨rfl, rfl⟩, -⟩ := stepped
      exact ⟨Or.inl rfl, Or.inr (Or.inl ⟨request, rfl⟩)⟩
  | describing portal =>
      simp only [handlerStep, Option.some.injEq, Prod.mk.injEq] at stepped
      obtain ⟨⟨rfl, rfl⟩, -⟩ := stepped
      exact ⟨Or.inr (Or.inl ⟨_, rfl⟩), Or.inl rfl⟩
  | executing request params =>
      simp only [handlerStep, Option.some.injEq, Prod.mk.injEq] at stepped
      obtain ⟨⟨rfl, rfl⟩, -⟩ := stepped
      exact ⟨Or.inr (Or.inr ⟨_, _, rfl⟩), Or.inl rfl⟩
  | storing request batches reply =>
      simp only [handlerStep, Option.some.injEq, Prod.mk.injEq] at stepped
      obtain ⟨⟨rfl, rfl⟩, -⟩ := stepped
      exact ⟨Or.inl rfl, Or.inr (Or.inr ⟨_, _, _, rfl, rfl⟩)⟩
  | replied reply => cases stepped

theorem world_handlerStep
    (described : ∀ sql, (describeQuery handler.engine world sql).1 = world)
    (executed : ∀ sql params,
      (queryWithParams handler.engine world sql params).1 = world)
    (stepped : handlerStep handler now order world cache current =
      some ((next, nextCache), after)) :
    next = world := by
  rcases (handlerStep_effects stepped).1 with
    same | ⟨sql, nextEq⟩ | ⟨sql, params, nextEq⟩
  · exact same
  · rw [nextEq, described]
  · rw [nextEq, executed]

theorem entriesSatisfy_handlerStep {property : String → Batches → Nat → Prop}
    (satisfied : cache.EntriesSatisfy property)
    (stored : ∀ request batches reply,
      current = .storing request batches reply →
        property (normalizeQuery handler.parseSql request.sql) batches now)
    (stepped : handlerStep handler now order world cache current =
      some ((next, nextCache), after)) :
    nextCache.EntriesSatisfy property := by
  rcases (handlerStep_effects stepped).2 with
    rfl | ⟨request, rfl⟩ | ⟨request, batches, reply, storing, rfl⟩
  · exact satisfied
  · exact entriesSatisfy_lookup satisfied
  · exact satisfied.setLocked (stored request batches reply storing)

theorem ttl_handlerStep
    (stepped : handlerStep handler now order world cache current =
      some ((next, nextCache), after)) :
    nextCache.ttl = cache.ttl := by
  rcases (handlerStep_effects stepped).2 with
    rfl | ⟨request, rfl⟩ | ⟨request, batches, reply, -, rfl⟩
  · rfl
  · unfold lookup
    split
    · exact Cache.ttl_getLocked cache _ now
    · rfl
  · exact Cache.ttl_setLocked cache order _ batches now

end Steps

/-- What a handler at work on a request hands on, stores and replies: the
parameters that it executes with are `Bound`, the batches that it has obtained
are `Right`, and its reply is a failure or such batches in the format of the
request. -/
def HandlerState.Serves (request : Request)
    (Bound : List ScalarValue → Prop) (Right : Batches → Prop) :
    HandlerState Batches → Prop
  | .received pending => pending = request
  | .describing portal =>
      request = .extended portal ∧ portal.parameterLen ≠ 0
  | .executing executed params => executed = request ∧ Bound params
  | .storing stored batches reply =>
      stored = request ∧ request.cacheable ∧ Right batches ∧
        reply = handler.respond request.format batches
  | .replied reply =>
      (∃ error, reply = .failed error) ∨
        ∃ batches, Right batches ∧
          reply = handler.respond request.format batches

section Serves

variable {handler} {request : Request} {Bound : List ScalarValue → Prop}
variable {Right : Batches → Prop}

theorem HandlerState.Serves.right_of_obtained {reply : Reply Batches}
    (serves :
      (HandlerState.replied reply).Serves handler request Bound Right)
    {batches : Batches} (obtained : reply.obtained = some batches) :
    Right batches := by
  rcases serves with ⟨error, rfl⟩ | ⟨encoded, right, rfl⟩
  · cases obtained
  · cases obtained
    exact right

theorem HandlerState.Serves.mono {current : HandlerState Batches}
    {Kept : Batches → Prop}
    (serves : current.Serves handler request Bound Right)
    (kept : ∀ batches, Right batches → Kept batches) :
    current.Serves handler request Bound Kept := by
  cases current with
  | received | describing | executing => exact serves
  | storing stored batches reply =>
      obtain ⟨same, cacheable, right, replyEq⟩ := serves
      exact ⟨same, cacheable, kept batches right, replyEq⟩
  | replied reply =>
      exact serves.imp_right fun ⟨batches, right, replyEq⟩ =>
        ⟨batches, kept batches right, replyEq⟩

theorem serves_afterMiss (noParams : request.parameterLen = 0 → Bound []) :
    (HandlerState.afterMiss request).Serves handler request Bound Right := by
  cases request with
  | simple sql => exact ⟨rfl, noParams rfl⟩
  | extended portal =>
      simp only [HandlerState.afterMiss]
      split
      · rename_i none
        exact ⟨rfl, noParams none⟩
      · rename_i some
        exact ⟨rfl, some⟩

theorem serves_afterQuery {batches : Batches} (right : Right batches) :
    (HandlerState.afterQuery handler request batches).Serves handler request
      Bound Right := by
  unfold HandlerState.afterQuery
  dsimp only
  split
  · exact Or.inr ⟨batches, right, rfl⟩
  · split
    · rename_i cacheable
      exact ⟨rfl, cacheable, right, rfl⟩
    · exact Or.inr ⟨batches, right, rfl⟩

/-- What one step of a handler preserves, if the decoded parameters are `Bound`
and the batches of a hit and of the engine are `Right`. -/
theorem serves_handlerStep {now : Nat} {order : IterationOrder Batches}
    {world next : World} {cache nextCache : Cache Batches}
    {current after : HandlerState Batches}
    (noParams : request.parameterLen = 0 → Bound [])
    (decoded : ∀ portal description params, request = .extended portal →
      portal.parameterLen ≠ 0 →
        (describeQuery handler.engine world
          portal.statement.statement).2 = .ok description →
          decodePortalParams handler.libraries portal
            description.paramTypes = .ok params → Bound params)
    (hit : ∀ batches, (lookup handler cache request now).2 = some batches →
      Right batches)
    (executed : ∀ params batches, Bound params →
      (queryWithParams handler.engine world request.sql params).2 =
        .ok batches → Right batches)
    (serves : current.Serves handler request Bound Right)
    (stepped : handlerStep handler now order world cache current =
      some ((next, nextCache), after)) :
    after.Serves handler request Bound Right := by
  cases current with
  | received received =>
      obtain rfl : received = request := serves
      simp only [handlerStep, Option.some.injEq, Prod.mk.injEq] at stepped
      obtain ⟨-, rfl⟩ := stepped
      split
      · rename_i batches found
        exact Or.inr ⟨batches, hit batches found, rfl⟩
      · exact serves_afterMiss noParams
  | describing portal =>
      obtain ⟨rfl, params⟩ := serves
      simp only [handlerStep, Option.some.injEq, Prod.mk.injEq] at stepped
      obtain ⟨-, rfl⟩ := stepped
      split
      · exact Or.inl ⟨_, rfl⟩
      · rename_i description described
        split
        · exact Or.inl ⟨_, rfl⟩
        · rename_i scalars bound
          exact ⟨rfl, decoded portal description scalars rfl params described
            bound⟩
  | executing executing params =>
      obtain ⟨rfl, bound⟩ := serves
      simp only [handlerStep, Option.some.injEq, Prod.mk.injEq] at stepped
      obtain ⟨-, rfl⟩ := stepped
      split
      · exact Or.inl ⟨_, rfl⟩
      · rename_i batches answered
        exact serves_afterQuery (executed params batches bound answered)
  | storing stored batches reply =>
      obtain ⟨rfl, -, right, replyEq⟩ := serves
      simp only [handlerStep, Option.some.injEq, Prod.mk.injEq] at stepped
      obtain ⟨-, rfl⟩ := stepped
      exact Or.inr ⟨batches, right, replyEq⟩
  | replied reply => cases stepped

end Serves

/-- A request that no other handler interrupts: from a state between two
steps to its reply. -/
inductive Completes (timing : Timing Batches) :
    World → Cache Batches → HandlerState Batches →
      (World × Cache Batches) × Reply Batches → Prop
  | replied (world : World) (cache : Cache Batches) (reply : Reply Batches) :
      Completes timing world cache (.replied reply) ((world, cache), reply)
  | received {world next : World} {cache nextCache : Cache Batches}
      {request : Request} {after : HandlerState Batches}
      {result : (World × Cache Batches) × Reply Batches}
      (stepped : handlerStep handler timing.getNow timing.order world cache
        (.received request) = some ((next, nextCache), after))
      (rest : Completes timing next nextCache after result) :
      Completes timing world cache (.received request) result
  | later {world next : World} {cache nextCache : Cache Batches}
      {current after : HandlerState Batches}
      {result : (World × Cache Batches) × Reply Batches}
      (stepped : handlerStep handler timing.setNow timing.order world cache
        current = some ((next, nextCache), after))
      (rest : Completes timing next nextCache after result) :
      Completes timing world cache current result

section Completes

variable {handler} {timing : Timing Batches} {world : World}
variable {cache : Cache Batches}

theorem completes_simple_afterQuery (sql : String) (batches : Batches) :
    Completes handler timing world cache
      (.afterQuery handler (.simple sql) batches)
      (match (handler.respond .unifiedText batches).response with
      | .error _ =>
          ((world, cache), handler.respond .unifiedText batches)
      | .ok _ =>
          ((world, store handler timing.order cache (.simple sql) batches
            timing.setNow), handler.respond .unifiedText batches)) := by
  simp only [HandlerState.afterQuery, Request.format]
  cases (handler.respond .unifiedText batches).response with
  | error error => exact .replied world cache _
  | ok response =>
      simp only [store]
      split
      · exact .later rfl (.replied _ _ _)
      · exact .replied world cache _

theorem completes_extended_afterQuery (portal : Portal) (batches : Batches) :
    Completes handler timing world cache
      (.afterQuery handler (.extended portal) batches)
      ((world, store handler timing.order cache (.extended portal) batches
        timing.setNow),
        handler.respond portal.resultColumnFormat batches) := by
  simp only [HandlerState.afterQuery, Request.format, store]
  split
  · exact .later rfl (.replied _ _ _)
  · exact .replied world cache _

theorem completes_executing (portal : Portal) (params : List ScalarValue) :
    Completes handler timing world cache
      (.executing (.extended portal) params)
      (let answered := queryWithParams handler.engine world
        portal.statement.statement params
      match answered.2 with
      | .error message => ((answered.1, cache), .failed (userError message))
      | .ok batches =>
          ((answered.1, store handler timing.order cache (.extended portal)
            batches timing.setNow),
            handler.respond portal.resultColumnFormat batches)) := by
  refine .later rfl ?_
  simp only [Request.sql]
  cases (queryWithParams handler.engine world portal.statement.statement
      params).2 with
  | error message => exact .replied _ _ _
  | ok batches => exact completes_extended_afterQuery portal batches

/-- Without interruption the steps of a handler amount to its `do_query`. -/
theorem completes_doQuery (request : Request) :
    Completes handler timing world cache (.received request)
      (doQuery handler timing world cache request) := by
  cases request with
  | simple sql =>
      refine .received rfl ?_
      simp only [doQuery, simpleDoQuery]
      cases (lookup handler cache (.simple sql) timing.getNow).2 with
      | some batches => exact .replied _ _ _
      | none =>
          refine .later rfl ?_
          rw [queryWithParams_nil]
          simp only [Request.sql]
          cases (query handler.engine world sql).2 with
          | error message => exact .replied _ _ _
          | ok batches => exact completes_simple_afterQuery sql batches
  | extended portal =>
      refine .received rfl ?_
      simp only [doQuery, extendedDoQuery]
      cases (lookup handler cache (.extended portal) timing.getNow).2 with
      | some batches => exact .replied _ _ _
      | none =>
          by_cases noParams : portal.parameterLen = 0
          · simp only [HandlerState.afterMiss, if_pos noParams]
            exact completes_executing portal []
          · simp only [HandlerState.afterMiss, if_neg noParams]
            refine .later rfl ?_
            cases (describeQuery handler.engine world
                portal.statement.statement).2 with
            | error message => exact .replied _ _ _
            | ok description =>
                simp only
                cases decodePortalParams handler.libraries portal
                    description.paramTypes with
                | error error => exact .replied _ _ _
                | ok params => exact completes_executing portal params

end Completes

end Server

end Igloo
