import Igloo.QueryHandlers
import Igloo.ParameterAgreement

/-!
# One client behind the cache

A single client sends statements one after another, and nothing else changes
the data.  Compared with the same statements sent straight to the engine, the
engine ends in the same state and every statement that is not cacheable gets
the same reply, provided the cacheable ones have no effect.  A cacheable
statement may be answered from an earlier state of the session: its own writes
do not invalidate what the client has read before.
-/

namespace Igloo

namespace Server

namespace SessionTransparency

open Arrow RustText CacheLayer DataFusionEngine

variable {World DataFrame Batches : Type}

/-- A statement as the client sends it. -/
structure Sent (Batches : Type) where
  request : Request
  timing : Timing Batches

variable (handler : IglooQueryHandler World DataFrame Batches)

/-- The statements one after another through the handlers. -/
def session (world : World) (cache : Cache Batches) :
    List (Sent Batches) → (World × Cache Batches) × List (Reply Batches)
  | [] => ((world, cache), [])
  | sent :: rest =>
      let answered := doQuery handler sent.timing world cache sent.request
      let others := session answered.1.1 answered.1.2 rest
      (others.1, answered.2 :: others.2)

/-- The state of the engine after the first statements, without a cache. -/
def worldAfter (world : World) (statements : List (Sent Batches)) : World :=
  statements.foldl
    (fun world sent => (query handler.engine world sent.request.sql).1) world

/-- The replies to the statements without a cache. -/
def directSession (world : World) :
    List (Sent Batches) → World × List (Reply Batches)
  | [] => (world, [])
  | sent :: rest =>
      let next := (query handler.engine world sent.request.sql).1
      let others := directSession next rest
      (others.1, directReply handler world sent.request :: others.2)

/-- Without a cache every statement meets the state that the statements before
it have left. -/
theorem directSession_eq (world : World) (statements : List (Sent Batches)) :
    (directSession handler world statements).1 =
        worldAfter handler world statements ∧
      ∀ index sent, statements[index]? = some sent →
        (directSession handler world statements).2[index]? =
          some (directReply handler
            (worldAfter handler world (statements.take index))
            sent.request) := by
  induction statements generalizing world with
  | nil => simp [directSession, worldAfter]
  | cons first rest induction =>
      obtain ⟨finalEq, replyEq⟩ :=
        induction (query handler.engine world first.request.sql).1
      refine ⟨finalEq, ?_⟩
      intro index sent found
      cases index with
      | zero =>
          simp only [List.getElem?_cons_zero, Option.some.injEq] at found
          subst found
          rfl
      | succ index =>
          simp only [List.getElem?_cons_succ] at found
          exact replyEq index sent found

/-- Two texts with one key are interchangeable in every state. -/
def Interchangeable : Prop :=
  ∀ world first second,
    normalizeQuery handler.parseSql first =
        normalizeQuery handler.parseSql second →
      query handler.engine world first = query handler.engine world second

/-- The cacheable statements change nothing in the states they meet. -/
def ReadOnly (world : World) (statements : List (Sent Batches)) : Prop :=
  ∀ index sent, statements[index]? = some sent → sent.request.cacheable →
    (query handler.engine
      (worldAfter handler world (statements.take index))
      sent.request.sql).1 =
        worldAfter handler world (statements.take index)

/-- An entry holds what the engine answered to one of the cacheable statements
sent so far, in the state that this statement met. -/
def EntryFrom (world : World) (sentBefore : List (Sent Batches))
    (key : String) (batches : Batches) (_insertedAt : Nat) : Prop :=
  ∃ index sent, sentBefore[index]? = some sent ∧ sent.request.cacheable ∧
    normalizeQuery handler.parseSql sent.request.sql = key ∧
      (query handler.engine
        (worldAfter handler world (sentBefore.take index))
        sent.request.sql).2 = .ok batches

/-- The reply to the statement at `index` is the engine's reply in the state
that this statement met, or in the one that an earlier cacheable statement
with its key met. -/
def RepliedFrom (world : World) (statements : List (Sent Batches))
    (index : Nat) (sent : Sent Batches) (reply : Reply Batches) : Prop :=
  ∃ source ≤ index,
    reply = directReply handler
        (worldAfter handler world (statements.take source)) sent.request ∧
      (source = index ∨ sent.request.cacheable ∧ ∃ earlier,
        statements[source]? = some earlier ∧ earlier.request.cacheable ∧
          normalizeQuery handler.parseSql earlier.request.sql =
            normalizeQuery handler.parseSql sent.request.sql)

variable {handler} {initial : World}

theorem EntryFrom.concat {sentBefore : List (Sent Batches)}
    {sent : Sent Batches} {key : String} {batches : Batches}
    {insertedAt : Nat}
    (stored : EntryFrom handler initial sentBefore key batches insertedAt) :
    EntryFrom handler initial (sentBefore ++ [sent]) key batches
      insertedAt := by
  obtain ⟨index, earlier, found, cacheable, keyEq, answered⟩ := stored
  have inBounds := (List.getElem?_eq_some_iff.mp found).1
  refine ⟨index, earlier, ?_, cacheable, keyEq, ?_⟩
  · rw [List.getElem?_append_left inBounds, found]
  · rwa [List.take_append_of_le_length (Nat.le_of_lt inBounds)]

theorem worldAfter_concat (sentBefore : List (Sent Batches))
    (sent : Sent Batches) :
    worldAfter handler initial (sentBefore ++ [sent]) =
      (query handler.engine (worldAfter handler initial sentBefore)
        sent.request.sql).1 := by
  simp [worldAfter]

section OneStatement

variable {statements sentBefore rest : List (Sent Batches)}
variable {sent : Sent Batches} {cache : Cache Batches}

theorem worldAfter_concat_of_cacheable
    (split : statements = sentBefore ++ sent :: rest)
    (readOnly : ReadOnly handler initial statements)
    (cacheable : sent.request.cacheable) :
    worldAfter handler initial (sentBefore ++ [sent]) =
      worldAfter handler initial sentBefore := by
  have unchanged := readOnly sentBefore.length sent (by simp [split]) cacheable
  rw [worldAfter_concat]
  simpa [split] using unchanged

theorem repliedFrom_of_hit (interchangeable : Interchangeable handler)
    (split : statements = sentBefore ++ sent :: rest)
    (entries :
      cache.EntriesSatisfy (EntryFrom handler initial sentBefore))
    {batches : Batches}
    (hit : (lookup handler cache sent.request sent.timing.getNow).2 =
      some batches) :
    RepliedFrom handler initial statements sentBefore.length sent
      (handler.respond sent.request.format batches) := by
  obtain ⟨cacheable, _, source, earlier, found, earlierCacheable, keyEq,
    answered⟩ := exists_of_lookup_eq_some entries hit
  have inBounds := (List.getElem?_eq_some_iff.mp found).1
  have sameWorld : statements.take source = sentBefore.take source := by
    rw [split, List.take_append_of_le_length (Nat.le_of_lt inBounds)]
  refine ⟨source, Nat.le_of_lt inBounds, ?_, Or.inr ⟨cacheable, earlier, ?_,
    earlierCacheable, keyEq⟩⟩
  · rw [interchangeable _ _ _ keyEq] at answered
    simp only [directReply, sameWorld, answered]
  · rw [split, List.getElem?_append_left inBounds, found]

/-- One statement: the engine moves as without a cache, the reply has a
source, and the entries keep theirs. -/
theorem doQuery_sound (interchangeable : Interchangeable handler)
    (split : statements = sentBefore ++ sent :: rest)
    (noParams : sent.request.parameterLen = 0)
    (readOnly : ReadOnly handler initial statements)
    (entries :
      cache.EntriesSatisfy (EntryFrom handler initial sentBefore)) :
    ∃ next reply,
      doQuery handler sent.timing (worldAfter handler initial sentBefore)
          cache sent.request =
        ((worldAfter handler initial (sentBefore ++ [sent]), next), reply) ∧
      next.EntriesSatisfy
        (EntryFrom handler initial (sentBefore ++ [sent])) ∧
      RepliedFrom handler initial statements sentBefore.length sent
        reply := by
  have kept : (lookup handler cache sent.request
      sent.timing.getNow).1.EntriesSatisfy
        (EntryFrom handler initial (sentBefore ++ [sent])) :=
    (entriesSatisfy_lookup entries).mono fun _ _ _ stored => stored.concat
  rcases doQuery_cases noParams with
    ⟨batches, hit, answered⟩ | ⟨next, answered, made⟩
  · have cacheable := (exists_of_lookup_eq_some entries hit).1
    rw [worldAfter_concat_of_cacheable split readOnly cacheable]
    exact ⟨_, _, answered, kept,
      repliedFrom_of_hit interchangeable split entries hit⟩
  · refine ⟨next, directReply handler
      (worldAfter handler initial sentBefore) sent.request, ?_, ?_,
      sentBefore.length, le_rfl, ?_, Or.inl rfl⟩
    · rw [answered, worldAfter_concat]
    · rcases made with rfl | ⟨batches, answeredOk, cacheable, rfl⟩
      · exact kept
      · refine kept.setLocked ⟨sentBefore.length, sent, by simp, cacheable,
          rfl, ?_⟩
        simpa using answeredOk
    · simp [split]

end OneStatement

/-- The rest of a session, from the state that the statements before have
left. -/
theorem session_sound (interchangeable : Interchangeable handler)
    {statements : List (Sent Batches)}
    (noParams : ∀ sent ∈ statements, sent.request.parameterLen = 0)
    (readOnly : ReadOnly handler initial statements)
    {sentBefore rest : List (Sent Batches)}
    (split : statements = sentBefore ++ rest) {cache : Cache Batches}
    (entries :
      cache.EntriesSatisfy (EntryFrom handler initial sentBefore)) :
    (session handler (worldAfter handler initial sentBefore) cache
        rest).1.1 = worldAfter handler initial statements ∧
      (session handler (worldAfter handler initial sentBefore) cache
        rest).2.length = rest.length ∧
      ∀ index sent, rest[index]? = some sent → ∃ reply,
        (session handler (worldAfter handler initial sentBefore) cache
          rest).2[index]? = some reply ∧
          RepliedFrom handler initial statements (sentBefore.length + index)
            sent reply := by
  induction rest generalizing sentBefore cache with
  | nil => simp [session, split]
  | cons sent rest induction =>
      obtain ⟨next, reply, answered, kept, source⟩ :=
        doQuery_sound interchangeable split
          (noParams sent (by simp [split])) readOnly entries
      have regrouped : statements = (sentBefore ++ [sent]) ++ rest := by
        simp [split]
      obtain ⟨finalEq, lengthEq, sources⟩ := induction regrouped kept
      simp only [session, answered]
      refine ⟨finalEq, congrArg Nat.succ lengthEq, ?_⟩
      intro index other found
      cases index with
      | zero =>
          simp only [List.getElem?_cons_zero, Option.some.injEq] at found
          subst found
          exact ⟨reply, rfl, source⟩
      | succ index =>
          obtain ⟨later, laterEq, laterSource⟩ := sources index other
            (by simpa using found)
          refine ⟨later, by simpa using laterEq, ?_⟩
          simpa [Nat.add_assoc, Nat.add_comm 1] using laterSource

/-- In a session whose cacheable statements have no effect, the engine ends as
without a cache, and each reply is the engine's reply in the state that the
statement met or, for a cacheable statement, in the state that an earlier
cacheable statement with its key met. -/
theorem session_repliedFrom (interchangeable : Interchangeable handler)
    {maxEntries ttl : Nat} (maxEntries_pos : 0 < maxEntries)
    (ttl_pos : 0 < ttl) {statements : List (Sent Batches)}
    (noParams : ∀ sent ∈ statements, sent.request.parameterLen = 0)
    (readOnly : ReadOnly handler initial statements) :
    let behindCache := session handler initial
      (Cache.withClock Batches maxEntries ttl maxEntries_pos ttl_pos)
      statements
    behindCache.1.1 = (directSession handler initial statements).1 ∧
      behindCache.2.length = statements.length ∧
      ∀ index sent, statements[index]? = some sent → ∃ reply,
        behindCache.2[index]? = some reply ∧
          RepliedFrom handler initial statements index sent reply := by
  have whole := session_sound interchangeable noParams readOnly
    (List.nil_append statements).symm
    (Cache.entriesSatisfy_withClock _ maxEntries_pos ttl_pos)
  rw [(directSession_eq handler initial statements).1]
  simpa [worldAfter] using whole

section Counting

/-- A result of one integer. -/
def countBatch (count : Nat) : RecordBatch where
  schema := [⟨"count", .int64, false, none⟩]
  columns := [.int64 [some (Int64.ofNat count)]]
  numRows := 1
  types_eq := rfl
  lengths_eq := by simp [ColumnArray.length]

/-- A table that one text appends to and every other text counts. -/
private def countHandler :
    IglooQueryHandler Nat String (List RecordBatch) where
  engine := {
    sql := fun world sql => (world, .ok (normalizeLexical sql))
    withParamValues := fun dataFrame _ => .ok dataFrame
    collect := fun world dataFrame =>
      if dataFrame = "INSERT INTO t VALUES (1)" then (world + 1, .ok [])
      else (world, .ok [countBatch world])
    schema := fun _ => []
    parameterNames := fun _ => .ok []
    parameterTypes := fun _ => .ok [] }
  recordBatches := id
  parseSql := fun _ => none
  pgwire := ⟨fun _ value =>
    match value with
    | .int64 (some count) => .ok (some (toUtf8 (toString count.toInt)))
    | _ => .ok none, fun _ => true⟩
  libraries := bigEndianLibraries

private theorem interchangeable_countHandler :
    Interchangeable countHandler := by
  intro world first second same
  have sameLexical : normalizeLexical first = normalizeLexical second := same
  simp [query, countHandler, sameLexical]

private def sentSimple (sql : String) : Sent (List RecordBatch) :=
  ⟨.simple sql, ⟨0, 0, .listed⟩⟩

private def countInsertCount : List (Sent (List RecordBatch)) :=
  [sentSimple "SELECT COUNT(*) FROM t", sentSimple "INSERT INTO t VALUES (1)",
    sentSimple "SELECT COUNT(*) FROM t"]

/-- A client that counts, inserts and counts again is told the old count. -/
theorem count_insert_count :
    Interchangeable countHandler ∧
      (session countHandler 0 (Cache.withClock (List RecordBatch) 16 60
          (by decide) (by decide)) countInsertCount).2.map Reply.obtained =
        [some [countBatch 0], some [], some [countBatch 0]] ∧
      (directSession countHandler 0 countInsertCount).2.map Reply.obtained =
        [some [countBatch 0], some [], some [countBatch 1]] ∧
      countBatch 0 ≠ countBatch 1 :=
  ⟨interchangeable_countHandler, rfl, rfl, by decide⟩

/-- The same session, reply by reply. -/
theorem session_repliedFrom_count :
    let behindCache := session countHandler 0
      (Cache.withClock (List RecordBatch) 16 60 (by decide) (by decide))
      countInsertCount
    behindCache.1.1 = (directSession countHandler 0 countInsertCount).1 ∧
      behindCache.2.length = countInsertCount.length ∧
      ∀ index sent, countInsertCount[index]? = some sent → ∃ reply,
        behindCache.2[index]? = some reply ∧
          RepliedFrom countHandler 0 countInsertCount index sent reply := by
  refine session_repliedFrom interchangeable_countHandler (by decide)
    (by decide) ?_ ?_
  · intro sent sentMem
    simp only [countInsertCount, List.mem_cons, List.not_mem_nil,
      or_false] at sentMem
    rcases sentMem with rfl | rfl | rfl <;> rfl
  · intro index sent found cacheable
    match index, found with
    | 0, found => cases found; rfl
    | 1, found => cases found; cases cacheable
    | 2, found => cases found; rfl

end Counting

end SessionTransparency

end Server

end Igloo
