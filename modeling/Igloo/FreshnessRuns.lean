import Igloo.CdcSync
import Igloo.LabelledRuns
import Igloo.ParameterAgreement
import Igloo.QueryHandlers

/-!
# Freshness under change events

Query handlers, source updates and sync passes interleave at the granularity
of their steps.  Batches carry the data version they were computed from.  Once
a sync pass has found the cache empty or has cleared it, the events it marked
are settled: no older result is left in the cache.  A handler that executed
before the update can still store its result afterwards, and this is the only
way in which a stale result outlives the event.
-/

namespace Igloo

namespace Server

namespace FreshnessRuns

open Arrow CacheLayer CdcSync DataFusionEngine

/-- Record batches with the data version they were computed from. -/
structure Tagged where
  batches : List RecordBatch
  version : Nat
  deriving DecidableEq

/-- An engine that only reads: what it plans and collects depends on the
current version of the source data. -/
structure VersionedSource (DataFrame : Type) where
  sql : Nat → String → Except String DataFrame
  withParamValues : DataFrame → List ScalarValue → Except String DataFrame
  collect : Nat → DataFrame → Except String (List RecordBatch)
  schema : DataFrame → Schema
  parameterNames : DataFrame → Except String (List String)
  parameterTypes : DataFrame → Except String (List (String × Option DataType))

variable {DataFrame : Type}

/-- The session over a versioned source; its world is the version. -/
def VersionedSource.context (source : VersionedSource DataFrame) :
    SessionContext Nat DataFrame Tagged where
  sql version text := (version, source.sql version text)
  withParamValues := source.withParamValues
  collect version dataFrame :=
    (version, (source.collect version dataFrame).map (Tagged.mk · version))
  schema := source.schema
  parameterNames := source.parameterNames
  parameterTypes := source.parameterTypes

/-- The query handler over a versioned source. -/
def versionedHandler (source : VersionedSource DataFrame)
    (parseSql : String → Option (List String)) (pgwire : Pgwire)
    (libraries : ParameterLibraries) :
    IglooQueryHandler Nat DataFrame Tagged where
  engine := source.context
  recordBatches := Tagged.batches
  parseSql := parseSql
  pgwire := pgwire
  libraries := libraries

/-- An event file with the version it announces. -/
structure Drop where
  entry : DirEntry
  version : Nat

/-- Where a sync pass stands, with the versions whose events it marked. -/
inductive SyncState
  | marked (versions : List Nat)
  | clearing (versions : List Nat)
  | finished (versions : List Nat)
  | returned (versions : List Nat)

/-- A request in progress; `since` are the versions that sync calls had
reported when it arrived. -/
structure Handling where
  request : Request
  since : List Nat
  current : HandlerState Tagged

structure Shared where
  cache : Cache Tagged
  version : Nat
  dropped : List Drop
  listener : CdcListener
  syncs : Nat → Option SyncState
  handlers : Nat → Option Handling
  settled : List Nat
  reported : List Nat

/-- The scheduler's choices. -/
inductive Action
  | raise
  | drop (version : Nat) (path content : String)
  | arrive (client : Nat) (request : Request)
  | advance (client : Nat) (now : Nat) (order : IterationOrder Tagged)
  | mark (task : Nat)
  | test (task : Nat)
  | clear (task : Nat)
  | finish (task : Nat)

/-- The versions whose events a listener marks in a listing. -/
def markedVersions (listener : CdcListener) (dropped : List Drop) :
    List Nat :=
  (dropped.filter fun drop =>
    drop.entry.path ∉ listener.processed ∧
      drop.entry.path ∈ (listener.mark
        (.directory (dropped.map Drop.entry))).1.processed).map Drop.version

variable (handler : IglooQueryHandler Nat DataFrame Tagged)

def step (shared : Shared) : Action → Option Shared
  | .raise => some { shared with version := shared.version + 1 }
  | .drop version path content =>
      if 0 < version ∧ version ≤ shared.version ∧
          version ∉ shared.dropped.map Drop.version ∧
          extension path = some "json" ∧
          path ∉ shared.dropped.map (fun drop => drop.entry.path) then
        some { shared with
          dropped := shared.dropped ++ [⟨⟨path, some content⟩, version⟩] }
      else none
  | .arrive client request =>
      match shared.handlers client with
      | some _ => none
      | none =>
          some { shared with
            handlers := Function.update shared.handlers client
              (some ⟨request, shared.reported, .received request⟩) }
  | .advance client now order =>
      match shared.handlers client with
      | none => none
      | some handling =>
          (handlerStep handler now order shared.version shared.cache
            handling.current).map fun ((version, cache), after) =>
              { shared with
                version := version
                cache := cache
                handlers := Function.update shared.handlers client
                  (some { handling with current := after }) }
  | .mark task =>
      match shared.syncs task with
      | some _ => none
      | none =>
          let (listener, events) := shared.listener.mark
            (.directory (shared.dropped.map Drop.entry))
          let versions := markedVersions shared.listener shared.dropped
          some { shared with
            listener := listener
            syncs := Function.update shared.syncs task
              (some (if events.isEmpty then .finished [] else
                .marked versions)) }
  | .test task =>
      match shared.syncs task with
      | some (.marked versions) =>
          if shared.cache.isEmpty then
            some { shared with
              syncs := Function.update shared.syncs task
                (some (.finished versions))
              settled := versions ++ shared.settled }
          else
            some { shared with
              syncs := Function.update shared.syncs task
                (some (.clearing versions)) }
      | _ => none
  | .clear task =>
      match shared.syncs task with
      | some (.clearing versions) =>
          some { shared with
            cache := shared.cache.clear
            syncs := Function.update shared.syncs task
              (some (.finished versions))
            settled := versions ++ shared.settled }
      | _ => none
  | .finish task =>
      match shared.syncs task with
      | some (.finished versions) =>
          some { shared with
            syncs := Function.update shared.syncs task
              (some (.returned versions))
            reported := versions ++ shared.reported }
      | _ => none

/-- Nothing has happened yet; the data is at version zero. -/
def fresh (maxEntries ttl : Nat) (maxEntries_pos : 0 < maxEntries)
    (ttl_pos : 0 < ttl) : Shared where
  cache := Cache.withClock Tagged maxEntries ttl maxEntries_pos ttl_pos
  version := 0
  dropped := []
  listener := ⟨[]⟩
  syncs := fun _ => none
  handlers := fun _ => none
  settled := []
  reported := []

/-- The result that a handler is about to store. -/
def pendingStore : HandlerState Tagged → Option Tagged
  | .storing _ tagged _ => some tagged
  | _ => none

/-- A handler in its store step holds a result that is no older than any
settled event. -/
def StoresFresh (shared : Shared) : Action → Prop
  | .advance client _ _ =>
      ∀ handling ∈ shared.handlers client,
        ∀ tagged ∈ pendingStore handling.current,
          ∀ version ∈ shared.settled, version ≤ tagged.version
  | _ => True

instance (shared : Shared) : (action : Action) →
    Decidable (StoresFresh shared action)
  | .advance client _ _ =>
      inferInstanceAs (Decidable (∀ handling ∈ shared.handlers client,
        ∀ tagged ∈ pendingStore handling.current,
          ∀ version ∈ shared.settled, version ≤ tagged.version))
  | .raise | .drop _ _ _ | .arrive _ _ | .mark _ | .test _ | .clear _
  | .finish _ => isTrue trivial

/-- Every answer was computed from data as new as every event that had been
reported when its request arrived. -/
def AnswersFresh (shared : Shared) : Prop :=
  ∀ client handling reply tagged,
    shared.handlers client = some handling →
      handling.current = .replied reply → reply.obtained = some tagged →
        ∀ version ∈ handling.since, version ≤ tagged.version

section VersionedSource

variable {source : VersionedSource DataFrame}

theorem queryWithParams_context (version : Nat) (sql : String)
    (params : List ScalarValue) :
    (queryWithParams source.context version sql params).1 = version ∧
      ∀ tagged,
        (queryWithParams source.context version sql params).2 = .ok tagged →
          tagged.version = version := by
  unfold queryWithParams VersionedSource.context
  dsimp only
  cases source.sql version sql with
  | error message => exact ⟨rfl, fun _ answered => nomatch answered⟩
  | ok dataFrame =>
      dsimp only
      split
      · exact ⟨rfl, fun _ answered => nomatch answered⟩
      · rename_i bound _
        refine ⟨rfl, ?_⟩
        intro tagged answered
        cases collected : source.collect version bound with
        | error message =>
            simp [collected, Except.map, Except.mapError] at answered
        | ok batches =>
            simp only [collected, Except.map, Except.mapError,
              Except.ok.injEq] at answered
            subst answered
            rfl

theorem describeQuery_context (version : Nat) (sql : String) :
    (describeQuery source.context version sql).1 = version := by
  unfold describeQuery VersionedSource.context
  dsimp only
  cases source.sql version sql <;> rfl

end VersionedSource

/-- An entry is no older than any of the given versions. -/
def NoOlderThan (versions : List Nat) (_key : String) (tagged : Tagged)
    (_insertedAt : Nat) : Prop :=
  ∀ version ∈ versions, version ≤ tagged.version

/-- What a handler has obtained is no older than the given versions. -/
def Sound (since : List Nat) (request : Request) :
    HandlerState Tagged → Prop :=
  HandlerState.Serves handler request (fun _ => True)
    fun tagged => ∀ version ∈ since, version ≤ tagged.version

section HandlerStep

variable {handler} {since settled : List Nat} {version : Nat}
variable {cache : Cache Tagged} {request : Request}

theorem sound_handlerStep {source : VersionedSource DataFrame}
    (engine : handler.engine = source.context)
    (sinceSettled : ∀ reported ∈ since, reported ∈ settled)
    (settledCurrent : ∀ reported ∈ settled, reported ≤ version)
    (entries : cache.EntriesSatisfy (NoOlderThan settled))
    {now : Nat} {order : IterationOrder Tagged} {world : Nat}
    {next : Cache Tagged} {current after : HandlerState Tagged}
    (sound : Sound handler since request current)
    (storesFresh : ∀ tagged ∈ pendingStore current,
      ∀ reported ∈ settled, reported ≤ tagged.version)
    (stepped : handlerStep handler now order version cache current =
      some ((world, next), after)) :
    world = version ∧ next.EntriesSatisfy (NoOlderThan settled) ∧
      Sound handler since request after := by
  refine ⟨world_handlerStep ?_ ?_ stepped,
    entriesSatisfy_handlerStep entries ?_ stepped,
    serves_handlerStep (fun _ => trivial) (fun _ _ _ _ _ _ _ => trivial)
      ?_ ?_ sound stepped⟩
  · intro sql
    rw [engine]
    exact describeQuery_context version sql
  · intro sql params
    rw [engine]
    exact (queryWithParams_context version sql params).1
  · rintro stored tagged reply rfl
    exact storesFresh tagged rfl
  · intro tagged found reported mem
    obtain ⟨-, _, new⟩ := exists_of_lookup_eq_some entries found
    exact new reported (sinceSettled reported mem)
  · intro params tagged _ answered reported mem
    rw [engine] at answered
    rw [(queryWithParams_context version request.sql params).2 tagged
      answered]
    exact settledCurrent reported (sinceSettled reported mem)

end HandlerStep

/-- What holds of a sync pass between its steps. -/
def SyncSound (shared : Shared) : SyncState → Prop
  | .marked versions | .clearing versions =>
      ∀ version ∈ versions, version ≤ shared.version
  | .finished versions | .returned versions =>
      ∀ version ∈ versions, version ∈ shared.settled

/-- The run invariant. -/
structure Invariant (shared : Shared) : Prop where
  dropped_le : ∀ drop ∈ shared.dropped, drop.version ≤ shared.version
  settled_le : ∀ version ∈ shared.settled, version ≤ shared.version
  reported_settled :
    ∀ version ∈ shared.reported, version ∈ shared.settled
  entries : shared.cache.EntriesSatisfy (NoOlderThan shared.settled)
  syncs : ∀ task state, shared.syncs task = some state →
    SyncSound shared state
  since : ∀ client handling, shared.handlers client = some handling →
    ∀ version ∈ handling.since, version ∈ shared.settled
  handlers : ∀ client handling, shared.handlers client = some handling →
    Sound handler handling.since handling.request handling.current

theorem invariant_fresh {maxEntries ttl : Nat}
    (maxEntries_pos : 0 < maxEntries) (ttl_pos : 0 < ttl) :
    Invariant handler (fresh maxEntries ttl maxEntries_pos ttl_pos) where
  dropped_le := by simp [fresh]
  settled_le := by simp [fresh]
  reported_settled := by simp [fresh]
  entries := Cache.entriesSatisfy_withClock _ maxEntries_pos ttl_pos
  syncs := by simp [fresh]
  since := by simp [fresh]
  handlers := by simp [fresh]

variable {handler}

theorem SyncSound.mono {shared next : Shared} {state : SyncState}
    (sound : SyncSound shared state)
    (version_le : shared.version ≤ next.version)
    (settled_sub : ∀ version ∈ shared.settled, version ∈ next.settled) :
    SyncSound next state := by
  cases state with
  | marked versions | clearing versions =>
      intro version mem
      exact (sound version mem).trans version_le
  | finished versions | returned versions =>
      intro version mem
      exact settled_sub version (sound version mem)

theorem Invariant.syncs_kept {shared next : Shared}
    (invariant : Invariant handler shared)
    (sameVersion : next.version = shared.version)
    (sameSettled : next.settled = shared.settled) :
    ∀ task state, shared.syncs task = some state → SyncSound next state := by
  intro task state found
  apply (invariant.syncs task state found).mono
  · exact sameVersion.ge
  · intro version mem
    rwa [sameSettled]

theorem markedVersions_le {shared : Shared}
    (dropped_le : ∀ drop ∈ shared.dropped, drop.version ≤ shared.version)
    (listener : CdcListener) :
    ∀ version ∈ markedVersions listener shared.dropped,
      version ≤ shared.version := by
  intro version mem
  simp only [markedVersions, List.mem_map, List.mem_filter] at mem
  obtain ⟨drop, ⟨dropMem, -⟩, rfl⟩ := mem
  exact dropped_le drop dropMem

/-- Settling the marked versions of a pass once the cache is empty. -/
theorem invariant_settle {shared : Shared} {cache : Cache Tagged}
    {task : Nat} {versions : List Nat} (invariant : Invariant handler shared)
    (raised : ∀ version ∈ versions, version ≤ shared.version)
    (empty : ∀ key, cache.entryAt key = none) :
    Invariant handler { shared with
      cache := cache
      syncs := Function.update shared.syncs task (some (.finished versions))
      settled := versions ++ shared.settled } := by
  have grows : ∀ version ∈ shared.settled,
      version ∈ versions ++ shared.settled :=
    fun _ mem => List.mem_append_right versions mem
  refine ⟨invariant.dropped_le, ?_, ?_, ?_, ?_, ?_, invariant.handlers⟩
  · intro version mem
    rcases List.mem_append.mp mem with new | old
    · exact raised version new
    · exact invariant.settled_le version old
  · exact fun version mem =>
      grows version (invariant.reported_settled version mem)
  · intro key entry found
    rw [empty key] at found
    cases found
  · refine LabelledRuns.forall_update ?_ ?_
    · intro other state found
      exact (invariant.syncs other state found).mono le_rfl grows
    · exact fun _ mem => List.mem_append_left _ mem
  · exact fun client handling found version mem =>
      grows version (invariant.since client handling found version mem)

/-- What a step preserves, if it stores nothing older than a settled event. -/
theorem invariant_step {source : VersionedSource DataFrame}
    (engine : handler.engine = source.context) {shared next : Shared}
    {action : Action} (invariant : Invariant handler shared)
    (storesFresh : StoresFresh shared action)
    (stepped : step handler shared action = some next) :
    Invariant handler next := by
  cases action with
  | raise =>
      simp only [step, Option.some.injEq] at stepped
      subst next
      have raised : shared.version ≤ shared.version + 1 := Nat.le_succ _
      exact {
        dropped_le := fun drop mem =>
          (invariant.dropped_le drop mem).trans raised
        settled_le := fun version mem =>
          (invariant.settled_le version mem).trans raised
        reported_settled := invariant.reported_settled
        entries := invariant.entries
        syncs := fun task state found =>
          (invariant.syncs task state found).mono raised fun _ mem => mem
        since := invariant.since
        handlers := invariant.handlers }
  | drop version path content =>
      simp only [step] at stepped
      split at stepped
      · rename_i guard
        cases stepped
        refine ⟨?_, invariant.settled_le, invariant.reported_settled,
          invariant.entries, invariant.syncs_kept rfl rfl, invariant.since,
          invariant.handlers⟩
        intro drop mem
        rcases List.mem_append.mp mem with before | last
        · exact invariant.dropped_le drop before
        · rw [List.mem_singleton.mp last]
          exact guard.2.1
      · cases stepped
  | arrive client request =>
      cases present : shared.handlers client with
      | some busy => simp [step, present] at stepped
      | none =>
          simp only [step, present, Option.some.injEq] at stepped
          subst next
          exact {
            dropped_le := invariant.dropped_le
            settled_le := invariant.settled_le
            reported_settled := invariant.reported_settled
            entries := invariant.entries
            syncs := invariant.syncs_kept rfl rfl
            since := LabelledRuns.forall_update invariant.since
              invariant.reported_settled
            handlers := LabelledRuns.forall_update invariant.handlers rfl }
  | advance client now order =>
      cases present : shared.handlers client with
      | none => simp [step, present] at stepped
      | some handling =>
          simp only [step, present, Option.map_eq_some_iff] at stepped
          obtain ⟨⟨⟨version, cache⟩, after⟩, taken, rfl⟩ := stepped
          obtain ⟨rfl, entries, sound⟩ := sound_handlerStep engine
            (invariant.since client handling present) invariant.settled_le
            invariant.entries (invariant.handlers client handling present)
            (storesFresh handling present) taken
          exact {
            dropped_le := invariant.dropped_le
            settled_le := invariant.settled_le
            reported_settled := invariant.reported_settled
            entries := entries
            syncs := invariant.syncs_kept rfl rfl
            since := LabelledRuns.forall_update invariant.since
              (invariant.since client handling present)
            handlers := LabelledRuns.forall_update invariant.handlers sound }
  | mark task =>
      cases started : shared.syncs task with
      | some state => simp [step, started] at stepped
      | none =>
          simp only [step, started, Option.some.injEq] at stepped
          subst next
          refine ⟨invariant.dropped_le, invariant.settled_le,
            invariant.reported_settled, invariant.entries,
            LabelledRuns.forall_update (invariant.syncs_kept rfl rfl) ?_,
            invariant.since, invariant.handlers⟩
          split
          · exact fun _ mem => nomatch mem
          · exact markedVersions_le invariant.dropped_le _
  | test task =>
      simp only [step] at stepped
      split at stepped
      · rename_i versions marked
        have raised := invariant.syncs task _ marked
        split at stepped
        · rename_i empty
          cases stepped
          exact invariant_settle invariant raised
            (Cache.entryAt_of_isEmpty empty)
        · cases stepped
          exact ⟨invariant.dropped_le, invariant.settled_le,
            invariant.reported_settled, invariant.entries,
            LabelledRuns.forall_update (invariant.syncs_kept rfl rfl) raised,
            invariant.since, invariant.handlers⟩
      · cases stepped
  | clear task =>
      simp only [step] at stepped
      split at stepped
      · rename_i versions clearing
        cases stepped
        exact invariant_settle invariant
          (invariant.syncs task _ clearing) (Cache.entryAt_clear _)
      · cases stepped
  | finish task =>
      simp only [step] at stepped
      split at stepped
      · rename_i versions finished
        have settled := invariant.syncs task _ finished
        cases stepped
        refine ⟨invariant.dropped_le, invariant.settled_le, ?_,
          invariant.entries,
          LabelledRuns.forall_update (invariant.syncs_kept rfl rfl) settled,
          invariant.since, invariant.handlers⟩
        intro version mem
        rcases List.mem_append.mp mem with new | old
        · exact settled version new
        · exact invariant.reported_settled version old
      · cases stepped

/-- In a run in which no handler stores a result older than a settled event,
every answer is as new as the events reported before its request. -/
theorem answersFresh_of_storesFresh (source : VersionedSource DataFrame)
    (parseSql : String → Option (List String)) (pgwire : Pgwire)
    (libraries : ParameterLibraries) {maxEntries ttl : Nat}
    (maxEntries_pos : 0 < maxEntries) (ttl_pos : 0 < ttl)
    {actions : List Action} {last : Shared}
    (storesFresh : LabelledRuns.Along
      (step (versionedHandler source parseSql pgwire libraries)) StoresFresh
      (fresh maxEntries ttl maxEntries_pos ttl_pos) actions)
    (taken : LabelledRuns.run
      (step (versionedHandler source parseSql pgwire libraries))
      (fresh maxEntries ttl maxEntries_pos ttl_pos) actions = some last) :
    AnswersFresh last := by
  have invariant :
      Invariant (versionedHandler source parseSql pgwire libraries) last :=
    LabelledRuns.invariant_of_along
      (fun _ _ _ holds allowed stepped =>
        invariant_step rfl holds allowed stepped)
      (invariant_fresh _ maxEntries_pos ttl_pos) storesFresh taken
  intro client handling reply tagged found replied obtained
  have sound := invariant.handlers client handling found
  rw [replied] at sound
  exact sound.right_of_obtained obtained

section Examples

/-- A source whose queries return no rows at any version. -/
private def emptySource : VersionedSource String where
  sql _ text := .ok text
  withParamValues dataFrame _ := .ok dataFrame
  collect _ _ := .ok []
  schema _ := []
  parameterNames _ := .ok []
  parameterTypes _ := .ok []

private def emptyHandler : IglooQueryHandler Nat String Tagged :=
  versionedHandler emptySource (fun _ => some ["SELECT 1"])
    ⟨fun _ _ => .ok none, fun _ => true⟩ bigEndianLibraries

/-- The first handler executes before the update and stores after the sync. -/
private def lateStore : List Action :=
  [.arrive 0 (.simple "SELECT 1"), .advance 0 0 .listed,
    .advance 0 0 .listed, .raise, .drop 1 "e1.json" "update", .mark 0,
    .test 0, .finish 0, .advance 0 0 .listed,
    .arrive 1 (.simple "SELECT 1"), .advance 1 0 .listed]

/-- A query that starts after the sync has returned is answered with the result
that the late handler stored. -/
theorem lateStore_answers_stale :
    ∃ last, LabelledRuns.run (step emptyHandler)
        (fresh 16 60 (by decide) (by decide)) lateStore = some last ∧
      ¬ AnswersFresh last := by
  refine ⟨_, rfl, ?_⟩
  intro answersFresh
  have newer : 1 ≤ 0 := answersFresh 1 _ _ ⟨[], 0⟩ rfl rfl rfl 1 (by decide)
  exact absurd newer (by decide)

/-- The same handlers with the first store before the sync. -/
private def earlyStore : List Action :=
  [.arrive 0 (.simple "SELECT 1"), .advance 0 0 .listed,
    .advance 0 0 .listed, .advance 0 0 .listed, .raise,
    .drop 1 "e1.json" "update", .mark 0, .test 0, .clear 0, .finish 0,
    .arrive 1 (.simple "SELECT 1"), .advance 1 0 .listed,
    .advance 1 0 .listed, .advance 1 0 .listed]

/-- The second request is answered from the new data. -/
theorem answersFresh_earlyStore :
    ∃ last, LabelledRuns.run (step emptyHandler)
        (fresh 16 60 (by decide) (by decide)) earlyStore = some last ∧
      AnswersFresh last := by
  have completes : (LabelledRuns.run (step emptyHandler)
      (fresh 16 60 (by decide) (by decide)) earlyStore).isSome := by
    decide
  obtain ⟨last, taken⟩ := Option.isSome_iff_exists.mp completes
  have storesFresh : LabelledRuns.Along (step emptyHandler) StoresFresh
      (fresh 16 60 (by decide) (by decide)) earlyStore := by
    decide
  exact ⟨last, taken, answersFresh_of_storesFresh emptySource _ _ _
    (by decide) (by decide) storesFresh taken⟩

end Examples

end FreshnessRuns

end Server

end Igloo
