import Igloo.FreshnessRuns

/-!
# Bounded staleness

Invalidation by events can be overtaken by a handler that stores its result
late.  What holds in every run, whatever the event files say and whenever the
cache is cleared, is a bound in time: a cached result is served for at most the
lifetime of an entry after it was stored, and it was stored soon after it was
computed.  An answer therefore shows every update that is older, when its
request arrives, than the lifetime and the longest delay between an execution
and its store together.

Time passes between the steps.  A handler reads the clock at some time between
its last step and the step that uses the reading.
-/

namespace Igloo

namespace Server

namespace BoundedStaleness

open Arrow CacheLayer DataFusionEngine FreshnessRuns

/-- The current version of the source data and the current time. -/
structure Moment where
  version : Nat
  time : Nat
  deriving DecidableEq, Repr

/-- Record batches with the moment at which they were computed. -/
structure Dated where
  batches : List RecordBatch
  moment : Moment
  deriving DecidableEq

variable {DataFrame : Type}

/-- The session over a versioned source, dating what it collects. -/
def datedContext (source : VersionedSource DataFrame) :
    SessionContext Moment DataFrame Dated where
  sql moment text := (moment, source.sql moment.version text)
  withParamValues := source.withParamValues
  collect moment dataFrame :=
    (moment,
      (source.collect moment.version dataFrame).map (Dated.mk · moment))
  schema := source.schema
  parameterNames := source.parameterNames
  parameterTypes := source.parameterTypes

/-- The query handler over a versioned source. -/
def datedHandler (source : VersionedSource DataFrame)
    (parseSql : String → Option (List String)) (pgwire : Pgwire)
    (libraries : ParameterLibraries) :
    IglooQueryHandler Moment DataFrame Dated where
  engine := datedContext source
  recordBatches := Dated.batches
  parseSql := parseSql
  pgwire := pgwire
  libraries := libraries

/-- A request in progress, with the times of its arrival and of its last
step. -/
structure Handling where
  request : Request
  arrived : Nat
  reached : Nat
  current : HandlerState Dated

/-- The update that raised the data to a version. -/
structure Update where
  version : Nat
  time : Nat
  deriving DecidableEq, Repr

structure Shared where
  cache : Cache Dated
  moment : Moment
  updates : List Update
  handlers : Nat → Option Handling

/-- The choices of the environment. -/
inductive Action
  | wait (span : Nat)
  | raise
  | arrive (client : Nat) (request : Request)
  | advance (client : Nat) (now : Nat) (order : IterationOrder Dated)
  | clear

variable (handler : IglooQueryHandler Moment DataFrame Dated)

def step (shared : Shared) : Action → Option Shared
  | .wait span =>
      some { shared with
        moment := { shared.moment with time := shared.moment.time + span } }
  | .raise =>
      some { shared with
        moment :=
          { shared.moment with version := shared.moment.version + 1 }
        updates :=
          ⟨shared.moment.version + 1, shared.moment.time⟩ :: shared.updates }
  | .arrive client request =>
      match shared.handlers client with
      | some _ => none
      | none =>
          some { shared with
            handlers := Function.update shared.handlers client
              (some ⟨request, shared.moment.time, shared.moment.time,
                .received request⟩) }
  | .advance client now order =>
      match shared.handlers client with
      | none => none
      | some handling =>
          if handling.reached ≤ now ∧ now ≤ shared.moment.time then
            (handlerStep handler now order shared.moment shared.cache
              handling.current).map fun ((moment, cache), after) =>
                { shared with
                  moment := moment
                  cache := cache
                  handlers := Function.update shared.handlers client
                    (some { handling with
                      reached := shared.moment.time
                      current := after }) }
          else none
  | .clear => some { shared with cache := shared.cache.clear }

/-- Nothing has happened yet. -/
def fresh (maxEntries ttl : Nat) (maxEntries_pos : 0 < maxEntries)
    (ttl_pos : 0 < ttl) : Shared where
  cache := Cache.withClock Dated maxEntries ttl maxEntries_pos ttl_pos
  moment := ⟨0, 0⟩
  updates := []
  handlers := fun _ => none

/-- The result that a handler is about to store. -/
def pendingStore : HandlerState Dated → Option Dated
  | .storing _ dated _ => some dated
  | _ => none

/-- A handler that stores a result reads the clock for it within `lag` of its
execution. -/
def StoresWithin (lag : Nat) (shared : Shared) : Action → Prop
  | .advance client now _ =>
      ∀ handling ∈ shared.handlers client,
        ∀ dated ∈ pendingStore handling.current,
          now ≤ dated.moment.time + lag
  | _ => True

instance (lag : Nat) (shared : Shared) : (action : Action) →
    Decidable (StoresWithin lag shared action)
  | .advance client now _ =>
      inferInstanceAs (Decidable (∀ handling ∈ shared.handlers client,
        ∀ dated ∈ pendingStore handling.current,
          now ≤ dated.moment.time + lag))
  | .wait _ | .raise | .arrive _ _ | .clear => isTrue trivial

/-- The batches show every update made before the given time. -/
def ShowsUpdates (updates : List Update) (before : Nat) (dated : Dated) :
    Prop :=
  ∀ update ∈ updates, update.time < before →
    update.version ≤ dated.moment.version

/-- Every answer shows the updates that were more than `bound` old when its
request arrived. -/
def AnswersWithin (bound : Nat) (shared : Shared) : Prop :=
  ∀ client handling reply dated,
    shared.handlers client = some handling →
      handling.current = .replied reply → reply.obtained = some dated →
        ∀ update ∈ shared.updates, update.time + bound < handling.arrived →
          update.version ≤ dated.moment.version

section DatedContext

variable {source : VersionedSource DataFrame}

theorem queryWithParams_datedContext (moment : Moment) (sql : String)
    (params : List ScalarValue) :
    (queryWithParams (datedContext source) moment sql params).1 = moment ∧
      ∀ dated,
        (queryWithParams (datedContext source) moment sql params).2 =
            .ok dated →
          dated.moment = moment := by
  unfold queryWithParams datedContext
  dsimp only
  cases source.sql moment.version sql with
  | error message => exact ⟨rfl, fun _ answered => nomatch answered⟩
  | ok dataFrame =>
      dsimp only
      split
      · exact ⟨rfl, fun _ answered => nomatch answered⟩
      · rename_i bound _
        refine ⟨rfl, ?_⟩
        intro dated answered
        cases collected : source.collect moment.version bound with
        | error message =>
            simp [collected, Except.map, Except.mapError] at answered
        | ok batches =>
            simp only [collected, Except.map, Except.mapError,
              Except.ok.injEq] at answered
            subst answered
            rfl

theorem describeQuery_datedContext (moment : Moment) (sql : String) :
    (describeQuery (datedContext source) moment sql).1 = moment := by
  unfold describeQuery datedContext
  dsimp only
  cases source.sql moment.version sql <;> rfl

end DatedContext

/-- What holds of batches in the system: they were computed in the past, and
they show what was current then. -/
structure Computed (updates : List Update) (now : Nat) (dated : Dated) :
    Prop where
  past : dated.moment.time ≤ now
  shows : ShowsUpdates updates dated.moment.time dated

/-- An entry was computed before it was stored, and stored within `lag`. -/
structure EntryWithin (lag : Nat) (updates : List Update) (now : Nat)
    (_key : String) (dated : Dated) (insertedAt : Nat) : Prop where
  computed : Computed updates now dated
  stored : insertedAt ≤ dated.moment.time + lag

/-- What a handler may have obtained: batches computed at most `bound` before
its request arrived. -/
structure ComputedWithin (bound : Nat) (updates : List Update)
    (now arrived : Nat) (dated : Dated) : Prop where
  computed : Computed updates now dated
  recent : arrived ≤ dated.moment.time + bound

/-- The run invariant. -/
structure Invariant (lag ttl : Nat) (shared : Shared) : Prop where
  ttl_eq : shared.cache.ttl = ttl
  updates_le : ∀ update ∈ shared.updates,
    update.version ≤ shared.moment.version
  entries : shared.cache.EntriesSatisfy
    (EntryWithin lag shared.updates shared.moment.time)
  reached_le : ∀ client handling, shared.handlers client = some handling →
    handling.arrived ≤ handling.reached ∧
      handling.reached ≤ shared.moment.time
  sound : ∀ client handling, shared.handlers client = some handling →
    handling.current.Serves handler handling.request (fun _ => True)
      (ComputedWithin (ttl + lag) shared.updates shared.moment.time
        handling.arrived)

/-- Time passes and the data changes: what was computed stays computed. -/
theorem Computed.mono {now later : Nat} {updates moreUpdates : List Update}
    {dated : Dated} (computed : Computed updates now dated)
    (passed : now ≤ later)
    (new : ∀ update ∈ moreUpdates, update ∈ updates ∨ now ≤ update.time) :
    Computed moreUpdates later dated where
  past := computed.past.trans passed
  shows := by
    intro update updateMem before
    rcases new update updateMem with old | late
    · exact computed.shows update old before
    · have past := computed.past
      omega

section HandlerStep

variable {handler} {lag ttl now arrived : Nat} {updates : List Update}
variable {cache : Cache Dated}

/-- A hit was stored at most `ttl` before the reading of the lookup. -/
theorem sound_of_lookup {request : Request} (ttl_eq : cache.ttl = ttl)
    (entries : cache.EntriesSatisfy (EntryWithin lag updates now))
    {reading : Nat} (arrivedLe : arrived ≤ reading) {dated : Dated}
    (hit : (lookup handler cache request reading).2 = some dated) :
    ComputedWithin (ttl + lag) updates now arrived dated := by
  unfold lookup at hit
  split at hit
  · obtain ⟨entry, found, batchesEq, inTime⟩ :=
      Cache.exists_entry_of_getLocked_eq_some hit
    subst batchesEq
    obtain ⟨computed, stored⟩ := entries _ entry found
    refine ⟨computed, ?_⟩
    omega
  · cases hit

theorem sound_handlerStep {source : VersionedSource DataFrame}
    (engine : handler.engine = datedContext source) {moment next : Moment}
    {nextCache : Cache Dated} {request : Request}
    {current after : HandlerState Dated}
    {reading : Nat} {order : IterationOrder Dated} (ttl_eq : cache.ttl = ttl)
    (updates_le : ∀ update ∈ updates, update.version ≤ moment.version)
    (entries : cache.EntriesSatisfy (EntryWithin lag updates moment.time))
    (arrivedLe : arrived ≤ reading) (readingLe : reading ≤ moment.time)
    (storesWithin : ∀ dated ∈ pendingStore current,
      reading ≤ dated.moment.time + lag)
    (sound : current.Serves handler request (fun _ => True)
      (ComputedWithin (ttl + lag) updates moment.time arrived))
    (stepped : handlerStep handler reading order moment cache current =
      some ((next, nextCache), after)) :
    next = moment ∧ nextCache.ttl = ttl ∧
      nextCache.EntriesSatisfy (EntryWithin lag updates moment.time) ∧
      after.Serves handler request (fun _ => True)
        (ComputedWithin (ttl + lag) updates moment.time arrived) := by
  refine ⟨world_handlerStep ?_ ?_ stepped,
    (ttl_handlerStep stepped).trans ttl_eq,
    entriesSatisfy_handlerStep entries ?_ stepped,
    serves_handlerStep (fun _ => trivial) (fun _ _ _ _ _ _ _ => trivial)
      ?_ ?_ sound stepped⟩
  · intro sql
    rw [engine]
    exact describeQuery_datedContext moment sql
  · intro sql params
    rw [engine]
    exact (queryWithParams_datedContext moment sql params).1
  · rintro stored dated reply rfl
    obtain ⟨-, -, within, -⟩ := sound
    exact ⟨within.computed, storesWithin dated rfl⟩
  · intro dated found
    exact sound_of_lookup ttl_eq entries arrivedLe found
  · intro params dated _ answered
    rw [engine] at answered
    have computedNow :=
      (queryWithParams_datedContext moment request.sql params).2 dated answered
    refine ⟨⟨?_, ?_⟩, ?_⟩
    · rw [computedNow]
    · intro update updateMem _
      rw [computedNow]
      exact updates_le update updateMem
    · rw [computedNow]
      omega

end HandlerStep

theorem invariant_fresh {maxEntries ttl : Nat}
    (maxEntries_pos : 0 < maxEntries) (ttl_pos : 0 < ttl) (lag : Nat) :
    Invariant handler lag ttl
      (fresh maxEntries ttl maxEntries_pos ttl_pos) where
  ttl_eq := rfl
  updates_le := fun _ updateMem => nomatch updateMem
  entries := Cache.entriesSatisfy_withClock _ maxEntries_pos ttl_pos
  reached_le := fun _ _ present => nomatch present
  sound := fun _ _ present => nomatch present

variable {handler}

theorem Invariant.later {lag ttl : Nat} {shared next : Shared}
    (invariant : Invariant handler lag ttl shared)
    (sameCache : next.cache = shared.cache)
    (sameHandlers : next.handlers = shared.handlers)
    (passed : shared.moment.time ≤ next.moment.time)
    (new : ∀ update ∈ next.updates,
      update ∈ shared.updates ∨ shared.moment.time ≤ update.time)
    (updates_le : ∀ update ∈ next.updates,
      update.version ≤ next.moment.version) :
    Invariant handler lag ttl next where
  ttl_eq := sameCache ▸ invariant.ttl_eq
  updates_le := updates_le
  entries := by
    rw [sameCache]
    refine invariant.entries.mono ?_
    intro key dated insertedAt within
    exact ⟨within.computed.mono passed new, within.stored⟩
  reached_le := by
    intro client handling present
    rw [sameHandlers] at present
    obtain ⟨arrivedLe, reachedLe⟩ :=
      invariant.reached_le client handling present
    exact ⟨arrivedLe, reachedLe.trans passed⟩
  sound := by
    intro client handling present
    rw [sameHandlers] at present
    refine (invariant.sound client handling present).mono ?_
    intro dated within
    exact ⟨within.computed.mono passed new, within.recent⟩

/-- What a step preserves, if it stores nothing late. -/
theorem invariant_step {source : VersionedSource DataFrame}
    (engine : handler.engine = datedContext source) {lag ttl : Nat}
    {shared next : Shared} {action : Action}
    (invariant : Invariant handler lag ttl shared)
    (storesWithin : StoresWithin lag shared action)
    (stepped : step handler shared action = some next) :
    Invariant handler lag ttl next := by
  cases action with
  | wait span =>
      simp only [step, Option.some.injEq] at stepped
      subst next
      exact invariant.later rfl rfl (Nat.le_add_right _ _)
        (fun _ updateMem => Or.inl updateMem) invariant.updates_le
  | raise =>
      simp only [step, Option.some.injEq] at stepped
      subst next
      refine invariant.later rfl rfl le_rfl ?_ ?_
      · intro update updateMem
        rcases List.mem_cons.mp updateMem with rfl | old
        · exact Or.inr le_rfl
        · exact Or.inl old
      · intro update updateMem
        rcases List.mem_cons.mp updateMem with rfl | old
        · exact le_rfl
        · exact (invariant.updates_le update old).trans (Nat.le_succ _)
  | arrive client request =>
      cases present : shared.handlers client with
      | some busy => simp [step, present] at stepped
      | none =>
          simp only [step, present, Option.some.injEq] at stepped
          subst next
          exact {
            ttl_eq := invariant.ttl_eq
            updates_le := invariant.updates_le
            entries := invariant.entries
            reached_le := LabelledRuns.forall_update invariant.reached_le
              ⟨le_rfl, le_rfl⟩
            sound := LabelledRuns.forall_update invariant.sound rfl }
  | advance client now order =>
      cases present : shared.handlers client with
      | none => simp [step, present] at stepped
      | some handling =>
          simp only [step, present] at stepped
          split at stepped
          · rename_i read
            rw [Option.map_eq_some_iff] at stepped
            obtain ⟨⟨⟨moment, cache⟩, after⟩, taken, rfl⟩ := stepped
            obtain ⟨arrivedLe, reachedLe⟩ :=
              invariant.reached_le client handling present
            obtain ⟨rfl, ttl_eq, entries, sound⟩ := sound_handlerStep engine
              invariant.ttl_eq invariant.updates_le invariant.entries
              (arrivedLe.trans read.1) read.2 (storesWithin handling present)
              (invariant.sound client handling present) taken
            exact {
              ttl_eq := ttl_eq
              updates_le := invariant.updates_le
              entries := entries
              reached_le := LabelledRuns.forall_update invariant.reached_le
                ⟨arrivedLe.trans reachedLe, le_rfl⟩
              sound := LabelledRuns.forall_update invariant.sound sound }
          · cases stepped
  | clear =>
      simp only [step, Option.some.injEq] at stepped
      subst next
      exact {
        ttl_eq := invariant.ttl_eq
        updates_le := invariant.updates_le
        entries := Cache.entriesSatisfy_clear _ _
        reached_le := invariant.reached_le
        sound := invariant.sound }

/-- In a run in which every result is stored within `lag` of its execution,
every answer shows the updates that were older, when its request arrived, than
the lifetime of an entry and `lag` together. -/
theorem answersWithin_of_storesWithin (source : VersionedSource DataFrame)
    (parseSql : String → Option (List String)) (pgwire : Pgwire)
    (libraries : ParameterLibraries) {maxEntries ttl : Nat}
    (maxEntries_pos : 0 < maxEntries) (ttl_pos : 0 < ttl) {lag : Nat}
    {actions : List Action} {last : Shared}
    (storesWithin : LabelledRuns.Along
      (step (datedHandler source parseSql pgwire libraries))
      (StoresWithin lag) (fresh maxEntries ttl maxEntries_pos ttl_pos)
      actions)
    (taken : LabelledRuns.run
      (step (datedHandler source parseSql pgwire libraries))
      (fresh maxEntries ttl maxEntries_pos ttl_pos) actions = some last) :
    AnswersWithin (ttl + lag) last := by
  have invariant : Invariant
      (datedHandler source parseSql pgwire libraries) lag ttl last :=
    LabelledRuns.invariant_of_along
      (fun _ _ _ holds allowed stepped =>
        invariant_step rfl holds allowed stepped)
      (invariant_fresh _ maxEntries_pos ttl_pos lag) storesWithin taken
  intro client handling reply dated present replied obtained update updateMem
    before
  have sound := invariant.sound client handling present
  rw [replied] at sound
  obtain ⟨computed, recent⟩ := sound.right_of_obtained obtained
  exact computed.shows update updateMem (by omega)

section Examples

/-- A source whose queries return no rows at any version. -/
private def emptySource : VersionedSource String where
  sql _ text := .ok text
  withParamValues dataFrame _ := .ok dataFrame
  collect _ _ := .ok []
  schema _ := []
  parameterNames _ := .ok []
  parameterTypes _ := .ok []

private def emptyHandler : IglooQueryHandler Moment String Dated :=
  datedHandler emptySource (fun _ => some ["SELECT 1"])
    ⟨fun _ _ => .ok none, fun _ => true⟩ bigEndianLibraries

/-- A result is stored one unit of time after its execution, the data changes
in between, and a request that arrives when the entry is older than its
lifetime is answered anew. -/
private def expiredEntry : List Action :=
  [.arrive 0 (.simple "SELECT 1"), .advance 0 0 .listed,
    .advance 0 0 .listed, .raise, .wait 1, .advance 0 1 .listed, .wait 61,
    .arrive 1 (.simple "SELECT 1"), .advance 1 62 .listed,
    .advance 1 62 .listed, .advance 1 62 .listed]

theorem answersWithin_expiredEntry :
    ∃ last, LabelledRuns.run (step emptyHandler)
        (fresh 16 60 (by decide) (by decide)) expiredEntry = some last ∧
      AnswersWithin (60 + 1) last := by
  have completes : (LabelledRuns.run (step emptyHandler)
      (fresh 16 60 (by decide) (by decide)) expiredEntry).isSome := by
    decide
  obtain ⟨last, taken⟩ := Option.isSome_iff_exists.mp completes
  have storesWithin : LabelledRuns.Along (step emptyHandler) (StoresWithin 1)
      (fresh 16 60 (by decide) (by decide)) expiredEntry := by
    decide
  exact ⟨last, taken, answersWithin_of_storesWithin emptySource _ _ _
    (by decide) (by decide) storesWithin taken⟩

end Examples

end BoundedStaleness

end Server

end Igloo
