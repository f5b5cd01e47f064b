import Igloo.LabelledRuns
import Igloo.ParameterAgreement
import Igloo.QueryHandlers

/-!
# Concurrent clients over fixed data

Any number of requests are handled at once on one cache, and the cache may be
cleared at any time.  The data never changes, so the engine has a single
world.  Whatever the interleaving, a request is answered with the engine's
answer to its own text and parameters: every entry of the cache is the answer
of some text with its key, and texts with one key have one answer.
-/

namespace Igloo

namespace Server

namespace SharedCacheRuns

open Arrow CacheLayer DataFusionEngine

variable {DataFrame Batches : Type}

/-- The requests seen so far, each with the state of its handler, and the
stores made so far. -/
structure Shared (Batches : Type) where
  cache : Cache Batches
  handlers : Nat → Option (Request × HandlerState Batches)
  stores : List (Request × Batches)

/-- The scheduler's choices: a request arrives, a handler takes a step, or
the cache is cleared. -/
inductive Action (Batches : Type)
  | arrive (client : Nat) (request : Request)
  | advance (client : Nat) (now : Nat) (order : IterationOrder Batches)
  | clear

/-- The store that a handler is about to make. -/
def pendingStore : HandlerState Batches → List (Request × Batches)
  | .storing request batches _ => [(request, batches)]
  | _ => []

/-- The batches that a handler has obtained for its request. -/
def obtained : HandlerState Batches → Option Batches
  | .storing _ batches _ => some batches
  | .replied reply => reply.obtained
  | _ => none

variable (handler : IglooQueryHandler Unit DataFrame Batches)

def step (shared : Shared Batches) : Action Batches → Option (Shared Batches)
  | .arrive client request =>
      match shared.handlers client with
      | some _ => none
      | none =>
          some { shared with
            handlers := Function.update shared.handlers client
              (some (request, .received request)) }
  | .advance client now order =>
      match shared.handlers client with
      | none => none
      | some (request, current) =>
          (handlerStep handler now order () shared.cache current).map
            fun ((_, cache), after) =>
              { cache := cache
                handlers := Function.update shared.handlers client
                  (some (request, after))
                stores := shared.stores ++ pendingStore current }
  | .clear => some { shared with cache := shared.cache.clear }

/-- A fresh cache before the first request. -/
def fresh (Batches : Type) (maxEntries ttl : Nat)
    (maxEntries_pos : 0 < maxEntries) (ttl_pos : 0 < ttl) :
    Shared Batches where
  cache := Cache.withClock Batches maxEntries ttl maxEntries_pos ttl_pos
  handlers := fun _ => none
  stores := []

/-- The engine's answer to a text and its parameters. -/
def answer (sql : String) (params : List ScalarValue) :
    Except String Batches :=
  (queryWithParams handler.engine () sql params).2

/-- The parameters that a request binds. -/
def boundParams : Request → PgWireResult (List ScalarValue)
  | .simple _ => .ok []
  | .extended portal =>
      if portal.parameterLen = 0 then .ok []
      else
        match (describeQuery handler.engine ()
            portal.statement.statement).2 with
        | .error message => .error (userError message)
        | .ok description =>
            decodePortalParams handler.libraries portal description.paramTypes

/-- The batches are the answer to the request's own text and parameters. -/
def IsAnswer (request : Request) (batches : Batches) : Prop :=
  ∃ params, boundParams handler request = .ok params ∧
    answer handler request.sql params = .ok batches

/-- What holds of a handler between its steps. -/
def Sound (request : Request) : HandlerState Batches → Prop :=
  HandlerState.Serves handler request
    (fun params => boundParams handler request = .ok params)
    (IsAnswer handler request)

/-- An entry is the answer of some text with its key. -/
def EntrySound (key : String) (batches : Batches) (_insertedAt : Nat) :
    Prop :=
  ∃ sql, normalizeQuery handler.parseSql sql = key ∧
    answer handler sql [] = .ok batches

/-- A store was made for a request without parameters whose answer it is. -/
def StoreSound (stored : Request × Batches) : Prop :=
  stored.1.parameterLen = 0 ∧ answer handler stored.1.sql [] = .ok stored.2

/-- The run invariant. -/
structure Invariant (shared : Shared Batches) : Prop where
  entries : shared.cache.EntriesSatisfy (EntrySound handler)
  handlers : ∀ client held, shared.handlers client = some held →
    Sound handler held.1 held.2
  stores : ∀ stored ∈ shared.stores, StoreSound handler stored

theorem invariant_fresh {maxEntries ttl : Nat}
    (maxEntries_pos : 0 < maxEntries) (ttl_pos : 0 < ttl) :
    Invariant handler
      (fresh Batches maxEntries ttl maxEntries_pos ttl_pos) where
  entries := Cache.entriesSatisfy_withClock _ maxEntries_pos ttl_pos
  handlers := by
    intro client held present
    cases present
  stores := by
    intro stored storedMem
    cases storedMem

section HandlerStep

variable {handler} {request : Request} {cache : Cache Batches}

theorem boundParams_of_parameterLen (noParams : request.parameterLen = 0) :
    boundParams handler request = .ok [] := by
  cases request with
  | simple sql => rfl
  | extended portal => exact if_pos noParams

theorem answer_of_isAnswer {batches : Batches}
    (noParams : request.parameterLen = 0)
    (isAnswer : IsAnswer handler request batches) :
    answer handler request.sql [] = .ok batches := by
  obtain ⟨params, bound, answered⟩ := isAnswer
  rw [boundParams_of_parameterLen noParams] at bound
  cases bound
  exact answered

theorem isAnswer_of_lookup
    (interchangeable : ∀ first second,
      normalizeQuery handler.parseSql first =
          normalizeQuery handler.parseSql second →
        answer handler first [] = answer handler second [])
    (entries : cache.EntriesSatisfy (EntrySound handler)) {now : Nat}
    {batches : Batches}
    (hit : (lookup handler cache request now).2 = some batches) :
    IsAnswer handler request batches := by
  obtain ⟨cacheable, _, sql, keyEq, answered⟩ :=
    exists_of_lookup_eq_some entries hit
  refine ⟨[], boundParams_of_parameterLen
    (Request.parameterLen_of_cacheable cacheable), ?_⟩
  rw [← interchangeable sql request.sql keyEq, answered]

theorem sound_handlerStep
    (interchangeable : ∀ first second,
      normalizeQuery handler.parseSql first =
          normalizeQuery handler.parseSql second →
        answer handler first [] = answer handler second [])
    {now : Nat} {order : IterationOrder Batches} {world : Unit}
    {next : Cache Batches} {current after : HandlerState Batches}
    (entries : cache.EntriesSatisfy (EntrySound handler))
    (sound : Sound handler request current)
    (stepped : handlerStep handler now order () cache current =
      some ((world, next), after)) :
    next.EntriesSatisfy (EntrySound handler) ∧
      Sound handler request after ∧
        ∀ stored ∈ pendingStore current, StoreSound handler stored := by
  have stored : ∀ stored batches reply,
      current = .storing stored batches reply →
        stored = request ∧ StoreSound handler (request, batches) := by
    rintro stored batches reply rfl
    obtain ⟨same, cacheable, isAnswer, -⟩ := sound
    have noParams := Request.parameterLen_of_cacheable cacheable
    exact ⟨same, noParams, answer_of_isAnswer noParams isAnswer⟩
  refine ⟨entriesSatisfy_handlerStep entries ?_ stepped,
    serves_handlerStep boundParams_of_parameterLen ?_ ?_ ?_ sound stepped, ?_⟩
  · intro storedRequest batches reply storing
    obtain ⟨rfl, -, answered⟩ := stored storedRequest batches reply storing
    exact ⟨storedRequest.sql, rfl, answered⟩
  · rintro portal description params rfl some described decoded
    simp only [boundParams, if_neg some, described, decoded]
  · intro batches found
    exact isAnswer_of_lookup interchangeable entries found
  · intro params batches bound answered
    exact ⟨params, bound, answered⟩
  · intro pending pendingMem
    cases current with
    | storing storedRequest batches reply =>
        obtain rfl := List.mem_singleton.mp pendingMem
        obtain ⟨rfl, storeSound⟩ := stored storedRequest batches reply rfl
        exact storeSound
    | received | describing | executing | replied => cases pendingMem

end HandlerStep

variable {handler}

theorem invariant_step
    (interchangeable : ∀ first second,
      normalizeQuery handler.parseSql first =
          normalizeQuery handler.parseSql second →
        answer handler first [] = answer handler second [])
    {shared next : Shared Batches} {action : Action Batches}
    (invariant : Invariant handler shared)
    (stepped : step handler shared action = some next) :
    Invariant handler next := by
  cases action with
  | arrive client request =>
      cases present : shared.handlers client with
      | some busy => simp [step, present] at stepped
      | none =>
          simp only [step, present, Option.some.injEq] at stepped
          subst next
          exact ⟨invariant.entries,
            LabelledRuns.forall_update invariant.handlers rfl,
            invariant.stores⟩
  | advance client now order =>
      cases present : shared.handlers client with
      | none => simp [step, present] at stepped
      | some held =>
          obtain ⟨request, current⟩ := held
          simp only [step, present, Option.map_eq_some_iff] at stepped
          obtain ⟨⟨⟨world, cache⟩, after⟩, taken, rfl⟩ := stepped
          obtain ⟨entries, sound, pending⟩ := sound_handlerStep
            interchangeable invariant.entries
            (invariant.handlers client _ present) taken
          refine ⟨entries, LabelledRuns.forall_update invariant.handlers sound,
            ?_⟩
          intro stored storedMem
          rcases List.mem_append.mp storedMem with before | last
          · exact invariant.stores stored before
          · exact pending stored last
  | clear =>
      simp only [step, Option.some.injEq] at stepped
      subst next
      exact ⟨Cache.entriesSatisfy_clear _ _, invariant.handlers,
        invariant.stores⟩

/-- Whatever a handler has obtained is the answer to its own text and
parameters, and every store was made for a parameterless request whose answer
is the stored one. -/
theorem obtained_isAnswer
    (interchangeable : ∀ first second,
      normalizeQuery handler.parseSql first =
          normalizeQuery handler.parseSql second →
        answer handler first [] = answer handler second [])
    {maxEntries ttl : Nat} (maxEntries_pos : 0 < maxEntries)
    (ttl_pos : 0 < ttl) {actions : List (Action Batches)}
    {last : Shared Batches}
    (taken : LabelledRuns.run (step handler)
      (fresh Batches maxEntries ttl maxEntries_pos ttl_pos) actions =
        some last) :
    (∀ client request current batches,
      last.handlers client = some (request, current) →
        obtained current = some batches →
          ∃ params, boundParams handler request = .ok params ∧
            answer handler request.sql params = .ok batches) ∧
      ∀ stored ∈ last.stores, stored.1.parameterLen = 0 ∧
        answer handler stored.1.sql [] = .ok stored.2 := by
  have invariant : Invariant handler last :=
    LabelledRuns.invariant_of_run
      (fun _ _ _ holds stepped => invariant_step interchangeable holds stepped)
      (invariant_fresh handler maxEntries_pos ttl_pos) taken
  refine ⟨?_, invariant.stores⟩
  intro client request current batches present found
  have sound := invariant.handlers client _ present
  cases current with
  | storing stored kept reply =>
      cases found
      exact sound.2.2.1
  | replied reply => exact sound.right_of_obtained found
  | received | describing | executing => cases found

/-- An engine that answers a text with its cache key. -/
private def keyHandler : IglooQueryHandler Unit String String where
  engine := {
    sql := fun _ sql => ((), .ok (normalizeLexical sql))
    withParamValues := fun dataFrame _ => .ok dataFrame
    collect := fun _ dataFrame => ((), .ok dataFrame)
    schema := fun _ => []
    parameterNames := fun _ => .ok []
    parameterTypes := fun _ => .ok [] }
  recordBatches := fun _ => []
  parseSql := fun _ => none
  pgwire := ⟨fun _ _ => .ok none, fun _ => true⟩
  libraries := bigEndianLibraries

/-- Two clients send spellings of one text; the second is answered from the
cache. -/
private def twoSpellings : List (Action String) :=
  [.arrive 0 (.simple "SELECT  1"), .arrive 1 (.simple "SELECT 1;"),
    .advance 0 0 .listed, .advance 0 0 .listed, .advance 0 5 .listed,
    .advance 1 7 .listed]

theorem obtained_isAnswer_twoSpellings :
    ∃ last : Shared String,
      (∀ client request current batches,
        last.handlers client = some (request, current) →
          obtained current = some batches →
            ∃ params, boundParams keyHandler request = .ok params ∧
              answer keyHandler request.sql params = .ok batches) ∧
        ∀ stored ∈ last.stores, stored.1.parameterLen = 0 ∧
          answer keyHandler stored.1.sql [] = .ok stored.2 :=
  ⟨_, @obtained_isAnswer String String keyHandler
    (fun _ _ same => congrArg Except.ok same) 16 60 (by decide) (by decide)
    twoSpellings _ rfl⟩

end SharedCacheRuns

end Server

end Igloo
