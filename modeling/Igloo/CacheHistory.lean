import Igloo.CacheLayer
import Igloo.LabelledRuns

/-!
# Cache hits over concurrent runs

Any number of threads share one cache.  A `get` or `set` takes two steps: the
thread normalizes the key and reads the clock, and some time later it runs its
locked section.  Between the two steps other threads may read later clocks and
enter first, so the recorded times need not be ordered like the locked
sections.  The ghost history lists the locked sections in lock order.
-/

namespace Igloo

namespace CacheLayer

namespace History

variable {Batches : Type*}

/-- A call that a thread makes on the shared cache. -/
inductive Call (Batches : Type*)
  | get (sql : String)
  | set (sql : String) (batches : Batches)
  | clear

/-- A call whose thread has read the clock and not yet taken the lock.
`clear` reads no clock, so its reading is never used. -/
structure Pending (Batches : Type*) where
  call : Call Batches
  now : Nat

/-- A completed locked section. -/
inductive Event (Batches : Type*)
  | got (key : String) (now : Nat) (result : Option Batches)
  | stored (key : String) (batches : Batches) (now : Nat)
  | cleared

structure Shared (Batches : Type*) where
  cache : Cache Batches
  pending : Nat → Option (Pending Batches)
  history : List (Event Batches)

/-- The scheduler's choices: a thread starts a call and reads the clock, or a
thread with a pending call takes the lock. -/
inductive Action (Batches : Type*)
  | start (thread : Nat) (call : Call Batches) (now : Nat)
  | enter (thread : Nat) (order : IterationOrder Batches)

/-- The locked section of a pending call, with the event it amounts to. -/
def lockedSection (parseSql : String → Option (List String))
    (cache : Cache Batches) (order : IterationOrder Batches)
    (pending : Pending Batches) : Cache Batches × Event Batches :=
  match pending.call with
  | .get sql =>
      let (next, result) := cache.get parseSql sql pending.now
      (next, .got (normalizeQuery parseSql sql) pending.now result)
  | .set sql batches =>
      (cache.set parseSql order sql batches pending.now,
        .stored (normalizeQuery parseSql sql) batches pending.now)
  | .clear => (cache.clear, .cleared)

def step (parseSql : String → Option (List String))
    (shared : Shared Batches) : Action Batches → Option (Shared Batches)
  | .start thread call now =>
      match shared.pending thread with
      | some _ => none
      | none =>
          some { shared with
            pending := Function.update shared.pending thread
              (some ⟨call, now⟩) }
  | .enter thread order =>
      match shared.pending thread with
      | none => none
      | some pending =>
          let (cache, event) :=
            lockedSection parseSql shared.cache order pending
          some {
            cache := cache
            pending := Function.update shared.pending thread none
            history := shared.history ++ [event] }

/-- A fresh cache that no thread has called yet. -/
def fresh (Batches : Type*) (maxEntries ttl : Nat)
    (maxEntries_pos : 0 < maxEntries) (ttl_pos : 0 < ttl) :
    Shared Batches where
  cache := Cache.withClock Batches maxEntries ttl maxEntries_pos ttl_pos
  pending := fun _ => none
  history := []

/-- Whether an event removes or replaces what was stored under a key. -/
def Event.Overrides (key : String) : Event Batches → Prop
  | .got _ _ _ => False
  | .stored other _ _ => other = key
  | .cleared => True

/-- The most recent store on `key` put `batches` there at `insertedAt`, and
nothing was cleared since. -/
def LatestStore (history : List (Event Batches)) (key : String)
    (batches : Batches) (insertedAt : Nat) : Prop :=
  ∃ older newer,
    history = older ++ .stored key batches insertedAt :: newer ∧
      ∀ event ∈ newer, ¬ event.Overrides key

theorem latestStore_stored (history : List (Event Batches)) (key : String)
    (batches : Batches) (now : Nat) :
    LatestStore (history ++ [.stored key batches now]) key batches now :=
  ⟨history, [], rfl, by simp⟩

theorem LatestStore.concat {history : List (Event Batches)} {key : String}
    {batches : Batches} {insertedAt : Nat} {event : Event Batches}
    (latest : LatestStore history key batches insertedAt)
    (keeps : ¬ event.Overrides key) :
    LatestStore (history ++ [event]) key batches insertedAt := by
  obtain ⟨older, newer, rfl, undisturbed⟩ := latest
  refine ⟨older, newer ++ [event], by simp, ?_⟩
  intro other otherMem
  rcases List.mem_append.mp otherMem with before | last
  · exact undisturbed other before
  · rw [List.mem_singleton.mp last]
    exact keeps

/-- Every hit in the history returned what the latest store put there, no
longer than `ttl` before. -/
def HitsSound (ttl : Nat) (history : List (Event Batches)) : Prop :=
  ∀ before after key now batches,
    history = before ++ .got key now (some batches) :: after →
      ∃ insertedAt, LatestStore before key batches insertedAt ∧
        now - insertedAt ≤ ttl

theorem concat_eq_append_cons {history before after : List (Event Batches)}
    {event other : Event Batches}
    (split : history ++ [event] = before ++ other :: after) :
    (history = before ∧ event = other) ∨
      ∃ initial, after = initial ++ [event] ∧
        history = before ++ other :: initial := by
  rcases List.eq_nil_or_concat after with rfl | ⟨initial, final, rfl⟩
  · obtain ⟨historyEq, eventEq⟩ := List.append_inj' split rfl
    exact Or.inl ⟨historyEq, List.singleton_inj.mp eventEq⟩
  · have regrouped : history ++ [event] =
        (before ++ other :: initial) ++ [final] := by
      simpa using split
    obtain ⟨historyEq, eventEq⟩ := List.append_inj' regrouped rfl
    right
    refine ⟨initial, ?_, historyEq⟩
    rw [eventEq, List.concat_eq_append]

theorem HitsSound.concat {ttl : Nat} {history : List (Event Batches)}
    {event : Event Batches} (sound : HitsSound ttl history)
    (last : ∀ key now batches, event = .got key now (some batches) →
      ∃ insertedAt, LatestStore history key batches insertedAt ∧
        now - insertedAt ≤ ttl) :
    HitsSound ttl (history ++ [event]) := by
  intro before after key now batches split
  rcases concat_eq_append_cons split with
    ⟨rfl, eventEq⟩ | ⟨initial, -, historyEq⟩
  · exact last key now batches eventEq
  · exact sound before initial key now batches historyEq

/-- The run invariant: each entry is what the latest store on its key left,
and so every hit so far was sound. -/
structure Invariant (ttl : Nat) (shared : Shared Batches) : Prop where
  ttl_eq : shared.cache.ttl = ttl
  entries : shared.cache.EntriesSatisfy (LatestStore shared.history)
  hits : HitsSound ttl shared.history

theorem invariant_fresh {maxEntries ttl : Nat}
    (maxEntries_pos : 0 < maxEntries) (ttl_pos : 0 < ttl) :
    Invariant ttl (fresh Batches maxEntries ttl maxEntries_pos ttl_pos) where
  ttl_eq := rfl
  entries := Cache.entriesSatisfy_withClock _ maxEntries_pos ttl_pos
  hits := by
    intro before after key now batches split
    simp [fresh] at split

section LockedSection

variable {parseSql : String → Option (List String)}
variable {cache : Cache Batches} {history : List (Event Batches)}

theorem entries_lockedSection (order : IterationOrder Batches)
    (pending : Pending Batches)
    (entries : cache.EntriesSatisfy (LatestStore history)) :
    (lockedSection parseSql cache order pending).1.EntriesSatisfy
      (LatestStore (history ++
        [(lockedSection parseSql cache order pending).2])) := by
  cases called : pending.call with
  | get sql =>
      simp only [lockedSection, called, Cache.get]
      refine (entries.getLocked _ _).mono ?_
      intro key batches insertedAt latest
      exact latest.concat (fun overrides => overrides)
  | set sql batches =>
      simp only [lockedSection, called, Cache.set]
      intro key entry found
      rcases Cache.entryAt_setLocked_cases found with
        ⟨rfl, batchesEq, insertedEq⟩ | ⟨otherKey, stored⟩
      · rw [batchesEq, insertedEq]
        exact latestStore_stored history _ batches pending.now
      · exact (entries key entry stored).concat (Ne.symm otherKey)
  | clear =>
      simp only [lockedSection, called]
      exact Cache.entriesSatisfy_clear _ cache

theorem hit_lockedSection {order : IterationOrder Batches}
    {pending : Pending Batches} {key : String} {now : Nat}
    {batches : Batches}
    (entries : cache.EntriesSatisfy (LatestStore history))
    (event : (lockedSection parseSql cache order pending).2 =
      .got key now (some batches)) :
    ∃ insertedAt, LatestStore history key batches insertedAt ∧
      now - insertedAt ≤ cache.ttl := by
  cases called : pending.call with
  | get sql =>
      simp only [lockedSection, called, Cache.get, Event.got.injEq] at event
      obtain ⟨keyEq, nowEq, hit⟩ := event
      obtain ⟨entry, found, batchesEq, inTime⟩ :=
        Cache.exists_entry_of_getLocked_eq_some hit
      subst keyEq nowEq batchesEq
      exact ⟨entry.insertedAt, entries _ entry found, inTime⟩
  | set sql stored => simp [lockedSection, called] at event
  | clear => simp [lockedSection, called] at event

theorem ttl_lockedSection (order : IterationOrder Batches)
    (pending : Pending Batches) :
    (lockedSection parseSql cache order pending).1.ttl = cache.ttl := by
  cases called : pending.call with
  | get sql => simp [lockedSection, called, Cache.get]
  | set sql batches => simp [lockedSection, called, Cache.set]
  | clear => simp [lockedSection, called]

end LockedSection

/-- A step leaves the cache and the history alone, or it runs the locked
section of a pending call. -/
theorem step_cases {parseSql : String → Option (List String)}
    {shared next : Shared Batches} {action : Action Batches}
    (stepped : step parseSql shared action = some next) :
    (∃ thread call now, action = .start thread call now ∧
        shared.pending thread = none ∧
        next.cache = shared.cache ∧ next.history = shared.history) ∨
      ∃ thread order pending, action = .enter thread order ∧
        shared.pending thread = some pending ∧
        next.cache =
          (lockedSection parseSql shared.cache order pending).1 ∧
        next.history = shared.history ++
          [(lockedSection parseSql shared.cache order pending).2] := by
  cases action with
  | start thread call now =>
      cases waiting : shared.pending thread with
      | some pending => simp [step, waiting] at stepped
      | none =>
          simp only [step, waiting, Option.some.injEq] at stepped
          subst next
          exact Or.inl ⟨thread, call, now, rfl, waiting, rfl, rfl⟩
  | enter thread order =>
      cases waiting : shared.pending thread with
      | none => simp [step, waiting] at stepped
      | some pending =>
          simp only [step, waiting, Option.some.injEq] at stepped
          subst next
          exact Or.inr ⟨thread, order, pending, rfl, waiting, rfl, rfl⟩

/-- A property of the cache and the history that locked sections preserve
holds in every reachable state. -/
theorem holds_of_run {parseSql : String → Option (List String)}
    {property : Cache Batches → List (Event Batches) → Prop}
    (preserved : ∀ cache history order pending, property cache history →
      property (lockedSection parseSql cache order pending).1
        (history ++ [(lockedSection parseSql cache order pending).2]))
    {maxEntries ttl : Nat} {maxEntries_pos : 0 < maxEntries}
    {ttl_pos : 0 < ttl} {actions : List (Action Batches)}
    {last : Shared Batches}
    (initially : property
      (Cache.withClock Batches maxEntries ttl maxEntries_pos ttl_pos) [])
    (taken : LabelledRuns.run (step parseSql)
      (fresh Batches maxEntries ttl maxEntries_pos ttl_pos) actions =
        some last) :
    property last.cache last.history := by
  apply @LabelledRuns.invariant_of_run _ _ (step parseSql)
    (fun shared => property shared.cache shared.history) _ _ _ _
    initially taken
  intro shared action next holds stepped
  rcases step_cases stepped with
    ⟨-, -, -, -, -, cacheEq, historyEq⟩ |
      ⟨-, order, pending, -, -, cacheEq, historyEq⟩
  · rw [cacheEq, historyEq]
    exact holds
  · rw [cacheEq, historyEq]
    exact preserved shared.cache shared.history order pending holds

theorem invariant_step {parseSql : String → Option (List String)}
    {ttl : Nat} {shared next : Shared Batches} {action : Action Batches}
    (invariant : Invariant ttl shared)
    (stepped : step parseSql shared action = some next) :
    Invariant ttl next := by
  rcases step_cases stepped with
    ⟨-, -, -, -, -, cacheEq, historyEq⟩ |
      ⟨-, order, pending, -, -, cacheEq, historyEq⟩
  · constructor
    · exact cacheEq ▸ invariant.ttl_eq
    · exact cacheEq ▸ historyEq ▸ invariant.entries
    · exact historyEq ▸ invariant.hits
  · constructor
    · rw [cacheEq]
      exact (ttl_lockedSection order pending).trans invariant.ttl_eq
    · rw [cacheEq, historyEq]
      exact entries_lockedSection order pending invariant.entries
    · rw [historyEq]
      apply invariant.hits.concat
      intro key now batches event
      obtain ⟨insertedAt, latest, inTime⟩ :=
        hit_lockedSection invariant.entries event
      exact ⟨insertedAt, latest, invariant.ttl_eq ▸ inTime⟩

/-- Whenever a `get` on a key returned batches, the most recent `set` on that
key in lock order stored them, no `clear` came after it, and the reading of
the `get` is at most `ttl` past the reading of the `set`. -/
theorem hit_returns_latest_store {parseSql : String → Option (List String)}
    {maxEntries ttl : Nat} (maxEntries_pos : 0 < maxEntries)
    (ttl_pos : 0 < ttl) {actions : List (Action Batches)}
    {last : Shared Batches}
    (taken : LabelledRuns.run (step parseSql)
      (fresh Batches maxEntries ttl maxEntries_pos ttl_pos) actions =
        some last)
    {before after : List (Event Batches)} {key : String} {now : Nat}
    {batches : Batches}
    (recorded : last.history =
      before ++ .got key now (some batches) :: after) :
    ∃ older newer insertedAt,
      before = older ++ .stored key batches insertedAt :: newer ∧
        (∀ event ∈ newer, ¬ event.Overrides key) ∧
          now - insertedAt ≤ ttl := by
  have invariant : Invariant ttl last :=
    LabelledRuns.invariant_of_run
      (fun _ _ _ holds stepped => invariant_step holds stepped)
      (invariant_fresh maxEntries_pos ttl_pos) taken
  obtain ⟨insertedAt, ⟨older, newer, split, undisturbed⟩, inTime⟩ :=
    invariant.hits before after key now batches recorded
  exact ⟨older, newer, insertedAt, split, undisturbed, inTime⟩

private def selectOne : List (Action Nat) :=
  [.start 0 (.set "SELECT 1" 7) 5, .start 1 (.get "SELECT 1 ;") 3,
    .enter 0 .listed, .enter 1 .listed]

/-- A hit whose clock was read before the store it returns. -/
theorem hit_returns_latest_store_selectOne :
    ∃ older newer insertedAt,
      [.stored "SELECT 1" 7 5] =
          older ++ Event.stored "SELECT 1" 7 insertedAt :: newer ∧
        (∀ event ∈ newer, ¬ event.Overrides "SELECT 1") ∧
          3 - insertedAt ≤ 60 :=
  @hit_returns_latest_store Nat (fun _ => some ["SELECT 1"]) 16 60
    (by decide) (by decide) selectOne _ rfl [.stored "SELECT 1" 7 5] []
    "SELECT 1" 3 7 rfl

end History

end CacheLayer

end Igloo
