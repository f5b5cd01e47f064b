import Igloo.LabelledRuns
import Igloo.SyncLedger

/-!
# The steps of concurrent sync calls

Any number of tasks call `sync` on one listener while lookups and stores run
on the cache and files come and go.  A call opens the directory, waits for the
lock on the processed files, visits directory entries one by one while it
holds the lock, and afterwards tests and clears the cache.  What it finds when
it opens the directory, which entries it is given, and whether a file can be
read when its turn comes are choices of the environment.

Ghost state records the ledger of the visits, the calls in the order in which
they were made and in the order in which they took the lock, when each call
had gone through its listing, and when each key was last stored.
-/

namespace Igloo

namespace CdcSync

namespace SyncRuns

open CacheLayer LabelledRuns

variable {Batches : Type}

/-- Where a call of `sync` stands. -/
inductive SyncState
  | opened
  | reading (events : List String)
  | testing (events : List String)
  | clearing (events : List String)
  | returned (count : Nat)
  deriving DecidableEq, Repr

/-- What a call finds when it opens the directory. -/
inductive Opening
  | notDirectory
  | unreadable
  | directory
  deriving DecidableEq, Repr

structure Shared (Batches : Type) where
  cache : Cache Batches
  ledger : Ledger
  holder : Option Nat
  locked : List Nat
  syncs : Nat → Option SyncState
  called : List Nat
  time : Nat
  listedAt : Nat → Nat
  storedAt : String → Nat

/-- The scheduler's choices. -/
inductive Action (Batches : Type)
  | open (call : Nat) (opening : Opening)
  | lock (call : Nat)
  | visit (call : Nat) (entry : DirEntry)
  | unlock (call : Nat)
  | test (call : Nat)
  | clear (call : Nat)
  | get (sql : String) (now : Nat)
  | set (sql : String) (batches : Batches) (now : Nat)
      (order : IterationOrder Batches)
  | clearCache

/-- The call of `sync` that takes the step. -/
def Action.call : Action Batches → Option Nat
  | .open call _ | .lock call | .visit call _ | .unlock call | .test call
  | .clear call => some call
  | .get _ _ | .set _ _ _ _ | .clearCache => none

namespace Shared

/-- Time passes, and a call moves on. -/
def moveOn (shared : Shared Batches) (call : Nat) (state : SyncState) :
    Shared Batches :=
  { shared with
    time := shared.time + 1
    syncs := Function.update shared.syncs call (some state) }

end Shared

def step (parseSql : String → Option (List String))
    (shared : Shared Batches) : Action Batches → Option (Shared Batches)
  | .open call opening =>
      match shared.syncs call with
      | some _ => none
      | none =>
          let opened := { shared with
            called := call :: shared.called }
          some (opened.moveOn call
            (match opening with
            | .directory => .opened
            | .notDirectory | .unreadable => .returned 0))
  | .lock call =>
      match shared.syncs call, shared.holder with
      | some .opened, none =>
          some ({ shared with
            holder := some call
            locked := shared.locked ++ [call] }.moveOn call (.reading []))
      | _, _ => none
  | .visit call entry =>
      match shared.syncs call with
      | some (.reading events) =>
          let progress := CdcListener.readEntry
            (shared.ledger.listener.processed, events) entry
          some ({ shared with
            ledger := shared.ledger.visit call entry }.moveOn call
              (.reading progress.2))
      | _ => none
  | .unlock call =>
      match shared.syncs call with
      | some (.reading events) =>
          some ({ shared with
            holder := none
            listedAt := Function.update shared.listedAt call
              shared.time }.moveOn call
            (if events.isEmpty then .returned 0 else .testing events))
      | _ => none
  | .test call =>
      match shared.syncs call with
      | some (.testing events) =>
          some (shared.moveOn call
            (if shared.cache.isEmpty then .returned events.length
            else .clearing events))
      | _ => none
  | .clear call =>
      match shared.syncs call with
      | some (.clearing events) =>
          some ({ shared with cache := shared.cache.clear }.moveOn call
            (.returned events.length))
      | _ => none
  | .get sql now =>
      some { shared with
        time := shared.time + 1
        cache := (shared.cache.get parseSql sql now).1 }
  | .set sql batches now order =>
      some { shared with
        time := shared.time + 1
        cache := shared.cache.set parseSql order sql batches now
        storedAt := Function.update shared.storedAt
          (normalizeQuery parseSql sql) shared.time }
  | .clearCache =>
      some { shared with
        time := shared.time + 1
        cache := shared.cache.clear }

/-- A new listener over a cache that may already hold entries. -/
def fresh (cache : Cache Batches) : Shared Batches where
  cache := cache
  ledger := ⟨⟨[]⟩, [], fun _ => []⟩
  holder := none
  locked := []
  syncs := fun _ => none
  called := []
  time := 1
  listedAt := fun _ => 0
  storedAt := fun _ => 0

/-- What a returned call returned. -/
def returnedCount (shared : Shared Batches) (call : Nat) : Nat :=
  match shared.syncs call with
  | some (.returned count) => count
  | _ => 0

/-- The steps, one constructor for each outcome. -/
inductive Steps (parseSql : String → Option (List String))
    (shared : Shared Batches) : Action Batches → Shared Batches → Prop
  | opens {call : Nat} (new : shared.syncs call = none) :
      Steps parseSql shared (.open call .directory)
        ({ shared with
          called := call :: shared.called }.moveOn call .opened)
  | opensNothing {call : Nat} {opening : Opening}
      (new : shared.syncs call = none) :
      Steps parseSql shared (.open call opening)
        ({ shared with
          called := call :: shared.called }.moveOn call (.returned 0))
  | locks {call : Nat} (waiting : shared.syncs call = some .opened)
      (free : shared.holder = none) :
      Steps parseSql shared (.lock call)
        ({ shared with
          holder := some call
          locked := shared.locked ++ [call] }.moveOn call (.reading []))
  | visits {call : Nat} {entry : DirEntry} {events : List String}
      (reading : shared.syncs call = some (.reading events)) :
      Steps parseSql shared (.visit call entry)
        ({ shared with
          ledger := shared.ledger.visit call entry }.moveOn call
            (.reading (CdcListener.readEntry
              (shared.ledger.listener.processed, events) entry).2))
  | unlocksIdle {call : Nat}
      (reading : shared.syncs call = some (.reading [])) :
      Steps parseSql shared (.unlock call)
        ({ shared with
          holder := none
          listedAt := Function.update shared.listedAt call
            shared.time }.moveOn call (.returned 0))
  | unlocks {call : Nat} {events : List String}
      (reading : shared.syncs call = some (.reading events))
      (nonempty : events ≠ []) :
      Steps parseSql shared (.unlock call)
        ({ shared with
          holder := none
          listedAt := Function.update shared.listedAt call
            shared.time }.moveOn call (.testing events))
  | findsEmpty {call : Nat} {events : List String}
      (testing : shared.syncs call = some (.testing events))
      (empty : shared.cache.isEmpty = true) :
      Steps parseSql shared (.test call)
        (shared.moveOn call (.returned events.length))
  | findsEntries {call : Nat} {events : List String}
      (testing : shared.syncs call = some (.testing events)) :
      Steps parseSql shared (.test call)
        (shared.moveOn call (.clearing events))
  | clears {call : Nat} {events : List String}
      (clearing : shared.syncs call = some (.clearing events)) :
      Steps parseSql shared (.clear call)
        ({ shared with cache := shared.cache.clear }.moveOn call
          (.returned events.length))
  | gets (sql : String) (now : Nat) :
      Steps parseSql shared (.get sql now)
        { shared with
          time := shared.time + 1
          cache := (shared.cache.get parseSql sql now).1 }
  | sets (sql : String) (batches : Batches) (now : Nat)
      (order : IterationOrder Batches) :
      Steps parseSql shared (.set sql batches now order)
        { shared with
          time := shared.time + 1
          cache := shared.cache.set parseSql order sql batches now
          storedAt := Function.update shared.storedAt
            (normalizeQuery parseSql sql) shared.time }
  | clearsCache :
      Steps parseSql shared .clearCache
        { shared with
          time := shared.time + 1
          cache := shared.cache.clear }

section Inversion

variable {parseSql : String → Option (List String)}
variable {shared next : Shared Batches} {action : Action Batches}

theorem steps_of_step (stepped : step parseSql shared action = some next) :
    Steps parseSql shared action next := by
  cases action with
  | «open» call opening =>
      cases state : shared.syncs call with
      | some _ => simp [step, state] at stepped
      | none =>
          simp only [step, state, Option.some.injEq] at stepped
          subst next
          cases opening with
          | directory => exact .opens state
          | notDirectory => exact .opensNothing state
          | unreadable => exact .opensNothing state
  | lock call =>
      simp only [step] at stepped
      split at stepped
      next waiting free =>
        cases stepped
        exact .locks waiting free
      next => cases stepped
  | visit call entry =>
      simp only [step] at stepped
      split at stepped
      next events reading =>
        cases stepped
        exact .visits reading
      next => cases stepped
  | unlock call =>
      simp only [step] at stepped
      split at stepped
      next events reading =>
        cases stepped
        cases events with
        | nil => exact .unlocksIdle reading
        | cons event events => exact .unlocks reading (List.cons_ne_nil _ _)
      next => cases stepped
  | test call =>
      simp only [step] at stepped
      split at stepped
      next events testing =>
        cases stepped
        split
        next empty => exact .findsEmpty testing empty
        next => exact .findsEntries testing
      next => cases stepped
  | clear call =>
      simp only [step] at stepped
      split at stepped
      next events clearing =>
        cases stepped
        exact .clears clearing
      next => cases stepped
  | get sql now =>
      cases stepped
      exact .gets sql now
  | set sql batches now order =>
      cases stepped
      exact .sets sql batches now order
  | clearCache =>
      cases stepped
      exact .clearsCache

end Inversion

section Uninterrupted

/-- The actions of a call from its listing to the end of the loop. -/
def listing (call : Nat) (entries : List DirEntry) : List (Action Batches) :=
  .open call .directory :: .lock call ::
    (entries.map (.visit call) ++ [.unlock call])

/-- The actions of a call that runs without interruption. -/
def uninterrupted (shared : Shared Batches) (call : Nat) :
    Location → List (Action Batches)
  | .notDirectory => [.open call .notDirectory]
  | .unreadable => [.open call .unreadable]
  | .directory entries =>
      listing call entries ++
        if (shared.ledger.listener.mark (.directory entries)).2.isEmpty then
          []
        else if shared.cache.isEmpty then [.test call]
        else [.test call, .clear call]

variable {parseSql : String → Option (List String)}

theorem run_visits {entries : List DirEntry} {shared : Shared Batches}
    {call : Nat} {events : List String}
    (reading : shared.syncs call = some (.reading events)) :
    ∃ last, run (step parseSql) shared (entries.map (.visit call)) =
        some last ∧
      last.cache = shared.cache ∧
      last.syncs call = some (.reading (entries.foldl CdcListener.readEntry
        (shared.ledger.listener.processed, events)).2) ∧
      last.ledger.listener.processed =
        (entries.foldl CdcListener.readEntry
          (shared.ledger.listener.processed, events)).1 := by
  induction entries generalizing shared events with
  | nil => exact ⟨shared, rfl, rfl, reading, rfl⟩
  | cons entry entries induction =>
      let progress := CdcListener.readEntry
        (shared.ledger.listener.processed, events) entry
      let next : Shared Batches := { shared with
        ledger := shared.ledger.visit call entry }.moveOn call
          (.reading progress.2)
      have stepped :
          step parseSql shared (.visit call entry) = some next := by
        simp only [step, reading]
        rfl
      have processedEq :
          next.ledger.listener.processed = progress.1 :=
        processed_visit shared.ledger call entry events
      have nowReading : next.syncs call = some (.reading progress.2) :=
        Function.update_self call _ shared.syncs
      obtain ⟨last, ran, cacheEq, stateEq, lastProcessed⟩ :=
        induction nowReading
      rw [processedEq] at stateEq lastProcessed
      refine ⟨last, ?_, cacheEq, stateEq, lastProcessed⟩
      rw [List.map_cons, run_cons_eq_some_iff]
      exact ⟨next, stepped, ran⟩

theorem run_listing {shared : Shared Batches} {call : Nat}
    (new : shared.syncs call = none) (free : shared.holder = none)
    (entries : List DirEntry) :
    ∃ last, run (step parseSql) shared (listing call entries) = some last ∧
      last.cache = shared.cache ∧
      last.ledger.listener =
        (shared.ledger.listener.mark (.directory entries)).1 ∧
      last.syncs call = some
        (if (shared.ledger.listener.mark (.directory entries)).2.isEmpty
        then .returned 0
        else .testing
          (shared.ledger.listener.mark (.directory entries)).2) := by
  let opened : Shared Batches := { shared with
    called := call :: shared.called }.moveOn call .opened
  have opens : step parseSql shared (.open call .directory) =
      some opened := by
    simp only [step, new]
    rfl
  have waiting : opened.syncs call = some .opened :=
    Function.update_self call _ shared.syncs
  let locked : Shared Batches := { opened with
    holder := some call
    locked := shared.locked ++ [call] }.moveOn call (.reading [])
  have locks : step parseSql opened (.lock call) = some locked := by
    have stillFree : opened.holder = none := free
    simp only [step, waiting, stillFree]
    rfl
  have reading : locked.syncs call = some (.reading []) :=
    Function.update_self call _ opened.syncs
  obtain ⟨read, visited, cacheEq, stateEq, processedEq⟩ :=
    @run_visits _ parseSql entries locked call [] reading
  refine ⟨{ read with
      holder := none
      listedAt := Function.update read.listedAt call
        read.time }.moveOn call _, ?_, cacheEq, ?_,
    Function.update_self call _ read.syncs⟩
  · refine run_cons_eq_some_iff.mpr ⟨opened, opens, ?_⟩
    refine run_cons_eq_some_iff.mpr ⟨locked, locks, ?_⟩
    refine run_append_eq_some_iff.mpr ⟨read, visited, ?_⟩
    refine run_cons_eq_some_iff.mpr ⟨_, ?_, rfl⟩
    simp only [step, stateEq]
    rfl
  · exact congrArg CdcListener.mk processedEq

/-- A call that runs without interruption is a call of `sync`. -/
theorem run_uninterrupted {shared : Shared Batches} {call : Nat}
    (new : shared.syncs call = none) (free : shared.holder = none)
    (location : Location) :
    ∃ last count,
      run (step parseSql) shared (uninterrupted shared call location) =
        some last ∧
      last.syncs call = some (.returned count) ∧
      ((last.ledger.listener, last.cache), count) =
        shared.ledger.listener.sync location shared.cache := by
  cases location with
  | notDirectory =>
      refine ⟨{ shared with called := call :: shared.called }.moveOn call
        (.returned 0), 0, ?_, Function.update_self call _ shared.syncs, rfl⟩
      simp only [uninterrupted, run, step, new, Option.bind_some]
  | unreadable =>
      refine ⟨{ shared with called := call :: shared.called }.moveOn call
        (.returned 0), 0, ?_, Function.update_self call _ shared.syncs, rfl⟩
      simp only [uninterrupted, run, step, new, Option.bind_some]
  | directory entries =>
      obtain ⟨listed, ran, cacheEq, listenerEq, stateEq⟩ :=
        @run_listing _ parseSql shared call new free entries
      simp only [uninterrupted, CdcListener.sync]
      generalize shared.ledger.listener.mark (.directory entries) = marked
        at *
      obtain ⟨listener, events⟩ := marked
      dsimp only at *
      by_cases idle : events.isEmpty
      · rw [if_pos idle] at stateEq
        refine ⟨listed, 0, ?_, stateEq, ?_⟩
        · rw [if_pos idle, List.append_nil, ran]
        · rw [if_pos idle, listenerEq, cacheEq]
      · rw [if_neg idle] at stateEq
        rw [if_neg idle, if_neg idle]
        by_cases empty : shared.cache.isEmpty
        · refine ⟨listed.moveOn call (.returned events.length),
            events.length, ?_, Function.update_self call _ listed.syncs, ?_⟩
          · rw [if_pos empty]
            refine run_append_eq_some_iff.mpr ⟨listed, ran, ?_⟩
            simp only [run, step, stateEq, cacheEq, if_pos empty,
              Option.bind_some]
          · simp only [empty, Bool.not_true, Bool.false_eq_true, if_false]
            rw [← listenerEq, ← cacheEq]
            rfl
        · let clearing := listed.moveOn call (.clearing events)
          have nowClearing : clearing.syncs call = some (.clearing events) :=
            Function.update_self call _ listed.syncs
          refine ⟨{ clearing with
              cache := clearing.cache.clear }.moveOn call
                (.returned events.length), events.length, ?_,
            Function.update_self call _ clearing.syncs, ?_⟩
          · rw [if_neg empty]
            refine run_append_eq_some_iff.mpr ⟨listed, ran, ?_⟩
            refine run_cons_eq_some_iff.mpr ⟨clearing, ?_, ?_⟩
            · simp only [step, stateEq, cacheEq, if_neg empty]
              rfl
            · simp only [run, step, nowClearing, Option.bind_some]
          · simp only [empty, Bool.not_false, if_true]
            rw [← listenerEq, ← cacheEq]
            rfl

end Uninterrupted

end SyncRuns

end CdcSync

end Igloo
