import Igloo.SyncSteps

/-!
# Exactly-once events under concurrency

In every run, whatever the interleaving, a JSON file is counted by exactly one
call once it has been read: the first in lock order that read it.  What a call
returns is the number of files it counted, and a call that returns more than
zero leaves nothing in the cache that was stored before it had gone through
its listing.

The invariant has four parts: the ledger is sound, the lock is held by the one
call that reads, every call's events are the files it counted, and the swept
entries are gone.
-/

namespace Igloo

namespace CdcSync

namespace SyncRuns

open CacheLayer CdcListener LabelledRuns

variable {Batches : Type}

namespace SyncState

/-- The events that a call has read so far, or had read when it returned. -/
def count : SyncState → Nat
  | .opened => 0
  | .reading events | .testing events | .clearing events => events.length
  | .returned count => count

/-- A call that is past the loop and has not returned has events. -/
def HasEvents : SyncState → Prop
  | .testing events | .clearing events => events ≠ []
  | .opened | .reading _ | .returned _ => True

end SyncState

/-- The calls made, and the files that each has counted. -/
structure CallsSound (called : List Nat) (syncs : Nat → Option SyncState)
    (counted : Nat → List String) : Prop where
  mem_called : ∀ call, call ∈ called ↔ syncs call ≠ none
  called_nodup : called.Nodup
  length_counted : ∀ call,
    (counted call).length = (syncs call).elim 0 SyncState.count
  hasEvents : ∀ call state, syncs call = some state → state.HasEvents

section Calls

variable {called : List Nat} {syncs : Nat → Option SyncState}
variable {counted : Nat → List String} {call : Nat}

theorem callsSound_empty : CallsSound [] (fun _ => none) (fun _ => []) where
  mem_called := by simp
  called_nodup := List.nodup_nil
  length_counted := by simp
  hasEvents := by simp

theorem CallsSound.opens (sound : CallsSound called syncs counted)
    (new : syncs call = none) {state : SyncState} (idle : state.count = 0)
    (hasEvents : state.HasEvents) :
    CallsSound (call :: called) (Function.update syncs call (some state))
      counted where
  mem_called := by
    intro other
    by_cases own : other = call
    · subst own
      simp
    · simp [own, sound.mem_called]
  called_nodup := by
    refine List.nodup_cons.mpr ⟨?_, sound.called_nodup⟩
    intro member
    exact (sound.mem_called call).mp member new
  length_counted := by
    intro other
    by_cases own : other = call
    · subst own
      rw [Function.update_self, sound.length_counted, new]
      exact idle.symm
    · rw [Function.update_of_ne own, sound.length_counted]
  hasEvents := forall_update sound.hasEvents hasEvents

theorem CallsSound.moveOn (sound : CallsSound called syncs counted)
    {before state : SyncState} (current : syncs call = some before)
    (kept : state.count = before.count) (hasEvents : state.HasEvents) :
    CallsSound called (Function.update syncs call (some state)) counted where
  mem_called := by
    intro other
    by_cases own : other = call
    · subst own
      simp [sound.mem_called, current]
    · simp [own, sound.mem_called]
  called_nodup := sound.called_nodup
  length_counted := by
    intro other
    by_cases own : other = call
    · subst own
      rw [Function.update_self, sound.length_counted, current]
      exact kept.symm
    · rw [Function.update_of_ne own, sound.length_counted]
  hasEvents := forall_update sound.hasEvents hasEvents

/-- A visit adds a file to those the call counted exactly when it adds an
event. -/
theorem CallsSound.visit {ledger : Ledger} {events : List String}
    (sound : CallsSound called syncs ledger.counted)
    (reading : syncs call = some (.reading events)) (entry : DirEntry) :
    CallsSound called
      (Function.update syncs call (some (.reading (CdcListener.readEntry
        (ledger.listener.processed, events) entry).2)))
      (ledger.visit call entry).counted := by
  by_cases counts : Counts ledger.listener.processed entry
  · obtain ⟨content, readEq⟩ := @readEntry_of_counts _ events _ counts
    rw [readEq, visit_of_counts counts]
    constructor
    · intro other
      by_cases own : other = call
      · subst own
        simp [sound.mem_called, reading]
      · simp [own, sound.mem_called]
    · exact sound.called_nodup
    · intro other
      dsimp only
      by_cases own : other = call
      · subst own
        have before := sound.length_counted other
        rw [reading] at before
        rw [Function.update_self, Function.update_self, List.length_append,
          before]
        simp [SyncState.count]
      · rw [Function.update_of_ne own, Function.update_of_ne own,
          sound.length_counted]
    · exact forall_update sound.hasEvents trivial
  · rw [readEntry_of_not_counts counts, visit_of_not_counts counts]
    exact sound.moveOn reading rfl trivial

end Calls

/-- The lock on the processed files, and the order in which it was taken. -/
structure LockSound (holder : Option Nat) (locked : List Nat)
    (syncs : Nat → Option SyncState) (visits : List Visit) : Prop where
  holder_iff : ∀ call, holder = some call ↔
    ∃ events, syncs call = some (.reading events)
  holder_last : ∀ call, holder = some call →
    ∃ earlier, locked = earlier ++ [call]
  locked_nodup : locked.Nodup
  locked_past : ∀ call ∈ locked,
    syncs call ≠ none ∧ syncs call ≠ some .opened
  visits_locked : ∀ visit ∈ visits, visit.call ∈ locked
  agrees : ∀ path, firstLocked locked visits path = firstReader visits path

section Lock

variable {holder : Option Nat} {locked : List Nat}
variable {syncs : Nat → Option SyncState} {visits : List Visit} {call : Nat}

theorem lockSound_empty : LockSound none [] (fun _ => none) [] where
  holder_iff := by simp
  holder_last := by simp
  locked_nodup := List.nodup_nil
  locked_past := by simp
  visits_locked := by simp
  agrees := fun _ => rfl

theorem LockSound.exclusive (sound : LockSound holder locked syncs visits)
    {other : Nat} {events otherEvents : List String}
    (reading : syncs call = some (.reading events))
    (otherReading : syncs other = some (.reading otherEvents)) :
    call = other := by
  have held := (sound.holder_iff call).mpr ⟨events, reading⟩
  have otherHeld := (sound.holder_iff other).mpr ⟨otherEvents, otherReading⟩
  rw [held] at otherHeld
  exact Option.some.inj otherHeld

theorem LockSound.moveOn (sound : LockSound holder locked syncs visits)
    {state : SyncState}
    (outside : ∀ events, syncs call ≠ some (.reading events))
    (remains : ∀ events, state ≠ .reading events)
    (started : state = .opened → syncs call = none) :
    LockSound holder locked (Function.update syncs call (some state))
      visits where
  holder_iff := by
    intro other
    rw [sound.holder_iff]
    by_cases own : other = call
    · subst own
      simp [outside, remains]
    · rw [Function.update_of_ne own]
  holder_last := sound.holder_last
  locked_nodup := sound.locked_nodup
  locked_past := by
    intro other member
    by_cases own : other = call
    · subst own
      rw [Function.update_self]
      refine ⟨Option.some_ne_none state, ?_⟩
      intro opened
      exact (sound.locked_past other member).1
        (started (Option.some.inj opened))
    · rw [Function.update_of_ne own]
      exact sound.locked_past other member
  visits_locked := sound.visits_locked
  agrees := sound.agrees

theorem LockSound.locks (sound : LockSound none locked syncs visits)
    (waiting : syncs call = some .opened) :
    LockSound (some call) (locked ++ [call])
      (Function.update syncs call (some (.reading []))) visits := by
  have unlocked : call ∉ locked := by
    intro member
    exact (sound.locked_past call member).2 waiting
  constructor
  · intro other
    by_cases own : other = call
    · subst own
      simp
    · have idle := sound.holder_iff other
      simp only [reduceCtorEq, false_iff] at idle
      simp [own, Ne.symm own, idle]
  · rintro other ⟨⟩
    exact ⟨locked, rfl⟩
  · rw [List.nodup_append]
    refine ⟨sound.locked_nodup, List.nodup_singleton call, ?_⟩
    rintro other member last lastMem rfl
    rw [List.mem_singleton] at lastMem
    subst lastMem
    exact unlocked member
  · intro other member
    by_cases own : other = call
    · subst own
      simp
    · rw [Function.update_of_ne own]
      apply sound.locked_past
      simpa [own] using member
  · intro visit member
    exact List.mem_append_left _ (sound.visits_locked visit member)
  · intro path
    have unvisited : ∀ visit ∈ visits, visit.call ≠ call := by
      rintro visit member rfl
      exact unlocked (sound.visits_locked visit member)
    rw [firstLocked_concat_locked unvisited, sound.agrees]

theorem LockSound.visit (sound : LockSound holder locked syncs visits)
    {events : List String} (reading : syncs call = some (.reading events))
    (entry : DirEntry) (read : List String) :
    LockSound holder locked
      (Function.update syncs call (some (.reading read)))
      (visits ++ [⟨call, entry⟩]) := by
  have held := (sound.holder_iff call).mpr ⟨events, reading⟩
  obtain ⟨earlier, lockedEq⟩ := sound.holder_last call held
  constructor
  · intro other
    rw [sound.holder_iff]
    by_cases own : other = call
    · subst own
      simp [reading]
    · rw [Function.update_of_ne own]
  · exact sound.holder_last
  · exact sound.locked_nodup
  · intro other member
    by_cases own : other = call
    · subst own
      simp
    · rw [Function.update_of_ne own]
      exact sound.locked_past other member
  · intro visit member
    rcases List.mem_append.mp member with earlierVisit | last
    · exact sound.visits_locked visit earlierVisit
    · rw [List.mem_singleton.mp last, lockedEq]
      simp
  · intro path
    have absent : call ∉ earlier := by
      have nodup := sound.locked_nodup
      rw [lockedEq, List.nodup_append] at nodup
      intro member
      exact nodup.2.2 call member call (List.mem_singleton_self call) rfl
    have before := sound.agrees path
    rw [lockedEq] at before ⊢
    exact firstLocked_concat_visit absent before

theorem LockSound.unlocks (sound : LockSound holder locked syncs visits)
    {events : List String} (reading : syncs call = some (.reading events))
    {state : SyncState} (ended : ∀ events, state ≠ .reading events)
    (started : state ≠ .opened) :
    LockSound none locked (Function.update syncs call (some state))
      visits where
  holder_iff := by
    intro other
    by_cases own : other = call
    · subst own
      simp [ended]
    · rw [Function.update_of_ne own]
      simp only [reduceCtorEq, false_iff]
      rintro ⟨otherEvents, otherReading⟩
      exact own (sound.exclusive otherReading reading)
  holder_last := by simp
  locked_nodup := sound.locked_nodup
  locked_past := by
    intro other member
    by_cases own : other = call
    · subst own
      simp [started]
    · rw [Function.update_of_ne own]
      exact sound.locked_past other member
  visits_locked := sound.visits_locked
  agrees := sound.agrees

end Lock

/-- The times of listings and stores, and the entries that returned calls
have swept away. -/
structure TimesSound (cache : Cache Batches) (syncs : Nat → Option SyncState)
    (time : Nat) (listedAt : Nat → Nat) (storedAt : String → Nat) :
    Prop where
  listed_past : ∀ call, listedAt call < time
  stored_past : ∀ key, storedAt key < time
  swept : ∀ call count, syncs call = some (.returned count) → 0 < count →
    ∀ key, cache.entryAt key ≠ none → listedAt call < storedAt key

section Times

variable {cache : Cache Batches} {syncs : Nat → Option SyncState}
variable {time : Nat} {listedAt : Nat → Nat} {storedAt : String → Nat}
variable {call : Nat}

theorem timesSound_empty (cache : Cache Batches) :
    TimesSound cache (fun _ => none) 1 (fun _ => 0) (fun _ => 0) where
  listed_past := fun _ => Nat.zero_lt_one
  stored_past := fun _ => Nat.zero_lt_one
  swept := by
    intro call count returned
    cases returned

theorem clear_drops {key : String}
    (stored : cache.clear.entryAt key ≠ none) : cache.entryAt key ≠ none :=
  absurd (Cache.entryAt_clear cache key) stored

theorem TimesSound.later
    (times : TimesSound cache syncs time listedAt storedAt) :
    TimesSound cache syncs (time + 1) listedAt storedAt where
  listed_past := fun other =>
    Nat.lt_succ_of_lt (times.listed_past other)
  stored_past := fun key => Nat.lt_succ_of_lt (times.stored_past key)
  swept := times.swept

theorem TimesSound.drops
    (times : TimesSound cache syncs time listedAt storedAt)
    {fewer : Cache Batches}
    (kept : ∀ key, fewer.entryAt key ≠ none → cache.entryAt key ≠ none) :
    TimesSound fewer syncs time listedAt storedAt where
  listed_past := times.listed_past
  stored_past := times.stored_past
  swept := by
    intro call count returned positive key stored
    exact times.swept call count returned positive key (kept key stored)

theorem TimesSound.moveOn
    (times : TimesSound cache syncs time listedAt storedAt)
    {state : SyncState}
    (swept : ∀ count, state = .returned count → 0 < count →
      ∀ key, cache.entryAt key = none) :
    TimesSound cache (Function.update syncs call (some state)) time listedAt
      storedAt where
  listed_past := times.listed_past
  stored_past := times.stored_past
  swept := by
    intro other count returned positive key stored
    by_cases own : other = call
    · subst own
      rw [Function.update_self, Option.some.injEq] at returned
      exact absurd (swept count returned positive key) stored
    · rw [Function.update_of_ne own] at returned
      exact times.swept other count returned positive key stored

theorem TimesSound.lists
    (times : TimesSound cache syncs time listedAt storedAt)
    (running : ∀ count, syncs call ≠ some (.returned count)) :
    TimesSound cache syncs (time + 1)
      (Function.update listedAt call time) storedAt where
  listed_past := by
    intro other
    by_cases own : other = call
    · subst own
      rw [Function.update_self]
      exact Nat.lt_succ_self time
    · rw [Function.update_of_ne own]
      exact Nat.lt_succ_of_lt (times.listed_past other)
  stored_past := fun key => Nat.lt_succ_of_lt (times.stored_past key)
  swept := by
    intro other count returned positive key stored
    by_cases own : other = call
    · subst own
      exact absurd returned (running count)
    · rw [Function.update_of_ne own]
      exact times.swept other count returned positive key stored

theorem TimesSound.sets
    (times : TimesSound cache syncs time listedAt storedAt)
    (order : IterationOrder Batches) (stored : String) (batches : Batches)
    (now : Nat) :
    TimesSound (cache.setLocked order stored batches now) syncs (time + 1)
      listedAt (Function.update storedAt stored time) where
  listed_past := fun other =>
    Nat.lt_succ_of_lt (times.listed_past other)
  stored_past := by
    intro key
    by_cases same : key = stored
    · subst same
      rw [Function.update_self]
      exact Nat.lt_succ_self time
    · rw [Function.update_of_ne same]
      exact Nat.lt_succ_of_lt (times.stored_past key)
  swept := by
    intro call count returned positive key present
    by_cases same : key = stored
    · subst same
      rw [Function.update_self]
      exact times.listed_past call
    · rw [Function.update_of_ne same]
      obtain ⟨entry, found⟩ := Option.ne_none_iff_exists'.mp present
      rcases Cache.entryAt_setLocked_cases found with
        ⟨rfl, _, _⟩ | ⟨_, earlier⟩
      · exact absurd rfl same
      · apply times.swept call count returned positive key
        rw [earlier]
        exact Option.some_ne_none entry

end Times

/-- The run invariant. -/
structure Invariant (shared : Shared Batches) : Prop where
  ledger : LedgerSound shared.ledger
  calls : CallsSound shared.called shared.syncs shared.ledger.counted
  lock : LockSound shared.holder shared.locked shared.syncs
    shared.ledger.visits
  times : TimesSound shared.cache shared.syncs shared.time shared.listedAt
    shared.storedAt

section Invariant

variable {parseSql : String → Option (List String)}
variable {shared next : Shared Batches} {action : Action Batches}

theorem invariant_fresh (cache : Cache Batches) :
    Invariant (fresh cache) where
  ledger := ledgerSound_empty
  calls := callsSound_empty
  lock := lockSound_empty
  times := timesSound_empty cache

theorem invariant_step (holds : Invariant shared)
    (stepped : step parseSql shared action = some next) : Invariant next := by
  obtain ⟨ledger, calls, lock, times⟩ := holds
  cases steps_of_step stepped with
  | opens new =>
      refine ⟨ledger, calls.opens new rfl trivial,
        lock.moveOn (by simp [new]) (by simp) (fun _ => new), ?_⟩
      exact times.later.moveOn (by simp)
  | opensNothing new =>
      refine ⟨ledger, calls.opens new rfl trivial,
        lock.moveOn (by simp [new]) (by simp) (by simp), ?_⟩
      apply times.later.moveOn
      rintro count ⟨⟩ positive
      cases positive
  | locks waiting free =>
      rw [free] at lock
      refine ⟨ledger, calls.moveOn waiting rfl trivial,
        lock.locks waiting, ?_⟩
      exact times.later.moveOn (by simp)
  | visits reading =>
      refine ⟨ledger.visit _ _, calls.visit reading _,
        lock.visit reading _ _, ?_⟩
      exact times.later.moveOn (by simp)
  | unlocksIdle reading =>
      refine ⟨ledger, calls.moveOn reading rfl trivial,
        lock.unlocks reading (by simp) (by simp), ?_⟩
      apply (times.lists (by simp [reading])).moveOn
      rintro count ⟨⟩ positive
      cases positive
  | unlocks reading nonempty =>
      refine ⟨ledger, calls.moveOn reading rfl nonempty,
        lock.unlocks reading (by simp) (by simp), ?_⟩
      exact (times.lists (by simp [reading])).moveOn (by simp)
  | findsEmpty testing empty =>
      refine ⟨ledger, calls.moveOn testing rfl trivial,
        lock.moveOn (by simp [testing]) (by simp) (by simp), ?_⟩
      apply times.later.moveOn
      intro _ _ _
      exact Cache.entryAt_of_isEmpty empty
  | findsEntries testing =>
      have nonempty := calls.hasEvents _ _ testing
      refine ⟨ledger, calls.moveOn testing rfl nonempty,
        lock.moveOn (by simp [testing]) (by simp) (by simp), ?_⟩
      exact times.later.moveOn (by simp)
  | clears clearing =>
      refine ⟨ledger, calls.moveOn clearing rfl trivial,
        lock.moveOn (by simp [clearing]) (by simp) (by simp), ?_⟩
      have dropped := times.drops fun _ => clear_drops
      apply dropped.later.moveOn
      intro _ _ _
      exact Cache.entryAt_clear shared.cache
  | gets sql now =>
      refine ⟨ledger, calls, lock, (times.drops ?_).later⟩
      intro key stored
      obtain ⟨entry, found⟩ := Option.ne_none_iff_exists'.mp stored
      obtain ⟨earlier, present, _⟩ :=
        Cache.exists_entry_of_entryAt_getLocked found
      rw [present]
      exact Option.some_ne_none earlier
  | sets sql batches now order =>
      exact ⟨ledger, calls, lock, times.sets order _ batches now⟩
  | clearsCache =>
      exact ⟨ledger, calls, lock, (times.drops fun _ => clear_drops).later⟩

/-- A step of a call changes the cache only when it returns a positive
count. -/
theorem cache_eq_of_step (holds : Invariant shared) {call : Nat}
    (own : action.call = some call)
    (stepped : step parseSql shared action = some next) :
    next.cache = shared.cache ∨
      ∃ count, 0 < count ∧ next.syncs call = some (.returned count) := by
  cases steps_of_step stepped with
  | clears clearing =>
      cases own
      have nonempty := holds.calls.hasEvents _ _ clearing
      exact Or.inr ⟨_, List.length_pos_iff.mpr nonempty,
        Function.update_self _ _ _⟩
  | gets | sets | clearsCache => cases own
  | opens | opensNothing | locks | visits | unlocksIdle | unlocks
  | findsEmpty | findsEntries => exact Or.inl rfl

theorem returned_step {call count : Nat}
    (returned : shared.syncs call = some (.returned count))
    (stepped : step parseSql shared action = some next) :
    next.syncs call = some (.returned count) := by
  have others {other : Nat} {before : Option SyncState} {after : SyncState}
      (current : shared.syncs other = before)
      (running : before ≠ some (.returned count)) :
      Function.update shared.syncs other (some after) call =
        some (.returned count) := by
    have different : call ≠ other := by
      rintro rfl
      exact running (current.symm.trans returned)
    rw [Function.update_of_ne different, returned]
  cases steps_of_step stepped with
  | opens state | opensNothing state | locks state | visits state
  | unlocksIdle state | unlocks state | findsEmpty state | findsEntries state
  | clears state => exact others state (by simp)
  | gets | sets | clearsCache => exact returned

end Invariant

/-- Every JSON file is counted by the first call, in the order of the lock,
that lists and reads it, and by no other call; a file that no call has read is
not processed. -/
structure EventsOnce (shared : Shared Batches) : Prop where
  counted_iff : ∀ path call, path ∈ shared.ledger.counted call ↔
    extension path = some "json" ∧
      firstLocked shared.locked shared.ledger.visits path = some call
  processed_iff : ∀ path, path ∈ shared.ledger.listener.processed ↔
    extension path = some "json" ∧
      (firstLocked shared.locked shared.ledger.visits path).isSome = true
  processed_nodup : shared.ledger.listener.processed.Nodup
  returned_eq : ∀ call count, shared.syncs call = some (.returned count) →
    (shared.ledger.counted call).Nodup ∧
      count = (shared.ledger.counted call).length
  mem_called : ∀ call, call ∈ shared.called ↔ shared.syncs call ≠ none
  called_nodup : shared.called.Nodup
  sum_returned :
    (∀ call ∈ shared.called, ∃ count,
      shared.syncs call = some (.returned count)) →
    (shared.called.map (returnedCount shared)).sum =
      shared.ledger.listener.processed.length

/-- No entry is left that was stored before a call that returned a positive
count had gone through its listing, let alone before it opened the
directory. -/
def Swept (shared : Shared Batches) : Prop :=
  ∀ call count, shared.syncs call = some (.returned count) → 0 < count →
    ∀ key, shared.cache.entryAt key ≠ none →
      shared.listedAt call < shared.storedAt key

/-- Every step of the call in the run leaves the cache as it was. -/
def RemovesNothing (parseSql : String → Option (List String))
    (first : Shared Batches) (actions : List (Action Batches)) (call : Nat) :
    Prop :=
  ∀ before action after current next, actions = before ++ action :: after →
    action.call = some call →
      run (step parseSql) first before = some current →
        step parseSql current action = some next →
          next.cache = current.cache

section Runs

variable {parseSql : String → Option (List String)} {cache : Cache Batches}
variable {actions : List (Action Batches)} {last : Shared Batches}

theorem invariant_of_reached
    (taken : run (step parseSql) (fresh cache) actions = some last) :
    Invariant last :=
  invariant_of_run (fun _ _ _ holds stepped => invariant_step holds stepped)
    (invariant_fresh cache) taken

theorem eventsOnce_of_invariant {shared : Shared Batches}
    (holds : Invariant shared) : EventsOnce shared where
  counted_iff := by
    intro path call
    rw [holds.lock.agrees]
    exact holds.ledger.counted_iff path call
  processed_iff := by
    intro path
    rw [holds.lock.agrees]
    exact holds.ledger.processed_iff path
  processed_nodup := holds.ledger.processed_nodup
  returned_eq := by
    intro call count returned
    refine ⟨holds.ledger.counted_nodup call, ?_⟩
    rw [holds.calls.length_counted, returned]
    rfl
  mem_called := holds.calls.mem_called
  called_nodup := holds.calls.called_nodup
  sum_returned := by
    intro returned
    have covered : ∀ call, call ∉ shared.called →
        shared.ledger.counted call = [] := by
      intro call uncalled
      have unknown : shared.syncs call = none := by
        by_contra known
        exact uncalled ((holds.calls.mem_called call).mpr known)
      apply List.length_eq_zero_iff.mp
      rw [holds.calls.length_counted, unknown]
      rfl
    rw [← holds.ledger.sum_counted holds.calls.called_nodup covered]
    apply congrArg List.sum
    apply List.map_congr_left
    intro call member
    obtain ⟨count, returnedEq⟩ := returned call member
    rw [holds.calls.length_counted, returnedCount, returnedEq]
    rfl

theorem removesNothing_of_returned_zero
    (taken : run (step parseSql) (fresh cache) actions = some last)
    {call : Nat} (zero : last.syncs call = some (.returned 0)) :
    RemovesNothing parseSql (fresh cache) actions call := by
  rintro before action after current next rfl own reached stepped
  obtain ⟨middle, _, toMiddle, toNext, rest⟩ := exists_step_of_run taken
  rw [reached, Option.some.injEq] at toMiddle
  subst toMiddle
  rw [stepped, Option.some.injEq] at toNext
  subst toNext
  rcases cache_eq_of_step (invariant_of_reached reached) own stepped with
    unchanged | ⟨count, positive, returned⟩
  · exact unchanged
  · -- the call had returned already, so this is what it returned
    have final : last.syncs call = some (.returned count) :=
      @invariant_of_run _ _ (step parseSql)
        (fun shared => shared.syncs call = some (.returned count))
        (fun _ _ _ holds stepped => returned_step holds stepped)
        _ _ _ returned rest
    rw [zero] at final
    cases final
    cases positive

/-- Whatever the interleaving, each event file is counted once, by the first
call that reads it; counts sweep the cache, and calls without new events leave
it alone. -/
theorem events_of_run
    (taken : run (step parseSql) (fresh cache) actions = some last) :
    EventsOnce last ∧ Swept last ∧
      ∀ call, last.syncs call = some (.returned 0) →
        RemovesNothing parseSql (fresh cache) actions call := by
  have holds := invariant_of_reached taken
  refine ⟨eventsOnce_of_invariant holds, holds.times.swept, ?_⟩
  intro call zero
  exact removesNothing_of_returned_zero taken zero

/-- Two calls overlap: the first cannot read one of the files, which the
second then counts, and a result is stored between test and clear. -/
private def overlapping : List (Action Nat) :=
  [.set "SELECT 1" 1 0 .listed, .open 0 .directory, .open 1 .directory,
    .lock 0, .visit 0 ⟨"a.json", none⟩, .visit 0 ⟨"b.json", some "b"⟩,
    .visit 0 ⟨"notes.txt", some "c"⟩, .unlock 0, .lock 1,
    .visit 1 ⟨"b.json", some "b"⟩, .visit 1 ⟨"a.json", some "a"⟩, .unlock 1,
    .test 0, .set "SELECT 2" 2 0 .listed, .test 1, .clear 0,
    .set "SELECT 3" 3 0 .listed, .clear 1, .open 2 .notDirectory]

theorem events_of_run_overlapping :
    ∃ last : Shared Nat,
      last.ledger.counted 0 = ["b.json"] ∧
      last.ledger.counted 1 = ["a.json"] ∧
      last.called.map last.syncs =
        [some (.returned 0), some (.returned 1), some (.returned 1)] ∧
      EventsOnce last ∧ Swept last ∧
        ∀ call, last.syncs call = some (.returned 0) →
          RemovesNothing (fun _ => none)
            (fresh (Cache.withClock Nat 16 60 (by decide) (by decide)))
            overlapping call :=
  ⟨_, rfl, rfl, rfl, events_of_run rfl⟩

end Runs

end SyncRuns

end CdcSync

end Igloo
