import Igloo.CacheRecency

/-!
# What the cache counters count

Entries leave the store in three ways: evicted for room, expired, and cleared.
The first two have counters and the third is totalled along the run, so that
together with the entries still there they account for every `set` that found
its key absent.
-/

namespace Igloo

namespace CacheLayer

variable {Batches : Type*}

namespace Cache

/-- How a lookup counts: it counts an expiry exactly when it removes an entry,
and then a miss as well. -/
structure CountsExpiry (cache : Cache Batches) (key : String) (now : Nat) :
    Prop where
  expired_iff :
    (cache.getLocked key now).1.stats.evictionsTtl =
        cache.stats.evictionsTtl + 1 ↔
      ∃ gone, cache.entryAt gone ≠ none ∧
        (cache.getLocked key now).1.entryAt gone = none
  otherwise :
    (cache.getLocked key now).1.stats.evictionsTtl ≠
        cache.stats.evictionsTtl + 1 →
      (cache.getLocked key now).1.stats.evictionsTtl =
        cache.stats.evictionsTtl
  missed :
    (cache.getLocked key now).1.stats.evictionsTtl =
        cache.stats.evictionsTtl + 1 →
      (cache.getLocked key now).1.stats.misses = cache.stats.misses + 1 ∧
        (cache.getLocked key now).2 = none

section Counters

variable {cache : Cache Batches} {key : String} {now : Nat}

theorem evictionsLru_getLocked (cache : Cache Batches) (key : String)
    (now : Nat) :
    (cache.getLocked key now).1.stats.evictionsLru =
      cache.stats.evictionsLru := by
  rcases getLocked_cases cache key now with
    ⟨entry, found, fresh⟩ | ⟨entry, found, expired⟩ | absent
  · rw [getLocked_of_fresh found fresh]
    rfl
  · rw [getLocked_of_expired found expired]
    rfl
  · rw [getLocked_of_absent absent]
    rfl

theorem evictionsTtl_getLocked_of_fresh {entry : Entry Batches}
    (found : cache.entryAt key = some entry)
    (fresh : now - entry.insertedAt ≤ cache.ttl) :
    (cache.getLocked key now).1.stats.evictionsTtl =
      cache.stats.evictionsTtl := by
  rw [getLocked_of_fresh found fresh]
  rfl

theorem evictionsTtl_getLocked_of_expired {entry : Entry Batches}
    (found : cache.entryAt key = some entry)
    (expired : ¬ now - entry.insertedAt ≤ cache.ttl) :
    (cache.getLocked key now).1.stats.evictionsTtl =
      cache.stats.evictionsTtl + 1 := by
  rw [getLocked_of_expired found expired]
  rfl

theorem evictionsTtl_getLocked_of_absent
    (absent : cache.entryAt key = none) :
    (cache.getLocked key now).1.stats.evictionsTtl =
      cache.stats.evictionsTtl := by
  rw [getLocked_of_absent absent]
  rfl

theorem CountsExpiry.of_kept
    (counted : (cache.getLocked key now).1.stats.evictionsTtl =
      cache.stats.evictionsTtl)
    (kept : ∀ other, cache.entryAt other ≠ none →
      (cache.getLocked key now).1.entryAt other ≠ none) :
    CountsExpiry cache key now where
  expired_iff := by
    constructor
    · intro grown
      omega
    · rintro ⟨gone, present, removed⟩
      exact absurd removed (kept gone present)
  otherwise := fun _ => counted
  missed := by
    intro grown
    omega

theorem countsExpiry (cache : Cache Batches) (key : String) (now : Nat) :
    CountsExpiry cache key now := by
  rcases getLocked_cases cache key now with
    ⟨entry, found, fresh⟩ | ⟨entry, found, expired⟩ | absent
  · apply CountsExpiry.of_kept (evictionsTtl_getLocked_of_fresh found fresh)
    intro other present
    by_cases own : other = key
    · subst own
      rw [getLocked_of_fresh found fresh]
      simp [entryAt]
    · rwa [entryAt_getLocked_of_ne own]
  · have removed : (cache.getLocked key now).1.entryAt key = none := by
      rw [getLocked_of_expired found expired]
      exact AList.lookup_erase _ _
    have counted := evictionsTtl_getLocked_of_expired found expired
    have present : cache.entryAt key ≠ none := by
      rw [found]
      exact Option.some_ne_none entry
    refine ⟨⟨fun _ => ⟨key, present, removed⟩, fun _ => counted⟩,
      fun same => absurd counted same, fun _ => ?_⟩
    rw [getLocked_of_expired found expired]
    exact ⟨rfl, rfl⟩
  · apply CountsExpiry.of_kept (evictionsTtl_getLocked_of_absent absent)
    intro other present
    rwa [getLocked_of_absent absent]

end Counters

theorem hits_add_misses_getLocked (cache : Cache Batches) (key : String)
    (now : Nat) :
    (cache.getLocked key now).1.stats.hits +
        (cache.getLocked key now).1.stats.misses =
      cache.stats.hits + cache.stats.misses + 1 := by
  rcases getLocked_cases cache key now with
    ⟨entry, found, fresh⟩ | ⟨entry, found, expired⟩ | absent
  · rw [getLocked_of_fresh found fresh]
    simp only [stats]
    omega
  · rw [getLocked_of_expired found expired]
    simp only [stats]
    omega
  · rw [getLocked_of_absent absent]
    simp only [stats]
    omega

/-- The entries present, evicted and expired. -/
def accounted (cache : Cache Batches) : Nat :=
  cache.stats.entries + cache.stats.evictionsLru + cache.stats.evictionsTtl

/-- A lookup moves at most one entry, from present to expired. -/
theorem accounted_getLocked (cache : Cache Batches) (key : String)
    (now : Nat) :
    (cache.getLocked key now).1.accounted = cache.accounted := by
  have evictions : (cache.getLocked key now).1.stats.evictionsLru =
      cache.stats.evictionsLru := evictionsLru_getLocked cache key now
  unfold accounted
  rcases getLocked_cases cache key now with
    ⟨entry, found, fresh⟩ | ⟨entry, found, expired⟩ | absent
  · have entries : (cache.getLocked key now).1.stats.entries =
        cache.stats.entries := len_getLocked_of_fresh found fresh
    have expiries := evictionsTtl_getLocked_of_fresh found fresh
    omega
  · have entries : (cache.getLocked key now).1.stats.entries + 1 =
        cache.stats.entries := len_getLocked_of_expired found expired
    have expiries := evictionsTtl_getLocked_of_expired found expired
    omega
  · have entries : (cache.getLocked key now).1.stats.entries =
        cache.stats.entries := len_getLocked_of_absent absent
    have expiries : (cache.getLocked key now).1.stats.evictionsTtl =
        cache.stats.evictionsTtl := evictionsTtl_getLocked_of_absent absent
    omega

/-- A store adds one entry to the account if its key was absent. -/
theorem accounted_setLocked (cache : Cache Batches)
    (order : IterationOrder Batches) (key : String) (batches : Batches)
    (now : Nat) :
    (cache.setLocked order key batches now).accounted =
      cache.accounted + if key ∈ cache.inner.store then 0 else 1 := by
  have evictions :
      (cache.setLocked order key batches now).inner.evictionsLru =
        cache.inner.evictionsLru +
          (evictFor order cache.maxEntries cache.inner.store key).2 := rfl
  have expiries :
      (cache.setLocked order key batches now).inner.evictionsTtl =
        cache.inner.evictionsTtl := rfl
  simp only [accounted, stats, evictions, expiries]
  rcases setLocked_cases cache order key batches now with
    ⟨present, evicted, entries⟩ | ⟨absent, -, evicted, entries⟩ |
      ⟨absent, -, lru, entry, -, -, evicted, entries⟩
  · rw [entries, evicted, if_pos present]
    omega
  · rw [entries, evicted, if_neg absent]
    omega
  · rw [entries, evicted, if_neg absent]
    omega

theorem accounted_clear (cache : Cache Batches) :
    cache.clear.accounted + cache.stats.entries = cache.accounted := by
  have noEntries : cache.clear.stats.entries = 0 := rfl
  have evictions : cache.clear.stats.evictionsLru =
      cache.stats.evictionsLru := rfl
  have expiries : cache.clear.stats.evictionsTtl =
      cache.stats.evictionsTtl := rfl
  unfold accounted
  omega

end Cache

namespace History

/-- The weight of the call whose locked section an action runs. -/
def ofEntering (weight : Cache Batches → Call Batches → Nat)
    (shared : Shared Batches) : Action Batches → Nat
  | .start _ _ _ => 0
  | .enter thread _ =>
      match shared.pending thread with
      | some pending => weight shared.cache pending.call
      | none => 0

/-- Counts the calls of `get`. -/
def getCalls (_ : Cache Batches) : Call Batches → Nat
  | .get _ => 1
  | _ => 0

/-- Counts the calls of `set` that find their key absent. -/
def newKeySets (parseSql : String → Option (List String))
    (cache : Cache Batches) : Call Batches → Nat
  | .set sql _ =>
      if normalizeQuery parseSql sql ∈ cache.inner.store then 0 else 1
  | _ => 0

/-- Counts the entries that calls of `clear` remove. -/
def clearedEntries (cache : Cache Batches) : Call Batches → Nat
  | .clear => cache.stats.entries
  | _ => 0

section LockedSection

variable {parseSql : String → Option (List String)}

theorem hits_add_misses_lockedSection (cache : Cache Batches)
    (order : IterationOrder Batches) (pending : Pending Batches) :
    (lockedSection parseSql cache order pending).1.stats.hits +
        (lockedSection parseSql cache order pending).1.stats.misses =
      cache.stats.hits + cache.stats.misses +
        getCalls cache pending.call := by
  cases called : pending.call with
  | get sql =>
      simp only [lockedSection, called, Cache.get, getCalls]
      exact Cache.hits_add_misses_getLocked cache _ pending.now
  | set sql batches => simp only [lockedSection, called]; rfl
  | clear => simp only [lockedSection, called]; rfl

theorem accounted_lockedSection (cache : Cache Batches)
    (order : IterationOrder Batches) (pending : Pending Batches) :
    (lockedSection parseSql cache order pending).1.accounted +
        clearedEntries cache pending.call =
      cache.accounted + newKeySets parseSql cache pending.call := by
  cases called : pending.call with
  | get sql =>
      simp only [lockedSection, called, Cache.get, clearedEntries,
        newKeySets]
      exact Cache.accounted_getLocked cache _ pending.now
  | set sql batches =>
      simp only [lockedSection, called, Cache.set, clearedEntries,
        newKeySets]
      exact Cache.accounted_setLocked cache order _ batches pending.now
  | clear =>
      simp only [lockedSection, called, clearedEntries, newKeySets]
      exact Cache.accounted_clear cache

theorem len_lockedSection_le {cache : Cache Batches}
    (order : IterationOrder Batches) (pending : Pending Batches)
    (bounded : cache.len ≤ cache.maxEntries) :
    (lockedSection parseSql cache order pending).1.len ≤
      (lockedSection parseSql cache order pending).1.maxEntries := by
  have advances := advances_lockedSection parseSql cache order pending
  rw [advances.maxEntries_eq]
  exact advances.len_le bounded

end LockedSection

section Runs

variable {parseSql : String → Option (List String)}
variable {shared next : Shared Batches} {action : Action Batches}

theorem ofEntering_start {thread now : Nat} {call : Call Batches}
    (weight : Cache Batches → Call Batches → Nat) :
    ofEntering weight shared (.start thread call now) = 0 :=
  rfl

theorem ofEntering_enter {thread : Nat} {order : IterationOrder Batches}
    {pending : Pending Batches}
    (weight : Cache Batches → Call Batches → Nat)
    (waiting : shared.pending thread = some pending) :
    ofEntering weight shared (.enter thread order) =
      weight shared.cache pending.call := by
  simp only [ofEntering, waiting]

theorem hits_add_misses_step
    (stepped : step parseSql shared action = some next) :
    next.cache.stats.hits + next.cache.stats.misses + 0 =
      shared.cache.stats.hits + shared.cache.stats.misses +
        ofEntering getCalls shared action := by
  rcases step_cases stepped with
    ⟨thread, call, now, rfl, -, cacheEq, -⟩ |
      ⟨thread, order, pending, rfl, waiting, cacheEq, -⟩
  · rw [cacheEq, ofEntering_start]
  · rw [cacheEq, ofEntering_enter getCalls waiting]
    exact hits_add_misses_lockedSection shared.cache order pending

theorem accounted_step
    (stepped : step parseSql shared action = some next) :
    next.cache.accounted + ofEntering clearedEntries shared action =
      shared.cache.accounted +
        ofEntering (newKeySets parseSql) shared action := by
  rcases step_cases stepped with
    ⟨thread, call, now, rfl, -, cacheEq, -⟩ |
      ⟨thread, order, pending, rfl, waiting, cacheEq, -⟩
  · rw [cacheEq, ofEntering_start, ofEntering_start]
  · rw [cacheEq, ofEntering_enter clearedEntries waiting,
      ofEntering_enter (newKeySets parseSql) waiting]
    exact accounted_lockedSection shared.cache order pending

theorem hits_add_misses_run {last : Shared Batches}
    {actions : List (Action Batches)}
    (taken : LabelledRuns.run (step parseSql) shared actions = some last) :
    last.cache.stats.hits + last.cache.stats.misses =
      shared.cache.stats.hits + shared.cache.stats.misses +
        LabelledRuns.sumAlong (step parseSql) (ofEntering getCalls) shared
          actions := by
  have balance := @LabelledRuns.balance_of_run _ _ (step parseSql)
    (fun shared => shared.cache.stats.hits + shared.cache.stats.misses)
    (ofEntering getCalls) (fun _ _ => 0)
    (fun _ _ _ stepped => hits_add_misses_step stepped) _ _ _ taken
  rwa [LabelledRuns.sumAlong_zero] at balance

theorem accounted_run {last : Shared Batches}
    {actions : List (Action Batches)}
    (taken : LabelledRuns.run (step parseSql) shared actions = some last) :
    last.cache.accounted +
        LabelledRuns.sumAlong (step parseSql) (ofEntering clearedEntries)
          shared actions =
      shared.cache.accounted +
        LabelledRuns.sumAlong (step parseSql)
          (ofEntering (newKeySets parseSql)) shared actions :=
  @LabelledRuns.balance_of_run _ _ (step parseSql)
    (fun shared => shared.cache.accounted)
    (ofEntering (newKeySets parseSql)) (ofEntering clearedEntries)
    (fun _ _ _ stepped => accounted_step stepped) _ _ _ taken

end Runs

/-- Over every run on a fresh cache: each completed `get` is a hit or a miss;
each `set` that found its key absent is an entry that is still there, was
evicted, expired or was cleared; the entries respect the capacity; and a
lookup counts an expiry, and then a miss, exactly when it removes an entry. -/
theorem counters_of_run {parseSql : String → Option (List String)}
    {maxEntries ttl : Nat} (maxEntries_pos : 0 < maxEntries)
    (ttl_pos : 0 < ttl) {actions : List (Action Batches)}
    {last : Shared Batches}
    (taken : LabelledRuns.run (step parseSql)
      (fresh Batches maxEntries ttl maxEntries_pos ttl_pos) actions =
        some last) :
    last.cache.stats.hits + last.cache.stats.misses =
        LabelledRuns.sumAlong (step parseSql) (ofEntering getCalls)
          (fresh Batches maxEntries ttl maxEntries_pos ttl_pos) actions ∧
      LabelledRuns.sumAlong (step parseSql)
          (ofEntering (newKeySets parseSql))
          (fresh Batches maxEntries ttl maxEntries_pos ttl_pos) actions =
        last.cache.stats.entries + last.cache.stats.evictionsLru +
            last.cache.stats.evictionsTtl +
          LabelledRuns.sumAlong (step parseSql) (ofEntering clearedEntries)
            (fresh Batches maxEntries ttl maxEntries_pos ttl_pos) actions ∧
      last.cache.stats.entries ≤ maxEntries ∧
      ∀ key now, last.cache.CountsExpiry key now := by
  refine ⟨?_, ?_, ?_, fun key now => Cache.countsExpiry last.cache key now⟩
  · have counted := hits_add_misses_run taken
    simpa [fresh, Cache.withClock, Cache.stats] using counted
  · have balance := accounted_run taken
    have initially : (fresh Batches maxEntries ttl maxEntries_pos
        ttl_pos).cache.accounted = 0 := rfl
    rw [initially, zero_add] at balance
    exact balance.symm
  · have capacity : last.cache.maxEntries = maxEntries ∧
        last.cache.len ≤ last.cache.maxEntries := by
      refine @holds_of_run _ parseSql
        (fun cache _ => cache.maxEntries = maxEntries ∧
          cache.len ≤ cache.maxEntries) ?_ _ _ _ _ _ _
        ⟨rfl, Nat.zero_le _⟩ taken
      rintro cache history order pending ⟨sameCapacity, bounded⟩
      refine ⟨?_, len_lockedSection_le order pending bounded⟩
      rw [← sameCapacity]
      exact (advances_lockedSection parseSql cache order
        pending).maxEntries_eq
    exact capacity.1 ▸ capacity.2

private def mixedCalls : List (Action Nat) :=
  [.start 0 (.set "a" 1) 5, .enter 0 .listed,
    .start 0 (.set "b" 2) 5, .enter 0 .listed,
    .start 0 (.set "a" 3) 6, .enter 0 .listed,
    .start 0 (.set "c" 4) 7, .enter 0 .listed,
    .start 0 (.get "b") 8, .enter 0 .listed,
    .start 0 (.get "a") 90, .enter 0 .listed,
    .start 0 .clear 0, .enter 0 .listed]

/-- Three new keys: one evicted, one expired and one cleared. -/
theorem counters_of_run_mixedCalls :
    ∃ last,
      LabelledRuns.run (step fun _ => none)
        (fresh Nat 2 60 (by decide) (by decide)) mixedCalls = some last ∧
      last.cache.stats = ⟨0, 2, 1, 1, 0⟩ ∧
      LabelledRuns.sumAlong (step fun _ => none)
          (ofEntering (newKeySets fun _ => none))
          (fresh Nat 2 60 (by decide) (by decide)) mixedCalls =
        last.cache.stats.entries + last.cache.stats.evictionsLru +
            last.cache.stats.evictionsTtl +
          LabelledRuns.sumAlong (step fun _ => none)
            (ofEntering clearedEntries)
            (fresh Nat 2 60 (by decide) (by decide)) mixedCalls := by
  obtain ⟨last, taken, stats⟩ : ∃ last,
      LabelledRuns.run (step fun _ => none)
        (fresh Nat 2 60 (by decide) (by decide)) mixedCalls = some last ∧
      last.cache.stats = ⟨0, 2, 1, 1, 0⟩ :=
    ⟨_, rfl, rfl⟩
  exact ⟨last, taken, stats,
    (counters_of_run (by decide) (by decide) taken).2.1⟩

end History

end CacheLayer

end Igloo
