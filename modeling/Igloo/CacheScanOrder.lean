import Igloo.CacheRecency

/-!
# Independence of the scan order

The eviction scan meets the entries in the iteration order of a hash map.
Since no two entries have the same `lastUsed`, exactly one of them is least,
and the scan finds it in every order.  Two runs that differ in the orders only
are therefore the same run.
-/

namespace Igloo

namespace CacheLayer

variable {Batches : Type*}

namespace Cache

section Orders

variable {cache : Cache Batches}

theorem evictFor_eq (distinct : cache.DistinctlyUsed)
    (order other : IterationOrder Batches) (key : String) :
    evictFor order cache.maxEntries cache.inner.store key =
      evictFor other cache.maxEntries cache.inner.store key := by
  rcases evictFor_cases cache.maxEntries_pos order cache.inner.store key with
    ⟨roomy, evicted⟩ | ⟨absent, full, lru, entry, found, least, evicted⟩
  · rcases evictFor_cases cache.maxEntries_pos other cache.inner.store key
      with ⟨-, otherEvicted⟩ | ⟨absent, full, -⟩
    · rw [evicted, otherEvicted]
    · rcases roomy with present | room
      · exact absurd present absent
      · omega
  · rcases evictFor_cases cache.maxEntries_pos other cache.inner.store key
      with ⟨roomy, -⟩ |
        ⟨-, -, otherLru, otherEntry, otherFound, otherLeast, otherEvicted⟩
    · rcases roomy with present | room
      · exact absurd present absent
      · omega
    · have below := least otherLru otherEntry otherFound
      have above := otherLeast lru entry found
      have sameKey : lru = otherLru :=
        distinct.lastUsed_inj lru entry otherLru otherEntry found otherFound
          (le_antisymm below above)
      rw [evicted, otherEvicted, sameKey]

theorem setLocked_eq (distinct : cache.DistinctlyUsed)
    (order other : IterationOrder Batches) (key : String)
    (batches : Batches) (now : Nat) :
    cache.setLocked order key batches now =
      cache.setLocked other key batches now := by
  simp only [setLocked, evictFor_eq distinct order other key]

end Orders

/-- What one `set` may remove: nothing, or one other entry when a new key
arrives at full capacity. -/
def EvictsAtMostOne (cache : Cache Batches) (key : String)
    (next : Cache Batches) : Prop :=
  ((∀ other, other ≠ key → next.entryAt other = cache.entryAt other) ∧
      next.inner.evictionsLru = cache.inner.evictionsLru) ∨
    (cache.entryAt key = none ∧ cache.len = cache.maxEntries ∧
      next.inner.evictionsLru = cache.inner.evictionsLru + 1 ∧
      ∃ gone, gone ≠ key ∧ cache.entryAt gone ≠ none ∧
        next.entryAt gone = none ∧
        ∀ other, other ≠ key → other ≠ gone →
          next.entryAt other = cache.entryAt other)

theorem evictsAtMostOne_setLocked {cache : Cache Batches}
    (distinct : cache.DistinctlyUsed) (order : IterationOrder Batches)
    (key : String) (batches : Batches) (now : Nat) :
    EvictsAtMostOne cache key (cache.setLocked order key batches now) := by
  have entryEq := fun other (different : other ≠ key) =>
    entryAt_setLocked_of_ne different cache order batches now
  have evictionsEq :
      (cache.setLocked order key batches now).inner.evictionsLru =
        cache.inner.evictionsLru +
          (evictFor order cache.maxEntries cache.inner.store key).2 := rfl
  rcases setLocked_cases cache order key batches now with
    ⟨-, evicted, -⟩ | ⟨-, -, evicted, -⟩ |
      ⟨absent, full, lru, entry, found, -, evicted, -⟩
  · left
    rw [evicted] at entryEq evictionsEq
    exact ⟨entryEq, evictionsEq⟩
  · left
    rw [evicted] at entryEq evictionsEq
    exact ⟨entryEq, evictionsEq⟩
  · right
    rw [evicted] at entryEq evictionsEq
    have lruNotKey : lru ≠ key := by
      rintro rfl
      exact absent (mem_store_of_entryAt found)
    refine ⟨AList.lookup_eq_none.mpr absent,
      le_antisymm distinct.len_le full, evictionsEq, lru, lruNotKey, ?_,
      ?_, ?_⟩
    · rw [found]
      exact Option.some_ne_none entry
    · rw [entryEq lru lruNotKey]
      exact AList.lookup_erase _ _
    · intro other notKey notLru
      rw [entryEq other notKey]
      exact AList.lookup_erase_ne notLru

end Cache

namespace History

/-- The same scheduling choices, up to the order of the eviction scan. -/
inductive SameUpToOrder : Action Batches → Action Batches → Prop
  | start (thread : Nat) (call : Call Batches) (now : Nat) :
      SameUpToOrder (.start thread call now) (.start thread call now)
  | enter (thread : Nat) (order other : IterationOrder Batches) :
      SameUpToOrder (.enter thread order) (.enter thread other)

section Runs

variable {parseSql : String → Option (List String)}

theorem lockedSection_eq {cache : Cache Batches}
    (distinct : cache.DistinctlyUsed) (order other : IterationOrder Batches)
    (pending : Pending Batches) :
    lockedSection parseSql cache order pending =
      lockedSection parseSql cache other pending := by
  cases called : pending.call with
  | get sql => simp only [lockedSection, called]
  | set sql batches =>
      simp only [lockedSection, called, Cache.set]
      rw [Cache.setLocked_eq distinct order other]
  | clear => simp only [lockedSection, called]

theorem step_eq {shared : Shared Batches} {action other : Action Batches}
    (distinct : shared.cache.DistinctlyUsed)
    (same : SameUpToOrder action other) :
    step parseSql shared action = step parseSql shared other := by
  cases same with
  | start thread call now => rfl
  | enter thread order otherOrder =>
      cases waiting : shared.pending thread with
      | none => simp only [step, waiting]
      | some pending =>
          simp only [step, waiting, lockedSection_eq distinct order
            otherOrder pending]

theorem distinctlyUsed_step {shared next : Shared Batches}
    {action : Action Batches} (distinct : shared.cache.DistinctlyUsed)
    (stepped : step parseSql shared action = some next) :
    next.cache.DistinctlyUsed := by
  rcases step_cases stepped with
    ⟨-, -, -, -, -, cacheEq, -⟩ | ⟨-, order, pending, -, -, cacheEq, -⟩
  · rw [cacheEq]
    exact distinct
  · rw [cacheEq]
    exact distinct.advances
      (advances_lockedSection parseSql shared.cache order pending)

theorem run_eq {shared : Shared Batches}
    {actions others : List (Action Batches)}
    (distinct : shared.cache.DistinctlyUsed)
    (same : List.Forall₂ SameUpToOrder actions others) :
    LabelledRuns.run (step parseSql) shared actions =
      LabelledRuns.run (step parseSql) shared others := by
  induction same generalizing shared with
  | nil => rfl
  | cons head tail induction =>
      simp only [LabelledRuns.run, ← step_eq distinct head]
      apply Option.bind_congr
      intro next stepped
      exact induction (distinctlyUsed_step distinct stepped)

theorem tick_lockedSection_le
    (parseSql : String → Option (List String)) (cache : Cache Batches)
    (order : IterationOrder Batches) (pending : Pending Batches) :
    (lockedSection parseSql cache order pending).1.inner.tick ≤
      cache.inner.tick + 1 := by
  cases called : pending.call with
  | get sql =>
      simp only [lockedSection, called, Cache.get]
      rcases Cache.getLocked_cases cache (normalizeQuery parseSql sql)
        pending.now with
        ⟨entry, found, fresh⟩ | ⟨entry, found, expired⟩ | absent
      · rw [Cache.getLocked_of_fresh found fresh]
      · rw [Cache.getLocked_of_expired found expired]
      · rw [Cache.getLocked_of_absent absent]
  | set sql batches =>
      simp only [lockedSection, called, Cache.set]
      exact le_rfl
  | clear =>
      simp only [lockedSection, called]
      exact Nat.le_succ _

end Runs

/-- The invariants of a run that make its evictions unambiguous.  The bound
on the tick says that a machine counter of `w` bits does not wrap in fewer
than `2 ^ w` locked sections. -/
structure Unambiguous (last : Shared Batches) : Prop where
  distinct : last.cache.DistinctlyUsed
  tick_le : last.cache.inner.tick ≤ last.history.length
  evictsAtMostOne : ∀ order key batches now,
    last.cache.EvictsAtMostOne key
      (last.cache.setLocked order key batches now)

theorem unambiguous_of_run {parseSql : String → Option (List String)}
    {maxEntries ttl : Nat} {maxEntries_pos : 0 < maxEntries}
    {ttl_pos : 0 < ttl} {actions : List (Action Batches)}
    {last : Shared Batches}
    (taken : LabelledRuns.run (step parseSql)
      (fresh Batches maxEntries ttl maxEntries_pos ttl_pos) actions =
        some last) :
    Unambiguous last := by
  have distinct : last.cache.DistinctlyUsed :=
    LabelledRuns.invariant_of_run
      (fun _ _ _ holds stepped => distinctlyUsed_step holds stepped)
      (Cache.distinctlyUsed_withClock maxEntries_pos ttl_pos) taken
  have tick_le : last.cache.inner.tick ≤ last.history.length := by
    refine @holds_of_run _ parseSql
      (fun cache history => cache.inner.tick ≤ history.length) ?_
      _ _ _ _ _ _ le_rfl taken
    intro cache history order pending holds
    have grows := tick_lockedSection_le parseSql cache order pending
    rw [List.length_append, List.length_singleton]
    omega
  exact ⟨distinct, tick_le, fun order key batches now =>
    Cache.evictsAtMostOne_setLocked distinct order key batches now⟩

/-- Two runs that make the same calls with the same clock readings, and scan
the store in any two ways, answer every lookup alike and end in the same
cache; the invariants that make it so hold at the end of both. -/
theorem run_independent_of_scan_order
    {parseSql : String → Option (List String)} {maxEntries ttl : Nat}
    (maxEntries_pos : 0 < maxEntries) (ttl_pos : 0 < ttl)
    {actions others : List (Action Batches)}
    (same : List.Forall₂ SameUpToOrder actions others) :
    LabelledRuns.run (step parseSql)
        (fresh Batches maxEntries ttl maxEntries_pos ttl_pos) actions =
      LabelledRuns.run (step parseSql)
        (fresh Batches maxEntries ttl maxEntries_pos ttl_pos) others ∧
    ∀ last, LabelledRuns.run (step parseSql)
        (fresh Batches maxEntries ttl maxEntries_pos ttl_pos) actions =
          some last →
      Unambiguous last := by
  constructor
  · exact run_eq (Cache.distinctlyUsed_withClock maxEntries_pos ttl_pos) same
  · intro last taken
    exact unambiguous_of_run taken

/-- The iteration order that meets the entries in reverse. -/
def reversedOrder : IterationOrder Batches where
  visit store := store.entries.reverse
  perm store := store.entries.reverse_perm

private def threeStores (order : IterationOrder Nat) : List (Action Nat) :=
  [.start 0 (.set "a" 1) 5, .enter 0 order,
    .start 0 (.set "b" 2) 5, .enter 0 order,
    .start 0 (.set "c" 3) 5, .enter 0 order]

/-- Both orders evict `a`. -/
theorem run_independent_of_scan_order_reversed :
    ∃ last,
      LabelledRuns.run (step fun _ => none)
        (fresh Nat 2 60 (by decide) (by decide))
        (threeStores .listed) = some last ∧
      LabelledRuns.run (step fun _ => none)
        (fresh Nat 2 60 (by decide) (by decide))
        (threeStores reversedOrder) = some last ∧
      last.cache.entryAt "a" = none ∧ Unambiguous last := by
  have independent := @run_independent_of_scan_order Nat (fun _ => none) 2 60
    (by decide) (by decide) _ _
    (show List.Forall₂ SameUpToOrder (threeStores .listed)
        (threeStores reversedOrder) from
      .cons (.start 0 _ 5) (.cons (.enter 0 _ _)
        (.cons (.start 0 _ 5) (.cons (.enter 0 _ _)
          (.cons (.start 0 _ 5) (.cons (.enter 0 _ _) .nil))))))
  obtain ⟨last, taken, evicted⟩ : ∃ last,
      LabelledRuns.run (step fun _ => none)
        (fresh Nat 2 60 (by decide) (by decide))
        (threeStores .listed) = some last ∧
      last.cache.entryAt "a" = none :=
    ⟨_, rfl, rfl⟩
  exact ⟨last, taken, independent.1.symm.trans taken, evicted,
    independent.2 last taken⟩

end History

end CacheLayer

end Igloo
