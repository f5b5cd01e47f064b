import Igloo.CacheRecency
import Igloo.RecencyLists

/-!
# The cache as a recency list

The cache stamps its entries with ticks and searches for the least stamp when
it has to make room.  What it does for its callers is simpler: it keeps the
results by recency of use, answers a lookup that is in time, and drops the
result used longest ago when a new one does not fit.  In every run, under any
interleaving, each lookup is answered as the recency list made from the earlier
locked sections answers it, and the cache holds what that list holds.
-/

namespace Igloo

namespace CacheLayer

open RecencyLists

variable {Batches : Type*}

/-- What an entry holds, without the time of its last use. -/
def Entry.held (entry : Entry Batches) : Held Batches :=
  ⟨entry.batches, entry.insertedAt⟩

namespace Cache

/-- The cache holds what the list holds, and its uses are ordered as the list
is. -/
def Implements (cache : Cache Batches) (list : RecencyList String Batches) :
    Prop :=
  Ranks Entry.held Entry.lastUsed cache.inner.store list

section Implements

variable {cache : Cache Batches} {list : RecencyList String Batches}

theorem Implements.lookup_eq (implements : cache.Implements list)
    (key : String) :
    list.lookup key = (cache.entryAt key).map Entry.held :=
  Ranks.lookup_eq implements key

theorem Implements.length_eq (implements : cache.Implements list) :
    list.entries.length = cache.len :=
  Ranks.length_eq implements

/-- The tick of the next locked section is above all uses so far. -/
theorem DistinctlyUsed.lastUsed_lt (distinct : cache.DistinctlyUsed)
    {key : String} {entry : Entry Batches}
    (found : cache.inner.store.lookup key = some entry) :
    entry.lastUsed < cache.inner.tick + 1 :=
  Nat.lt_succ_of_le (distinct.lastUsed_le key entry found)

theorem implements_getLocked (distinct : cache.DistinctlyUsed)
    (implements : cache.Implements list) (key : String) (now : Nat) :
    (cache.getLocked key now).1.Implements (use cache.ttl list key now).1 ∧
      (cache.getLocked key now).2 = (use cache.ttl list key now).2 := by
  rcases getLocked_cases cache key now with
    ⟨entry, found, fresh⟩ | ⟨entry, found, expired⟩ | absent
  · rw [getLocked_of_fresh found fresh, Ranks.use_of_fresh implements found
      fresh]
    refine ⟨?_, rfl⟩
    exact Ranks.insert implements key
      { entry with lastUsed := cache.inner.tick + 1 }
      fun other otherEntry otherFound => distinct.lastUsed_lt otherFound
  · rw [getLocked_of_expired found expired, Ranks.use_of_expired implements
      found expired]
    exact ⟨Ranks.erase implements key, rfl⟩
  · rw [getLocked_of_absent absent, Ranks.use_of_absent implements absent]
    exact ⟨implements, rfl⟩

theorem implements_setLocked (distinct : cache.DistinctlyUsed)
    (implements : cache.Implements list) (order : IterationOrder Batches)
    (key : String) (batches : Batches) (now : Nat) :
    (cache.setLocked order key batches now).Implements
      (put cache.maxEntries list key batches now) := by
  have newest : ∀ other otherEntry,
      cache.inner.store.lookup other = some otherEntry →
        otherEntry.lastUsed < cache.inner.tick + 1 :=
    fun other otherEntry otherFound => distinct.lastUsed_lt otherFound
  -- what `set` leaves after making room, for the store and the list alike
  have inserted : ∀ {store list},
      evictFor order cache.maxEntries cache.inner.store key =
        (store, (evictFor order cache.maxEntries cache.inner.store key).2) →
      Ranks Entry.held Entry.lastUsed store list →
      (∀ other otherEntry, store.lookup other = some otherEntry →
        otherEntry.lastUsed < cache.inner.tick + 1) →
      (cache.setLocked order key batches now).Implements
        (list.insert key ⟨batches, now⟩) := by
    intro store list evicted ranks newest
    have storeEq : (evictFor order cache.maxEntries cache.inner.store key).1 =
        store := congrArg Prod.fst evicted
    unfold Implements setLocked
    simp only [storeEq]
    exact ranks.insert key ⟨batches, now, cache.inner.tick + 1⟩ newest
  have lengths := implements.length_eq
  rcases setLocked_cases cache order key batches now with
    ⟨present, evicted, -⟩ | ⟨absent, room, evicted, -⟩ |
      ⟨absent, full, lru, entry, found, least, evicted, -⟩
  · rw [put_of_mem ((Ranks.mem_iff implements).mpr present)
      (lengths ▸ distinct.len_le)]
    exact inserted (by rw [evicted]) implements newest
  · rw [put_of_notMem (mt (Ranks.mem_iff implements).mp absent)
      (lengths ▸ room)]
    exact inserted (by rw [evicted]) implements newest
  · obtain ⟨front, last, split, lastEq⟩ :=
      Ranks.exists_last implements found least
    have capacityEq : cache.maxEntries = list.entries.length := by
      rw [lengths]
      exact le_antisymm full distinct.len_le
    rw [capacityEq, put_of_full split
      (mt (Ranks.mem_iff implements).mp absent), lastEq]
    refine inserted (by rw [evicted]) (Ranks.erase implements lru) ?_
    intro other otherEntry otherFound
    by_cases same : other = lru
    · subst same
      rw [AList.lookup_erase] at otherFound
      cases otherFound
    · rw [AList.lookup_erase_ne same] at otherFound
      exact newest other otherEntry otherFound

end Implements

end Cache

namespace History

/-- What a locked section makes of a recency list. -/
def react (maxEntries ttl : Nat) (list : RecencyList String Batches) :
    Event Batches → RecencyList String Batches
  | .got key now _ => (use ttl list key now).1
  | .stored key batches now => put maxEntries list key batches now
  | .cleared => ∅

/-- The recency list after a history. -/
def recencyAfter (maxEntries ttl : Nat) (history : List (Event Batches)) :
    RecencyList String Batches :=
  history.foldl (react maxEntries ttl) ∅

theorem recencyAfter_concat (maxEntries ttl : Nat)
    (history : List (Event Batches)) (event : Event Batches) :
    recencyAfter maxEntries ttl (history ++ [event]) =
      react maxEntries ttl (recencyAfter maxEntries ttl history) event := by
  rw [recencyAfter, List.foldl_concat, recencyAfter]

/-- Every lookup was answered as the recency list answers it. -/
def AnsweredByRecency (maxEntries ttl : Nat)
    (history : List (Event Batches)) : Prop :=
  ∀ before after key now result,
    history = before ++ .got key now result :: after →
      result = (use ttl (recencyAfter maxEntries ttl before) key now).2

/-- The invariant of the refinement. -/
structure Refines (maxEntries ttl : Nat) (cache : Cache Batches)
    (history : List (Event Batches)) : Prop where
  maxEntries_eq : cache.maxEntries = maxEntries
  ttl_eq : cache.ttl = ttl
  distinct : cache.DistinctlyUsed
  implements : cache.Implements (recencyAfter maxEntries ttl history)
  answered : AnsweredByRecency maxEntries ttl history

theorem refines_withClock {maxEntries ttl : Nat}
    (maxEntries_pos : 0 < maxEntries) (ttl_pos : 0 < ttl) :
    Refines maxEntries ttl
      (Cache.withClock Batches maxEntries ttl maxEntries_pos ttl_pos) [] where
  maxEntries_eq := rfl
  ttl_eq := rfl
  distinct := Cache.distinctlyUsed_withClock maxEntries_pos ttl_pos
  implements := ranks_empty
  answered := by
    intro before after key now result split
    simp at split

/-- A locked section does to the cache what its event does to the list, and
answers as the list does. -/
theorem implements_lockedSection
    (parseSql : String → Option (List String)) {cache : Cache Batches}
    {list : RecencyList String Batches} (distinct : cache.DistinctlyUsed)
    (implements : cache.Implements list) (order : IterationOrder Batches)
    (pending : Pending Batches) :
    (lockedSection parseSql cache order pending).1.Implements
        (react cache.maxEntries cache.ttl list
          (lockedSection parseSql cache order pending).2) ∧
      ∀ key now result,
        (lockedSection parseSql cache order pending).2 =
            .got key now result →
          result = (use cache.ttl list key now).2 := by
  cases called : pending.call with
  | get sql =>
      obtain ⟨kept, answer⟩ := Cache.implements_getLocked distinct implements
        (normalizeQuery parseSql sql) pending.now
      simp only [lockedSection, called, Cache.get, react]
      refine ⟨kept, ?_⟩
      intro key now result event
      cases event
      exact answer
  | set sql batches =>
      simp only [lockedSection, called, Cache.set, react]
      refine ⟨Cache.implements_setLocked distinct implements order
        (normalizeQuery parseSql sql) batches pending.now, ?_⟩
      intro key now result event
      cases event
  | clear =>
      simp only [lockedSection, called, react]
      refine ⟨ranks_empty, ?_⟩
      intro key now result event
      cases event

theorem refines_lockedSection (parseSql : String → Option (List String))
    {maxEntries ttl : Nat} {cache : Cache Batches}
    {history : List (Event Batches)} (order : IterationOrder Batches)
    (pending : Pending Batches)
    (refines : Refines maxEntries ttl cache history) :
    Refines maxEntries ttl (lockedSection parseSql cache order pending).1
      (history ++ [(lockedSection parseSql cache order pending).2]) := by
  have advances := advances_lockedSection parseSql cache order pending
  obtain ⟨kept, answers⟩ := implements_lockedSection parseSql refines.distinct
    refines.implements order pending
  rw [refines.maxEntries_eq, refines.ttl_eq] at kept
  refine ⟨advances.maxEntries_eq.trans refines.maxEntries_eq,
    advances.ttl_eq.trans refines.ttl_eq, refines.distinct.advances advances,
    ?_, ?_⟩
  · rw [recencyAfter_concat]
    exact kept
  · intro before after key now result split
    rcases concat_eq_append_cons split with
      ⟨rfl, eventEq⟩ | ⟨initial, -, historyEq⟩
    · have answer := answers key now result eventEq
      rwa [refines.ttl_eq] at answer
    · exact refines.answered before initial key now result historyEq

/-- In every run the cache answers each lookup as the recency list made from
the earlier locked sections does, and in the end it holds the same results,
stored at the same times, as many of them, and used in the same order. -/
theorem run_refines_recency {parseSql : String → Option (List String)}
    {maxEntries ttl : Nat} (maxEntries_pos : 0 < maxEntries)
    (ttl_pos : 0 < ttl) {actions : List (Action Batches)}
    {last : Shared Batches}
    (taken : LabelledRuns.run (step parseSql)
      (fresh Batches maxEntries ttl maxEntries_pos ttl_pos) actions =
        some last) :
    (∀ before after key now result,
      last.history = before ++ .got key now result :: after →
        result = (use ttl (recencyAfter maxEntries ttl before) key now).2) ∧
      (∀ key, (last.cache.entryAt key).map Entry.held =
        (recencyAfter maxEntries ttl last.history).lookup key) ∧
      last.cache.len =
        (recencyAfter maxEntries ttl last.history).entries.length ∧
      last.cache.Implements (recencyAfter maxEntries ttl last.history) := by
  have refines : Refines maxEntries ttl last.cache last.history :=
    holds_of_run
      (fun cache history order pending holds =>
        refines_lockedSection parseSql order pending holds)
      (refines_withClock maxEntries_pos ttl_pos) taken
  exact ⟨refines.answered,
    fun key => (refines.implements.lookup_eq key).symm,
    refines.implements.length_eq.symm, refines.implements⟩

private def threeKeys : List (Action Nat) :=
  [.start 0 (.set "a" 1) 5, .enter 0 .listed,
    .start 0 (.set "b" 2) 6, .enter 0 .listed,
    .start 1 (.get "a") 7, .enter 1 .listed,
    .start 0 (.set "c" 3) 8, .enter 0 .listed,
    .start 1 (.get "b") 9, .enter 1 .listed]

/-- With room for two results, a hit on `a` makes `b` the one that `c`
replaces, and `a` is then the one used longer ago. -/
theorem run_refines_recency_threeKeys :
    ∃ last, LabelledRuns.run (step fun _ => none)
        (fresh Nat 2 60 (by decide) (by decide)) threeKeys = some last ∧
      (last.cache.entryAt "a").map Entry.held = some ⟨1, 5⟩ ∧
      (last.cache.entryAt "b").map Entry.held = none ∧
      last.cache.len = 2 ∧
      ∀ newer older, last.cache.entryAt "c" = some newer →
        last.cache.entryAt "a" = some older →
          older.lastUsed < newer.lastUsed := by
  obtain ⟨last, taken, history⟩ : ∃ last,
      LabelledRuns.run (step fun _ => none)
        (fresh Nat 2 60 (by decide) (by decide)) threeKeys = some last ∧
      last.history = [.stored "a" 1 5, .stored "b" 2 6, .got "a" 7 (some 1),
        .stored "c" 3 8, .got "b" 9 none] :=
    ⟨_, rfl, rfl⟩
  obtain ⟨-, contents, length, implements⟩ :=
    run_refines_recency (by decide) (by decide) taken
  refine ⟨last, taken, ?_, ?_, ?_, ?_⟩
  · rw [contents, history]
    rfl
  · rw [contents, history]
    rfl
  · rw [length, history]
    rfl
  · have ordered := implements.ordered
    rw [history] at ordered
    exact (List.pairwise_cons.mp ordered).1 "a" (by decide)

end History

end CacheLayer

end Igloo
