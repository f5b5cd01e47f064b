import Igloo.CacheEvictions
import Igloo.CacheHistory
import Mathlib.Data.Finset.Card
import Mathlib.Data.List.DropRight

/-!
# Recency of cache entries

Every locked section that stores or hits a key gives its entry a `lastUsed`
above all others, and leaves the other entries alone or removes them.  So the
`lastUsed` values of the entries are distinct, and they order the entries as
the history orders the last touches of their keys.
-/

namespace Igloo

namespace CacheLayer

variable {Batches : Type*}

namespace Cache

/-- The store respects its capacity, and the `lastUsed` values are distinct
and at most the tick. -/
structure DistinctlyUsed (cache : Cache Batches) : Prop where
  len_le : cache.len ≤ cache.maxEntries
  lastUsed_le : ∀ key entry, cache.entryAt key = some entry →
    entry.lastUsed ≤ cache.inner.tick
  lastUsed_inj : ∀ key entry other otherEntry,
    cache.entryAt key = some entry → cache.entryAt other = some otherEntry →
      entry.lastUsed = otherEntry.lastUsed → key = other

/-- What a locked section does that touches at most the key `touched`: an
entry there is the last one used, and any other entry is an old one. -/
structure Advances (cache : Cache Batches) (touched : Option String)
    (next : Cache Batches) : Prop where
  maxEntries_eq : next.maxEntries = cache.maxEntries
  ttl_eq : next.ttl = cache.ttl
  tick_le : cache.inner.tick ≤ next.inner.tick
  used : ∀ key entry, touched = some key → next.entryAt key = some entry →
    entry.lastUsed = cache.inner.tick + 1 ∧
      next.inner.tick = cache.inner.tick + 1
  kept : ∀ key entry, touched ≠ some key → next.entryAt key = some entry →
    cache.entryAt key = some entry
  len_le : cache.len ≤ cache.maxEntries → next.len ≤ cache.maxEntries

section Advances

variable {cache next : Cache Batches} {touched : Option String}

theorem distinctlyUsed_withClock {maxEntries ttl : Nat}
    (maxEntries_pos : 0 < maxEntries) (ttl_pos : 0 < ttl) :
    DistinctlyUsed
      (withClock Batches maxEntries ttl maxEntries_pos ttl_pos) where
  len_le := Nat.zero_le _
  lastUsed_le := by
    intro key entry found
    simp [entryAt, withClock] at found
  lastUsed_inj := by
    intro key entry other otherEntry found
    simp [entryAt, withClock] at found

theorem DistinctlyUsed.advances (distinct : DistinctlyUsed cache)
    (advances : Advances cache touched next) : DistinctlyUsed next where
  len_le := by
    rw [advances.maxEntries_eq]
    exact advances.len_le distinct.len_le
  lastUsed_le := by
    intro key entry found
    by_cases own : touched = some key
    · obtain ⟨lastUsed, tick⟩ := advances.used key entry own found
      omega
    · have old := advances.kept key entry own found
      exact (distinct.lastUsed_le key entry old).trans advances.tick_le
  lastUsed_inj := by
    intro key entry other otherEntry found otherFound same
    by_cases own : touched = some key
    · by_cases otherOwn : touched = some other
      · exact Option.some.inj (own.symm.trans otherOwn)
      · have lastUsed := (advances.used key entry own found).1
        have old := advances.kept other otherEntry otherOwn otherFound
        have bound := distinct.lastUsed_le other otherEntry old
        omega
    · have old := advances.kept key entry own found
      by_cases otherOwn : touched = some other
      · have lastUsed := (advances.used other otherEntry otherOwn
          otherFound).1
        have bound := distinct.lastUsed_le key entry old
        omega
      · have otherOld := advances.kept other otherEntry otherOwn otherFound
        exact distinct.lastUsed_inj key entry other otherEntry old otherOld
          same

end Advances

/-- A lookup touches its key if it hits. -/
theorem advances_getLocked (cache : Cache Batches) (key : String)
    (now : Nat) :
    Advances cache ((cache.getLocked key now).2.map fun _ => key)
      (cache.getLocked key now).1 := by
  have len_le := len_getLocked_le cache key now
  rcases getLocked_cases cache key now with
    ⟨stored, present, fresh⟩ | ⟨stored, present, expired⟩ | absent
  · rw [getLocked_of_fresh present fresh] at len_le ⊢
    refine ⟨rfl, rfl, Nat.le_succ _, ?_, ?_, len_le.trans⟩
    · rintro other entry own found
      cases own
      simp only [entryAt, AList.lookup_insert, Option.some.injEq] at found
      subst entry
      exact ⟨rfl, rfl⟩
    · intro other entry notOwn found
      have different : other ≠ key := fun same => notOwn (same ▸ rfl)
      simpa only [entryAt, AList.lookup_insert_ne different] using found
  · rw [getLocked_of_expired present expired] at len_le ⊢
    refine ⟨rfl, rfl, Nat.le_succ _, by simp, ?_, len_le.trans⟩
    intro other entry _ found
    by_cases same : other = key
    · subst other
      simp [entryAt] at found
    · simpa only [entryAt, AList.lookup_erase_ne same] using found
  · rw [getLocked_of_absent absent] at len_le ⊢
    refine ⟨rfl, rfl, Nat.le_succ _, by simp, ?_, len_le.trans⟩
    intro other entry _ found
    exact found

theorem advances_setLocked (cache : Cache Batches)
    (order : IterationOrder Batches) (key : String) (batches : Batches)
    (now : Nat) :
    Advances cache (some key) (cache.setLocked order key batches now) := by
  refine ⟨rfl, rfl, Nat.le_succ _, ?_, ?_, len_setLocked_le order batches⟩
  · rintro other entry own found
    cases own
    rw [entryAt_setLocked_self] at found
    cases found
    exact ⟨rfl, rfl⟩
  · intro other entry notOwn found
    rcases entryAt_setLocked_cases found with ⟨rfl, -, -⟩ | ⟨-, stored⟩
    · exact absurd rfl notOwn
    · exact stored

theorem advances_clear (cache : Cache Batches) :
    Advances cache none cache.clear := by
  refine ⟨rfl, rfl, le_rfl, by simp, ?_, fun _ => Nat.zero_le _⟩
  intro key entry _ found
  simp at found

end Cache

namespace History

/-- The key that a locked section stored or hit. -/
def Event.touched : Event Batches → Option String
  | .got key _ (some _) => some key
  | .got _ _ none => none
  | .stored key _ _ => some key
  | .cleared => none

/-- The distinct keys touched after the last touch of `key`. -/
def recent (key : String) (history : List (Event Batches)) :
    Finset String :=
  ((history.filterMap Event.touched).rtakeWhile (· ≠ key)).toFinset

section Recent

variable {history : List (Event Batches)} {event : Event Batches}
variable {key other : String}

theorem recent_concat_of_untouched (untouched : event.touched = none) :
    recent key (history ++ [event]) = recent key history := by
  simp [recent, untouched]

theorem recent_concat_of_touched (touched : event.touched = some other)
    (different : other ≠ key) :
    recent key (history ++ [event]) = insert other (recent key history) := by
  have touches : (history ++ [event]).filterMap Event.touched =
      history.filterMap Event.touched ++ [other] := by
    simp [touched]
  unfold recent
  rw [touches, List.rtakeWhile_concat_pos _ _ _ (by simpa using different)]
  ext name
  simp

theorem recent_subset_concat (notTouched : event.touched ≠ some key) :
    recent key history ⊆ recent key (history ++ [event]) := by
  cases touched : event.touched with
  | none => rw [recent_concat_of_untouched touched]
  | some other =>
      have different : other ≠ key := by
        rintro rfl
        exact notTouched touched
      rw [recent_concat_of_touched touched different]
      exact Finset.subset_insert _ _

end Recent

/-- Entries used later have keys touched later. -/
def RecencyOrdered (cache : Cache Batches)
    (history : List (Event Batches)) : Prop :=
  ∀ key entry other otherEntry,
    cache.entryAt key = some entry → cache.entryAt other = some otherEntry →
      entry.lastUsed < otherEntry.lastUsed → other ∈ recent key history

theorem recencyOrdered_advances {cache next : Cache Batches}
    {history : List (Event Batches)} {event : Event Batches}
    (distinct : cache.DistinctlyUsed)
    (ordered : RecencyOrdered cache history)
    (advances : cache.Advances event.touched next) :
    RecencyOrdered next (history ++ [event]) := by
  intro key entry other otherEntry found otherFound later
  have otherBound := (distinct.advances advances).lastUsed_le other
    otherEntry otherFound
  -- the touched key has the last of all uses, so it is not the earlier one
  have notTouched : event.touched ≠ some key := by
    intro own
    obtain ⟨lastUsed, tick⟩ := advances.used key entry own found
    omega
  have old := advances.kept key entry notTouched found
  by_cases otherOwn : event.touched = some other
  · have different : other ≠ key := by
      rintro rfl
      exact notTouched otherOwn
    rw [recent_concat_of_touched otherOwn different]
    exact Finset.mem_insert_self _ _
  · have otherOld := advances.kept other otherEntry otherOwn otherFound
    apply recent_subset_concat notTouched
    exact ordered key entry other otherEntry old otherOld later

section LockedSection

variable {parseSql : String → Option (List String)}

theorem advances_lockedSection
    (parseSql : String → Option (List String)) (cache : Cache Batches)
    (order : IterationOrder Batches) (pending : Pending Batches) :
    cache.Advances (lockedSection parseSql cache order pending).2.touched
      (lockedSection parseSql cache order pending).1 := by
  cases called : pending.call with
  | get sql =>
      simp only [lockedSection, called, Cache.get]
      have advances := Cache.advances_getLocked cache
        (normalizeQuery parseSql sql) pending.now
      cases answer : (cache.getLocked (normalizeQuery parseSql sql)
          pending.now).2 with
      | none =>
          rw [answer] at advances
          exact advances
      | some batches =>
          rw [answer] at advances
          exact advances
  | set sql batches =>
      simp only [lockedSection, called, Cache.set]
      exact Cache.advances_setLocked cache order _ batches pending.now
  | clear =>
      simp only [lockedSection, called]
      exact Cache.advances_clear cache

/-- The invariant on recency. -/
structure Recency (cache : Cache Batches) (history : List (Event Batches)) :
    Prop where
  distinct : cache.DistinctlyUsed
  ordered : RecencyOrdered cache history

theorem recency_lockedSection {cache : Cache Batches}
    {history : List (Event Batches)} (order : IterationOrder Batches)
    (pending : Pending Batches) (recency : Recency cache history) :
    Recency (lockedSection parseSql cache order pending).1
      (history ++ [(lockedSection parseSql cache order pending).2]) := by
  have advances := advances_lockedSection parseSql cache order pending
  exact ⟨recency.distinct.advances advances,
    recencyOrdered_advances recency.distinct recency.ordered advances⟩

end LockedSection

theorem recency_withClock {maxEntries ttl : Nat}
    (maxEntries_pos : 0 < maxEntries) (ttl_pos : 0 < ttl) :
    Recency
      (Cache.withClock Batches maxEntries ttl maxEntries_pos ttl_pos) [] where
  distinct := Cache.distinctlyUsed_withClock maxEntries_pos ttl_pos
  ordered := by
    intro key entry other otherEntry found
    simp [Cache.entryAt, Cache.withClock] at found

end History

end CacheLayer

end Igloo
