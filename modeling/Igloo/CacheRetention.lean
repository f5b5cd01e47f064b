import Igloo.CacheRecency

/-!
# Retention of recently touched keys

A stored key that no `set` replaces and no `clear` removes is either still in
the cache, or it has been evicted after as many distinct other keys were
touched as the cache can hold.
-/

namespace Igloo

namespace CacheLayer

variable {Batches : Type*}

namespace Cache

/-- The cache holds `batches` under `key` since `insertedAt`. -/
def Holds (cache : Cache Batches) (key : String) (batches : Batches)
    (insertedAt : Nat) : Prop :=
  ∃ lastUsed, cache.entryAt key = some ⟨batches, insertedAt, lastUsed⟩

theorem Holds.getLocked_self {cache : Cache Batches} {key : String}
    {batches : Batches} {insertedAt now : Nat}
    (holds : cache.Holds key batches insertedAt)
    (inTime : now ≤ insertedAt + cache.ttl) :
    (cache.getLocked key now).1.Holds key batches insertedAt ∧
      (cache.getLocked key now).2 = some batches := by
  obtain ⟨lastUsed, found⟩ := holds
  have fresh : now - insertedAt ≤ cache.ttl := by omega
  rw [getLocked_of_fresh found fresh]
  refine ⟨⟨cache.inner.tick + 1, ?_⟩, rfl⟩
  simp [entryAt]

end Cache

namespace History

/-- The clock reading of a locked section. -/
def Event.reading : Event Batches → Option Nat
  | .got _ now _ => some now
  | .stored _ _ now => some now
  | .cleared => none

/-- The clock readings do not decrease in lock order. -/
def Nondecreasing (history : List (Event Batches)) : Prop :=
  (history.filterMap Event.reading).Pairwise (· ≤ ·)

instance (history : List (Event Batches)) :
    Decidable (Nondecreasing history) :=
  inferInstanceAs (Decidable (List.Pairwise _ _))

/-- What the state at the end of a run promises the keys touched recently. -/
structure Retention (maxEntries ttl : Nat) (last : Shared Batches) :
    Prop where
  retained : ∀ before middle after key batches insertedAt now result,
    last.history = (before ++ .stored key batches insertedAt :: middle) ++
        .got key now result :: after →
      Nondecreasing last.history →
      (∀ event ∈ middle, ¬ event.Overrides key) →
      (recent key
        (before ++ .stored key batches insertedAt :: middle)).card <
          maxEntries →
      now ≤ insertedAt + ttl → result = some batches
  evicted : ∀ order key batches now gone remaining,
    last.cache.entryAt gone ≠ none →
      (last.cache.setLocked order key batches now).entryAt gone = none →
      (last.cache.setLocked order key batches now).entryAt remaining ≠
        none →
      remaining ≠ key → remaining ∈ recent gone last.history
  missed : ∀ key now, (last.cache.getLocked key now).2 = none →
    ∀ other, other ≠ key →
      (last.cache.getLocked key now).1.entryAt other =
        last.cache.entryAt other

/-- An event that leaves what was stored under `key` before `deadline` in
place, unless it evicts it. -/
def Event.Keeps (key : String) (deadline : Nat) (event : Event Batches) :
    Prop :=
  ¬ event.Overrides key ∧ ∀ now, event.reading = some now → now ≤ deadline

/-- The entry is there, or it was evicted after `maxEntries` other keys had
been touched. -/
def HeldOrCrowdedOut (cache : Cache Batches)
    (history : List (Event Batches)) (key : String) (batches : Batches)
    (insertedAt : Nat) : Prop :=
  cache.Holds key batches insertedAt ∨
    (cache.entryAt key = none ∧
      cache.maxEntries ≤ (recent key history).card)

section Eviction

variable {cache : Cache Batches} {history : List (Event Batches)}

/-- The other entries were all touched after one of least `lastUsed`. -/
theorem mem_recent_of_least {key other : String}
    {entry otherEntry : Entry Batches} (recency : Recency cache history)
    (found : cache.entryAt key = some entry)
    (least : ∀ other otherEntry, cache.entryAt other = some otherEntry →
      entry.lastUsed ≤ otherEntry.lastUsed)
    (otherFound : cache.entryAt other = some otherEntry)
    (different : other ≠ key) : other ∈ recent key history := by
  apply recency.ordered key entry other otherEntry found otherFound
  apply lt_of_le_of_ne (least other otherEntry otherFound)
  intro same
  exact different (recency.distinct.lastUsed_inj key entry other otherEntry
    found otherFound same).symm

theorem le_card_recent_of_evicted {key newKey : String}
    {entry : Entry Batches} {event : Event Batches}
    (recency : Recency cache history)
    (found : cache.entryAt key = some entry)
    (least : ∀ other otherEntry, cache.entryAt other = some otherEntry →
      entry.lastUsed ≤ otherEntry.lastUsed)
    (touched : event.touched = some newKey)
    (absent : newKey ∉ cache.inner.store)
    (full : cache.maxEntries ≤ cache.len) :
    cache.maxEntries ≤ (recent key (history ++ [event])).card := by
  have present : key ∈ cache.inner.store := Cache.mem_store_of_entryAt found
  have different : newKey ≠ key := by
    rintro rfl
    exact absent present
  set others := cache.inner.store.keys.toFinset.erase key with othersEq
  have othersTouched : others ⊆ recent key history := by
    intro other otherMem
    rw [othersEq, Finset.mem_erase, List.mem_toFinset,
      ← AList.mem_keys, ← AList.lookup_isSome,
      Option.isSome_iff_exists] at otherMem
    obtain ⟨otherDifferent, otherEntry, otherFound⟩ := otherMem
    exact mem_recent_of_least recency found least otherFound otherDifferent
  have othersCard : others.card + 1 = cache.len := by
    have keyMem : key ∈ cache.inner.store.keys.toFinset :=
      List.mem_toFinset.mpr (AList.mem_keys.mp present)
    rw [othersEq, Finset.card_erase_add_one keyMem,
      List.toFinset_card_of_nodup cache.inner.store.keys_nodup]
    exact (length_entries_eq_length_keys _).symm
  have newNotOther : newKey ∉ others := by
    intro newMem
    apply absent
    rw [AList.mem_keys, ← List.mem_toFinset]
    exact Finset.mem_of_mem_erase newMem
  rw [recent_concat_of_touched touched different]
  have enough : (insert newKey others).card ≤
      (insert newKey (recent key history)).card :=
    Finset.card_le_card (Finset.insert_subset_insert newKey othersTouched)
  rw [Finset.card_insert_of_notMem newNotOther] at enough
  omega

end Eviction

section LockedSection

variable {cache : Cache Batches} {history : List (Event Batches)}
variable {key : String} {batches : Batches} {insertedAt : Nat}

theorem heldOrCrowdedOut_getLocked {sought : String} {now : Nat}
    (heldOrCrowded : HeldOrCrowdedOut cache history key batches insertedAt)
    (inTime : now ≤ insertedAt + cache.ttl) :
    HeldOrCrowdedOut (cache.getLocked sought now).1
      (history ++ [.got sought now (cache.getLocked sought now).2]) key
      batches insertedAt := by
  have advances := Cache.advances_getLocked cache sought now
  rcases heldOrCrowded with held | ⟨absent, crowded⟩
  · left
    by_cases own : key = sought
    · subst own
      exact (held.getLocked_self inTime).1
    · obtain ⟨lastUsed, found⟩ := held
      refine ⟨lastUsed, ?_⟩
      rw [Cache.entryAt_getLocked_of_ne own]
      exact found
  · right
    by_cases own : key = sought
    · subst own
      rw [Cache.getLocked_of_absent absent]
      refine ⟨absent, crowded.trans (Finset.card_le_card ?_)⟩
      exact recent_subset_concat (by simp [Event.touched])
    · rw [Cache.entryAt_getLocked_of_ne own, advances.maxEntries_eq]
      refine ⟨absent, crowded.trans (Finset.card_le_card ?_)⟩
      apply recent_subset_concat
      cases (cache.getLocked sought now).2 with
      | none => simp [Event.touched]
      | some found => simpa [Event.touched] using Ne.symm own

theorem heldOrCrowdedOut_setLocked {newKey : String} {stored : Batches}
    {now : Nat} (order : IterationOrder Batches)
    (recency : Recency cache history)
    (heldOrCrowded : HeldOrCrowdedOut cache history key batches insertedAt)
    (different : newKey ≠ key) :
    HeldOrCrowdedOut (cache.setLocked order newKey stored now)
      (history ++ [.stored newKey stored now]) key batches insertedAt := by
  have touched : (Event.stored newKey stored now).touched = some newKey := rfl
  have grows : recent key history ⊆
      recent key (history ++ [.stored newKey stored now]) :=
    recent_subset_concat (by simpa [touched] using different)
  have entryEq := Cache.entryAt_setLocked_of_ne (Ne.symm different) cache
    order stored now
  rcases heldOrCrowded with held | ⟨absent, crowded⟩
  · obtain ⟨lastUsed, found⟩ := held
    rcases Cache.setLocked_cases cache order newKey stored now with
      ⟨-, evicted, -⟩ | ⟨-, -, evicted, -⟩ |
        ⟨newAbsent, full, lru, entry, lruFound, least, evicted, -⟩
    · left
      exact ⟨lastUsed, by rw [entryEq, evicted]; exact found⟩
    · left
      exact ⟨lastUsed, by rw [entryEq, evicted]; exact found⟩
    · by_cases own : key = lru
      · subst own
        right
        have crowded := le_card_recent_of_evicted recency lruFound least
          touched newAbsent full
        refine ⟨?_, crowded⟩
        rw [entryEq, evicted]
        exact AList.lookup_erase _ _
      · left
        refine ⟨lastUsed, ?_⟩
        rw [entryEq, evicted]
        exact (AList.lookup_erase_ne own).trans found
  · right
    refine ⟨?_, crowded.trans (Finset.card_le_card grows)⟩
    cases found : (cache.setLocked order newKey stored now).entryAt key with
    | none => rfl
    | some entry =>
        rcases Cache.entryAt_setLocked_cases found with
          ⟨same, -, -⟩ | ⟨-, old⟩
        · exact absurd same.symm different
        · rw [absent] at old
          cases old

theorem heldOrCrowdedOut_lockedSection
    {parseSql : String → Option (List String)}
    (order : IterationOrder Batches) (pending : Pending Batches)
    (recency : Recency cache history)
    (heldOrCrowded : HeldOrCrowdedOut cache history key batches insertedAt)
    (keeps : (lockedSection parseSql cache order pending).2.Keeps key
      (insertedAt + cache.ttl)) :
    HeldOrCrowdedOut (lockedSection parseSql cache order pending).1
      (history ++ [(lockedSection parseSql cache order pending).2]) key
      batches insertedAt := by
  cases called : pending.call with
  | get sql =>
      simp only [lockedSection, called, Cache.get] at keeps ⊢
      exact heldOrCrowdedOut_getLocked heldOrCrowded (keeps.2 _ rfl)
  | set sql stored =>
      simp only [lockedSection, called, Cache.set] at keeps ⊢
      exact heldOrCrowdedOut_setLocked order recency heldOrCrowded keeps.1
  | clear =>
      simp only [lockedSection, called] at keeps
      exact absurd trivial keeps.1

end LockedSection

/-- Every store that was not overridden is held or crowded out. -/
def StoresHeld (cache : Cache Batches) (history : List (Event Batches)) :
    Prop :=
  ∀ older newer key batches insertedAt,
    history = older ++ .stored key batches insertedAt :: newer →
      (∀ event ∈ newer, event.Keeps key (insertedAt + cache.ttl)) →
        HeldOrCrowdedOut cache history key batches insertedAt

/-- Every lookup within the time to live of such a store hit it, unless
enough other keys were touched to crowd it out. -/
def LookupsAnswered (maxEntries ttl : Nat)
    (history : List (Event Batches)) : Prop :=
  ∀ before after key now result,
    history = before ++ .got key now result :: after →
      ∀ older newer batches insertedAt,
        before = older ++ .stored key batches insertedAt :: newer →
          (∀ event ∈ newer, event.Keeps key (insertedAt + ttl)) →
            (recent key before).card < maxEntries →
              now ≤ insertedAt + ttl → result = some batches

/-- The run invariant behind retention. -/
structure RetentionInvariant (maxEntries ttl : Nat) (cache : Cache Batches)
    (history : List (Event Batches)) : Prop where
  maxEntries_eq : cache.maxEntries = maxEntries
  ttl_eq : cache.ttl = ttl
  recency : Recency cache history
  storesHeld : StoresHeld cache history
  lookupsAnswered : LookupsAnswered maxEntries ttl history

section Invariant

variable {maxEntries ttl : Nat}

theorem retentionInvariant_withClock (maxEntries_pos : 0 < maxEntries)
    (ttl_pos : 0 < ttl) :
    RetentionInvariant maxEntries ttl
      (Cache.withClock Batches maxEntries ttl maxEntries_pos ttl_pos) [] where
  maxEntries_eq := rfl
  ttl_eq := rfl
  recency := recency_withClock maxEntries_pos ttl_pos
  storesHeld := by
    intro older newer key batches insertedAt split
    simp at split
  lookupsAnswered := by
    intro before after key now result split
    simp at split

variable {parseSql : String → Option (List String)}
variable {cache : Cache Batches} {history : List (Event Batches)}

theorem stored_of_lockedSection {order : IterationOrder Batches}
    {pending : Pending Batches} {key : String} {batches : Batches}
    {now : Nat}
    (event : (lockedSection parseSql cache order pending).2 =
      .stored key batches now) :
    (lockedSection parseSql cache order pending).1.Holds key batches now := by
  cases called : pending.call with
  | get sql => simp [lockedSection, called, Cache.get] at event
  | set sql stored =>
      simp only [lockedSection, called, Event.stored.injEq] at event
      obtain ⟨rfl, rfl, rfl⟩ := event
      simp only [lockedSection, called, Cache.set]
      exact ⟨cache.inner.tick + 1, Cache.entryAt_setLocked_self ..⟩
  | clear => simp [lockedSection, called] at event

theorem got_of_lockedSection {order : IterationOrder Batches}
    {pending : Pending Batches} {key : String} {now : Nat}
    {result : Option Batches}
    (event : (lockedSection parseSql cache order pending).2 =
      .got key now result) :
    (cache.getLocked key now).2 = result := by
  cases called : pending.call with
  | get sql =>
      simp only [lockedSection, called, Cache.get, Event.got.injEq] at event
      obtain ⟨rfl, rfl, rfl⟩ := event
      rfl
  | set sql stored => simp [lockedSection, called] at event
  | clear => simp [lockedSection, called] at event

theorem storesHeld_lockedSection (order : IterationOrder Batches)
    (pending : Pending Batches) (recency : Recency cache history)
    (held : StoresHeld cache history) :
    StoresHeld (lockedSection parseSql cache order pending).1
      (history ++ [(lockedSection parseSql cache order pending).2]) := by
  intro older newer key batches insertedAt split keeps
  rw [(advances_lockedSection parseSql cache order pending).ttl_eq] at keeps
  rcases concat_eq_append_cons split with
    ⟨-, eventEq⟩ | ⟨initial, rfl, historyEq⟩
  · exact Or.inl (stored_of_lockedSection eventEq)
  · apply heldOrCrowdedOut_lockedSection order pending recency
    · apply held older initial key batches insertedAt historyEq
      intro event eventMem
      exact keeps event (List.mem_append_left _ eventMem)
    · exact keeps _ (List.mem_append_right _ (List.mem_singleton_self _))

theorem lookupsAnswered_lockedSection (order : IterationOrder Batches)
    (pending : Pending Batches)
    (invariant : RetentionInvariant maxEntries ttl cache history) :
    LookupsAnswered maxEntries ttl
      (history ++ [(lockedSection parseSql cache order pending).2]) := by
  intro before after key now result split
  rcases concat_eq_append_cons split with
    ⟨rfl, eventEq⟩ | ⟨initial, -, historyEq⟩
  · intro older newer batches insertedAt historyEq keeps fewer inTime
    rw [← invariant.ttl_eq] at keeps inTime
    rcases invariant.storesHeld older newer key batches insertedAt historyEq
      keeps with held | ⟨-, crowded⟩
    · have answer := (held.getLocked_self inTime).2
      rw [got_of_lockedSection eventEq] at answer
      exact answer
    · rw [invariant.maxEntries_eq] at crowded
      omega
  · exact invariant.lookupsAnswered before initial key now result historyEq

theorem retentionInvariant_lockedSection (order : IterationOrder Batches)
    (pending : Pending Batches)
    (invariant : RetentionInvariant maxEntries ttl cache history) :
    RetentionInvariant maxEntries ttl
      (lockedSection parseSql cache order pending).1
      (history ++ [(lockedSection parseSql cache order pending).2]) where
  maxEntries_eq :=
    (advances_lockedSection parseSql cache order pending).maxEntries_eq.trans
      invariant.maxEntries_eq
  ttl_eq := (ttl_lockedSection order pending).trans invariant.ttl_eq
  recency := recency_lockedSection order pending invariant.recency
  storesHeld :=
    storesHeld_lockedSection order pending invariant.recency
      invariant.storesHeld
  lookupsAnswered := lookupsAnswered_lockedSection order pending invariant

end Invariant

theorem reading_le_of_nondecreasing {before after : List (Event Batches)}
    {key : String} {now reading : Nat} {result : Option Batches}
    {event : Event Batches}
    (nondecreasing : Nondecreasing (before ++ .got key now result :: after))
    (eventMem : event ∈ before) (eventReading : event.reading = some reading) :
    reading ≤ now := by
  unfold Nondecreasing at nondecreasing
  rw [List.filterMap_append, List.pairwise_append] at nondecreasing
  apply nondecreasing.2.2 reading
  · exact List.mem_filterMap.mpr ⟨event, eventMem, eventReading⟩
  · exact List.mem_filterMap.mpr
      ⟨.got key now result, List.mem_cons_self, rfl⟩

/-- What an eviction leaves in the cache was touched after what it removed. -/
theorem mem_recent_of_evicted {cache : Cache Batches}
    {history : List (Event Batches)} {order : IterationOrder Batches}
    {key gone remaining : String} {batches : Batches} {now : Nat}
    (recency : Recency cache history)
    (present : cache.entryAt gone ≠ none)
    (removed : (cache.setLocked order key batches now).entryAt gone = none)
    (remains : (cache.setLocked order key batches now).entryAt remaining ≠
      none)
    (different : remaining ≠ key) : remaining ∈ recent gone history := by
  obtain ⟨entry, found⟩ := Option.ne_none_iff_exists'.mp remains
  have goneNotKey : gone ≠ key := by
    rintro rfl
    simp at removed
  have goneEq := Cache.entryAt_setLocked_of_ne goneNotKey cache order
    batches now
  have remainingEq := Cache.entryAt_setLocked_of_ne different cache order
    batches now
  rcases Cache.setLocked_cases cache order key batches now with
    ⟨-, evicted, -⟩ | ⟨-, -, evicted, -⟩ |
      ⟨-, -, lru, lruEntry, lruFound, least, evicted, -⟩
  · rw [evicted] at goneEq
    exact absurd (goneEq.symm.trans removed) present
  · rw [evicted] at goneEq
    exact absurd (goneEq.symm.trans removed) present
  · rw [evicted] at goneEq remainingEq
    have goneIsLru : gone = lru := by
      by_contra other
      apply present
      rw [← removed, goneEq]
      exact (AList.lookup_erase_ne other).symm
    subst goneIsLru
    have remainingNotLru : remaining ≠ gone := by
      rintro rfl
      exact remains (goneEq.trans (AList.lookup_erase _ _))
    have remainingFound : cache.entryAt remaining = some entry := by
      rw [← found, remainingEq]
      exact (AList.lookup_erase_ne remainingNotLru).symm
    exact mem_recent_of_least recency lruFound least remainingFound
      remainingNotLru

/-- In every run on a fresh cache, a lookup answers from the store on its key
if no later event overrode it, the time to live has not passed, and fewer
than `maxEntries` other keys were touched since its own key was; an eviction
removes the least recently touched entry, and a miss changes no other one. -/
theorem retention_of_run {parseSql : String → Option (List String)}
    {maxEntries ttl : Nat} (maxEntries_pos : 0 < maxEntries)
    (ttl_pos : 0 < ttl) {actions : List (Action Batches)}
    {last : Shared Batches}
    (taken : LabelledRuns.run (step parseSql)
      (fresh Batches maxEntries ttl maxEntries_pos ttl_pos) actions =
        some last) :
    Retention maxEntries ttl last := by
  have invariant : RetentionInvariant maxEntries ttl last.cache
      last.history :=
    holds_of_run
      (fun _ _ order pending holds =>
        retentionInvariant_lockedSection order pending holds)
      (retentionInvariant_withClock maxEntries_pos ttl_pos) taken
  refine ⟨?_, ?_, ?_⟩
  · intro before middle after key batches insertedAt now result recorded
      nondecreasing undisturbed fewer inTime
    apply invariant.lookupsAnswered _ after key now result recorded before
      middle batches insertedAt rfl _ fewer inTime
    intro event eventMem
    refine ⟨undisturbed event eventMem, ?_⟩
    intro reading eventReading
    have eventBefore : event ∈
        before ++ .stored key batches insertedAt :: middle :=
      List.mem_append_right _ (List.mem_cons_of_mem _ eventMem)
    rw [recorded] at nondecreasing
    have earlier := reading_le_of_nondecreasing nondecreasing eventBefore
      eventReading
    exact earlier.trans inTime
  · intro order key batches now gone remaining present removed remains
      different
    exact mem_recent_of_evicted invariant.recency present removed remains
      different
  · intro key now _ other different
    exact Cache.entryAt_getLocked_of_ne different last.cache now

private def threeQueries : List (Action Nat) :=
  [.start 0 (.set "a" 1) 5, .enter 0 .listed,
    .start 0 (.set "b" 2) 6, .enter 0 .listed,
    .start 0 (.get "a ;") 7, .enter 0 .listed,
    .start 0 (.set "c" 3) 8, .enter 0 .listed,
    .start 0 (.get "a") 9, .enter 0 .listed]

/-- With room for two entries, the hit at 7 keeps `a` over `b`. -/
theorem retention_of_run_threeQueries :
    ∃ last,
      LabelledRuns.run (step fun _ => none)
        (fresh Nat 2 60 (by decide) (by decide)) threeQueries = some last ∧
      last.history =
        [.stored "a" 1 5, .stored "b" 2 6, .got "a" 7 (some 1),
          .stored "c" 3 8, .got "a" 9 (some 1)] ∧
      Retention 2 60 last := by
  obtain ⟨last, taken, history⟩ : ∃ last,
      LabelledRuns.run (step fun _ => none)
        (fresh Nat 2 60 (by decide) (by decide)) threeQueries = some last ∧
      last.history =
        [.stored "a" 1 5, .stored "b" 2 6, .got "a" 7 (some 1),
          .stored "c" 3 8, .got "a" 9 (some 1)] :=
    ⟨_, rfl, rfl⟩
  exact ⟨last, taken, history,
    retention_of_run (by decide) (by decide) taken⟩

end History

end CacheLayer

end Igloo
