import Igloo.CacheLayer

/-!
# Evictions and entry counts

What making room in `set` does: nothing, or the removal of one entry of least
`lastUsed`.  The number of entries after each locked section follows from it.
-/

namespace Igloo

namespace CacheLayer

variable {Batches : Type*}

section Store

variable {store : Store Batches} {key : String} {entry : Entry Batches}

theorem length_entries_eq_length_keys (store : Store Batches) :
    store.entries.length = store.keys.length := by
  simp [AList.keys, List.keys]

theorem length_insert_of_mem (present : key ∈ store) :
    (store.insert key entry).entries.length = store.entries.length := by
  have keyMem : key ∈ store.keys := AList.mem_keys.mp present
  have nonempty : 0 < store.keys.length := List.length_pos_of_mem keyMem
  simp only [length_entries_eq_length_keys, AList.keys_insert,
    List.length_cons, List.length_erase_of_mem keyMem]
  omega

theorem length_insert_of_notMem (absent : key ∉ store) :
    (store.insert key entry).entries.length = store.entries.length + 1 := by
  rw [AList.entries_insert_of_notMem absent, List.length_cons]

theorem length_erase_of_mem (present : key ∈ store) :
    (store.erase key).entries.length + 1 = store.entries.length := by
  have keyMem : key ∈ store.keys := AList.mem_keys.mp present
  have nonempty : 0 < store.keys.length := List.length_pos_of_mem keyMem
  simp only [length_entries_eq_length_keys, AList.keys_erase,
    List.length_erase_of_mem keyMem]
  omega

theorem mem_of_lookup_eq_some (found : store.lookup key = some entry) :
    key ∈ store :=
  AList.lookup_isSome.mp (by simp [found])

end Store

namespace Cache

theorem lruKey_eq_some {order : IterationOrder Batches}
    {store : Store Batches} {lru : String}
    (picked : lruKey order store = some lru) :
    ∃ entry, store.lookup lru = some entry ∧
      ∀ other otherEntry, store.lookup other = some otherEntry →
        entry.lastUsed ≤ otherEntry.lastUsed := by
  simp only [lruKey, Option.map_eq_some_iff] at picked
  obtain ⟨⟨_, entry⟩, least, rfl⟩ := picked
  have slotMem := (order.perm store).mem_iff.mp (List.argmin_mem least)
  refine ⟨entry, AList.mem_lookup_iff.mpr slotMem, ?_⟩
  intro other otherEntry found
  have otherMem : ⟨other, otherEntry⟩ ∈ order.visit store :=
    (order.perm store).mem_iff.mpr (AList.mem_lookup_iff.mp found)
  exact @List.le_of_mem_argmin _ _ _ (fun slot => slot.2.lastUsed) _ _ _
    otherMem least

theorem exists_lruKey (order : IterationOrder Batches)
    {store : Store Batches} (nonempty : 0 < store.entries.length) :
    ∃ lru, lruKey order store = some lru := by
  cases picked : lruKey order store with
  | some lru => exact ⟨lru, rfl⟩
  | none =>
      have visitNil : order.visit store = [] := by
        simpa [lruKey] using picked
      have sameLength := (order.perm store).length_eq
      rw [visitNil] at sameLength
      simp only [List.length_nil] at sameLength
      omega

/-- Room is made for a new key at full capacity only, and then by removing
one entry of least `lastUsed`. -/
theorem evictFor_cases {maxEntries : Nat} (maxEntries_pos : 0 < maxEntries)
    (order : IterationOrder Batches) (store : Store Batches)
    (key : String) :
    ((key ∈ store ∨ store.entries.length < maxEntries) ∧
        evictFor order maxEntries store key = (store, 0)) ∨
      (key ∉ store ∧ maxEntries ≤ store.entries.length ∧
        ∃ lru entry, store.lookup lru = some entry ∧
          (∀ other otherEntry, store.lookup other = some otherEntry →
            entry.lastUsed ≤ otherEntry.lastUsed) ∧
          evictFor order maxEntries store key = (store.erase lru, 1)) := by
  by_cases full : key ∉ store ∧ maxEntries ≤ store.entries.length
  · right
    obtain ⟨lru, picked⟩ := exists_lruKey order
      (lt_of_lt_of_le maxEntries_pos full.2)
    obtain ⟨entry, found, least⟩ := lruKey_eq_some picked
    refine ⟨full.1, full.2, lru, entry, found, least, ?_⟩
    simp only [evictFor, if_pos full, picked]
  · left
    refine ⟨?_, by simp only [evictFor, if_neg full]⟩
    rcases not_and_or.mp full with present | room
    · exact Or.inl (not_not.mp present)
    · exact Or.inr (not_le.mp room)

section Lengths

variable {cache : Cache Batches} {key : String} {now : Nat}

theorem mem_store_of_entryAt {entry : Entry Batches}
    (found : cache.entryAt key = some entry) : key ∈ cache.inner.store :=
  mem_of_lookup_eq_some found

theorem len_getLocked_of_fresh {entry : Entry Batches}
    (found : cache.entryAt key = some entry)
    (fresh : now - entry.insertedAt ≤ cache.ttl) :
    (cache.getLocked key now).1.len = cache.len := by
  rw [getLocked_of_fresh found fresh]
  exact length_insert_of_mem (mem_store_of_entryAt found)

theorem len_getLocked_of_expired {entry : Entry Batches}
    (found : cache.entryAt key = some entry)
    (expired : ¬ now - entry.insertedAt ≤ cache.ttl) :
    (cache.getLocked key now).1.len + 1 = cache.len := by
  rw [getLocked_of_expired found expired]
  exact length_erase_of_mem (mem_store_of_entryAt found)

theorem len_getLocked_of_absent (absent : cache.entryAt key = none) :
    (cache.getLocked key now).1.len = cache.len := by
  rw [getLocked_of_absent absent]
  rfl

theorem len_getLocked_le (cache : Cache Batches) (key : String)
    (now : Nat) : (cache.getLocked key now).1.len ≤ cache.len := by
  rcases getLocked_cases cache key now with
    ⟨entry, found, fresh⟩ | ⟨entry, found, expired⟩ | absent
  · exact (len_getLocked_of_fresh found fresh).le
  · have shorter := len_getLocked_of_expired found expired
    omega
  · exact (len_getLocked_of_absent absent).le

/-- The three outcomes of `set`: it overwrites, it finds room for a new key,
or it evicts an entry of least `lastUsed` to make room. -/
theorem setLocked_cases (cache : Cache Batches)
    (order : IterationOrder Batches) (key : String) (batches : Batches)
    (now : Nat) :
    (key ∈ cache.inner.store ∧
        evictFor order cache.maxEntries cache.inner.store key =
          (cache.inner.store, 0) ∧
        (cache.setLocked order key batches now).len = cache.len) ∨
      (key ∉ cache.inner.store ∧ cache.len < cache.maxEntries ∧
        evictFor order cache.maxEntries cache.inner.store key =
          (cache.inner.store, 0) ∧
        (cache.setLocked order key batches now).len = cache.len + 1) ∨
      (key ∉ cache.inner.store ∧ cache.maxEntries ≤ cache.len ∧
        ∃ lru entry, cache.entryAt lru = some entry ∧
          (∀ other otherEntry, cache.entryAt other = some otherEntry →
            entry.lastUsed ≤ otherEntry.lastUsed) ∧
          evictFor order cache.maxEntries cache.inner.store key =
            (cache.inner.store.erase lru, 1) ∧
          (cache.setLocked order key batches now).len = cache.len) := by
  rcases evictFor_cases cache.maxEntries_pos order cache.inner.store key with
    ⟨keyOrRoom, evicted⟩ | ⟨absent, full, lru, entry, found, least, evicted⟩
  · by_cases present : key ∈ cache.inner.store
    · left
      refine ⟨present, evicted, ?_⟩
      simp only [setLocked, len, evicted]
      exact length_insert_of_mem present
    · right
      left
      refine ⟨present, keyOrRoom.resolve_left present, evicted, ?_⟩
      simp only [setLocked, len, evicted]
      exact length_insert_of_notMem present
  · right
    right
    refine ⟨absent, full, lru, entry, found, least, evicted, ?_⟩
    have stillAbsent : key ∉ cache.inner.store.erase lru :=
      fun present => absent (AList.mem_erase.mp present).2
    simp only [setLocked, len, evicted]
    rw [length_insert_of_notMem stillAbsent,
      length_erase_of_mem (mem_of_lookup_eq_some found)]

theorem len_setLocked_le (order : IterationOrder Batches)
    (batches : Batches) (bounded : cache.len ≤ cache.maxEntries) :
    (cache.setLocked order key batches now).len ≤ cache.maxEntries := by
  rcases setLocked_cases cache order key batches now with
    ⟨-, -, sameLength⟩ | ⟨-, room, -, longer⟩ |
      ⟨-, -, lru, entry, -, -, -, sameLength⟩
  · omega
  · omega
  · omega

end Lengths

end Cache

end CacheLayer

end Igloo
