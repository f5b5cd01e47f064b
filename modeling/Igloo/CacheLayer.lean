import Igloo.QueryNormalization
import Mathlib.Data.List.AList
import Mathlib.Data.List.MinMax

/-!
# The query-result cache

The store is an association list with distinct keys; the order of the list is
never observed, because the one scan of the store (the eviction scan of `set`)
visits it in an arbitrary order handed in by the caller.  Clock readings are
natural numbers and arrive as arguments: `get` and `set` read the clock before
they take the lock, so each splits into reading `now` and running the locked
section below with it.
-/

namespace Igloo

namespace CacheLayer

variable {Batches : Type*}

/-- One cached result. -/
structure Entry (Batches : Type*) where
  batches : Batches
  insertedAt : Nat
  lastUsed : Nat
  deriving DecidableEq, Repr

/-- The hash map of cached results. -/
abbrev Store (Batches : Type*) :=
  AList (fun _ : String => Entry Batches)

/-- An iteration order of the hash map. -/
structure IterationOrder (Batches : Type*) where
  visit : Store Batches → List (Σ _ : String, Entry Batches)
  perm : ∀ store, (visit store).Perm store.entries

/-- The iteration order that follows the association list. -/
def IterationOrder.listed : IterationOrder Batches where
  visit := AList.entries
  perm _ := List.Perm.refl _

/-- The state behind the mutex. -/
structure Inner (Batches : Type*) where
  store : Store Batches
  tick : Nat
  hits : Nat
  misses : Nat
  evictionsLru : Nat
  evictionsTtl : Nat

/-- A cache together with the asserted facts about its configuration. -/
structure Cache (Batches : Type*) where
  inner : Inner Batches
  maxEntries : Nat
  ttl : Nat
  maxEntries_pos : 0 < maxEntries
  ttl_pos : 0 < ttl

/-- Snapshot of cache counters. -/
structure CacheStats where
  hits : Nat
  misses : Nat
  evictionsLru : Nat
  evictionsTtl : Nat
  entries : Nat
  deriving DecidableEq, Repr

namespace Cache

/-- A fresh cache; the two assertions of the source are the arguments. -/
def withClock (Batches : Type*) (maxEntries ttl : Nat)
    (maxEntries_pos : 0 < maxEntries) (ttl_pos : 0 < ttl) :
    Cache Batches where
  inner := ⟨∅, 0, 0, 0, 0, 0⟩
  maxEntries := maxEntries
  ttl := ttl
  maxEntries_pos := maxEntries_pos
  ttl_pos := ttl_pos

/-- The entry stored under a key. -/
def entryAt (cache : Cache Batches) (key : String) : Option (Entry Batches) :=
  cache.inner.store.lookup key

/-- The locked section of `get`. -/
def getLocked (cache : Cache Batches) (key : String) (now : Nat) :
    Cache Batches × Option Batches :=
  let inner := { cache.inner with tick := cache.inner.tick + 1 }
  match inner.store.lookup key with
  | some entry =>
      -- `Instant::duration_since` saturates at zero, as `-` does here
      if now - entry.insertedAt ≤ cache.ttl then
        ({ cache with
            inner := { inner with
              store := inner.store.insert key
                { entry with lastUsed := inner.tick }
              hits := inner.hits + 1 } },
          some entry.batches)
      else
        ({ cache with
            inner := { inner with
              store := inner.store.erase key
              evictionsTtl := inner.evictionsTtl + 1
              misses := inner.misses + 1 } },
          none)
  | none =>
      ({ cache with inner := { inner with misses := inner.misses + 1 } }, none)

/-- The entry the eviction scan picks: the first of least `lastUsed`. -/
def lruKey (order : IterationOrder Batches) (store : Store Batches) :
    Option String :=
  ((order.visit store).argmin fun slot => slot.2.lastUsed).map Sigma.fst

/-- The store after `set` has made room for `key`, and the evictions made. -/
def evictFor (order : IterationOrder Batches) (maxEntries : Nat)
    (store : Store Batches) (key : String) : Store Batches × Nat :=
  if key ∉ store ∧ maxEntries ≤ store.entries.length then
    match lruKey order store with
    | some lru => (store.erase lru, 1)
    | none => (store, 0)
  else
    (store, 0)

/-- The locked section of `set`. -/
def setLocked (cache : Cache Batches) (order : IterationOrder Batches)
    (key : String) (batches : Batches) (now : Nat) : Cache Batches :=
  let inner := { cache.inner with tick := cache.inner.tick + 1 }
  let (store, evicted) := evictFor order cache.maxEntries inner.store key
  { cache with
    inner := { inner with
      store := store.insert key ⟨batches, now, inner.tick⟩
      evictionsLru := inner.evictionsLru + evicted } }

/-- `Cache::get`, with the clock reading it makes. -/
def get (parseSql : String → Option (List String)) (cache : Cache Batches)
    (sql : String) (now : Nat) : Cache Batches × Option Batches :=
  cache.getLocked (normalizeQuery parseSql sql) now

/-- `Cache::set`, with the clock reading and the scan order it uses. -/
def set (parseSql : String → Option (List String)) (cache : Cache Batches)
    (order : IterationOrder Batches) (sql : String) (batches : Batches)
    (now : Nat) : Cache Batches :=
  cache.setLocked order (normalizeQuery parseSql sql) batches now

/-- Removes every cached entry. -/
def clear (cache : Cache Batches) : Cache Batches :=
  { cache with inner := { cache.inner with store := ∅ } }

def len (cache : Cache Batches) : Nat :=
  cache.inner.store.entries.length

def isEmpty (cache : Cache Batches) : Bool :=
  cache.len == 0

def stats (cache : Cache Batches) : CacheStats where
  hits := cache.inner.hits
  misses := cache.inner.misses
  evictionsLru := cache.inner.evictionsLru
  evictionsTtl := cache.inner.evictionsTtl
  entries := cache.len

/-- `EntriesSatisfy property cache` says that every stored entry's key,
batches and insertion time have a property.  Hits, expiries and evictions
never create an entry, so only `set` has to establish it. -/
def EntriesSatisfy (property : String → Batches → Nat → Prop)
    (cache : Cache Batches) : Prop :=
  ∀ key entry, cache.entryAt key = some entry →
    property key entry.batches entry.insertedAt

section Entries

variable {property : String → Batches → Nat → Prop}
variable {cache : Cache Batches}

@[simp]
theorem entryAt_clear (cache : Cache Batches) (key : String) :
    cache.clear.entryAt key = none := by
  simp [entryAt, clear]

theorem entryAt_of_isEmpty (empty : cache.isEmpty = true) (key : String) :
    cache.entryAt key = none := by
  have noEntries : cache.inner.store.entries = [] := by
    simpa [isEmpty, len] using empty
  have storeEq : cache.inner.store = ∅ := AList.ext noEntries
  simp [entryAt, storeEq]

theorem isEmpty_clear (cache : Cache Batches) : cache.clear.isEmpty = true :=
  rfl

theorem getLocked_of_fresh {key : String} {now : Nat} {entry : Entry Batches}
    (found : cache.entryAt key = some entry)
    (fresh : now - entry.insertedAt ≤ cache.ttl) :
    cache.getLocked key now =
      ({ cache with
          inner := { cache.inner with
            store := cache.inner.store.insert key
              { entry with lastUsed := cache.inner.tick + 1 }
            tick := cache.inner.tick + 1
            hits := cache.inner.hits + 1 } },
        some entry.batches) := by
  unfold entryAt at found
  simp only [getLocked, found, fresh, if_true]

theorem getLocked_of_expired {key : String} {now : Nat}
    {entry : Entry Batches} (found : cache.entryAt key = some entry)
    (expired : ¬ now - entry.insertedAt ≤ cache.ttl) :
    cache.getLocked key now =
      ({ cache with
          inner := { cache.inner with
            store := cache.inner.store.erase key
            tick := cache.inner.tick + 1
            evictionsTtl := cache.inner.evictionsTtl + 1
            misses := cache.inner.misses + 1 } },
        none) := by
  unfold entryAt at found
  simp only [getLocked, found, expired, if_false]

theorem getLocked_of_absent {key : String} {now : Nat}
    (absent : cache.entryAt key = none) :
    cache.getLocked key now =
      ({ cache with
          inner := { cache.inner with
            tick := cache.inner.tick + 1
            misses := cache.inner.misses + 1 } },
        none) := by
  unfold entryAt at absent
  simp only [getLocked, absent]

/-- The three outcomes of a lookup: hit, expired, absent. -/
theorem getLocked_cases (cache : Cache Batches) (key : String) (now : Nat) :
    (∃ entry, cache.entryAt key = some entry ∧
        now - entry.insertedAt ≤ cache.ttl) ∨
      (∃ entry, cache.entryAt key = some entry ∧
        ¬ now - entry.insertedAt ≤ cache.ttl) ∨
      cache.entryAt key = none := by
  cases found : cache.entryAt key with
  | none => exact Or.inr (Or.inr rfl)
  | some entry =>
      by_cases fresh : now - entry.insertedAt ≤ cache.ttl
      · exact Or.inl ⟨entry, rfl, fresh⟩
      · exact Or.inr (Or.inl ⟨entry, rfl, fresh⟩)

theorem exists_entry_of_getLocked_eq_some {key : String} {now : Nat}
    {batches : Batches} (hit : (cache.getLocked key now).2 = some batches) :
    ∃ entry, cache.entryAt key = some entry ∧ entry.batches = batches ∧
      now - entry.insertedAt ≤ cache.ttl := by
  rcases getLocked_cases cache key now with
    ⟨entry, found, fresh⟩ | ⟨entry, found, expired⟩ | absent
  · rw [getLocked_of_fresh found fresh] at hit
    exact ⟨entry, found, Option.some.inj hit, fresh⟩
  · rw [getLocked_of_expired found expired] at hit
    cases hit
  · rw [getLocked_of_absent absent] at hit
    cases hit

theorem entryAt_getLocked_of_ne {key other : String}
    (different : other ≠ key) (cache : Cache Batches) (now : Nat) :
    (cache.getLocked key now).1.entryAt other = cache.entryAt other := by
  rcases getLocked_cases cache key now with
    ⟨entry, found, fresh⟩ | ⟨entry, found, expired⟩ | absent
  · rw [getLocked_of_fresh found fresh]
    exact AList.lookup_insert_ne different
  · rw [getLocked_of_expired found expired]
    exact AList.lookup_erase_ne different
  · rw [getLocked_of_absent absent]
    rfl

/-- `get` keeps batches and insertion times; it can only drop an entry. -/
theorem exists_entry_of_entryAt_getLocked {key other : String} {now : Nat}
    {entry : Entry Batches}
    (found : (cache.getLocked key now).1.entryAt other = some entry) :
    ∃ earlier, cache.entryAt other = some earlier ∧
      earlier.batches = entry.batches ∧
        earlier.insertedAt = entry.insertedAt := by
  rcases getLocked_cases cache key now with
    ⟨stored, present, fresh⟩ | ⟨stored, present, expired⟩ | absent
  · rw [getLocked_of_fresh present fresh] at found
    by_cases same : other = key
    · subst other
      simp only [entryAt, AList.lookup_insert, Option.some.injEq] at found
      subst entry
      exact ⟨stored, present, rfl, rfl⟩
    · simp only [entryAt, AList.lookup_insert_ne same] at found
      exact ⟨entry, found, rfl, rfl⟩
  · rw [getLocked_of_expired present expired] at found
    by_cases same : other = key
    · subst other
      simp [entryAt] at found
    · simp only [entryAt, AList.lookup_erase_ne same] at found
      exact ⟨entry, found, rfl, rfl⟩
  · rw [getLocked_of_absent absent] at found
    exact ⟨entry, found, rfl, rfl⟩

theorem lookup_of_lookup_evictFor {order : IterationOrder Batches}
    {maxEntries : Nat} {store : Store Batches} {key other : String}
    {entry : Entry Batches}
    (found : (evictFor order maxEntries store key).1.lookup other =
      some entry) :
    store.lookup other = some entry := by
  unfold evictFor at found
  split at found
  · cases picked : lruKey order store with
    | none => simpa [picked] using found
    | some lru =>
        simp only [picked] at found
        by_cases same : other = lru
        · subst other
          simp at found
        · rwa [AList.lookup_erase_ne same] at found
  · exact found

theorem entryAt_setLocked_of_ne {key other : String}
    (different : other ≠ key) (cache : Cache Batches)
    (order : IterationOrder Batches) (batches : Batches) (now : Nat) :
    (cache.setLocked order key batches now).entryAt other =
      (evictFor order cache.maxEntries cache.inner.store key).1.lookup
        other :=
  AList.lookup_insert_ne different

/-- After `set`, the key holds the new entry and any other entry is old. -/
theorem entryAt_setLocked_cases {order : IterationOrder Batches}
    {key other : String} {batches : Batches} {now : Nat}
    {entry : Entry Batches}
    (found : (cache.setLocked order key batches now).entryAt other =
      some entry) :
    (other = key ∧ entry.batches = batches ∧ entry.insertedAt = now) ∨
      (other ≠ key ∧ cache.entryAt other = some entry) := by
  by_cases same : other = key
  · subst other
    simp only [setLocked, entryAt, AList.lookup_insert,
      Option.some.injEq] at found
    subst entry
    exact Or.inl ⟨rfl, rfl, rfl⟩
  · simp only [setLocked, entryAt, AList.lookup_insert_ne same] at found
    exact Or.inr ⟨same, lookup_of_lookup_evictFor found⟩

@[simp]
theorem entryAt_setLocked_self (cache : Cache Batches)
    (order : IterationOrder Batches) (key : String) (batches : Batches)
    (now : Nat) :
    (cache.setLocked order key batches now).entryAt key =
      some ⟨batches, now, cache.inner.tick + 1⟩ := by
  simp [setLocked, entryAt]

theorem EntriesSatisfy.getLocked (satisfied : EntriesSatisfy property cache)
    (key : String) (now : Nat) :
    EntriesSatisfy property (cache.getLocked key now).1 := by
  intro other entry found
  obtain ⟨earlier, stored, batchesEq, insertedEq⟩ :=
    exists_entry_of_entryAt_getLocked found
  rw [← batchesEq, ← insertedEq]
  exact satisfied other earlier stored

theorem EntriesSatisfy.setLocked (satisfied : EntriesSatisfy property cache)
    {order : IterationOrder Batches} {key : String} {batches : Batches}
    {now : Nat} (established : property key batches now) :
    EntriesSatisfy property (cache.setLocked order key batches now) := by
  intro other entry found
  rcases entryAt_setLocked_cases found with
    ⟨rfl, batchesEq, insertedEq⟩ | ⟨_, stored⟩
  · rw [batchesEq, insertedEq]
    exact established
  · exact satisfied other entry stored

theorem entriesSatisfy_clear (property : String → Batches → Nat → Prop)
    (cache : Cache Batches) : EntriesSatisfy property cache.clear := by
  intro key entry found
  simp at found

theorem entriesSatisfy_withClock (property : String → Batches → Nat → Prop)
    {maxEntries ttl : Nat} (maxEntries_pos : 0 < maxEntries)
    (ttl_pos : 0 < ttl) :
    EntriesSatisfy property
      (withClock Batches maxEntries ttl maxEntries_pos ttl_pos) := by
  intro key entry found
  simp [entryAt, withClock] at found

theorem EntriesSatisfy.mono {weaker : String → Batches → Nat → Prop}
    (satisfied : EntriesSatisfy property cache)
    (implies : ∀ key batches insertedAt, property key batches insertedAt →
      weaker key batches insertedAt) :
    EntriesSatisfy weaker cache :=
  fun key entry found =>
    implies key entry.batches entry.insertedAt (satisfied key entry found)

end Entries

@[simp]
theorem ttl_getLocked (cache : Cache Batches) (key : String) (now : Nat) :
    (cache.getLocked key now).1.ttl = cache.ttl := by
  rcases getLocked_cases cache key now with
    ⟨entry, found, fresh⟩ | ⟨entry, found, expired⟩ | absent
  · rw [getLocked_of_fresh found fresh]
  · rw [getLocked_of_expired found expired]
  · rw [getLocked_of_absent absent]

@[simp]
theorem ttl_setLocked (cache : Cache Batches) (order : IterationOrder Batches)
    (key : String) (batches : Batches) (now : Nat) :
    (cache.setLocked order key batches now).ttl = cache.ttl :=
  rfl

@[simp]
theorem ttl_clear (cache : Cache Batches) : cache.clear.ttl = cache.ttl :=
  rfl

end Cache

end CacheLayer

end Igloo
