import Mathlib.Data.List.AList

/-!
# Recency lists

A recency list holds values by key, the key used last in front, together with
the time each value was stored.  A lookup moves its key to the front or drops a
value that is older than the lifetime; a store puts its value in front and cuts
the list to the capacity.  This is what a least-recently-used cache with
expiry is for, with no mention of clocks of use or of a search for a victim.

A store that stamps its entries with the times of their uses implements a
recency list when the stamps are ordered as the list is.  The rules for `Ranks`
say that the operations of such a store keep it so.
-/

namespace Igloo

namespace RecencyLists

variable {Key Value : Type*} [DecidableEq Key]

/-- A value and the time it was stored. -/
structure Held (Value : Type*) where
  value : Value
  storedAt : Nat
  deriving DecidableEq, Repr

/-- Held values by key, the key used last in front. -/
abbrev RecencyList (Key Value : Type*) :=
  AList fun _ : Key => Held Value

/-- The front of an association list. -/
def truncate {Content : Type*} (length : Nat)
    (list : AList fun _ : Key => Content) : AList fun _ : Key => Content where
  entries := list.entries.take length
  nodupKeys := list.nodupKeys.sublist (List.take_sublist length _)

/-- A value that is not too old is used; a value that is gets dropped. -/
def use (lifetime : Nat) (list : RecencyList Key Value) (key : Key)
    (now : Nat) : RecencyList Key Value × Option Value :=
  match list.lookup key with
  | some held =>
      if now - held.storedAt ≤ lifetime then
        (list.insert key held, some held.value)
      else (list.erase key, none)
  | none => (list, none)

/-- The new value is in front and the list fits the capacity. -/
def put (capacity : Nat) (list : RecencyList Key Value) (key : Key)
    (value : Value) (now : Nat) : RecencyList Key Value :=
  truncate capacity (list.insert key ⟨value, now⟩)

section Truncation

variable {Content : Type*} {list : AList fun _ : Key => Content}

omit [DecidableEq Key] in
theorem truncate_of_length_le {length : Nat}
    (short : list.entries.length ≤ length) : truncate length list = list :=
  AList.ext (List.take_of_length_le short)

/-- Cutting one entry off is erasing the last key. -/
theorem truncate_eq_erase {front : List (Σ _ : Key, Content)}
    {last : Σ _ : Key, Content} (entriesEq : list.entries = front ++ [last]) :
    truncate front.length list = list.erase last.1 := by
  have distinct := list.nodupKeys
  rw [entriesEq] at distinct
  have notInFront : last.1 ∉ front.keys := by
    intro keyMem
    rw [List.NodupKeys, List.keys, List.map_append] at distinct
    exact (List.disjoint_of_nodup_append distinct keyMem) (by simp)
  apply AList.ext
  change list.entries.take front.length = list.entries.kerase last.1
  rw [entriesEq, List.take_left, List.kerase_append_right notInFront,
    List.kerase_cons_eq rfl, List.append_nil]

end Truncation

section Stamps

variable {Stamped : Type*} {held : Stamped → Held Value}
variable {stamp : Stamped → Nat}

/-- The store holds what the list holds, and its stamps decrease along the
list. -/
structure Ranks (held : Stamped → Held Value) (stamp : Stamped → Nat)
    (store : AList fun _ : Key => Stamped) (list : RecencyList Key Value) :
    Prop where
  lookup_eq : ∀ key, list.lookup key = (store.lookup key).map held
  ordered : list.keys.Pairwise fun later earlier =>
    ∀ laterEntry earlierEntry, store.lookup later = some laterEntry →
      store.lookup earlier = some earlierEntry →
        stamp earlierEntry < stamp laterEntry

variable {store : AList fun _ : Key => Stamped}
variable {list : RecencyList Key Value}

theorem ranks_empty :
    Ranks held stamp (∅ : AList fun _ : Key => Stamped) ∅ where
  lookup_eq := fun _ => rfl
  ordered := List.Pairwise.nil

theorem Ranks.mem_iff (ranks : Ranks held stamp store list) {key : Key} :
    key ∈ list ↔ key ∈ store := by
  rw [← AList.lookup_isSome, ← AList.lookup_isSome, ranks.lookup_eq,
    Option.isSome_map]

theorem Ranks.keys_perm (ranks : Ranks held stamp store list) :
    list.keys.Perm store.keys := by
  refine (List.perm_ext_iff_of_nodup list.keys_nodup store.keys_nodup).mpr ?_
  intro key
  rw [← AList.mem_keys, ← AList.mem_keys, ranks.mem_iff]

theorem Ranks.length_eq (ranks : Ranks held stamp store list) :
    list.entries.length = store.entries.length := by
  have sameLength := ranks.keys_perm.length_eq
  simpa only [AList.keys, List.keys, List.length_map] using sameLength

/-- The entry used last goes to the front. -/
theorem Ranks.insert (ranks : Ranks held stamp store list) (key : Key)
    (entry : Stamped)
    (newest : ∀ other otherEntry, store.lookup other = some otherEntry →
      stamp otherEntry < stamp entry) :
    Ranks held stamp (store.insert key entry)
      (list.insert key (held entry)) where
  lookup_eq := by
    intro other
    by_cases same : other = key
    · subst same
      rw [AList.lookup_insert, AList.lookup_insert]
      rfl
    · rw [AList.lookup_insert_ne same, AList.lookup_insert_ne same]
      exact ranks.lookup_eq other
  ordered := by
    rw [AList.keys_insert, List.pairwise_cons]
    constructor
    · intro other otherMem laterEntry earlierEntry laterFound earlierFound
      have different : other ≠ key :=
        ((list.keys_nodup.mem_erase_iff).mp otherMem).1
      rw [AList.lookup_insert, Option.some.injEq] at laterFound
      rw [AList.lookup_insert_ne different] at earlierFound
      rw [← laterFound]
      exact newest other earlierEntry earlierFound
    · refine List.Pairwise.imp_of_mem ?_
        (ranks.ordered.sublist List.erase_sublist)
      intro later earlier laterMem earlierMem ordered laterEntry earlierEntry
        laterFound earlierFound
      rw [AList.lookup_insert_ne
        ((list.keys_nodup.mem_erase_iff).mp laterMem).1] at laterFound
      rw [AList.lookup_insert_ne
        ((list.keys_nodup.mem_erase_iff).mp earlierMem).1] at earlierFound
      exact ordered laterEntry earlierEntry laterFound earlierFound

theorem Ranks.erase (ranks : Ranks held stamp store list) (key : Key) :
    Ranks held stamp (store.erase key) (list.erase key) where
  lookup_eq := by
    intro other
    by_cases same : other = key
    · subst same
      rw [AList.lookup_erase, AList.lookup_erase]
      rfl
    · rw [AList.lookup_erase_ne same, AList.lookup_erase_ne same]
      exact ranks.lookup_eq other
  ordered := by
    rw [AList.keys_erase]
    refine List.Pairwise.imp_of_mem ?_
      (ranks.ordered.sublist List.erase_sublist)
    intro later earlier laterMem earlierMem ordered laterEntry earlierEntry
      laterFound earlierFound
    rw [AList.lookup_erase_ne
      ((list.keys_nodup.mem_erase_iff).mp laterMem).1] at laterFound
    rw [AList.lookup_erase_ne
      ((list.keys_nodup.mem_erase_iff).mp earlierMem).1] at earlierFound
    exact ordered laterEntry earlierEntry laterFound earlierFound

/-- The entry of least stamp is at the end of the list. -/
theorem Ranks.exists_last (ranks : Ranks held stamp store list) {key : Key}
    {entry : Stamped} (found : store.lookup key = some entry)
    (least : ∀ other otherEntry, store.lookup other = some otherEntry →
      stamp entry ≤ stamp otherEntry) :
    ∃ front last, list.entries = front ++ [last] ∧ last.1 = key := by
  have keyMem : key ∈ list := by
    rw [ranks.mem_iff, ← AList.lookup_isSome, found]
    rfl
  rcases List.eq_nil_or_concat list.entries with empty | ⟨front, last, split⟩
  · rw [AList.mem_keys, AList.keys, empty] at keyMem
    cases keyMem
  rw [List.concat_eq_append] at split
  refine ⟨front, last, split, ?_⟩
  by_contra different
  have keysEq : list.keys = front.keys ++ [last.1] := by
    rw [AList.keys, split, List.keys, List.map_append]
    rfl
  have inFront : key ∈ front.keys := by
    rw [AList.mem_keys, keysEq, List.mem_append] at keyMem
    exact keyMem.resolve_right fun isLast =>
      different (List.mem_singleton.mp isLast).symm
  have lastMem : last.1 ∈ store := by
    rw [← ranks.mem_iff, AList.mem_keys, keysEq]
    simp
  obtain ⟨lastEntry, lastFound⟩ :=
    Option.isSome_iff_exists.mp (AList.lookup_isSome.mpr lastMem)
  have ordered := ranks.ordered
  rw [keysEq, List.pairwise_append] at ordered
  have above := ordered.2.2 key inFront last.1 (by simp) entry lastEntry found
    lastFound
  exact absurd (least last.1 lastEntry lastFound) (not_le.mpr above)

/-- A lookup of a stored value that is not too old. -/
theorem Ranks.use_of_fresh (ranks : Ranks held stamp store list) {key : Key}
    {entry : Stamped} {lifetime now : Nat}
    (found : store.lookup key = some entry)
    (fresh : now - (held entry).storedAt ≤ lifetime) :
    use lifetime list key now =
      (list.insert key (held entry), some (held entry).value) := by
  simp only [use, ranks.lookup_eq, found, Option.map_some, if_pos fresh]

theorem Ranks.use_of_expired (ranks : Ranks held stamp store list) {key : Key}
    {entry : Stamped} {lifetime now : Nat}
    (found : store.lookup key = some entry)
    (expired : ¬ now - (held entry).storedAt ≤ lifetime) :
    use lifetime list key now = (list.erase key, none) := by
  simp only [use, ranks.lookup_eq, found, Option.map_some, if_neg expired]

theorem Ranks.use_of_absent (ranks : Ranks held stamp store list) {key : Key}
    {lifetime now : Nat} (absent : store.lookup key = none) :
    use lifetime list key now = (list, none) := by
  simp only [use, ranks.lookup_eq, absent, Option.map_none]

end Stamps

theorem put_of_mem {list : RecencyList Key Value} {capacity : Nat} {key : Key}
    (present : key ∈ list) (bounded : list.entries.length ≤ capacity)
    (value : Value) (now : Nat) :
    put capacity list key value now = list.insert key ⟨value, now⟩ := by
  apply truncate_of_length_le
  have keyMem : key ∈ list.keys := AList.mem_keys.mp present
  have nonempty : 0 < list.keys.length := List.length_pos_of_mem keyMem
  have keysLength := congrArg List.length
    (@AList.keys_insert _ _ _ key (⟨value, now⟩ : Held Value) list)
  rw [List.length_cons, List.length_erase_of_mem keyMem] at keysLength
  simp only [AList.keys, List.keys, List.length_map] at keysLength nonempty
  omega

theorem put_of_notMem {list : RecencyList Key Value} {capacity : Nat}
    {key : Key} (absent : key ∉ list) (room : list.entries.length < capacity)
    (value : Value) (now : Nat) :
    put capacity list key value now = list.insert key ⟨value, now⟩ := by
  apply truncate_of_length_le
  rw [AList.entries_insert_of_notMem absent, List.length_cons]
  exact room

theorem put_of_full {list : RecencyList Key Value} {key : Key}
    {front : List (Σ _ : Key, Held Value)} {last : Σ _ : Key, Held Value}
    (entriesEq : list.entries = front ++ [last]) (absent : key ∉ list)
    (value : Value) (now : Nat) :
    put list.entries.length list key value now =
      (list.erase last.1).insert key ⟨value, now⟩ := by
  have different : key ≠ last.1 := by
    rintro rfl
    apply absent
    rw [AList.mem_keys, AList.keys, entriesEq, List.keys, List.map_append]
    simp
  have frontEq : (list.erase last.1).entries = front := by
    rw [← truncate_eq_erase entriesEq]
    change list.entries.take front.length = front
    rw [entriesEq, List.take_left]
  have stillAbsent : key ∉ list.erase last.1 := fun present =>
    absent (AList.mem_erase.mp present).2
  apply AList.ext
  rw [AList.entries_insert_of_notMem stillAbsent, frontEq]
  change (list.insert key ⟨value, now⟩).entries.take list.entries.length = _
  rw [AList.entries_insert_of_notMem absent, entriesEq, List.length_append,
    List.length_singleton, List.take_succ_cons, List.take_left]

end RecencyLists

end Igloo
