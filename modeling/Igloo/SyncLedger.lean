import Igloo.CdcSync
import Mathlib.Algebra.GroupWithZero.Nat
import Mathlib.Data.List.Find
import Mathlib.Data.List.Nodup

/-!
# The ledger of processed files

Several calls of `sync` visit directory entries in turn, each visit under the
lock on the processed files.  The ledger holds the processed files, the visits
in the order in which they were made, and the files that each call counted.
-/

namespace Igloo

namespace CdcSync

namespace SyncRuns

open CdcListener

/-- One pass of a call through the body of the loop. -/
structure Visit where
  call : Nat
  entry : DirEntry
  deriving DecidableEq, Repr

/-- The files processed so far, with the visits that led there and the files
that each call counted. -/
structure Ledger where
  listener : CdcListener
  visits : List Visit
  counted : Nat → List String

/-- The ledger after a visit. -/
def Ledger.visit (ledger : Ledger) (call : Nat) (entry : DirEntry) :
    Ledger where
  listener := ⟨(CdcListener.readEntry (ledger.listener.processed, [])
    entry).1⟩
  visits := ledger.visits ++ [⟨call, entry⟩]
  counted :=
    if Counts ledger.listener.processed entry then
      Function.update ledger.counted call (ledger.counted call ++ [entry.path])
    else ledger.counted

/-- The entry's path is the given one and its read succeeds. -/
def Visit.Reads (visit : Visit) (path : String) : Prop :=
  visit.entry.path = path ∧ visit.entry.content.isSome = true

instance (visit : Visit) (path : String) : Decidable (visit.Reads path) :=
  inferInstanceAs (Decidable (_ ∧ _))

/-- The call that made the first visit to read the path. -/
def firstReader (visits : List Visit) (path : String) : Option Nat :=
  (visits.find? fun visit => visit.Reads path).map Visit.call

/-- The first call, in the order in which calls took the lock, one of whose
visits read the path. -/
def firstLocked (locked : List Nat) (visits : List Visit) (path : String) :
    Option Nat :=
  locked.find? fun call =>
    visits.any fun visit => visit.call = call ∧ visit.Reads path

section Visits

/-- The listener after a visit does not depend on the events read before. -/
theorem processed_visit (ledger : Ledger) (call : Nat) (entry : DirEntry)
    (events : List String) :
    (ledger.visit call entry).listener.processed =
      (CdcListener.readEntry (ledger.listener.processed, events)
        entry).1 := by
  by_cases counts : Counts ledger.listener.processed entry
  · obtain ⟨_, readEq⟩ := @readEntry_of_counts _ [] _ counts
    obtain ⟨_, readEventsEq⟩ := @readEntry_of_counts _ events _ counts
    simp only [Ledger.visit, readEq, readEventsEq]
  · simp only [Ledger.visit, readEntry_of_not_counts counts]

theorem firstReader_concat (visits : List Visit) (visit : Visit)
    (path : String) :
    firstReader (visits ++ [visit]) path =
      (firstReader visits path).or
        (if visit.Reads path then some visit.call else none) := by
  simp only [firstReader, List.find?_append, List.find?_singleton,
    Option.map_or, decide_eq_true_eq]
  by_cases read : visit.Reads path
  · simp only [if_pos read, Option.map_some]
  · simp only [if_neg read, Option.map_none]

/-- The processed files are the JSON files that some visit read, and the call
that counted one is the first that read it. -/
structure LedgerSound (ledger : Ledger) : Prop where
  counted_iff : ∀ path call, path ∈ ledger.counted call ↔
    extension path = some "json" ∧
      firstReader ledger.visits path = some call
  processed_iff : ∀ path, path ∈ ledger.listener.processed ↔
    extension path = some "json" ∧
      (firstReader ledger.visits path).isSome = true
  counted_nodup : ∀ call, (ledger.counted call).Nodup
  processed_nodup : ledger.listener.processed.Nodup

end Visits

section Ledger

variable {ledger : Ledger} {call : Nat} {entry : DirEntry}

theorem ledgerSound_empty : LedgerSound ⟨⟨[]⟩, [], fun _ => []⟩ where
  counted_iff := by simp [firstReader]
  processed_iff := by simp [firstReader]
  counted_nodup := fun _ => List.nodup_nil
  processed_nodup := List.nodup_nil

theorem firstReader_of_processed {path : String} (sound : LedgerSound ledger)
    (seen : path ∈ ledger.listener.processed) :
    firstReader (ledger.visits ++ [⟨call, entry⟩]) path =
      firstReader ledger.visits path := by
  obtain ⟨reader, readerEq⟩ :=
    Option.isSome_iff_exists.mp ((sound.processed_iff path).mp seen).2
  rw [firstReader_concat, readerEq]
  rfl

/-- Nothing else than the visited path can be affected by a visit. -/
theorem firstReader_of_ne {path : String} (different : path ≠ entry.path)
    (visits : List Visit) :
    firstReader (visits ++ [⟨call, entry⟩]) path = firstReader visits path := by
  rw [firstReader_concat, if_neg (fun read => different read.1.symm),
    Option.or_none]

theorem firstReader_of_counts (sound : LedgerSound ledger)
    (counts : Counts ledger.listener.processed entry) :
    firstReader ledger.visits entry.path = none ∧
      firstReader (ledger.visits ++ [⟨call, entry⟩]) entry.path =
        some call := by
  obtain ⟨json, unseen, readable⟩ := counts
  have unread : firstReader ledger.visits entry.path = none := by
    rw [← Option.not_isSome_iff_eq_none]
    intro read
    exact unseen ((sound.processed_iff entry.path).mpr ⟨json, read⟩)
  refine ⟨unread, ?_⟩
  rw [firstReader_concat, unread, if_pos ⟨rfl, readable⟩]
  rfl

theorem firstReader_of_not_counts {path : String}
    (sound : LedgerSound ledger) (json : extension path = some "json")
    (notCounts : ¬ Counts ledger.listener.processed entry) :
    firstReader (ledger.visits ++ [⟨call, entry⟩]) path =
      firstReader ledger.visits path := by
  by_cases same : path = entry.path
  · by_cases seen : path ∈ ledger.listener.processed
    · exact firstReader_of_processed sound seen
    · have unreadable : ¬ entry.content.isSome = true := by
        intro readable
        subst same
        exact notCounts ⟨json, seen, readable⟩
      rw [firstReader_concat, if_neg (fun read => unreadable read.2),
        Option.or_none]
  · exact firstReader_of_ne same ledger.visits

theorem visit_of_counts
    (counts : Counts ledger.listener.processed entry) :
    ledger.visit call entry =
      ⟨⟨entry.path :: ledger.listener.processed⟩,
        ledger.visits ++ [⟨call, entry⟩],
        Function.update ledger.counted call
          (ledger.counted call ++ [entry.path])⟩ := by
  obtain ⟨content, readEq⟩ := @readEntry_of_counts _ [] _ counts
  simp only [Ledger.visit, readEq, if_pos counts]

theorem visit_of_not_counts
    (notCounts : ¬ Counts ledger.listener.processed entry) :
    ledger.visit call entry =
      { ledger with visits := ledger.visits ++ [⟨call, entry⟩] } := by
  simp only [Ledger.visit, readEntry_of_not_counts notCounts,
    if_neg notCounts]

theorem LedgerSound.visit_counts (sound : LedgerSound ledger)
    (counts : Counts ledger.listener.processed entry) :
    LedgerSound (ledger.visit call entry) := by
  obtain ⟨unread, nowRead⟩ :=
    @firstReader_of_counts ledger call entry sound counts
  rw [visit_of_counts counts]
  constructor
  · intro path other
    by_cases samePath : path = entry.path
    · subst samePath
      have uncounted : ∀ other, entry.path ∉ ledger.counted other := by
        intro other counted
        have read := ((sound.counted_iff entry.path other).mp counted).2
        rw [unread] at read
        cases read
      rw [nowRead]
      by_cases own : other = call
      · subst own
        simp [counts.1]
      · simp [own, uncounted other, Ne.symm own]
    · rw [firstReader_of_ne samePath, ← sound.counted_iff path other]
      by_cases own : other = call
      · subst own
        simp [samePath]
      · simp [own]
  · intro path
    by_cases samePath : path = entry.path
    · subst samePath
      simp [nowRead, counts.1]
    · rw [firstReader_of_ne samePath, ← sound.processed_iff path]
      simp [samePath]
  · intro other
    dsimp only
    by_cases own : other = call
    · subst own
      rw [Function.update_self, List.nodup_append]
      refine ⟨sound.counted_nodup other, List.nodup_singleton _, ?_⟩
      intro path counted last lastMem
      rw [List.mem_singleton.mp lastMem]
      rintro rfl
      have read := ((sound.counted_iff _ other).mp counted).2
      rw [unread] at read
      cases read
    · rw [Function.update_of_ne own]
      exact sound.counted_nodup other
  · exact List.nodup_cons.mpr ⟨counts.2.1, sound.processed_nodup⟩

theorem LedgerSound.visit (sound : LedgerSound ledger) (call : Nat)
    (entry : DirEntry) : LedgerSound (ledger.visit call entry) := by
  by_cases counts : Counts ledger.listener.processed entry
  · exact sound.visit_counts counts
  · rw [visit_of_not_counts counts]
    constructor
    · intro path other
      rw [sound.counted_iff]
      apply and_congr_right
      intro json
      rw [firstReader_of_not_counts sound json counts]
    · intro path
      rw [sound.processed_iff]
      apply and_congr_right
      intro json
      rw [firstReader_of_not_counts sound json counts]
    · exact sound.counted_nodup
    · exact sound.processed_nodup

/-- The first reader in lock order does not change when a call takes the lock
that has visited nothing. -/
theorem firstLocked_concat_locked {locked : List Nat} {visits : List Visit}
    (unvisited : ∀ visit ∈ visits, visit.call ≠ call) (path : String) :
    firstLocked (locked ++ [call]) visits path =
      firstLocked locked visits path := by
  have idle : visits.any (fun visit =>
      visit.call = call ∧ visit.Reads path) = false := by
    simp only [List.any_eq_false, decide_eq_true_eq]
    rintro visit member ⟨own, _⟩
    exact unvisited visit member own
  simp only [firstLocked, List.find?_append, List.find?_singleton, idle,
    Bool.false_eq_true, if_false, Option.or_none]

/-- A visit by the call that took the lock last keeps the agreement between
the order of the visits and the order of the lock. -/
theorem firstLocked_concat_visit {earlier : List Nat} {visits : List Visit}
    {path : String} (absent : call ∉ earlier)
    (agrees : firstLocked (earlier ++ [call]) visits path =
      firstReader visits path) :
    firstLocked (earlier ++ [call]) (visits ++ [⟨call, entry⟩]) path =
      firstReader (visits ++ [⟨call, entry⟩]) path := by
  rw [firstReader_concat, ← agrees]
  have unchanged : firstLocked earlier (visits ++ [⟨call, entry⟩]) path =
      firstLocked earlier visits path := by
    apply List.find?_congr
    intro other member
    have different : call ≠ other := by
      rintro rfl
      exact absent member
    simp [different]
  have split (visits : List Visit) :
      firstLocked (earlier ++ [call]) visits path =
        (firstLocked earlier visits path).or
          (if visits.any fun visit =>
              visit.call = call ∧ visit.Reads path then some call
          else none) := by
    simp only [firstLocked, List.find?_append, List.find?_singleton]
  rw [split, split, unchanged]
  cases firstLocked earlier visits path with
  | some found => rfl
  | none =>
      simp only [Option.none_or, List.any_append, List.any_cons,
        List.any_nil, Bool.or_false]
      by_cases readNow : Visit.Reads ⟨call, entry⟩ path
      · cases visits.any fun visit =>
            visit.call = call ∧ visit.Reads path <;>
          simp [readNow]
      · simp [readNow]

theorem LedgerSound.sum_counted (sound : LedgerSound ledger)
    {called : List Nat} (called_nodup : called.Nodup)
    (covered : ∀ call, call ∉ called → ledger.counted call = []) :
    (called.map fun call => (ledger.counted call).length).sum =
      ledger.listener.processed.length := by
  have nodup : (called.flatMap ledger.counted).Nodup := by
    rw [List.nodup_flatMap]
    refine ⟨fun call _ => sound.counted_nodup call, ?_⟩
    apply called_nodup.imp
    intro first second different path firstCounts secondCounts
    have firstRead := ((sound.counted_iff path first).mp firstCounts).2
    have secondRead := ((sound.counted_iff path second).mp secondCounts).2
    rw [firstRead] at secondRead
    exact different (Option.some.inj secondRead)
  have perm : (called.flatMap ledger.counted).Perm
      ledger.listener.processed := by
    rw [List.perm_ext_iff_of_nodup nodup sound.processed_nodup]
    intro path
    rw [List.mem_flatMap, sound.processed_iff, Option.isSome_iff_exists]
    constructor
    · rintro ⟨call, _, counts⟩
      obtain ⟨json, read⟩ := (sound.counted_iff path call).mp counts
      exact ⟨json, call, read⟩
    · rintro ⟨json, call, read⟩
      have counts := (sound.counted_iff path call).mpr ⟨json, read⟩
      refine ⟨call, ?_, counts⟩
      by_contra uncalled
      rw [covered call uncalled] at counts
      cases counts
  rw [← perm.length_eq, List.length_flatMap]

end Ledger

end SyncRuns

end CdcSync

end Igloo
