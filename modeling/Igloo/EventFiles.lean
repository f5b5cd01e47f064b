import Igloo.CdcSync
import Igloo.LabelledRuns
import Igloo.RustText

/-!
# Event files that come and go

Between sequential calls of `sync`, files of the directory are created,
overwritten and deleted, with any bytes, and results are looked up and stored.
The listener knows files by their paths and never forgets one, and it reads a
file as text.  So a call reacts to a new file unless the cache is empty
anyway, or unless every JSON file it finds is either not text or at a path
where some earlier call found a file that was.
-/

namespace Igloo

namespace CdcSync

namespace EventFiles

open CacheLayer CdcListener LabelledRuns

variable {Batches : Type}

/-- A file of the directory.  `created` tells it from the other files that
ever had its path. -/
structure File where
  path : String
  bytes : List UInt8
  created : Nat
  deriving DecidableEq, Repr

namespace File

/-- `read_to_string`, where it succeeds. -/
def content (file : File) : Option String :=
  RustText.fromUtf8 file.bytes

def entry (file : File) : DirEntry :=
  ⟨file.path, file.content⟩

/-- A `.json` file. -/
def IsEvent (file : File) : Prop :=
  extension file.path = some "json"

instance (file : File) : Decidable file.IsEvent :=
  inferInstanceAs (Decidable (_ = _))

end File

/-- What it means that a file was not in the directory at the previous call:
no file at its path was, or the file itself was not. -/
inductive Newness
  | byPath
  | byFile
  deriving DecidableEq, Repr

/-- The file was not in the directory at the previous call. -/
def Newness.IsNew : Newness → List File → File → Prop
  | .byPath, previous, file => file.path ∉ previous.map File.path
  | .byFile, previous, file => file.created ∉ previous.map File.created

instance (previous : List File) (file : File) : (newness : Newness) →
    Decidable (newness.IsNew previous file)
  | .byPath =>
      inferInstanceAs (Decidable (file.path ∉ previous.map File.path))
  | .byFile =>
      inferInstanceAs (Decidable (file.created ∉ previous.map File.created))

/-- An event file was not in the directory at the previous call. -/
def Newness.HoldsNew (newness : Newness) (previous found : List File) :
    Prop :=
  ∃ file ∈ found, file.IsEvent ∧ newness.IsNew previous file

instance (newness : Newness) (previous found : List File) :
    Decidable (newness.HoldsNew previous found) :=
  inferInstanceAs (Decidable (∃ file ∈ found, _ ∧ _))

/-- A call of `sync`: the directory it found, the one that the call before it
found, and whether the cache was empty when it returned. -/
structure Pass where
  found : List File
  previous : List File
  leftEmpty : Bool

/-- If there was a new event file, the call left the cache empty. -/
def Pass.Reacts (newness : Newness) (pass : Pass) : Prop :=
  newness.HoldsNew pass.previous pass.found → pass.leftEmpty = true

instance (newness : Newness) (pass : Pass) :
    Decidable (pass.Reacts newness) :=
  inferInstanceAs (Decidable (_ → _))

/-- The passes are listed with the latest first. -/
structure Shared (Batches : Type) where
  cache : Cache Batches
  listener : CdcListener
  directory : List File
  created : Nat
  passes : List Pass

inductive Action (Batches : Type)
  | create (path : String) (bytes : List UInt8)
  | write (path : String) (bytes : List UInt8)
  | delete (path : String)
  | sync (listing : List File)
  | get (sql : String) (now : Nat)
  | set (sql : String) (batches : Batches) (now : Nat)
      (order : IterationOrder Batches)

/-- The directory as the latest call found it. -/
def Shared.previous (shared : Shared Batches) : List File :=
  match shared.passes with
  | [] => []
  | pass :: _ => pass.found

/-- Changes of the directory and calls in turn.  A listing holds the files of
the directory in some order. -/
def step (parseSql : String → Option (List String))
    (shared : Shared Batches) : Action Batches → Option (Shared Batches)
  | .create path bytes =>
      some { shared with
        directory := ⟨path, bytes, shared.created⟩ ::
          shared.directory.filter (fun file => file.path ≠ path)
        created := shared.created + 1 }
  | .write path bytes =>
      some { shared with
        directory := shared.directory.map fun file =>
          if file.path = path then { file with bytes := bytes } else file }
  | .delete path =>
      some { shared with
        directory :=
          shared.directory.filter (fun file => file.path ≠ path) }
  | .sync listing =>
      if listing.Perm shared.directory then
        let ((listener, cache), _) := shared.listener.sync
          (.directory (listing.map File.entry)) shared.cache
        some { shared with
          listener := listener
          cache := cache
          passes := ⟨listing, shared.previous, cache.isEmpty⟩ ::
            shared.passes }
      else none
  | .get sql now =>
      some { shared with cache := (shared.cache.get parseSql sql now).1 }
  | .set sql batches now order =>
      some { shared with
        cache := shared.cache.set parseSql order sql batches now }

/-- A new listener, an empty directory, and a cache that may hold entries. -/
def fresh (cache : Cache Batches) : Shared Batches where
  cache := cache
  listener := ⟨[]⟩
  directory := []
  created := 0
  passes := []

/-- Some call found a file at the path that is text. -/
def ReadBefore (passes : List Pass) (path : String) : Prop :=
  ∃ pass ∈ passes, ∃ file ∈ pass.found,
    file.path = path ∧ file.content.isSome = true

instance (passes : List Pass) (path : String) :
    Decidable (ReadBefore passes path) :=
  inferInstanceAs (Decidable (∃ pass ∈ passes, ∃ file ∈ pass.found, _))

/-- Where a call finds a new event file, the cache is empty already, or some
event file is text and no earlier call found text at its path. -/
def Noticed (newness : Newness) (shared : Shared Batches) :
    Action Batches → Prop
  | .sync listing =>
      newness.HoldsNew shared.previous listing →
        shared.cache.isEmpty = true ∨
          ∃ file ∈ listing, file.IsEvent ∧ file.content.isSome = true ∧
            ¬ ReadBefore shared.passes file.path
  | .create _ _ | .write _ _ | .delete _ | .get _ _ | .set _ _ _ _ => True

instance (newness : Newness) (shared : Shared Batches) :
    (action : Action Batches) → Decidable (Noticed newness shared action)
  | .sync listing =>
      inferInstanceAs (Decidable (_ → _ ∨ ∃ file ∈ listing, _ ∧ _ ∧ _))
  | .create _ _ | .write _ _ | .delete _ | .get _ _ | .set _ _ _ _ =>
      isTrue trivial

section Listing

variable {processed events : List String}

/-- The processed files after the loop: those before it, and the JSON files
of the directory that are text. -/
theorem mem_processed_foldl {entries : List DirEntry} (path : String) :
    path ∈ (entries.foldl readEntry (processed, events)).1 ↔
      path ∈ processed ∨ extension path = some "json" ∧
        ∃ entry ∈ entries, entry.path = path ∧
          entry.content.isSome = true := by
  induction entries generalizing processed events with
  | nil => simp
  | cons entry entries induction =>
      rw [List.foldl_cons]
      by_cases counts : Counts processed entry
      · obtain ⟨content, readEq⟩ := @readEntry_of_counts _ events _ counts
        obtain ⟨json, _, readable⟩ := counts
        rw [readEq, induction]
        simp only [List.mem_cons, exists_eq_or_imp, or_assoc]
        constructor
        · rintro (rfl | earlier | ⟨pathJson, later⟩)
          · exact Or.inr ⟨json, Or.inl ⟨rfl, readable⟩⟩
          · exact Or.inl earlier
          · exact Or.inr ⟨pathJson, Or.inr later⟩
        · rintro (earlier | ⟨pathJson, ⟨rfl, _⟩ | later⟩)
          · exact Or.inr (Or.inl earlier)
          · exact Or.inl rfl
          · exact Or.inr (Or.inr ⟨pathJson, later⟩)
      · rw [readEntry_of_not_counts counts, induction]
        simp only [List.mem_cons, exists_eq_or_imp]
        constructor
        · rintro (earlier | ⟨json, later⟩)
          · exact Or.inl earlier
          · exact Or.inr ⟨json, Or.inr later⟩
        · rintro (earlier | ⟨json, ⟨rfl, readable⟩ | later⟩)
          · exact Or.inl earlier
          · -- it does not count, so it was processed before
            by_contra absent
            rw [not_or] at absent
            exact counts ⟨json, absent.1, readable⟩
          · exact Or.inr ⟨json, later⟩

theorem events_foldl_ne_nil_iff {entries : List DirEntry} :
    (entries.foldl readEntry (processed, events)).2 ≠ [] ↔
      events ≠ [] ∨ ∃ entry ∈ entries, Counts processed entry := by
  induction entries generalizing processed events with
  | nil => simp
  | cons entry entries induction =>
      rw [List.foldl_cons]
      by_cases counts : Counts processed entry
      · obtain ⟨content, readEq⟩ := @readEntry_of_counts _ events _ counts
        rw [readEq, induction]
        simp [counts]
      · rw [readEntry_of_not_counts counts, induction]
        simp [counts]

theorem isEmpty_sync {listener : CdcListener} {location : Location}
    {cache : Cache Batches} :
    (listener.sync location cache).1.2.isEmpty = true ↔
      cache.isEmpty = true ∨ (listener.mark location).2 ≠ [] := by
  simp only [CdcListener.sync]
  generalize listener.mark location = marked
  obtain ⟨marked, events⟩ := marked
  dsimp only
  cases events with
  | nil => simp
  | cons event events =>
      cases empty : cache.isEmpty with
      | true => simp [empty]
      | false => simp [Cache.isEmpty_clear]

theorem listener_sync (listener : CdcListener) (location : Location)
    (cache : Cache Batches) :
    (listener.sync location cache).1.1 = (listener.mark location).1 := by
  simp only [CdcListener.sync]
  split
  · rfl
  · split <;> rfl

end Listing

/-- The processed files are the JSON files that some call found as text. -/
def Invariant (shared : Shared Batches) : Prop :=
  ∀ path, path ∈ shared.listener.processed ↔
    extension path = some "json" ∧ ReadBefore shared.passes path

/-- Every call so far reacted to its new event files. -/
def AllReact (newness : Newness) (shared : Shared Batches) : Prop :=
  ∀ pass ∈ shared.passes, pass.Reacts newness

section Sync

variable {parseSql : String → Option (List String)}
variable {shared next : Shared Batches} {listing : List File}

theorem sync_of_step
    (stepped : step parseSql shared (.sync listing) = some next) :
    next.listener = (shared.listener.mark
        (.directory (listing.map File.entry))).1 ∧
      next.passes = ⟨listing, shared.previous,
        (shared.listener.sync (.directory (listing.map File.entry))
          shared.cache).1.2.isEmpty⟩ :: shared.passes := by
  simp only [step] at stepped
  split at stepped
  next listed =>
    cases stepped
    exact ⟨listener_sync _ _ _, rfl⟩
  next => cases stepped

theorem readBefore_cons {pass : Pass} {passes : List Pass} {path : String} :
    ReadBefore (pass :: passes) path ↔
      (∃ file ∈ pass.found, file.path = path ∧ file.content.isSome = true) ∨
        ReadBefore passes path := by
  simp [ReadBefore]

theorem invariant_sync (holds : Invariant shared)
    (stepped : step parseSql shared (.sync listing) = some next) :
    Invariant next := by
  intro path
  obtain ⟨listenerEq, passesEq⟩ := sync_of_step stepped
  rw [listenerEq, passesEq, readBefore_cons]
  simp only [mark, readNewLocalEvents]
  rw [mem_processed_foldl, holds path]
  have entries : (∃ entry ∈ listing.map File.entry, entry.path = path ∧
        entry.content.isSome = true) ↔
      ∃ file ∈ listing, file.path = path ∧ file.content.isSome = true := by
    simp [File.entry]
  rw [entries, ← and_or_left, or_comm]

/-- A call finds events exactly when some event file is text and no earlier
call found text at its path. -/
theorem events_ne_nil_iff (holds : Invariant shared) :
    (shared.listener.mark (.directory (listing.map File.entry))).2 ≠ [] ↔
      ∃ file ∈ listing, file.IsEvent ∧ file.content.isSome = true ∧
        ¬ ReadBefore shared.passes file.path := by
  simp only [mark, readNewLocalEvents]
  rw [events_foldl_ne_nil_iff]
  constructor
  · rintro (none | ⟨entry, member, json, unseen, readable⟩)
    · exact absurd rfl none
    · obtain ⟨file, listed, rfl⟩ := List.mem_map.mp member
      refine ⟨file, listed, json, readable, ?_⟩
      intro before
      exact unseen ((holds file.path).mpr ⟨json, before⟩)
  · rintro ⟨file, listed, json, readable, unread⟩
    refine Or.inr ⟨file.entry, List.mem_map_of_mem listed, json, ?_,
      readable⟩
    intro seen
    exact unread ((holds file.path).mp seen).2

end Sync

section Runs

variable {parseSql : String → Option (List String)} {newness : Newness}
variable {shared next : Shared Batches} {action : Action Batches}

theorem invariant_step (holds : Invariant shared)
    (stepped : step parseSql shared action = some next) : Invariant next := by
  cases action with
  | sync listing => exact invariant_sync holds stepped
  | create | write | delete | get | set =>
      cases stepped
      exact holds

/-- A step keeps the calls reacting exactly when its new files are
noticed. -/
theorem allReact_step (holds : Invariant shared)
    (stepped : step parseSql shared action = some next) :
    AllReact newness next ↔
      Noticed newness shared action ∧ AllReact newness shared := by
  cases action with
  | sync listing =>
      obtain ⟨_, passesEq⟩ := sync_of_step stepped
      unfold AllReact
      rw [passesEq, List.forall_mem_cons]
      apply and_congr_left
      intro _
      rw [Pass.Reacts, isEmpty_sync, events_ne_nil_iff holds]
      rfl
  | create | write | delete | get | set =>
      cases stepped
      exact (and_iff_right trivial).symm

/-- In every run, every call that finds a new event file leaves the cache
empty if and only if every such file was noticed. -/
theorem allReact_iff_noticed (newness : Newness)
    {cache : Cache Batches} {actions : List (Action Batches)}
    {last : Shared Batches}
    (taken : run (step parseSql) (fresh cache) actions = some last) :
    (∀ pass ∈ last.passes, pass.Reacts newness) ↔
      Along (step parseSql) (Noticed newness) (fresh cache) actions := by
  have initially : Invariant (fresh cache) := by
    simp [Invariant, fresh, ReadBefore]
  have nothing : AllReact newness (fresh cache) := by
    simp [AllReact, fresh]
  have kept : AllReact newness last ↔ AllReact newness (fresh cache) ∧
      Along (step parseSql) (Noticed newness) (fresh cache) actions :=
    @iff_along_of_run _ _ (step parseSql) (Noticed newness) Invariant
      (AllReact newness)
      (fun _ _ _ holds stepped => invariant_step holds stepped)
      (fun _ _ _ holds stepped => allReact_step holds stepped)
      _ _ _ initially taken
  exact kept.trans (and_iff_right nothing)

/-- A result is stored between two events at different paths. -/
private def twoPaths : List (Action Nat) :=
  [.create "a.json" [0x31], .sync [⟨"a.json", [0x31], 0⟩],
    .set "SELECT 1" 1 0 .listed, .delete "a.json",
    .create "b.json" [0x32], .sync [⟨"b.json", [0x32], 1⟩]]

theorem allReact_iff_noticed_twoPaths :
    ∃ last : Shared Nat,
      run (step fun _ => none)
        (fresh (Cache.withClock Nat 16 60 (by decide) (by decide)))
        twoPaths = some last ∧
      ∀ pass ∈ last.passes, pass.Reacts .byFile :=
  ⟨_, rfl, (@allReact_iff_noticed Nat (fun _ => none) .byFile
    (Cache.withClock Nat 16 60 (by decide) (by decide)) twoPaths _ rfl).mpr
      (by decide +kernel)⟩

/-- An event file is deleted and later another one is created at its
path. -/
private def recreated : List (Action Nat) :=
  [.create "a.json" [0x31], .sync [⟨"a.json", [0x31], 0⟩],
    .set "SELECT 1" 1 0 .listed, .delete "a.json", .sync [],
    .create "a.json" [0x32], .sync [⟨"a.json", [0x32], 1⟩]]

/-- The last call finds the new file and leaves the stored result. -/
theorem not_allReact_recreated :
    ∃ last : Shared Nat,
      run (step fun _ => none)
        (fresh (Cache.withClock Nat 16 60 (by decide) (by decide)))
        recreated = some last ∧
      last.cache.len = 1 ∧
      (∃ pass ∈ last.passes, ¬ pass.Reacts .byPath) ∧
      ∃ pass ∈ last.passes, ¬ pass.Reacts .byFile :=
  ⟨_, rfl, by decide +kernel, by decide +kernel, by decide +kernel⟩

/-- A file that is not text is not noticed either. -/
example :
    ¬ Along (step fun _ => none) (Noticed .byPath)
      (fresh (Cache.withClock Nat 16 60 (by decide) (by decide)))
      [.set "SELECT 1" 1 0 .listed, .create "a.json" [0xFF],
        .sync [⟨"a.json", [0xFF], 0⟩]] := by
  decide +kernel

end Runs

end EventFiles

end CdcSync

end Igloo
