import Igloo.CacheLayer

/-!
# Change events

The CDC listener reads the event files of a directory, remembers the ones it
has read, and clears the cache when there are new ones.  `sync` is the function
of the source; the three parts that other tasks can run between are `mark`,
the emptiness test and the clear.
-/

namespace Igloo

namespace CdcSync

open CacheLayer

/-- A directory entry: its file name, and its content where reading it as text
succeeds. -/
structure DirEntry where
  path : String
  content : Option String
  deriving DecidableEq, Repr

/-- What `sync` finds at the CDC path. -/
inductive Location
  | notDirectory
  | unreadable
  | directory (entries : List DirEntry)
  deriving DecidableEq, Repr

/-- `CdcListener`, whose path never changes. -/
structure CdcListener where
  processed : List String
  deriving DecidableEq, Repr

/-- `Path::extension` of a file name. -/
def extension (path : String) : Option String :=
  let (suffix, rest) := path.toList.reverse.span (· ≠ '.')
  match rest with
  | [] | ['.'] => none
  | _ => if path = ".." then none else some (String.ofList suffix.reverse)

namespace CdcListener

/-- One iteration of the loop over the directory: the processed files and the
events read so far. -/
def readEntry (progress : List String × List String) (entry : DirEntry) :
    List String × List String :=
  if extension entry.path = some "json" ∧ entry.path ∉ progress.1 then
    match entry.content with
    | some content =>
        (entry.path :: progress.1, progress.2 ++ [content])
    | none => progress
  else progress

/-- `read_new_local_events`. -/
def readNewLocalEvents (listener : CdcListener) (entries : List DirEntry) :
    CdcListener × List String :=
  let (processed, events) := entries.foldl readEntry (listener.processed, [])
  (⟨processed⟩, events)

/-- The part of `sync` before it looks at the cache. -/
def mark (listener : CdcListener) : Location → CdcListener × List String
  | .notDirectory => (listener, [])
  | .unreadable => (listener, [])
  | .directory entries => listener.readNewLocalEvents entries

/-- `sync`. -/
def sync {Batches : Type} (listener : CdcListener) (location : Location)
    (cache : Cache Batches) : (CdcListener × Cache Batches) × Nat :=
  let (listener, events) := listener.mark location
  if events.isEmpty then ((listener, cache), 0)
  else if !cache.isEmpty then ((listener, cache.clear), events.length)
  else ((listener, cache), events.length)

/-- Whether a visit to the entry adds an event. -/
def Counts (processed : List String) (entry : DirEntry) : Prop :=
  extension entry.path = some "json" ∧ entry.path ∉ processed ∧
    entry.content.isSome = true

instance (processed : List String) (entry : DirEntry) :
    Decidable (Counts processed entry) :=
  inferInstanceAs (Decidable (_ ∧ _ ∧ _))

section Entry

variable {processed events : List String} {entry : DirEntry}

theorem readEntry_of_counts (counts : Counts processed entry) :
    ∃ content, readEntry (processed, events) entry =
      (entry.path :: processed, events ++ [content]) := by
  obtain ⟨json, unseen, readable⟩ := counts
  obtain ⟨content, contentEq⟩ := Option.isSome_iff_exists.mp readable
  refine ⟨content, ?_⟩
  simp only [readEntry, json, unseen, contentEq]
  simp

theorem readEntry_of_not_counts (notCounts : ¬ Counts processed entry) :
    readEntry (processed, events) entry = (processed, events) := by
  unfold readEntry
  split
  next candidate =>
    cases contentEq : entry.content with
    | none => rfl
    | some content =>
        exact absurd ⟨candidate.1, candidate.2, by simp [contentEq]⟩ notCounts
  next => rfl

end Entry

end CdcListener

end CdcSync

end Igloo
