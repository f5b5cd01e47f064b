import Igloo.Catalog
import Igloo.GreedyChoices

/-!
# The aliases of the discovered tables

The nested loops of `resolve_aliases` visit the tables of all sources in
configured order and make a greedy choice among the candidates of each.
-/

namespace Igloo

namespace Catalog

open GreedyChoices

/-- The tables of all sources in configured order, each with the name of its
source. -/
def tablesInOrder (sources : List SourceTables) : List (String × TableSchema) :=
  sources.flatMap fun source =>
    source.tables.map fun table => (source.source, table)

/-- The candidates of a table that comes with the name of its source. -/
def candidatesOf (entry : String × TableSchema) : List String :=
  candidates entry.1 entry.2

/-- The aliases that the tables which got a name have, in the order of the
tables. -/
def aliasesOf (entries : List (String × TableSchema))
    (outcomes : List (Option String)) : List Alias :=
  (entries.zip outcomes).filterMap fun pair =>
    pair.2.map fun name => ⟨name, pair.1.1, pair.1.2⟩

theorem tablesInOrder_append (sources further : List SourceTables) :
    tablesInOrder (sources ++ further) =
      tablesInOrder sources ++ tablesInOrder further :=
  List.flatMap_append

theorem aliasesOf_append {entries : List (String × TableSchema)}
    {outcomes : List (Option String)}
    (lengthEq : outcomes.length = entries.length)
    (furtherEntries : List (String × TableSchema))
    (furtherOutcomes : List (Option String)) :
    aliasesOf (entries ++ furtherEntries) (outcomes ++ furtherOutcomes) =
      aliasesOf entries outcomes ++
        aliasesOf furtherEntries furtherOutcomes := by
  rw [aliasesOf, List.zip_append lengthEq.symm, List.filterMap_append]
  rfl

theorem mem_zip_of_mem_aliasesOf {entries : List (String × TableSchema)}
    {outcomes : List (Option String)} {given : Alias}
    (givenMem : given ∈ aliasesOf entries outcomes) :
    ((given.source, given.table), some given.aliasName) ∈
      entries.zip outcomes := by
  obtain ⟨⟨entry, outcome⟩, pairMem, isGiven⟩ := List.mem_filterMap.mp givenMem
  obtain ⟨name, rfl, rfl⟩ := Option.map_eq_some_iff.mp isGiven
  exact pairMem

theorem map_aliasName_aliasesOf {entries : List (String × TableSchema)}
    {outcomes : List (Option String)}
    (lengthEq : outcomes.length = entries.length) :
    (aliasesOf entries outcomes).map Alias.aliasName =
      outcomes.reduceOption := by
  induction entries generalizing outcomes with
  | nil => rw [List.eq_nil_of_length_eq_zero lengthEq]; rfl
  | cons entry entries induction =>
      cases outcomes with
      | nil => cases lengthEq
      | cons outcome outcomes =>
          have names := induction (Nat.succ.inj lengthEq)
          cases outcome with
          | none => exact names
          | some name =>
              rw [List.reduceOption_cons_of_some, ← names]
              rfl

theorem foldl_resolveTable (entries : List (String × TableSchema))
    (used : List String) (given : List Alias) :
    entries.foldl (fun progress entry =>
        resolveTable entry.1 progress entry.2) (used, given) =
      (usedAfter candidatesOf used entries,
        given ++ aliasesOf entries (choices candidatesOf used entries)) := by
  induction entries generalizing used given with
  | nil => simp [aliasesOf]
  | cons entry entries induction =>
      rw [List.foldl_cons]
      cases found : (candidatesOf entry).find? fun name => name ∉ used with
      | some chosen =>
          have step : resolveTable entry.1 (used, given) entry.2 =
              (chosen :: used, given ++ [⟨chosen, entry.1, entry.2⟩]) := by
            simp only [candidatesOf] at found
            simp only [resolveTable, found]
          rw [step, induction, usedAfter_cons_of_some found,
            choices_cons_of_some found, List.append_assoc]
          rfl
      | none =>
          have step : resolveTable entry.1 (used, given) entry.2 =
              (used, given) := by
            simp only [candidatesOf] at found
            simp only [resolveTable, found]
          rw [step, induction, usedAfter_cons_of_none found,
            choices_cons_of_none found]
          rfl

/-- The nested loops are the greedy choices of the tables in order. -/
theorem resolveAliases_eq (sources : List SourceTables)
    (reserved : List String) :
    resolveAliases sources reserved =
      aliasesOf (tablesInOrder sources)
        (choices candidatesOf reserved (tablesInOrder sources)) := by
  have flat : sources.foldl (fun progress source =>
        source.tables.foldl (resolveTable source.source) progress)
        (reserved, []) =
      (tablesInOrder sources).foldl (fun progress entry =>
        resolveTable entry.1 progress entry.2) (reserved, []) := by
    simp only [tablesInOrder, List.foldl_flatMap, List.foldl_map]
  rw [resolveAliases, flat, foldl_resolveTable, List.nil_append]

theorem map_aliasName_resolveAliases (sources : List SourceTables)
    (reserved : List String) :
    (resolveAliases sources reserved).map Alias.aliasName =
      (choices candidatesOf reserved (tablesInOrder sources)).reduceOption := by
  rw [resolveAliases_eq, map_aliasName_aliasesOf (length_choices ..)]

theorem greedy_resolveAliases (sources : List SourceTables)
    (reserved : List String) :
    ∃ used, Greedy reserved (used, resolveAliases sources reserved) := by
  have names := map_aliasName_resolveAliases sources reserved
  refine ⟨usedAfter candidatesOf reserved (tablesInOrder sources),
    ?_, ?_, ?_, ?_⟩
  · intro name
    rw [names, List.reduceOption_mem_iff]
    exact mem_usedAfter
  · rw [names]
    exact nodup_choices candidatesOf reserved (tablesInOrder sources)
  · intro given givenMem
    have nameMem := List.mem_map_of_mem (f := Alias.aliasName) givenMem
    rw [names, List.reduceOption_mem_iff] at nameMem
    exact not_mem_used_of_mem_choices nameMem
  · intro given givenMem
    dsimp only at givenMem
    rw [resolveAliases_eq] at givenMem
    have chosen : given.aliasName ∈ candidatesOf (given.source, given.table) :=
      mem_options_of_mem_zip (mem_zip_of_mem_aliasesOf givenMem)
    exact chosen

theorem exists_of_mem_resolveAliases {sources : List SourceTables}
    {reserved : List String} :
    ∀ given ∈ resolveAliases sources reserved, ∃ source ∈ sources,
      source.source = given.source ∧ given.table ∈ source.tables := by
  intro given givenMem
  rw [resolveAliases_eq] at givenMem
  have entryMem :=
    (List.of_mem_zip (mem_zip_of_mem_aliasesOf givenMem)).1
  obtain ⟨source, sourceMem, inSource⟩ := List.mem_flatMap.mp entryMem
  obtain ⟨table, tableMem, same⟩ := List.mem_map.mp inSource
  obtain ⟨sourceEq, tableEq⟩ := Prod.mk.inj same
  exact ⟨source, sourceMem, sourceEq, tableEq ▸ tableMem⟩

/-- The aliases are the greedy choices of the tables in configured order: they
are distinct and none is reserved, a table is left out exactly when all of its
candidates are taken, and sources added at the end change nothing for the
others. -/
theorem resolveAliases_isGreedy (sources further : List SourceTables)
    (reserved : List String) :
    (∃ outcomes,
      IsGreedy candidatesOf reserved (tablesInOrder sources) outcomes ∧
        resolveAliases sources reserved =
          aliasesOf (tablesInOrder sources) outcomes) ∧
    ((resolveAliases sources reserved).map Alias.aliasName).Nodup ∧
    (∀ given ∈ resolveAliases sources reserved,
      given.aliasName ∉ reserved) ∧
    resolveAliases sources reserved <+:
      resolveAliases (sources ++ further) reserved := by
  obtain ⟨used, greedy⟩ := greedy_resolveAliases sources reserved
  refine ⟨⟨_, isGreedy_choices candidatesOf reserved (tablesInOrder sources),
    resolveAliases_eq sources reserved⟩, greedy.nodup, greedy.unreserved, ?_⟩
  rw [resolveAliases_eq, resolveAliases_eq, tablesInOrder_append,
    choices_append, aliasesOf_append (length_choices ..)]
  exact List.prefix_append _ _

end Catalog

end Igloo
