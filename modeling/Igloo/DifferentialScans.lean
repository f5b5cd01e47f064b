import Igloo.FederatedScans

/-!
# Scans with and without pushdown

The engine hands a scan those filters of a query that the provider does not
report as unsupported, and applies all of them again to the rows that come
back.  Pushdown can be switched off, so that every scan reads the whole table.
What the two ways differ in is stated here for every type of column and for
every way of applying filters in the engine.
-/

namespace Igloo

namespace PostgresTable

open Arrow Catalog Pushdown SqlSyntax SqlSemantics

namespace Provider

/-- The filters that the engine hands to a scan. -/
def handedFilters (provider : Provider) (filters : List Expr) : List Expr :=
  ((filters.zip (provider.supportsFiltersPushdown filters)).filter
    fun reported => reported.2 ≠ .unsupported).map Prod.fst

/-- The scan of a query with filters.  The engine keeps the limit to itself,
for it applies the filters again before it. -/
def plannedScan (provider : Provider) (libraries : ScanLibraries)
    (query : String → Except String Answer) (projection : Option (List Nat))
    (filters : List Expr) : ScanResult RecordBatch :=
  provider.scanBatch libraries query projection
    (provider.handedFilters filters) none

end Provider

/-- The values of a row of the table under the given fields. -/
def HasValues (libraries : ScanLibraries) (database : SourceDatabase)
    (table : TableSchema) (fields : Schema) (row : Row SourceCell)
    (values : List ScalarValue) : Prop :=
  List.Forall₂ (fun cell value => SourceCell.decode libraries cell = .ok value)
    (database.cells table fields row) values

/-- The source keeps the row under a filter: the condition that was pushed for
it, if there is one, is true. -/
def KeptUnder (columns : Columns SourceCell) (row : Row SourceCell)
    (filter : Expr) : Prop :=
  ∀ condition, conditionOf filter = some condition →
    truth columns row condition = .true

section Filters

variable {provider : Provider} {filters : List Expr}

theorem map_fst_filter_zip {Item Report : Type*} (report : Item → Report)
    (wanted : Report → Bool) (items : List Item) :
    ((items.zip (items.map report)).filter
        fun reported => wanted reported.2).map Prod.fst =
      items.filter fun item => wanted (report item) := by
  induction items with
  | nil => rfl
  | cons item items induction =>
      rw [List.map_cons, List.zip_cons_cons, List.filter_cons,
        List.filter_cons, ← induction]
      split <;> rfl

theorem handedFilters_eq (provider : Provider) (filters : List Expr) :
    provider.handedFilters filters = provider.pushed filters := by
  rw [Provider.handedFilters, Provider.supportsFiltersPushdown,
    map_fst_filter_zip _ fun report : FilterPushDown =>
      decide (report ≠ .unsupported)]
  unfold Provider.pushed pushedFilters
  cases provider.filterPushdown with
  | false => simp
  | true =>
      refine List.filter_congr fun filter _ => ?_
      cases (translateFilter provider.schema filter).isSome <;> rfl

theorem pushed_handedFilters (provider : Provider) (filters : List Expr) :
    provider.pushed (provider.handedFilters filters) =
      provider.handedFilters filters := by
  rw [handedFilters_eq]
  unfold Provider.pushed
  split
  · exact List.filter_eq_self.mpr fun filter filterMem =>
      (List.mem_filter.mp filterMem).2
  · rfl

theorem effectiveLimit_none (provider : Provider) (filters : List Expr) :
    provider.effectiveLimit filters none = none := by
  unfold Provider.effectiveLimit PostgresTable.pushedLimit
  split <;> rfl

end Filters

section Rows

variable {Item Image : Type*} {items kept whole : List Item}
  {selects : Item → Bool} {image : Item → Image}

/-- A filter that comes first goes unnoticed by a later one if and only if it
selects every item that passes the later one. -/
theorem perm_filter_iff (keptPerm : kept.Perm (items.filter selects))
    (wholePerm : whole.Perm items) (pass : Image → Bool) :
    ((kept.map image).filter pass).Perm ((whole.map image).filter pass) ↔
      ∀ item ∈ items, pass (image item) = true → selects item = true := by
  have keptFiltered : ((kept.map image).filter pass).Perm
      ((items.filter fun item => pass (image item) && selects item).map
        image) := by
    rw [List.filter_map, ← List.filter_filter]
    exact (keptPerm.filter _).map image
  have wholeFiltered : ((whole.map image).filter pass).Perm
      ((items.filter fun item => pass (image item)).map image) := by
    rw [List.filter_map]
    exact (wholePerm.filter _).map image
  have sublist : (items.filter fun item =>
      pass (image item) && selects item).Sublist
        (items.filter fun item => pass (image item)) :=
    List.monotone_filter_right items fun item both =>
      (Bool.and_eq_true_iff.mp both).1
  constructor
  · intro perm item itemMem passes
    have sameLength := ((keptFiltered.symm.trans perm).trans
      wholeFiltered).length_eq
    rw [List.length_map, List.length_map] at sameLength
    have inWhole : item ∈ items.filter fun item => pass (image item) :=
      List.mem_filter.mpr ⟨itemMem, passes⟩
    rw [← sublist.eq_of_length sameLength] at inWhole
    exact (Bool.and_eq_true_iff.mp (List.mem_filter.mp inWhole).2).2
  · intro selectsAll
    have same : (items.filter fun item => pass (image item) && selects item) =
        items.filter fun item => pass (image item) := by
      refine List.filter_congr fun item itemMem => ?_
      cases passes : pass (image item) with
      | false => rfl
      | true => exact selectsAll item itemMem passes
    rw [same] at keptFiltered
    exact keptFiltered.trans wholeFiltered.symm

end Rows

section Scans

variable {libraries : ScanLibraries} {database : SourceDatabase}
  {table : TableSchema} {held : Table SourceCell} {fields : Schema}

/-- The values of a row, or no values in place of those that it does not
have. -/
def valuesOf (libraries : ScanLibraries) (database : SourceDatabase)
    (table : TableSchema) (fields : Schema) (row : Row SourceCell) :
    List ScalarValue :=
  (database.cells table fields row).filterMap fun cell =>
    (cell.decode libraries).toOption

theorem valuesOf_eq {row : Row SourceCell} {values : List ScalarValue}
    (has : HasValues libraries database table fields row values) :
    valuesOf libraries database table fields row = values := by
  unfold HasValues at has
  unfold valuesOf
  generalize database.cells table fields row = cells at has
  induction has with
  | nil => rfl
  | cons decoded _ induction =>
      rw [List.filterMap_cons, decoded, induction]
      rfl

theorem rows_eq_of_holdsValues {kept : List (Row SourceCell)}
    {batch : RecordBatch}
    (holds : HoldsValues libraries fields
      (kept.map (database.cells table fields)) batch) :
    batch.rows = kept.map (valuesOf libraries database table fields) ∧
      ∀ row ∈ kept, HasValues libraries database table fields row
        (valuesOf libraries database table fields row) := by
  have each := List.forall₂_map_left_iff.mp holds.rows_eq
  constructor
  · have same : List.Forall₂ (fun row values =>
        valuesOf libraries database table fields row = values) kept
        batch.rows :=
      each.imp fun _ _ has => valuesOf_eq has
    rw [← List.forall₂_map_left_iff, List.forall₂_eq_eq_eq] at same
    exact same.symm
  · intro row rowMem
    obtain ⟨values, -, has⟩ :=
      RelatedResults.exists_related_of_mem each rowMem
    rwa [valuesOf_eq has]

theorem firstError_eq_none_of_subset {rows others : Answer}
    (subset : rows ⊆ others)
    (clean : firstError libraries fields others = none) :
    firstError libraries fields rows = none := by
  unfold firstError at clean ⊢
  rw [List.findSome?_eq_none_iff] at clean ⊢
  intro colIdx inFields
  have column := clean colIdx inFields
  rw [List.findSome?_eq_none_iff] at column ⊢
  exact fun row rowMem => column row (subset rowMem)

theorem whereTruth_eq_true_iff {filters : List Expr}
    {conditions : List Condition}
    (conditionsEq : filters.map conditionOf = conditions.map some)
    (columns : Columns SourceCell) (row : Row SourceCell) :
    whereTruth columns conditions row = .true ↔
      ∀ filter ∈ filters, KeptUnder columns row filter := by
  rw [whereTruth, Truth.all_eq_true_iff, List.forall_mem_map]
  constructor
  · intro holds filter filterMem condition isCondition
    have mapped := List.mem_map_of_mem (f := conditionOf) filterMem
    rw [conditionsEq, isCondition] at mapped
    exact holds condition (List.mem_map_of_injective
      (Option.some_injective _) |>.mp mapped)
  · intro keeps condition conditionMem
    have mapped := List.mem_map_of_mem (f := some) conditionMem
    rw [← conditionsEq] at mapped
    obtain ⟨filter, filterMem, isCondition⟩ := List.mem_map.mp mapped
    exact keeps filter filterMem condition isCondition

end Scans

section Planned

variable {database : SourceDatabase} {table : TableSchema}
  {query : String → Except String Answer} {projection : Option (List Nat)}
  {fields : Schema} {filterPushdown : Bool}

/-- The scan of a query fails with the error of the source, or its rows come
from those rows of the table that the pushed conditions keep. -/
theorem plannedScan_cases {held : Table SourceCell}
    (presents : Presents database table held)
    (answers : ∀ text rows, query text = .ok rows → database.Sends text rows)
    (libraries : ScanLibraries)
    (projected : (tableProvider table filterPushdown).projectedSchema
      projection = .ok fields)
    (filters : List Expr) :
    (∃ message,
      (tableProvider table filterPushdown).plannedScan libraries query
        projection filters = .error (.query message)) ∨
      ∃ (conditions : List Condition) (kept : List (Row SourceCell)),
        ((tableProvider table filterPushdown).handedFilters filters).map
            conditionOf = conditions.map some ∧
          kept.Perm (held.rows.filter fun row =>
            whereTruth held.columns conditions row = .true) ∧
          (∀ batch,
            (tableProvider table filterPushdown).plannedScan libraries query
                projection filters = .ok batch ↔
              HoldsValues libraries fields
                (kept.map (database.cells table fields)) batch) ∧
          ∀ error,
            (tableProvider table filterPushdown).plannedScan libraries query
                projection filters = .error error ↔
              firstError libraries fields
                (kept.map (database.cells table fields)) = some error := by
  cases asked : query ((tableProvider table filterPushdown).scanSql fields
      ((tableProvider table filterPushdown).handedFilters filters) none) with
  | error message =>
      exact .inl ⟨message, scanBatch_of_query_error libraries projected asked⟩
  | ok rows =>
      obtain ⟨conditions, kept, conditionsEq, yields, outcome⟩ :=
        readsTable_of_sends libraries presents projected asked
          (answers _ rows asked)
      rw [pushed_handedFilters] at conditionsEq
      rw [effectiveLimit_none] at yields
      exact .inr ⟨conditions, kept, conditionsEq, yields.perm, outcome⟩

/-- A query that succeeds without pushdown does so with pushdown, unless asking
the source fails.  The scan then returns some of the rows that it returns
without pushdown, and filtering them again leaves the same rows if and only if
no row that the engine keeps is dropped by the source under a filter that was
handed to it. -/
theorem plannedScan_agrees_iff {schemas : List String}
    {allowlist : Option (List String)} {tables : List TableSchema}
    (discovered : Discovered database.information schemas allowlist tables)
    (tableMem : table ∈ tables)
    (answers : ∀ text rows, query text = .ok rows → database.Sends text rows)
    (libraries : ScanLibraries)
    (projected : (tableProvider table true).projectedSchema projection =
      .ok fields)
    (filters : List Expr) (pass : List ScalarValue → Bool)
    {whole : RecordBatch}
    (scanned : (tableProvider table false).plannedScan libraries query
      projection filters = .ok whole) :
    (∃ message,
      (tableProvider table true).plannedScan libraries query projection
        filters = .error (.query message)) ∨
      ∃ held batch,
        database.content table.schema table.name = some held ∧
        (tableProvider table true).plannedScan libraries query projection
          filters = .ok batch ∧
        batch.rows.Subperm whole.rows ∧
        ((batch.rows.filter pass).Perm (whole.rows.filter pass) ↔
          ∀ row ∈ held.rows, ∀ values,
            HasValues libraries database table fields row values →
              pass values = true →
                ∀ filter ∈ (tableProvider table true).handedFilters filters,
                  KeptUnder held.columns row filter) := by
  obtain ⟨held, presents⟩ := exists_presents_of_discovered discovered tableMem
  have projectedWhole : (tableProvider table false).projectedSchema projection =
      .ok fields := projected
  rcases plannedScan_cases presents answers libraries projectedWhole filters
    with ⟨message, failed⟩ |
      ⟨nothing, all, nothingEq, allPerm, wholeIff, noError⟩
  · rw [failed] at scanned
    cases scanned
  rcases plannedScan_cases presents answers libraries projected filters
    with failed | ⟨conditions, kept, conditionsEq, keptPerm, batchIff, errorIff⟩
  · exact .inl failed
  have noConditions : nothing = [] := by
    rw [handedFilters_eq] at nothingEq
    exact List.map_eq_nil_iff.mp nothingEq.symm
  have everyRow : (held.rows.filter fun row =>
      whereTruth held.columns nothing row = .true) = held.rows := by
    rw [noConditions]
    exact List.filter_eq_self.mpr fun row _ => rfl
  rw [everyRow] at allPerm
  have keptSubperm : kept.Subperm all :=
    (keptPerm.subperm.trans List.filter_sublist.subperm).trans
      allPerm.symm.subperm
  have clean : firstError libraries fields
      (kept.map (database.cells table fields)) = none := by
    refine firstError_eq_none_of_subset
      (List.map_subset _ keptSubperm.subset) ?_
    rw [Option.eq_none_iff_forall_ne_some]
    intro error isFirst
    rw [(noError error).mpr isFirst] at scanned
    cases scanned
  obtain ⟨wholeEq, hasValues⟩ :=
    rows_eq_of_holdsValues ((wholeIff whole).mp scanned)
  refine .inr ?_
  cases isBatch : (tableProvider table true).plannedScan libraries query
      projection filters with
  | error error =>
      rw [(errorIff error).mp isBatch] at clean
      cases clean
  | ok batch =>
      obtain ⟨batchEq, -⟩ :=
        rows_eq_of_holdsValues ((batchIff batch).mp isBatch)
      refine ⟨held, batch, presents.stored, rfl, ?_, ?_⟩
      · rw [batchEq, wholeEq]
        obtain ⟨chosen, chosenPerm, sublist⟩ := keptSubperm
        exact ⟨_, chosenPerm.map _, sublist.map _⟩
      · rw [batchEq, wholeEq, perm_filter_iff keptPerm allPerm]
        constructor
        · intro selectsAll row rowMem values has passes
          have selected := selectsAll row rowMem (by rwa [valuesOf_eq has])
          exact (whereTruth_eq_true_iff conditionsEq _ _).mp
            (of_decide_eq_true selected)
        · intro keeps row rowMem passes
          exact decide_eq_true ((whereTruth_eq_true_iff conditionsEq _ _).mpr
            (keeps row rowMem _
              (hasValues row (allPerm.symm.subset rowMem)) passes))

end Planned

end PostgresTable

namespace DataFusionEngine

open Arrow Catalog Igloo.Configuration PostgresTable

section Shop

def noteGiven : Pushdown.Expr :=
  .isNotNull (.column "note")

/-- How the engine filters orders by their note. -/
def passesNoteGiven (values : List ScalarValue) : Bool :=
  values[1]? ≠ some (.utf8 none)

/-- The text of the scan of the orders with a note. -/
def notedOrdersSql : String :=
  (tableProvider ordersTable true).scanSql ordersTable.fields [noteGiven] none

/-- The shop answers the scans of the orders with a note and of all orders. -/
def notesQuery (text : String) : Except String Answer :=
  if text = notedOrdersSql then .ok [[.int8 (some 1), .text (some "gift")]]
  else if text = (tableProvider ordersTable true).scanSql ordersTable.fields []
      none then .ok ordersAnswer
  else .error "unexpected statement"

theorem sends_notedOrders : shopDatabase.Sends notedOrdersSql
    [[.int8 (some 1), .text (some "gift")]] := by
  have parsed : SqlSyntax.parse notedOrdersSql =
      some (.select ["id", "note"] ⟨"public", "orders",
        [.predicate (.isNull "note" true)], none⟩) := by
    decide +kernel
  refine @SourceDatabase.Sends.rows shopDatabase _ _ _
    [[some (.int8 (some 1)), some (.text (some "gift"))]] parsed ?_
  refine ⟨_, [orderRow 1 (some "gift")],
    ⟨rfl, List.forall_mem_singleton.mpr rfl, ?_⟩, by decide, rfl⟩
  exact ⟨_, .rfl, rfl⟩

/-- The orders with a note are the same with and without pushdown. -/
theorem plannedScan_agrees_shop :
    ∃ batch whole,
      (tableProvider ordersTable true).plannedScan plainLibraries notesQuery
          none [noteGiven] = .ok batch ∧
        (tableProvider ordersTable false).plannedScan plainLibraries
            notesQuery none [noteGiven] = .ok whole ∧
          (batch.rows.filter passesNoteGiven).Perm
            (whole.rows.filter passesNoteGiven) := by
  have twoTexts : (tableProvider ordersTable true).scanSql ordersTable.fields
      [] none ≠ notedOrdersSql := by decide +kernel
  have answers : ∀ text rows, notesQuery text = .ok rows →
      shopDatabase.Sends text rows := by
    intro text rows answered
    unfold notesQuery at answered
    split at answered
    · rename_i isNoted
      cases answered
      exact isNoted ▸ sends_notedOrders
    · split at answered
      · rename_i isAll
        cases answered
        exact isAll ▸ sends_orders
      · cases answered
  have handed : (tableProvider ordersTable true).handedFilters [noteGiven] =
      [noteGiven] := rfl
  have answeredAll : notesQuery ((tableProvider ordersTable false).scanSql
      ordersTable.fields [] none) = .ok ordersAnswer :=
    (if_neg twoTexts).trans (if_pos rfl)
  have answeredNoted : notesQuery ((tableProvider ordersTable true).scanSql
      ordersTable.fields [noteGiven] none) =
        .ok [[.int8 (some 1), .text (some "gift")]] := if_pos rfl
  have projected (filterPushdown : Bool) :
      (tableProvider ordersTable filterPushdown).projectedSchema none =
        .ok ordersTable.fields := rfl
  have scannedAll := scanBatch_eq_rowsBatch plainLibraries (projected false)
    (List.cons_ne_nil _ _) answeredAll
  have scannedNoted := scanBatch_eq_rowsBatch plainLibraries (projected true)
    (List.cons_ne_nil _ _) answeredNoted
  obtain ⟨whole, isWhole⟩ : ∃ whole, rowsBatch plainLibraries
      ordersTable.fields ordersAnswer = .ok whole := ⟨_, rfl⟩
  obtain ⟨noted, isNoted⟩ : ∃ noted, rowsBatch plainLibraries
      ordersTable.fields [[.int8 (some 1), .text (some "gift")]] =
        .ok noted := ⟨_, rfl⟩
  rcases plannedScan_agrees_iff discovered_shop List.mem_cons_self answers
      plainLibraries (projected true) [noteGiven] passesNoteGiven
      (scannedAll.trans isWhole) with
    ⟨message, failed⟩ | ⟨held, batch, stored, isBatch, -, agrees⟩
  · cases failed.symm.trans (scannedNoted.trans isNoted)
  · refine ⟨batch, whole, isBatch, scannedAll.trans isWhole,
      agrees.mpr ?_⟩
    cases stored
    intro row rowMem values has passes filter filterMem condition isCondition
    cases List.mem_singleton.mp (handed ▸ filterMem)
    cases isCondition
    rw [← valuesOf_eq has] at passes
    obtain ⟨order, orderMem, rfl⟩ := List.mem_map.mp rowMem
    simp only [List.mem_cons, List.not_mem_nil, or_false] at orderMem
    rcases orderMem with rfl | rfl
    · rfl
    · exact absurd passes (by decide)

end Shop

end DataFusionEngine

end Igloo
