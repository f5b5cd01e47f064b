import Igloo.Catalog
import Igloo.ExclusiveMaps

/-!
# The catalogs of a session

A session maps catalogs to schemas and schemas to table providers.  A schema
refuses a name that is taken, and a name given as text is parsed as a table
reference first.  Registering a list of references refines inserting into one
map that never overwrites.
-/

namespace Igloo

namespace DataFusionEngine

open Catalog

/-- What is registered under a name: the Parquet table, or the provider of a
table of a source. -/
inductive TableProvider
  | parquet
  | postgres (source : String) (table : TableSchema) (filterPushdown : Bool)
  deriving DecidableEq, Repr

/-- `TableReference`. -/
inductive TableReference
  | bare (table : String)
  | partialRef (schema table : String)
  | full (catalog schema table : String)
  deriving DecidableEq, Repr

/-- A table reference with its defaults filled in. -/
structure ResolvedRef where
  catalog : String
  schema : String
  table : String
  deriving DecidableEq, Repr

/-- `resolve` with the default catalog and schema of a session. -/
def TableReference.resolve : TableReference → ResolvedRef
  | bare table => ⟨"datafusion", "public", table⟩
  | partialRef schema table => ⟨"datafusion", schema, table⟩
  | full catalog schema table => ⟨catalog, schema, table⟩

/-- A schema provider. -/
abbrev SchemaTables :=
  String → Option TableProvider

/-- A catalog provider. -/
abbrev CatalogSchemas :=
  String → Option SchemaTables

/-- The catalogs of a session. -/
abbrev SessionCatalogs :=
  String → Option CatalogSchemas

/-- The catalogs of a new session. -/
def newSession : SessionCatalogs :=
  Function.update (fun _ => none) "datafusion"
    (some (Function.update (fun _ => none) "public" (some fun _ => none)))

/-- `register_table` of a schema provider. -/
def registerInSchema (tables : SchemaTables) (name : String)
    (provider : TableProvider) : Except String SchemaTables :=
  match tables name with
  | some _ =>
      .error ("Execution error: The table " ++ name ++ " already exists")
  | none => .ok (Function.update tables name (some provider))

/-- `SessionContext::register_table` with a resolved reference. -/
def registerRef (catalogs : SessionCatalogs) (ref : ResolvedRef)
    (provider : TableProvider) : Except String SessionCatalogs :=
  if ref.schema = "information_schema" then
    .error "Execution error: schema provider does not support registering tables"
  else
    match catalogs ref.catalog with
    | none =>
        .error ("Error during planning: failed to resolve catalog: " ++
          ref.catalog)
    | some schemas =>
        match schemas ref.schema with
        | none =>
            .error ("Error during planning: failed to resolve schema: " ++
              ref.schema)
        | some tables => do
            let tables ← registerInSchema tables ref.table provider
            return Function.update catalogs ref.catalog
              (some (Function.update schemas ref.schema (some tables)))

/-- The provider registered under a resolved reference. -/
def tableAt (catalogs : SessionCatalogs) (ref : ResolvedRef) :
    Option TableProvider := do
  let schemas ← catalogs ref.catalog
  let tables ← schemas ref.schema
  tables ref.table

/-- What a reference of a statement leads to. -/
inductive Relation
  | informationView (name : String)
  | registered (provider : TableProvider)
  deriving DecidableEq, Repr

/-- The table that a session with the information schema finds for a resolved
reference.  In every catalog that schema is the virtual one, whatever is
registered under its name; `informationViews` are the views that it has. -/
def resolveTable (informationViews : String → Bool)
    (catalogs : SessionCatalogs) (ref : ResolvedRef) : Option Relation :=
  if ref.schema = "information_schema" then
    if informationViews ref.table then some (.informationView ref.table)
    else none
  else (tableAt catalogs ref).map .registered

section Names

variable (parseRef : String → TableReference)

/-- `SessionContext::register_table` with a string, which is parsed first. -/
def registerTable (catalogs : SessionCatalogs) (name : String)
    (provider : TableProvider) : Except String SessionCatalogs :=
  registerRef catalogs (parseRef name).resolve provider

/-- The provider registered under a name. -/
def table (catalogs : SessionCatalogs) (name : String) :
    Option TableProvider :=
  tableAt catalogs (parseRef name).resolve

end Names

/-- A table can be registered under a reference whose schema exists. -/
def HasSchema (catalogs : SessionCatalogs) (ref : ResolvedRef) : Prop :=
  ref.schema ≠ "information_schema" ∧
    ((catalogs ref.catalog).bind fun schemas => schemas ref.schema).isSome

section References

open ExclusiveMaps

variable {catalogs next : SessionCatalogs} {ref : ResolvedRef}
variable {provider : TableProvider}

theorem tableAt_update {schemas : CatalogSchemas} {tables : SchemaTables}
    (schemasEq : catalogs ref.catalog = some schemas)
    (tablesEq : schemas ref.schema = some tables)
    (provider : TableProvider) :
    tableAt (Function.update catalogs ref.catalog
        (some (Function.update schemas ref.schema
          (some (Function.update tables ref.table (some provider)))))) =
      Function.update (tableAt catalogs) ref (some provider) := by
  funext other
  by_cases sameCatalog : other.catalog = ref.catalog
  · by_cases sameSchema : other.schema = ref.schema
    · by_cases sameTable : other.table = ref.table
      · have same : other = ref := by
          cases other
          cases ref
          simp_all
        subst same
        simp [tableAt]
      · have different : other ≠ ref := fun same => sameTable (same ▸ rfl)
        rw [Function.update_of_ne different]
        simp [tableAt, sameCatalog, sameSchema, sameTable, schemasEq,
          tablesEq]
    · have different : other ≠ ref := fun same => sameSchema (same ▸ rfl)
      rw [Function.update_of_ne different]
      simp [tableAt, sameCatalog, sameSchema, schemasEq]
  · have different : other ≠ ref := fun same => sameCatalog (same ▸ rfl)
    rw [Function.update_of_ne different]
    simp [tableAt, sameCatalog]

theorem hasSchema_update {schemas : CatalogSchemas} {tables : SchemaTables}
    (schemasEq : catalogs ref.catalog = some schemas)
    (tablesEq : schemas ref.schema = some tables)
    (replaced : SchemaTables) (other : ResolvedRef) :
    HasSchema (Function.update catalogs ref.catalog
        (some (Function.update schemas ref.schema (some replaced)))) other ↔
      HasSchema catalogs other := by
  by_cases sameCatalog : other.catalog = ref.catalog
  · by_cases sameSchema : other.schema = ref.schema
    · simp [HasSchema, sameCatalog, sameSchema, schemasEq, tablesEq]
    · simp [HasSchema, sameCatalog, sameSchema, schemasEq]
  · simp [HasSchema, sameCatalog]

/-- Registering succeeds exactly when the schema exists and the reference is
free, and it changes nothing else. -/
theorem registerRef_of_free (hasSchema : HasSchema catalogs ref)
    (free : tableAt catalogs ref = none) (provider : TableProvider) :
    ∃ next, registerRef catalogs ref provider = .ok next ∧
      tableAt next = Function.update (tableAt catalogs) ref (some provider) ∧
      ∀ other, HasSchema next other ↔ HasSchema catalogs other := by
  obtain ⟨notInformation, present⟩ := hasSchema
  obtain ⟨tables, tablesFound⟩ := Option.isSome_iff_exists.mp present
  obtain ⟨schemas, schemasEq, tablesEq⟩ :=
    Option.bind_eq_some_iff.mp tablesFound
  have freeHere : tables ref.table = none := by
    simpa [tableAt, schemasEq, tablesEq] using free
  refine ⟨_, ?_, tableAt_update schemasEq tablesEq provider,
    hasSchema_update schemasEq tablesEq _⟩
  simp [registerRef, notInformation, schemasEq, tablesEq, registerInSchema,
    freeHere, bind, Except.bind, pure, Except.pure]

theorem free_of_registerRef
    (registered : registerRef catalogs ref provider = .ok next) :
    HasSchema catalogs ref ∧ tableAt catalogs ref = none := by
  unfold registerRef at registered
  split at registered
  · cases registered
  · rename_i notInformation
    split at registered
    · cases registered
    · rename_i schemas schemasEq
      split at registered
      · cases registered
      · rename_i tables tablesEq
        refine ⟨⟨notInformation, by simp [schemasEq, tablesEq]⟩, ?_⟩
        cases taken : tables ref.table with
        | none => simp [tableAt, schemasEq, tablesEq, taken]
        | some other =>
            simp [registerInSchema, taken, bind, Except.bind] at registered

/-- Registering a list of references in order. -/
def registerRefs (catalogs : SessionCatalogs)
    (entries : List (ResolvedRef × TableProvider)) :
    Except String SessionCatalogs :=
  entries.foldlM (fun catalogs entry => registerRef catalogs entry.1 entry.2)
    catalogs

/-- The session refines a map that never overwrites. -/
theorem registerRefs_of_insertAllNew
    {entries : List (ResolvedRef × TableProvider)}
    {map : ResolvedRef → Option TableProvider}
    (hasSchema : ∀ entry ∈ entries, HasSchema catalogs entry.1)
    (inserted : insertAllNew (tableAt catalogs) entries = some map) :
    ∃ next, registerRefs catalogs entries = .ok next ∧
      tableAt next = map := by
  induction entries generalizing catalogs with
  | nil =>
      cases inserted
      exact ⟨catalogs, rfl, rfl⟩
  | cons entry entries induction =>
      obtain ⟨free, rest⟩ := insertAllNew_cons_eq_some_iff.mp inserted
      obtain ⟨middle, registered, view, sameSchemas⟩ := registerRef_of_free
        (hasSchema entry List.mem_cons_self) free entry.2
      have later : ∀ other ∈ entries, HasSchema middle other.1 := by
        intro other otherMem
        rw [sameSchemas]
        exact hasSchema other (List.mem_cons_of_mem _ otherMem)
      obtain ⟨next, looped, viewEq⟩ := induction later (view ▸ rest)
      refine ⟨next, ?_, viewEq⟩
      rw [registerRefs, List.foldlM_cons, registered]
      exact looped

theorem insertAllNew_of_registerRefs
    {entries : List (ResolvedRef × TableProvider)}
    (registered : registerRefs catalogs entries = .ok next) :
    (∀ entry ∈ entries, HasSchema catalogs entry.1) ∧
      insertAllNew (tableAt catalogs) entries = some (tableAt next) := by
  induction entries generalizing catalogs with
  | nil =>
      cases registered
      exact ⟨by simp, rfl⟩
  | cons entry entries induction =>
      rw [registerRefs, List.foldlM_cons] at registered
      cases first : registerRef catalogs entry.1 entry.2 with
      | error message => simp [first, bind, Except.bind] at registered
      | ok middle =>
          rw [first] at registered
          obtain ⟨hasSchema, free⟩ := free_of_registerRef first
          obtain ⟨other, otherEq, view, sameSchemas⟩ :=
            registerRef_of_free hasSchema free entry.2
          obtain rfl : middle = other := by
            simpa [first] using otherEq
          obtain ⟨later, inserted⟩ := induction registered
          refine ⟨?_, ?_⟩
          · intro given givenMem
            rcases List.mem_cons.mp givenMem with rfl | rest
            · exact hasSchema
            · exact (sameSchemas _).mp (later given rest)
          · rw [insertAllNew_cons_eq_some_iff]
            exact ⟨free, view ▸ inserted⟩

end References

end DataFusionEngine

end Igloo
