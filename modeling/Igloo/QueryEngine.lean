import Igloo.ArrowTypes
import Igloo.RustText

/-!
# The query engine

`DataFusionEngine` plans and collects statements on a DataFusion session.  The
session is a parameter: a deterministic machine whose planning and collecting
may change its world, since planning a statement also runs its side effects.
-/

namespace Igloo

namespace DataFusionEngine

open Arrow RustText

/-- The third-party session behind the engine.  Errors are known by their
`Display` text; `Batches` are the collected record batches. -/
structure SessionContext (World DataFrame Batches : Type) where
  sql : World → String → World × Except String DataFrame
  withParamValues : DataFrame → List ScalarValue → Except String DataFrame
  collect : World → DataFrame → World × Except String Batches
  schema : DataFrame → Schema
  /-- `get_parameter_names`, in the order its hash set iterates. -/
  parameterNames : DataFrame → Except String (List String)
  /-- `get_parameter_types`, in the order its hash map iterates. -/
  parameterTypes : DataFrame → Except String (List (String × Option DataType))

/-- `QueryDescription`. -/
structure QueryDescription where
  schema : Schema
  paramTypes : List (Option DataType)
  deriving DecidableEq, Repr

/-- The number of a placeholder `$1`, `$2` and so on. -/
def placeholderIndex (placeholder : String) : Option Nat :=
  match placeholder.toList with
  | '$' :: number => parseUsize number
  | _ => none

/-- `ordered_param_types`. -/
def orderedParamTypes (placeholderIds : List String)
    (paramTypes : List (String × Option DataType)) :
    List (Option DataType) :=
  let count := ((placeholderIds ++ paramTypes.map Prod.fst).filterMap
    placeholderIndex).foldl max 0
  paramTypes.foldl
    (fun out (placeholder, dataType) =>
      match placeholderIndex placeholder with
      | some index =>
          if 1 ≤ index ∧ index ≤ count then out.set (index - 1) dataType
          else out
      | none => out)
    (List.replicate count none)

variable {World DataFrame Batches : Type}
variable (ctx : SessionContext World DataFrame Batches)

/-- `Display` of the error that wraps a DataFusion error. -/
def dataFusionError (message : String) : String :=
  "DataFusion error: " ++ message

/-- `DataFusionEngine::query`. -/
def query (world : World) (sql : String) : World × Except String Batches :=
  match ctx.sql world sql with
  | (world, .error message) => (world, .error (dataFusionError message))
  | (world, .ok dataFrame) =>
      let (world, results) := ctx.collect world dataFrame
      (world, results.mapError dataFusionError)

/-- `DataFusionEngine::query_with_params`. -/
def queryWithParams (world : World) (sql : String)
    (params : List ScalarValue) : World × Except String Batches :=
  match ctx.sql world sql with
  | (world, .error message) => (world, .error (dataFusionError message))
  | (world, .ok dataFrame) =>
      let bound :=
        if params.isEmpty then .ok dataFrame
        else ctx.withParamValues dataFrame params
      match bound with
      | .error message => (world, .error (dataFusionError message))
      | .ok dataFrame =>
          let (world, results) := ctx.collect world dataFrame
          (world, results.mapError dataFusionError)

/-- `DataFusionEngine::describe_query`. -/
def describeQuery (world : World) (sql : String) :
    World × Except String QueryDescription :=
  match ctx.sql world sql with
  | (world, .error message) => (world, .error (dataFusionError message))
  | (world, .ok dataFrame) =>
      (world, Except.mapError dataFusionError do
        let placeholderIds ← ctx.parameterNames dataFrame
        let inferredTypes ← ctx.parameterTypes dataFrame
        return ⟨ctx.schema dataFrame,
          orderedParamTypes placeholderIds inferredTypes⟩)

/-- Without parameters the two query functions are one. -/
@[simp]
theorem queryWithParams_nil (world : World) (sql : String) :
    queryWithParams ctx world sql [] = query ctx world sql := by
  unfold queryWithParams query
  split <;> simp

end DataFusionEngine

end Igloo
