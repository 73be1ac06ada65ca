import StopArrivals.Filter
import StopArrivals.Text.Search

/-!
# Scans of parquet files

The query that reads the rows of a batch, each as one JSON object, and the files that it names.
-/

namespace StopArrivals

/-- Extend a folder by a path. An absolute path takes the place of the folder. -/
def extendPath (folder path : List Char) : List Char :=
  match path with
  | '/' :: _ => path
  | _ =>
    match folder.getLast? with
    | none => path
    | some '/' => folder ++ path
    | some _ => folder ++ '/' :: path

def bucketScheme : List Char := "s3://".toList

/-- The file of an object: its path without the bucket scheme, beneath the root. -/
def resolvePath (root path : String) : String :=
  let rest := (dropBeginning? bucketScheme path.toList).getD path.toList
  String.ofList (extendPath root.toList rest)

def columnsSql (columns : List String) : String :=
  if columns.isEmpty then "*" else ", ".intercalate (columns.map sqlName)

def conditionSql (filters : List Filter) : Except Cause String :=
  if filters.isEmpty then .ok "true"
  else do
    let conditions ← filters.mapM Filter.sql
    pure (" AND ".intercalate (conditions.map fun c => "(" ++ c ++ ")"))

def scanSql (files columns : List String) (filters : List Filter) : Except Cause String := do
  let condition ← conditionSql filters
  pure ("\n        SELECT to_json(batch)::VARCHAR\n        FROM (\n            SELECT " ++
    columnsSql columns ++ "\n            FROM read_parquet([" ++
    ", ".intercalate (files.map sqlText) ++
    "], hive_partitioning=1, union_by_name=1)\n            WHERE " ++ condition ++
    "\n        ) AS batch\n        ")

end StopArrivals
