import StopArrivals.Batch

/-!
# Batches in memory

Rows kept by path. A path without rows of its own is an empty object, and some paths can be made
unreadable.
-/

namespace StopArrivals

structure MemoryBatches where
  files : List (String × List Record)
  unreadable : List String

namespace MemoryBatches

def rowsAt (b : MemoryBatches) (path : String) : List Record :=
  match b.files.find? fun f => f.1 = path with
  | some f => f.2
  | none => []

/-- Does the row pass all filters? -/
def keepsRow (filters : List Filter) (row : Record) : Bool := filters.all fun f => f.keeps row

/-- The columns asked for; all of them when none is named. -/
def project (columns : List String) (row : Record) : Record :=
  if columns.isEmpty then row else row.filter fun m => m.1 ∈ columns

def select (columns : List String) (filters : List Filter) (rows : List Record) : List Record :=
  (rows.filter (keepsRow filters)).map (project columns)

def load (b : MemoryBatches) (columns : List String) (filters : List Filter) :
    List String → Except Cause (List Record)
  | [] => .ok []
  | path :: paths =>
    if path ∈ b.unreadable then .error (.plain ("object " ++ path ++ " unreadable"))
    else do
      let rest ← b.load columns filters paths
      pure (select columns filters (b.rowsAt path) ++ rest)

def source : BatchSource MemoryBatches where
  load paths columns filters := Step.ask fun b => b.load columns filters paths

end MemoryBatches

end StopArrivals
