import StopArrivals.Ledger
import StopArrivals.Text.Fields

/-!
# Partitions

Objects in one folder form a partition; they are merged together and marked together. Partitions
are in ascending order of their folders, the objects of one in the order in which they came.
-/

namespace StopArrivals

/-! ## The folder of a path -/

/-- Empty components and single dots name no place of their own. -/
def isTrivialComponent (component : List Char) : Bool := component = [] || component = ['.']

/-- The part of a path before its first component: the root of an absolute path, or the dot of a
path that begins with the current folder. -/
def pathHead : List Char → List Char
  | '/' :: _ => ['/']
  | ['.'] => ['.']
  | '.' :: '/' :: _ => ['.']
  | _ => []

/-- The path without its last component and without the trivial components and separators around
it; nothing when there is no component to take away. -/
def folderChars (path : List Char) : List Char :=
  let head := pathHead path
  let components := (fieldsOf '/' (path.drop head.length)).reverse.dropWhile isTrivialComponent
  match components with
  | [] => []
  | _ :: rest => head ++ joinFields '/' (rest.dropWhile isTrivialComponent).reverse

def folderOf (path : String) : String := String.ofList (folderChars path.toList)

/-! ## Grouping -/

structure Partition where
  /-- The folder of its objects. -/
  key : String
  objects : List SourceObject
deriving DecidableEq

namespace Partition

def ids (p : Partition) : List Int := p.objects.map SourceObject.id

def paths (p : Partition) : List String := p.objects.map SourceObject.path

end Partition

/-- Put an object into its partition, which is added at its place when there is none. -/
def addObject (o : SourceObject) : List Partition → List Partition
  | [] => [⟨folderOf o.path, [o]⟩]
  | p :: ps =>
    if p.key = folderOf o.path then { p with objects := p.objects ++ [o] } :: ps
    else if folderOf o.path < p.key then ⟨folderOf o.path, [o]⟩ :: p :: ps
    else p :: addObject o ps

def groupPartitions (objects : List SourceObject) : List Partition :=
  objects.foldl (fun ps o => addObject o ps) []

end StopArrivals
