import DesignMarkup.Command.Path
import DesignMarkup.OrderedMap

/-!
Files.  Commands reach files through two operations only; a workspace, which holds its files as
texts, is one way to carry these out.  A place in it is given by the names that lead there from
the root.
-/

namespace DesignMarkup

/-- What a path leads to: nothing, something that is no text, or a text. -/
inductive FileReading where
  | missing
  | unreadable
  | text (contents : String)
deriving DecidableEq, Repr

/-- Reading texts and writing them.  Writing tells whether it succeeded. -/
class FileAccess (m : Type → Type) where
  read : String → m FileReading
  write : (path contents : String) → m Bool

/-- Folders and files by their places, and the place of the folder that paths start from. -/
structure Workspace where
  here : List String
  folders : List (List String)
  files : OrderedMap (List String) String

namespace Workspace

/-- The places on the way from the root to a place, both included. -/
def placesTo (place : List String) : List (List String) :=
  (List.range (place.length + 1)).map fun n => place.take n

/-- The folders that lie at the root of a machine. -/
def rootFolders : List String :=
  ["bin", "boot", "dev", "etc", "home", "lib", "media", "mnt", "opt", "proc", "root", "run", "sbin",
   "srv", "sys", "tmp", "usr", "var"]

/-- The place of the file that every machine keeps empty. -/
def emptyFile : List String :=
  ["dev", "null"]

/-- A workspace at a place, with the given folders below it and no files there. -/
def ofFolders (here names : List String) : Workspace where
  here := here
  folders := rootFolders.map ([·]) ++ placesTo here ++ names.map (here ++ [·])
  files := .ofList [(emptyFile, "")]

/-- The most bytes that a name may have. -/
def maxName : Nat :=
  255

/-- The most bytes that a path may have. -/
def maxPath : Nat :=
  4095

/-- Follow the parts of a path.  Every part but the last must lead to a folder; above the root lies
the root itself. -/
def follow (w : Workspace) : (place : List String) → List (List Char) → Option (List String)
  | place, [] => some place
  | place, part :: rest =>
      if place ∉ w.folders then none
      else if part = [] ∨ part = ['.'] then w.follow place rest
      else if part = ['.', '.'] then w.follow place.dropLast rest
      else if (String.ofList part).utf8ByteSize ≤ maxName then
        w.follow (place ++ [String.ofList part]) rest
      else none

/-- The place that a path leads to.  A path that begins with a slash starts from the root. -/
def resolve (w : Workspace) (path : String) : Option (List String) :=
  if path.utf8ByteSize ≤ maxPath then
    match path.toList with
    | [] => none
    | '/' :: cs => w.follow [] (Path.parts cs)
    | cs => w.follow w.here (Path.parts cs)
  else none

def read (w : Workspace) (path : String) : FileReading :=
  match w.resolve path with
  | none => .missing
  | some place =>
      match w.files.find? place with
      | some contents => .text contents
      | none => if place ∈ w.folders then .unreadable else .missing

/-- Write a file, in a folder that exists. -/
def write? (w : Workspace) (path contents : String) : Option Workspace :=
  match w.resolve path with
  | none => none
  | some place =>
      if place ∈ w.folders ∨ place.dropLast ∉ w.folders then none
      else some { w with files := w.files.insert place contents }

/-- The files below the folder that paths start from, each with its path from there. -/
def filesHere (w : Workspace) : List (String × String) :=
  w.files.entries.filterMap fun file =>
    if w.here.isPrefixOf file.1 then
      some ("/".intercalate (file.1.drop w.here.length), file.2)
    else none

instance : FileAccess (StateM Workspace) where
  read path := do return (← get).read path
  write path contents := do
    match (← get).write? path contents with
    | some w =>
        set w
        return true
    | none => return false

end Workspace
end DesignMarkup
