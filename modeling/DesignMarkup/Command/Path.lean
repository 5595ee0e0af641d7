/-!
Paths of files, as they are written: their parts lie between slashes, and the last one is the
file's name.
-/

namespace DesignMarkup.Path

/-- The parts of a path, empty ones included. -/
def parts : List Char → List (List Char)
  | [] => [[]]
  | c :: cs =>
      if c = '/' then [] :: parts cs
      else
        match parts cs with
        | part :: rest => (c :: part) :: rest
        | [] => [[c]]

/-- The last part of a path. -/
def fileName (path : String) : List Char :=
  (parts path.toList).getLastD []

/-- What comes before the last dot of a file's name, unless the dot comes first. -/
def stem (path : String) : String :=
  let name := fileName path
  let reversed := name.reverse
  match reversed.dropWhile (· ≠ '.') with
  | '.' :: before => String.ofList (if before.isEmpty then name else before.reverse)
  | _ => String.ofList name

/-- A reversed path without the slashes and single dots at its end; the root stays. -/
def dropEnd : List Char → List Char
  | '/' :: c :: cs => dropEnd (c :: cs)
  | '.' :: '/' :: cs => dropEnd ('/' :: cs)
  | cs => cs

/-- What comes before the last part of a path. -/
def parent (path : String) : String :=
  match path.toList.reverse.dropWhile (· ≠ '/') with
  | [] => ""
  | cs => String.ofList (dropEnd cs).reverse

/-- A file's name under a folder; the folder without a name is the one where one is. -/
def join (folder name : String) : String :=
  if folder = "" then name
  else if folder.toList.getLast? = some '/' then folder ++ name
  else folder ++ "/" ++ name

/-- The name of a file ends so, with something before it. -/
def hasEnding (ending path : String) : Bool :=
  ending.toList.isSuffixOf (fileName path) && ending.length < (fileName path).length

/-- A path with an ending added to the name that it leads to.  Slashes and single dots behind the
name go; a path that leads to no name of its own, such as one up to a folder above, has none. -/
def addEnding? (ending path : String) : Option String :=
  let named := String.ofList (dropEnd path.toList.reverse).reverse
  if fileName named ∈ [[], ['.'], ['.', '.']] then none else some (named ++ ending)

example : stem "sub/a.x.json" = "a.x" := by decide
example : stem ".hidden" = ".hidden" := by decide
example : parent "sub//a.json" = "sub" := by decide
example : parent "./a.json" = "." := by decide
example : parent "/a.json" = "/" := by decide
example : hasEnding ".json" "sub/.json" = false := by decide
example : addEnding? ".json" "./a//." = some "./a.json" := by decide
example : addEnding? ".json" "a/.." = none := by decide

end DesignMarkup.Path
