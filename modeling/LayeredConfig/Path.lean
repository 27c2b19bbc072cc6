import LayeredConfig.Text.Lines

/-! # Paths

A path is a text whose names are set apart by slashes. Two paths are the same place by name when
their components agree: repeated slashes and single dots inside a path say nothing, while a single
dot at its beginning counts. -/

namespace LayeredConfig.Path

open LayeredConfig.Text

/-- The names between the slashes. -/
def names (path : String) : List String := (pieces '/' path.toList).map String.ofList

/-- Whether a path starts at the root. -/
def isRooted (path : String) : Bool := path.toList.head? = some '/'

/-- The components: the names but for those that say nothing. -/
def components (path : String) : List String :=
  match names path with
  | [] => []
  | first :: rest =>
    let rest := rest.filter fun n => n ≠ "" && n ≠ "."
    if first = "" then rest else first :: rest

/-- Whether two paths name the same place component by component. -/
def same (a b : String) : Bool := isRooted a = isRooted b && components a = components b

/-- Drops the last names as long as they say nothing; the first name stays. -/
def withoutIdleEnd (names : List String) : List String :=
  match names with
  | [] => []
  | first :: rest =>
    first :: (rest.reverse.dropWhile fun n => n = "" || n = ".").reverse

/-- The text of a list of names. -/
def ofNames : List String → String
  | [""] => "/"
  | names => String.intercalate "/" names

/-- The last name of a path, if it is the name of an entry. -/
def fileName? (path : String) : Option String :=
  match withoutIdleEnd (names path) with
  | [] => none
  | [first] => if first = "" ∨ first = "." ∨ first = ".." then none else some first
  | _ :: rest => rest.getLast?.filter (· ≠ "..")

/-- The path without its last component. -/
def parent (path : String) : String :=
  match withoutIdleEnd (withoutIdleEnd (names path)).dropLast with
  | [] => ""
  | names => ofNames names

/-- The path of an entry of a directory. -/
def join (dir name : String) : String :=
  if dir = "" ∨ dir.toList.getLast? = some '/' then dir ++ name else dir ++ "/" ++ name

end LayeredConfig.Path
