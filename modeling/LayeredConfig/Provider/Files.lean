import LayeredConfig.Filter.Kinds
import LayeredConfig.Format.KeyValue
import LayeredConfig.Format.Toml.Reading
import LayeredConfig.Provider
import LayeredConfig.Source.Table

/-! # Sources from files

A provider of files makes a source of each regular file in a directory whose name is selected, by a
pattern or as the one file, and names it after the path of the file. A file that cannot be read, or
does not follow its format, is left out. -/

namespace LayeredConfig

/-- A format of configuration files: the settings in a text. `origin` names the text in errors. -/
abbrev Format := (origin text : String) → Result Properties

def Format.keyValue : Format := KeyValue.parse

def Format.toml : Format := Toml.parse

/-- The files of a directory that are read: those whose names are selected, in one format. -/
structure FileSelection where
  directory : String
  selects : String → Bool
  format : Format
  explicitOrdinal : Option Int := none

namespace FileSelection

/-- The files of a directory whose names match a pattern. -/
def ofPattern (directory pattern : String) (format : Format) : Result FileSelection := do
  let pattern ← Pattern.compile s!"file pattern '{pattern}'" pattern
  return { directory, selects := pattern.isFoundIn, format }

/-- A single file. -/
def ofFile (path : String) (format : Format) : Result FileSelection :=
  match Path.fileName? path with
  | none => .error (.malformed path (.said "not a file path"))
  | some name =>
    let parent := Path.parent path
    .ok {
      directory := if parent = "" then "." else parent
      selects := (Pattern.exactly name).isFoundIn
      format }

def name (f : FileSelection) : String := "files:" ++ f.directory

/-- The paths of the files that match now, in order. -/
def matching (f : FileSelection) (files : FileTree) : Result (List String) :=
  match files.readDirectory f.directory with
  | .error fault => .error (.unreadable f.directory fault.message)
  | .ok entries =>
    .ok (entries.filterMap fun (name, node) =>
      match node with
      | .file _ => if f.selects name then some (Path.join f.directory name) else none
      | _ => none)

/-- The settings of a file as a table. -/
def readTable (f : FileSelection) (files : FileTree) (path : String) : Result Table :=
  match files.readText path with
  | .error fault => .error (.unreadable path fault.message)
  | .ok text => do
    let pairs ← f.format path text
    return ⟨path, f.explicitOrdinal, defaultOrdinal, true, pairs⟩

/-- The sources of the files that match now and can be read. -/
def sources (f : FileSelection) (files : FileTree) : Result (List Source) := do
  let paths ← f.matching files
  return paths.filterMap fun path =>
    (f.readTable files path).skip.map fun table => table.toSource (.file path)

def toProvider (f : FileSelection) : Provider where
  name := f.name
  load _ files :=
    match f.sources files with
    | .ok sources => .loaded sources
    | .error error => .failed error

end FileSelection

end LayeredConfig
