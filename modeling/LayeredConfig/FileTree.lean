import LayeredConfig.KeyMap
import LayeredConfig.Path

/-! # Trees of files

The files that configuration is read from: a tree of directories, regular files and symbolic links,
seen from its top directory. Every change stamps what it touches, and a directory is touched when
an entry appears or goes, so a watcher that compares stamps and sizes sees every change. -/

namespace LayeredConfig

/-- What a regular file holds. -/
inductive Content
  | text (s : String)
  /-- Bytes that are no text. -/
  | binary (size : Nat)
  deriving DecidableEq

namespace Content

/-- The content of a sequence of bytes. -/
def ofBytes (bytes : ByteArray) : Content :=
  match String.fromUTF8? bytes with
  | some s => text s
  | none => binary bytes.size

/-- The number of bytes. -/
def size : Content → Nat
  | text s => s.utf8ByteSize
  | binary n => n

end Content

/-- What stands under a name. -/
inductive FileNode
  | file (content : Content)
  | directory
  | link (target : String)
  deriving DecidableEq

/-- Nodes with the stamp of their last change, under their names from the top joined by slashes.
The top directory itself has the empty name. -/
structure FileTree where
  nodes : KeyMap (FileNode × Nat)
  clock : Nat

/-- Why a path leads nowhere. -/
inductive PathFault
  | missing
  | notDirectory
  | tooManyLinks
  | nameTooLong
  | invalid
  deriving DecidableEq

/-- Where a path leads: a place in the tree, or somewhere outside of it. -/
inductive Place
  /-- The names from the top, the innermost first. -/
  | inside (names : List String)
  | outside

namespace FileTree

/-- A tree with its top directory alone. -/
def empty : FileTree := ⟨(∅ : KeyMap _).insert "" (.directory, 0), 0⟩

/-- The name from the top of a place. -/
def keyOf (names : List String) : String := String.intercalate "/" names.reverse

/-- The node at a place, links not being followed. -/
def node? (t : FileTree) (names : List String) : Option (FileNode × Nat) :=
  t.nodes.get? (keyOf names)

/-! ### Paths -/

/-- The longest name of an entry, in bytes. -/
def maxNameSize : Nat := 255

/-- The size in bytes that a path must stay below. -/
def maxPathSize : Nat := 4096

/-- The number of links that are followed on the way. -/
def maxLinks : Nat := 40

/-- Follows the names of a path from a place; `fuel` bounds the names, those of links included, and
`links` the links. -/
def walk (t : FileTree) (fuel links : Nat) (here : Place) (names : List String) :
    Except PathFault Place :=
  match fuel, names with
  | _, [] => .ok here
  | 0, _ => .error .tooManyLinks
  | fuel + 1, name :: rest =>
    match here with
    | .outside =>
      if name = "" ∨ name = "." ∨ name = ".." then t.walk fuel links .outside rest
      else .error .missing
    | .inside place =>
      match t.node? place with
      | some (.directory, _) =>
        if name = "" ∨ name = "." then t.walk fuel links here rest
        else if name = ".." then
          match place with
          | [] => t.walk fuel links .outside rest
          | _ :: up => t.walk fuel links (.inside up) rest
        else if maxNameSize < name.utf8ByteSize then .error .nameTooLong
        else
          match t.node? (name :: place) with
          | none => .error .missing
          | some (.link target, _) =>
            match links with
            | 0 => .error .tooManyLinks
            | links + 1 =>
              let start := if Path.isRooted target then .outside else here
              t.walk fuel links start (Path.names target ++ rest)
          | some _ => t.walk fuel links (.inside (name :: place)) rest
      | _ => .error .notDirectory

/-- Where a path leads, links being followed. -/
def resolve (t : FileTree) (path : String) : Except PathFault Place :=
  if path.toList.contains '\x00' then .error .invalid
  else if path = "" then .error .missing
  else if maxPathSize ≤ path.utf8ByteSize then .error .nameTooLong
  else
    let start := if Path.isRooted path then .outside else .inside []
    t.walk (maxPathSize * (maxLinks + 1)) maxLinks start (Path.names path)

/-! ### Reading -/

/-- Why a file cannot be read. -/
inductive ReadFault
  | path (fault : PathFault)
  | isDirectory
  | notText
  deriving DecidableEq

namespace ReadFault

/-- The text of a fault. -/
def message : ReadFault → String
  | path .missing => "No such file or directory (os error 2)"
  | path .notDirectory => "Not a directory (os error 20)"
  | path .tooManyLinks => "Too many levels of symbolic links (os error 40)"
  | path .nameTooLong => "File name too long (os error 36)"
  | path .invalid => "file name contained an unexpected NUL byte"
  | isDirectory => "Is a directory (os error 21)"
  | notText => "stream did not contain valid UTF-8"

end ReadFault

/-- The text of the file at a path. -/
def readText (t : FileTree) (path : String) : Except ReadFault String :=
  match t.resolve path with
  | .error fault => .error (.path fault)
  | .ok .outside => .error .isDirectory
  | .ok (.inside names) =>
    match t.node? names with
    | some (.file (.text s), _) => .ok s
    | some (.file (.binary _), _) => .error .notText
    | _ => .error .isDirectory

/-- The names of the entries of a directory, in order, with what stands there. -/
def entries (t : FileTree) (names : List String) : List (String × FileNode) :=
  t.nodes.entries.filterMap fun (key, node, _) =>
    match Path.names key with
    | [] => none
    | parts =>
      let parts := parts.reverse
      if key ≠ "" ∧ parts.tail = names then parts.head?.map (·, node) else none

/-- The entries of the directory at a path. -/
def readDirectory (t : FileTree) (path : String) : Except ReadFault (List (String × FileNode)) :=
  match t.resolve path with
  | .error fault => .error (.path fault)
  | .ok .outside => .ok []
  | .ok (.inside names) =>
    match t.node? names with
    | some (.directory, _) => .ok (t.entries names)
    | _ => .error (.path .notDirectory)

/-- The stamp and the size of what stands at a path, links being followed. -/
def stat? (t : FileTree) (path : String) : Option (Nat × Nat) :=
  match t.resolve path with
  | .error _ => none
  | .ok .outside => some (0, 0)
  | .ok (.inside names) => (t.node? names).map fun
    | (.file content, stamp) => (stamp, content.size)
    | (_, stamp) => (stamp, 0)

/-! ### Changing -/

/-- Moves the clock on and stamps a directory. -/
def touch (t : FileTree) (names : List String) : FileTree :=
  let clock := t.clock + 1
  match t.node? names with
  | some (.directory, _) => ⟨t.nodes.insert (keyOf names) (.directory, clock), clock⟩
  | _ => { t with clock }

/-- Puts a node at a place. A new entry touches its directory. -/
def setNode (t : FileTree) (names : List String) (node : FileNode) : FileTree :=
  let t := if (t.node? names).isSome then t else t.touch names.tail
  let clock := t.clock + 1
  ⟨t.nodes.insert (keyOf names) (node, clock), clock⟩

/-- Takes a node out of its directory. -/
def removeNode (t : FileTree) (names : List String) : FileTree :=
  let t := t.touch names.tail
  { t with nodes := t.nodes.erase (keyOf names) }

/-- Goes down the directories of a path and makes those that are missing. -/
def makeDirectories (t : FileTree) : List String → List String → FileTree × List String
  | here, [] => (t, here)
  | here, name :: rest =>
    match t.walk (maxPathSize * (maxLinks + 1)) maxLinks (.inside here) [name] with
    | .ok (.inside place) => t.makeDirectories place rest
    | .ok .outside => t.makeDirectories here rest
    | .error _ => (t.setNode (name :: here) .directory).makeDirectories (name :: here) rest

/-- Puts a node at a path, with the directories on the way. A file is written through a link. -/
def put (t : FileTree) (path : String) (node : FileNode) : FileTree :=
  let names := (Path.names path).filter fun n => n ≠ "" && n ≠ "."
  match names.getLast? with
  | none => t
  | some last =>
    let (t, here) := t.makeDirectories [] names.dropLast
    match node with
    | .file _ =>
      match t.walk (maxPathSize * (maxLinks + 1)) maxLinks (.inside here) [last] with
      | .ok (.inside place) => t.setNode place node
      | _ => t.setNode (last :: here) node
    | _ => t.setNode (last :: here) node

/-- Removes the file or link at a path, and tells whether there was one. -/
def remove (t : FileTree) (path : String) : Bool × FileTree :=
  let parent := Path.parent path
  let directory := if parent = "" then "." else parent
  match Path.fileName? path, t.resolve directory with
  | some name, .ok (.inside here) =>
    match t.node? (name :: here) with
    | some (.directory, _) | none => (false, t)
    | some _ => (true, t.removeNode (name :: here))
  | _, _ => (false, t)

end FileTree

end LayeredConfig
