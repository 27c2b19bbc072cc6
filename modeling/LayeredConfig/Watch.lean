import LayeredConfig.Error
import LayeredConfig.FileTree

/-! # Watching files

A watch looks at files again and again and tells when something has changed since it last looked.
Files are told apart by the stamp of their last change and by their size; for a directory the
entries directly inside count as well. -/

namespace LayeredConfig

/-- What a watch remembers of files: stamp and size under each path, if something is there. -/
abbrev Fingerprint := KeyMap (Option (Nat × Nat))

namespace FileTree

/-- A path and, where it leads to a directory, the paths of its entries. -/
def watched (t : FileTree) (path : String) : List String :=
  match t.readDirectory path with
  | .ok entries => path :: entries.map fun e => Path.join path e.1
  | .error _ => [path]

/-- What a watch of paths sees. -/
def fingerprint (t : FileTree) (paths : List String) : Fingerprint :=
  .ofList ((paths.flatMap t.watched).map fun path => (path, t.stat? path))

end FileTree

/-- A watch that has been started. -/
structure Watch where
  paths : List String
  interval : Duration
  last : Fingerprint

namespace Watch

/-- Starts to watch paths. There must be some, and an interval between two looks. -/
def start (paths : List String) (interval : Duration) (files : FileTree) : Result Watch :=
  if paths.isEmpty then .error (.unwatchable "no paths to watch")
  else if interval.nanoseconds = 0 then
    .error (.unwatchable "poll interval must be greater than zero")
  else .ok ⟨paths, interval, files.fingerprint paths⟩

/-- Looks at the files, tells whether they have changed, and remembers them as they are now. -/
def poll (w : Watch) (files : FileTree) : Bool × Watch :=
  let now := files.fingerprint w.paths
  (now ≠ w.last, { w with last := now })

end Watch

end LayeredConfig
