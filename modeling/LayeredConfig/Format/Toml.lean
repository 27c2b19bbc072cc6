import LayeredConfig.Format.Toml.Moment
import LayeredConfig.Number.Shortest
import LayeredConfig.Property

/-! # Tree documents

A TOML document is a tree of tables and arrays with scalars at its leaves. For a configuration it
is laid out flat: each leaf stands under the names on the way to it, joined by points, where the
elements of an array are named by their numbers. -/

namespace LayeredConfig.Toml

/-- A value that is no table and no array. -/
inductive Scalar
  | text (s : String)
  | integer (n : Int)
  | float (x : Number.Binary64)
  | boolean (b : Bool)
  | moment (m : Moment)
  deriving DecidableEq

/-- The text of a scalar. -/
def Scalar.write : Scalar → String
  | text s => s
  | integer n => toString n
  | float x => x.text
  | boolean true => "true"
  | boolean false => "false"
  | moment m => m.text

/-- How a table is written, which decides what may be added to it later. -/
inductive TableStyle
  /-- Under a header of its own, like the whole document and the tables of an array of tables. -/
  | header
  /-- On the way to the table of a header. -/
  | implied
  /-- On the way of a dotted key. -/
  | dotted
  /-- In braces. -/
  | inline
  /-- On the way of a dotted key in braces. -/
  | inlineDotted
  deriving DecidableEq

/-- A tree. The entries of a table come in key order. -/
inductive Value
  | scalar (s : Scalar)
  /-- An array of tables grows by headers; any other array is closed. -/
  | array (ofTables : Bool) (items : List Value)
  | table (style : TableStyle) (entries : List (String × Value))

/-- The entries of a table. -/
abbrev Entries := List (String × Value)

namespace Value

mutual

/-- The leaves of the tree at a path, with their paths. -/
def leaves (path : String) : Value → List (String × String)
  | scalar s => [(path, s.write)]
  | array _ items => leavesOfItems path 0 items
  | table _ entries => leavesOfEntries (path ++ ".") entries

/-- The leaves of the elements of an array from the one with the given number on. -/
def leavesOfItems (path : String) (number : Nat) : List Value → List (String × String)
  | [] => []
  | item :: items =>
    leaves (path ++ "." ++ toString number) item ++ leavesOfItems path (number + 1) items

/-- The leaves of the entries of a table, whose paths begin with `lead`. -/
def leavesOfEntries (lead : String) : List (String × Value) → List (String × String)
  | [] => []
  | (key, value) :: entries => leaves (lead ++ key) value ++ leavesOfEntries lead entries

end

end Value

/-- The entries of a document laid out flat. Of two leaves with one path the later stays. -/
def flatten (entries : Entries) : Properties := .ofList (Value.leavesOfEntries "" entries)

end LayeredConfig.Toml
