import LayeredConfig.Format.Toml
import LayeredConfig.KeyMap

/-! # Sections of a tree document

A document is a sequence of sections, each a header and the settings below it. The tree is built
section by section, and nothing in it may be stated twice: a key has one value, a table one header,
and what is written in braces or brackets is closed. Dotted keys may go on with the tables that
dotted keys have made, and headers with those on the way to earlier headers. -/

namespace LayeredConfig.Toml

open KeyMap (insertEntry)

/-- A value under a dotted key, whose last name is `key`. -/
structure Setting where
  way : List String
  key : String
  value : Value

/-- The table that a section is about: the document itself, a table, or a new one of an array. -/
inductive Header
  | document
  | table (way : List String) (key : String)
  | tableOfArray (way : List String) (key : String)

structure Section where
  header : Header
  settings : List Setting

/-- What leads down to a table. -/
inductive Route
  | header
  | dottedKey
  | dottedInlineKey

namespace Route

/-- The style of the tables that are made on the way. -/
def style : Route → TableStyle
  | header => .implied
  | dottedKey => .dotted
  | dottedInlineKey => .inlineDotted

/-- Whether the way may lead through a table that is there already. -/
def mayEnter : Route → TableStyle → Bool
  | header, style => style = .header || style = .implied || style = .dotted
  | dottedKey, style => style = .implied || style = .dotted
  | dottedInlineKey, style => style = .inlineDotted

end Route

namespace TableStyle

/-- Whether a table was made by a dotted key. -/
def isDotted (style : TableStyle) : Bool := style = .dotted || style = .inlineDotted

end TableStyle

/-- Changes the table to which a way leads. Through an array of tables it leads to the last one. -/
def alter (route : Route) (change : TableStyle → Entries → Option Entries) :
    List String → TableStyle → Entries → Option Entries
  | [], style, entries => change style entries
  | name :: way, _, entries => do
    match entries.lookup name with
    | none =>
      let inner ← alter route change way route.style []
      return insertEntry name (.table route.style inner) entries
    | some (.table style inner) =>
      if route.mayEnter style then
        let inner ← alter route change way style inner
        return insertEntry name (.table style inner) entries
      else none
    | some (.array true items) =>
      match items.getLast? with
      | some (.table style inner) =>
        let inner ← alter route change way style inner
        return insertEntry name (.array true (items.dropLast ++ [.table style inner])) entries
      | _ => none
    | some _ => none

/-- Adds a setting to a table. A dotted key must end in a table made by dotted keys. -/
def addSetting (route : Route) (style : TableStyle) (entries : Entries) (s : Setting) :
    Option Entries :=
  alter route (fun style entries =>
    if style.isDotted = s.way.isEmpty ∨ (entries.lookup s.key).isSome then none
    else some (insertEntry s.key s.value entries)) s.way style entries

/-- The entries of a table in braces. -/
def ofInlineSettings (settings : List Setting) : Option Entries :=
  settings.foldlM (addSetting .dottedInlineKey .inline) []

/-- Adds the settings below a header to its table. -/
def addSettings (settings : List Setting) (entries : Entries) : Option Entries :=
  settings.foldlM (addSetting .dottedKey .header) entries

/-- Adds a section to a document. -/
def addSection (document : Entries) (s : Section) : Option Entries :=
  match s.header with
  | .document => addSettings s.settings document
  | .table way key =>
    alter .header (fun _ parent => do
      let start ←
        match parent.lookup key with
        | none => some []
        | some (.table .implied inner) => some inner
        | some _ => none
      return insertEntry key (.table .header (← addSettings s.settings start)) parent) way .header
      document
  | .tableOfArray way key =>
    alter .header (fun _ parent => do
      let earlier ←
        match parent.lookup key with
        | none => some []
        | some (.array true items) => some items
        | some _ => none
      let table := Value.table .header (← addSettings s.settings [])
      return insertEntry key (.array true (earlier ++ [table])) parent) way .header document

/-- The entries of a document, if nothing in it is stated twice. -/
def ofSections (sections : List Section) : Option Entries := sections.foldlM addSection []

end LayeredConfig.Toml
