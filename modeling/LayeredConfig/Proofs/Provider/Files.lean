import LayeredConfig.Provider.Files
import Mathlib.Data.List.Basic

/-! # Files that give no source

A file that matches but cannot be read, or does not follow its format, is passed over when its
directory is read: without it, the others give the same sources (`sources_without`).

Each file is read by its path, which is followed from the top again. So taking a file away could
change where the path of another one leads. It does not: a path on which the file stands is only
good for reading the file itself (`walk_without`), and the path of an entry leads to that entry, to
its directory, or to the directory above (`resolve_join`). -/

namespace LayeredConfig

/-! ### Names and paths -/

namespace Path

theorem names_append_slash (a b : String) : names (a ++ "/" ++ b) = names a ++ names b := by
  unfold names
  rw [String.toList_append, String.toList_append, List.append_assoc, ← List.map_append]
  exact congrArg _ (Text.pieces_append '/' a.toList b.toList)

theorem names_of_no_slash {name : String} (h : '/' ∉ name.toList) : names name = [name] := by
  unfold names
  rw [Text.pieces_of_not_mem h]
  simp

theorem no_slash_of_mem_names {path name : String} (h : name ∈ names path) :
    '/' ∉ name.toList := by
  obtain ⟨piece, hpiece, rfl⟩ := List.mem_map.1 h
  rw [String.toList_ofList]
  exact Text.not_mem_of_mem_pieces hpiece

/-- The names of the path of an entry are those of the directory and that of the entry. An empty
name at the end of the directory is not counted. -/
theorem names_join {dir name : String} (hdir : dir ≠ "") (hname : '/' ∉ name.toList) :
    names (join dir name) = names dir ++ [name] ∨
      ∃ init, names dir = init ++ [""] ∧ names (join dir name) = init ++ [name] := by
  unfold join
  split
  · rename_i h
    have hlast := h.resolve_left hdir
    obtain ⟨init, hinit⟩ := List.getLast?_eq_some_iff.1 hlast
    have hsplit : dir = String.ofList init ++ "/" ++ "" := by
      refine String.toList_injective ?_
      simp [hinit]
    refine .inr ⟨names (String.ofList init), ?_, ?_⟩
    · conv_lhs => rw [hsplit, names_append_slash]
      rfl
    · rw [hsplit, String.append_empty, names_append_slash, names_of_no_slash hname]
  · exact .inl (by rw [names_append_slash, names_of_no_slash hname])

theorem isRooted_join {dir : String} (hdir : dir ≠ "") (name : String) :
    isRooted (join dir name) = isRooted dir := by
  have hne : dir.toList ≠ [] := fun h => hdir (String.toList_injective h)
  unfold isRooted join
  split <;> simp [String.toList_append, List.head?_append, hne, Option.or_of_isSome]

end Path

namespace FileTree

/-- The names of a key are those that it is made of. -/
theorem keyOf_names (key : String) : keyOf (Path.names key).reverse = key := by
  refine String.toList_injective ?_
  unfold keyOf Path.names
  rw [List.reverse_reverse, String.toList_intercalate, List.map_map]
  have hpieces : (Text.pieces '/' key.toList).map (String.toList ∘ String.ofList) =
      Text.pieces '/' key.toList := by
    simp [Function.comp_def]
  rw [hpieces]
  exact (Text.glue_eq_intercalate '/' _).symm.trans (Text.glue_pieces '/' _)

theorem keyOf_cons (name next : String) (up : List String) :
    keyOf (name :: next :: up) = keyOf (next :: up) ++ "/" ++ name := by
  have hsnoc : ∀ (xs : List String) (y : String), xs ≠ [] →
      String.intercalate "/" (xs ++ [y]) = String.intercalate "/" xs ++ "/" ++ y := by
    intro xs y hxs
    induction xs with
    | nil => exact absurd rfl hxs
    | cons x rest ih =>
      cases rest with
      | nil => simp [String.intercalate_cons_cons]
      | cons x' rest =>
        rw [List.cons_append, List.cons_append, String.intercalate_cons_cons,
          String.intercalate_cons_cons, ← List.cons_append, ih (by simp)]
        simp only [String.append_assoc]
  unfold keyOf
  rw [List.reverse_cons, hsnoc _ _ (by simp)]

theorem length_keyOf_le (name : String) (up : List String) :
    (keyOf up).length ≤ (keyOf (name :: up)).length := by
  cases up with
  | nil => simp [keyOf]
  | cons next up =>
    rw [keyOf_cons, String.length_append, String.length_append]
    omega

theorem length_keyOf_lt (name next : String) (up : List String) :
    (keyOf (next :: up)).length < (keyOf (name :: next :: up)).length := by
  rw [keyOf_cons, String.length_append, String.length_append]
  have : "/".length = 1 := rfl
  omega

/-! ### Entries -/

/-- The entry that a node is in the directory at a place, if it is one. -/
def entryAt (place : List String) : String × FileNode × Nat → Option (String × FileNode) :=
  fun (key, node, _) =>
    match Path.names key with
    | [] => none
    | parts =>
      let parts := parts.reverse
      if key ≠ "" ∧ parts.tail = place then parts.head?.map (·, node) else none

theorem entries_eq (t : FileTree) (place : List String) :
    t.entries place = t.nodes.entries.filterMap (entryAt place) := rfl

theorem of_entryAt {place : List String} {key name : String} {node node' : FileNode} {stamp : Nat}
    (h : entryAt place (key, node, stamp) = some (name, node')) :
    Path.names key = (name :: place).reverse ∧ keyOf (name :: place) = key ∧ node' = node := by
  have hnames : (Path.names key).reverse = name :: place ∧ node' = node := by
    unfold entryAt at h
    dsimp only at h
    split at h
    · cases h
    · split at h
      · rename_i hkey
        obtain ⟨first, hfirst, heq⟩ := Option.map_eq_some_iff.1 h
        cases heq
        rw [← hkey.2]
        exact ⟨(List.cons_head?_tail hfirst).symm, rfl⟩
      · cases h
  refine ⟨?_, ?_, hnames.2⟩
  · rw [← hnames.1, List.reverse_reverse]
  · rw [← hnames.1, keyOf_names]

variable {t : FileTree} {place : List String} {name : String} {node : FileNode}

/-- An entry of a directory stands in the tree under its name. -/
theorem of_mem_entries (h : (name, node) ∈ t.entries place) :
    (∃ stamp, t.node? (name :: place) = some (node, stamp)) ∧
      Path.names (keyOf (name :: place)) = (name :: place).reverse := by
  rw [entries_eq] at h
  obtain ⟨⟨key, node', stamp⟩, hmem, hentry⟩ := List.mem_filterMap.1 h
  obtain ⟨hnames, hkey, rfl⟩ := of_entryAt hentry
  refine ⟨⟨stamp, ?_⟩, ?_⟩
  · rw [node?, hkey]
    exact KeyMap.mem_entries_iff.1 hmem
  · rw [hkey, hnames]

theorem no_slash_of_mem_entries (h : (name, node) ∈ t.entries place) : '/' ∉ name.toList := by
  have hmem : name ∈ Path.names (keyOf (name :: place)) := by
    rw [(of_mem_entries h).2]
    simp
  exact Path.no_slash_of_mem_names hmem

/-! ### A tree without some nodes -/

/-- The tree without the nodes of some keys. -/
def without (t : FileTree) (gone : String → Bool) : FileTree :=
  { t with nodes := t.nodes.without gone }

variable {gone : String → Bool}

theorem node?_without (names : List String) :
    (t.without gone).node? names = if gone (keyOf names) then none else t.node? names :=
  KeyMap.get?_without t.nodes gone (keyOf names)

theorem without_eq_self (h : ∀ key, gone key = false) : t.without gone = t := by
  have hnodes : t.nodes.without gone = t.nodes := by
    refine KeyMap.ext_get? fun key => ?_
    rw [KeyMap.get?_without, h, if_neg Bool.false_ne_true]
  unfold without
  rw [hnodes]

/-- A directory without some nodes has the other entries. -/
theorem entries_without (place : List String) :
    (t.without gone).entries place =
      (t.entries place).filter fun e => !gone (keyOf (e.1 :: place)) := by
  rw [entries_eq, entries_eq, List.filter_filterMap]
  show (t.nodes.without gone).entries.filterMap _ = _
  rw [KeyMap.entries_without, List.filterMap_filter]
  refine List.filterMap_congr fun entry _ => ?_
  obtain ⟨key, node, stamp⟩ := entry
  dsimp only
  cases hentry : entryAt place (key, node, stamp) with
  | none => cases gone key <;> rfl
  | some e =>
    have hkey := (of_entryAt hentry).2.1
    cases hgone : gone key <;> simp [hgone, hkey, Option.filter]

/-! ### Following a path -/

/-- Where one name leads from a place: the links that may still be followed, the place, and the
names of a link that come ahead of the rest. -/
def leg (t : FileTree) (links : Nat) (here : Place) (name : String) :
    Except PathFault (Nat × Place × List String) :=
  match here with
  | .outside =>
    if name = "" ∨ name = "." ∨ name = ".." then .ok (links, .outside, []) else .error .missing
  | .inside place =>
    match t.node? place with
    | some (.directory, _) =>
      if name = "" ∨ name = "." then .ok (links, .inside place, [])
      else if name = ".." then
        match place with
        | [] => .ok (links, .outside, [])
        | _ :: up => .ok (links, .inside up, [])
      else if maxNameSize < name.utf8ByteSize then .error .nameTooLong
      else
        match t.node? (name :: place) with
        | none => .error .missing
        | some (.link target, _) =>
          match links with
          | 0 => .error .tooManyLinks
          | links + 1 =>
            .ok (links, if Path.isRooted target then .outside else .inside place, Path.names target)
        | some _ => .ok (links, .inside (name :: place), [])
    | _ => .error .notDirectory

/-- A path is followed name by name. -/
theorem walk_succ (fuel links : Nat) (here : Place) (name : String) (rest : List String) :
    t.walk (fuel + 1) links here (name :: rest) =
      (t.leg links here name).bind fun reached =>
        t.walk fuel reached.1 reached.2.1 (reached.2.2 ++ rest) := by
  conv_lhs => unfold walk
  unfold leg
  cases here with
  | outside =>
    by_cases h : name = "" ∨ name = "." ∨ name = ".."
    · simp only [if_pos h]
      rfl
    · simp only [if_neg h]
      rfl
  | inside place =>
    dsimp only
    rcases t.node? place with _ | ⟨_ | _ | _, stamp⟩
    · rfl
    · rfl
    · by_cases hidle : name = "" ∨ name = "."
      · simp only [if_pos hidle]
        rfl
      by_cases hup : name = ".."
      · simp only [if_neg hidle, if_pos hup]
        cases place <;> rfl
      by_cases hsize : maxNameSize < name.utf8ByteSize
      · simp only [if_neg hidle, if_neg hup, if_pos hsize]
        rfl
      simp only [if_neg hidle, if_neg hup, if_neg hsize]
      rcases t.node? (name :: place) with _ | ⟨_ | _ | _, stamp'⟩
      · rfl
      · rfl
      · rfl
      · cases links <;> rfl
    · rfl

/-- What follows a path goes on from where its beginning leads. -/
theorem walk_append (fuel links : Nat) (here : Place) (names : List String) :
    (∃ e, ∀ more, t.walk fuel links here (names ++ more) = .error e) ∨
      ∃ fuel' links' there, ∀ more,
        t.walk fuel links here (names ++ more) = t.walk fuel' links' there more := by
  induction fuel generalizing links here names with
  | zero =>
    cases names with
    | nil => exact .inr ⟨_, _, _, fun more => rfl⟩
    | cons name rest => exact .inl ⟨.tooManyLinks, fun more => rfl⟩
  | succ fuel ih =>
    cases names with
    | nil => exact .inr ⟨_, _, _, fun more => rfl⟩
    | cons name rest =>
      cases hleg : t.leg links here name with
      | error e =>
        refine .inl ⟨e, fun more => ?_⟩
        rw [List.cons_append, walk_succ, hleg]
        rfl
      | ok reached =>
        have hrest := ih reached.1 reached.2.1 (reached.2.2 ++ rest)
        have hwalk (more : List String) : t.walk (fuel + 1) links here (name :: rest ++ more) =
            t.walk fuel reached.1 reached.2.1 (reached.2.2 ++ rest ++ more) := by
          rw [List.cons_append, walk_succ, hleg, List.append_assoc]
          rfl
        simpa only [hwalk] using hrest

theorem leg_of_file {content : Content} {stamp : Nat}
    (h : t.node? place = some (.file content, stamp)) (links : Nat) (name : String) :
    t.leg links (.inside place) name = .error .notDirectory := by
  unfold leg
  dsimp only
  rw [h]

/-- Nothing but the file itself is read by a path on which a file stands. -/
theorem walk_of_file {content : Content} {stamp : Nat}
    (h : t.node? place = some (.file content, stamp)) (fuel links : Nat) (names : List String) :
    t.walk fuel links (.inside place) names = .ok (.inside place) ∨
      ∃ e, t.walk fuel links (.inside place) names = .error e := by
  cases names with
  | nil => cases fuel <;> exact .inl rfl
  | cons name rest =>
    cases fuel with
    | zero => exact .inr ⟨.tooManyLinks, rfl⟩
    | succ fuel =>
      rw [walk_succ, leg_of_file h]
      exact .inr ⟨.notDirectory, rfl⟩

section Without

variable (hfiles : ∀ names, gone (keyOf names) = true →
  ∃ content stamp, t.node? names = some (.file content, stamp))
include hfiles

/-- A leg in a tree without some files is the leg in the whole tree, unless this leads to one of the
files. -/
theorem leg_without (links : Nat) (here : Place) (name : String) :
    (t.without gone).leg links here name = t.leg links here name ∨
      (∃ e, (t.without gone).leg links here name = .error e) ∧
        ∃ place, gone (keyOf place) = true ∧
          t.leg links here name = .ok (links, .inside place, []) := by
  cases here with
  | outside => exact .inl rfl
  | inside place =>
    unfold leg
    dsimp only
    rw [node?_without, node?_without]
    cases hplace : gone (keyOf place) with
    | true =>
      obtain ⟨content, stamp, hnode⟩ := hfiles place hplace
      rw [hnode]
      exact .inl rfl
    | false =>
      rw [if_neg Bool.false_ne_true]
      rcases t.node? place with _ | ⟨_ | _ | _, stamp⟩
      · exact .inl rfl
      · exact .inl rfl
      · by_cases hidle : name = "" ∨ name = "."
        · simp only [if_pos hidle, true_or]
        by_cases hup : name = ".."
        · simp only [if_neg hidle, if_pos hup, true_or]
        by_cases hsize : maxNameSize < name.utf8ByteSize
        · simp only [if_neg hidle, if_neg hup, if_pos hsize, true_or]
        simp only [if_neg hidle, if_neg hup, if_neg hsize]
        cases hname : gone (keyOf (name :: place)) with
        | true =>
          obtain ⟨content, stamp, hnode⟩ := hfiles _ hname
          rw [hnode]
          exact .inr ⟨⟨.missing, rfl⟩, name :: place, hname, rfl⟩
        | false => exact .inl rfl
      · exact .inl rfl

/-- A path leads to the same place in a tree without some files, or nowhere in either tree, unless
it leads to one of the files. -/
theorem walk_without (fuel links : Nat) (here : Place) (names : List String) :
    (t.without gone).walk fuel links here names = t.walk fuel links here names ∨
      (∃ e, (t.without gone).walk fuel links here names = .error e) ∧
        ((∃ e, t.walk fuel links here names = .error e) ∨
          ∃ place, gone (keyOf place) = true ∧
            t.walk fuel links here names = .ok (.inside place)) := by
  induction fuel generalizing links here names with
  | zero => cases names <;> exact .inl rfl
  | succ fuel ih =>
    cases names with
    | nil => exact .inl rfl
    | cons name rest =>
      rw [walk_succ, walk_succ]
      rcases leg_without hfiles links here name with hsame | ⟨⟨e, he⟩, place, hgone, hleg⟩
      · rw [hsame]
        cases t.leg links here name with
        | error e => exact .inl rfl
        | ok reached => exact ih _ _ _
      · obtain ⟨content, stamp, hnode⟩ := hfiles place hgone
        rw [he, hleg]
        refine .inr ⟨⟨e, rfl⟩, ?_⟩
        rcases walk_of_file hnode fuel links rest with hwalk | hwalk
        · exact .inr ⟨place, hgone, hwalk⟩
        · exact .inl hwalk

theorem resolve_without (path : String) :
    (t.without gone).resolve path = t.resolve path ∨
      (∃ e, (t.without gone).resolve path = .error e) ∧
        ((∃ e, t.resolve path = .error e) ∨
          ∃ place, gone (keyOf place) = true ∧ t.resolve path = .ok (.inside place)) := by
  unfold resolve
  split
  · exact .inl rfl
  · split
    · exact .inl rfl
    · split
      · exact .inl rfl
      · exact walk_without hfiles _ _ _ _

/-- Other files are read as in the whole tree. -/
theorem readText_without (path : String)
    (h : ∀ place, t.resolve path = .ok (.inside place) → gone (keyOf place) = false) :
    (t.without gone).readText path = t.readText path ∨
      (∃ e, (t.without gone).readText path = .error e) ∧ ∃ e, t.readText path = .error e := by
  unfold readText
  rcases resolve_without hfiles path with hsame | ⟨⟨e, he⟩, ⟨e', he'⟩ | ⟨place, hgone, hplace⟩⟩
  · rw [hsame]
    cases hresolve : t.resolve path with
    | error e => exact .inl rfl
    | ok there =>
      cases there with
      | outside => exact .inl rfl
      | inside place =>
        have hkept := h place hresolve
        dsimp only
        rw [node?_without, hkept]
        exact .inl rfl
  · rw [he, he']
    exact .inr ⟨⟨_, rfl⟩, _, rfl⟩
  · rw [h place hplace] at hgone
    cases hgone

end Without

/-! ### The path of an entry -/

/-- A path that leads somewhere is followed to there. -/
theorem walk_of_resolve {path : String} {there : Place} (h : t.resolve path = .ok there) :
    path ≠ "" ∧ t.walk (maxPathSize * (maxLinks + 1)) maxLinks
      (if Path.isRooted path then .outside else .inside []) (Path.names path) = .ok there := by
  unfold resolve at h
  split at h
  · cases h
  · split at h
    · cases h
    · rename_i hne
      split at h
      · cases h
      · exact ⟨hne, h⟩

/-- An empty name at the end leads nowhere else. -/
theorem eq_of_walk_empty {fuel links : Nat} {here : Place}
    (h : t.walk fuel links here [""] = .ok (.inside place)) : here = .inside place := by
  cases fuel with
  | zero => cases h
  | succ fuel =>
    rw [walk_succ] at h
    unfold leg at h
    cases here with
    | outside => cases fuel <;> cases h
    | inside start =>
      dsimp only at h
      split at h
      · simp only [true_or, if_true] at h
        cases fuel <;> cases h <;> rfl
      · cases h

/-- The path of a file in a directory leads to the file, to the directory or to the one above, or
nowhere that could be read. -/
theorem resolve_join {dir : String} {content : Content} {stamp stamp' : Nat}
    (hdir : t.resolve dir = .ok (.inside place))
    (hplace : t.node? place = some (.directory, stamp))
    (hname : '/' ∉ name.toList)
    (hnode : t.node? (name :: place) = some (.file content, stamp')) {there : List String}
    (h : t.resolve (Path.join dir name) = .ok (.inside there)) :
    there = name :: place ∨ there = place ∨ ∃ last, place = last :: there := by
  obtain ⟨hne, hwalk⟩ := walk_of_resolve hdir
  obtain ⟨-, hjoined⟩ := walk_of_resolve h
  rw [Path.isRooted_join hne] at hjoined
  -- whichever way the path is joined, its last name is followed from the directory
  have hlast : ∃ fuel links, t.walk fuel links (.inside place) [name] = .ok (.inside there) := by
    rcases Path.names_join hne hname with hnames | ⟨init, hinit, hnames⟩
    · rw [hnames] at hjoined
      rcases t.walk_append _ _ _ (Path.names dir) with ⟨e, he⟩ | ⟨fuel, links, reached, hreached⟩
      · cases (he [name]).symm.trans hjoined
      · have hend : reached = .inside place := by
          have hnil := hreached []
          rw [List.append_nil, hwalk] at hnil
          cases fuel <;> cases hnil <;> rfl
        rw [hreached, hend] at hjoined
        exact ⟨fuel, links, hjoined⟩
    · rw [hinit] at hwalk
      rw [hnames] at hjoined
      rcases t.walk_append _ _ _ init with ⟨e, he⟩ | ⟨fuel, links, reached, hreached⟩
      · cases (he [name]).symm.trans hjoined
      · rw [hreached] at hwalk hjoined
        rw [eq_of_walk_empty hwalk] at hjoined
        exact ⟨fuel, links, hjoined⟩
  obtain ⟨fuel, links, hleg⟩ := hlast
  cases fuel with
  | zero => cases hleg
  | succ fuel =>
    rw [walk_succ] at hleg
    unfold leg at hleg
    dsimp only at hleg
    rw [hplace, hnode] at hleg
    dsimp only at hleg
    split at hleg
    · cases fuel <;> cases hleg <;> exact .inr (.inl rfl)
    · split at hleg
      · split at hleg
        · cases fuel <;> cases hleg
        · cases fuel <;> cases hleg <;> exact .inr (.inr ⟨_, rfl⟩)
      · split at hleg
        · cases hleg
        · cases fuel <;> cases hleg <;> exact .inl rfl

end FileTree

/-! ### Sources of files -/

namespace FileSelection

/-- A file that matches and cannot be read, or does not follow its format. -/
structure Spoiled (f : FileSelection) (t : FileTree) (place : List String) (name : String) :
    Prop where
  resolves : t.resolve f.directory = .ok (.inside place)
  isDirectory : ∃ stamp, t.node? place = some (.directory, stamp)
  isFile : ∃ content, (name, .file content) ∈ t.entries place
  isMatching : f.selects name = true
  fails : ∃ e, f.readTable t (Path.join f.directory name) = .error e

variable {f : FileSelection} {t : FileTree}

/-- The path of an entry that is read. -/
def selected? (f : FileSelection) (entry : String × FileNode) : Option String :=
  match entry.2 with
  | .file _ => if f.selects entry.1 then some (Path.join f.directory entry.1) else none
  | _ => none

/-- The source of a file. -/
def source? (f : FileSelection) (t : FileTree) (path : String) : Option Source :=
  (f.readTable t path).skip.map fun table => table.toSource (.file path)

/-- The sources of a directory come from its entries. -/
theorem sources_of_resolve {place : List String} (h : t.resolve f.directory = .ok (.inside place))
    {stamp : Nat} (hplace : t.node? place = some (.directory, stamp)) :
    f.sources t =
      .ok ((t.entries place).filterMap fun e => (f.selected? e).bind (f.source? t)) := by
  have hread : t.readDirectory f.directory = .ok (t.entries place) := by
    unfold FileTree.readDirectory
    rw [h]
    dsimp only
    rw [hplace]
  have hmatching : f.matching t = .ok ((t.entries place).filterMap f.selected?) := by
    unfold matching
    rw [hread]
    rfl
  unfold sources
  rw [hmatching]
  exact congrArg Except.ok List.filterMap_filterMap

/-- A file that is read alike, or not at all, gives the same source, or none. -/
theorem source?_congr {t' : FileTree} {path : String}
    (h : t'.readText path = t.readText path ∨
      (∃ e, t'.readText path = .error e) ∧ ∃ e, t.readText path = .error e) :
    f.source? t' path = f.source? t path := by
  unfold source? readTable
  rcases h with hsame | ⟨⟨e, he⟩, e', he'⟩
  · rw [hsame]
  · rw [he, he']
    rfl

namespace Spoiled

variable {place : List String} {name : String}

theorem place_eq {place' : List String} {name' : String} (h : f.Spoiled t place name)
    (h' : f.Spoiled t place' name') : place' = place := by
  have heq := h'.resolves.symm.trans h.resolves
  cases heq
  rfl

theorem source?_eq_none (h : f.Spoiled t place name) :
    f.source? t (Path.join f.directory name) = none := by
  obtain ⟨e, he⟩ := h.fails
  unfold source?
  rw [he]
  rfl

theorem exists_node (h : f.Spoiled t place name) :
    ∃ content stamp, t.node? (name :: place) = some (.file content, stamp) := by
  obtain ⟨content, hmem⟩ := h.isFile
  obtain ⟨⟨stamp, hnode⟩, -⟩ := FileTree.of_mem_entries hmem
  exact ⟨content, stamp, hnode⟩

theorem names_keyOf (h : f.Spoiled t place name) :
    Path.names (FileTree.keyOf (name :: place)) = (name :: place).reverse := by
  obtain ⟨content, hmem⟩ := h.isFile
  exact (FileTree.of_mem_entries hmem).2

end Spoiled

/-- Keys of files that are passed over in the directory at a place. -/
structure PassesOver (f : FileSelection) (t : FileTree) (gone : String → Bool)
    (place : List String) : Prop where
  resolves : t.resolve f.directory = .ok (.inside place)
  isDirectory : ∃ stamp, t.node? place = some (.directory, stamp)
  spoiled : ∀ key, gone key = true →
    ∃ name, f.Spoiled t place name ∧ key = FileTree.keyOf (name :: place)

namespace PassesOver

variable {gone : String → Bool} {place : List String} {name : String} {node : FileNode}

theorem of_spoiled (h : ∀ key, gone key = true →
      ∃ place name, f.Spoiled t place name ∧ key = FileTree.keyOf (name :: place))
    {key : String} (hkey : gone key = true) : ∃ place, f.PassesOver t gone place := by
  obtain ⟨place, name, hspoiled, -⟩ := h key hkey
  refine ⟨place, hspoiled.resolves, hspoiled.isDirectory, fun key hkey => ?_⟩
  obtain ⟨place', name', hspoiled', heq⟩ := h key hkey
  cases hspoiled.place_eq hspoiled'
  exact ⟨name', hspoiled', heq⟩

theorem isFile (h : f.PassesOver t gone place) (names : List String)
    (hnames : gone (FileTree.keyOf names) = true) :
    ∃ content stamp, t.node? names = some (.file content, stamp) := by
  obtain ⟨name, hspoiled, heq⟩ := h.spoiled _ hnames
  obtain ⟨content, stamp, hnode⟩ := hspoiled.exists_node
  refine ⟨content, stamp, ?_⟩
  rw [FileTree.node?, heq]
  exact hnode

theorem keeps_place (h : f.PassesOver t gone place) : gone (FileTree.keyOf place) = false := by
  refine Bool.eq_false_iff.2 fun hgone => ?_
  obtain ⟨stamp, hplace⟩ := h.isDirectory
  obtain ⟨content, stamp', hnode⟩ := h.isFile place hgone
  cases hnode.symm.trans hplace

/-- The directory above has a shorter key than any file of the directory. -/
theorem keeps_above {last : String} {up : List String} (h : f.PassesOver t gone (last :: up)) :
    gone (FileTree.keyOf up) = false := by
  refine Bool.eq_false_iff.2 fun hgone => ?_
  obtain ⟨name, -, heq⟩ := h.spoiled _ hgone
  have hle := FileTree.length_keyOf_le last up
  have hlt := FileTree.length_keyOf_lt name last up
  rw [← heq] at hlt
  omega

/-- The directory is found without the files. -/
theorem resolve_without (h : f.PassesOver t gone place) :
    (t.without gone).resolve f.directory = .ok (.inside place) := by
  rcases FileTree.resolve_without h.isFile f.directory with
    hsame | ⟨-, ⟨e, he⟩ | ⟨there, hthere, heq⟩⟩
  · exact hsame.trans h.resolves
  · cases he.symm.trans h.resolves
  · cases heq.symm.trans h.resolves
    rw [h.keeps_place] at hthere
    cases hthere

/-- A file that goes gave no source. -/
theorem source?_of_gone (h : f.PassesOver t gone place) (hentry : (name, node) ∈ t.entries place)
    (hname : gone (FileTree.keyOf (name :: place)) = true) :
    (f.selected? (name, node)).bind (f.source? t) = none := by
  obtain ⟨name', hspoiled, heq⟩ := h.spoiled _ hname
  have hnames := (FileTree.of_mem_entries hentry).2
  rw [heq, hspoiled.names_keyOf] at hnames
  cases List.reverse_injective hnames
  unfold selected?
  split
  · split
    · exact hspoiled.source?_eq_none
    · rfl
  · rfl

/-- A file that stays gives the same source. -/
theorem source?_of_kept (h : f.PassesOver t gone place) (hentry : (name, node) ∈ t.entries place)
    (hname : gone (FileTree.keyOf (name :: place)) = false) :
    (f.selected? (name, node)).bind (f.source? (t.without gone)) =
      (f.selected? (name, node)).bind (f.source? t) := by
  obtain ⟨stamp, hplace⟩ := h.isDirectory
  obtain ⟨⟨stamp', hfile⟩, -⟩ := FileTree.of_mem_entries hentry
  unfold selected?
  split
  · rename_i content hnode
    dsimp only at hnode
    rw [hnode] at hfile
    split
    · refine source?_congr (FileTree.readText_without h.isFile _ fun there hthere => ?_)
      rcases FileTree.resolve_join h.resolves hplace (FileTree.no_slash_of_mem_entries hentry)
        hfile hthere with rfl | rfl | ⟨last, rfl⟩
      · exact hname
      · exact h.keeps_place
      · exact h.keeps_above
    · rfl
  · rfl

end PassesOver

/-- **Without the files that are passed over** the sources are the same. -/
theorem sources_without {gone : String → Bool}
    (h : ∀ key, gone key = true →
      ∃ place name, f.Spoiled t place name ∧ key = FileTree.keyOf (name :: place)) :
    f.sources (t.without gone) = f.sources t := by
  by_cases hnone : ∀ key, gone key = false
  · rw [FileTree.without_eq_self hnone]
  obtain ⟨key, hkey⟩ := not_forall.1 hnone
  obtain ⟨place, hpasses⟩ := PassesOver.of_spoiled h (Bool.not_eq_false _ ▸ hkey)
  obtain ⟨stamp, hplace⟩ := hpasses.isDirectory
  have hplace' : (t.without gone).node? place = some (.directory, stamp) := by
    rw [FileTree.node?_without, hpasses.keeps_place]
    exact hplace
  rw [sources_of_resolve hpasses.resolve_without hplace',
    sources_of_resolve hpasses.resolves hplace, FileTree.entries_without, List.filterMap_filter]
  refine congrArg Except.ok (List.filterMap_congr fun (name, node) hentry => ?_)
  cases hname : gone (FileTree.keyOf (name :: place)) with
  | true => simp [hpasses.source?_of_gone hentry hname]
  | false => simp [hpasses.source?_of_kept hentry hname]

end FileSelection

end LayeredConfig
