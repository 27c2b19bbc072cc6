import LayeredConfig.Context
import LayeredConfig.Provider.Files
import Mathlib.Data.List.Basic

/-! # Loads while files change

A load of a directory lists the files first and then goes from one to the next, and files may change
on the way (`FileSelection.LoadsDuring`). If the directory reads alike at all these moments, the
load gives what the directory holds at any of them (`LoadsDuring.eq_ofResult`). -/

namespace LayeredConfig

/-- Whether the files in a directory read alike in two trees. -/
structure FileTree.SameUnder (directory : String) (t u : FileTree) : Prop where
  listed : u.readDirectory directory = t.readDirectory directory
  read : ∀ entries, t.readDirectory directory = .ok entries → ∀ e ∈ entries,
    u.readText (Path.join directory e.1) = t.readText (Path.join directory e.1)

theorem FileTree.SameUnder.refl (directory : String) (t : FileTree) : t.SameUnder directory t :=
  ⟨rfl, fun _ _ _ _ => rfl⟩

/-- What a load that has read the files of a provider comes to, if there are no other providers. -/
def Loaded.ofResult : Result (List Source) → Loaded
  | .ok sources => ⟨sources, 0⟩
  | .error _ => ⟨[], 1⟩

namespace FileSelection

variable {f : FileSelection} {t listed : FileTree} {current : String → FileTree}

/-- The sources of a load that lists the files at one moment and reads each at a moment of its own.
-/
def sourcesAcross (f : FileSelection) (listed : FileTree) (current : String → FileTree) :
    Result (List Source) := do
  let paths ← f.matching listed
  return paths.filterMap fun path =>
    (f.readTable (current path) path).skip.map fun table => table.toSource (.file path)

/-- Whether a load that takes place while the files go through some trees may come to something. -/
def LoadsDuring (f : FileSelection) (moments : List FileTree) (loaded : Loaded) : Prop :=
  ∃ listed ∈ moments, ∃ current : String → FileTree, (∀ path, current path ∈ moments) ∧
    loaded = .ofResult (f.sourcesAcross listed current)

theorem exists_entry_of_matching {paths : List String} {path : String}
    (h : f.matching t = .ok paths) (hpath : path ∈ paths) :
    ∃ entries, t.readDirectory f.directory = .ok entries ∧
      ∃ e ∈ entries, path = Path.join f.directory e.1 := by
  unfold matching at h
  split at h
  · cases h
  · rename_i entries hentries
    cases h
    obtain ⟨⟨name, node⟩, he, hname⟩ := List.mem_filterMap.1 hpath
    refine ⟨entries, hentries, (name, node), he, ?_⟩
    cases node with
    | file content =>
      dsimp only at hname
      split at hname
      · exact (Option.some.inj hname).symm
      · cases hname
    | directory => cases hname
    | link target => cases hname

/-- A load during which the directory stays is a load of the directory as it is. -/
theorem sourcesAcross_eq (hlisted : t.SameUnder f.directory listed)
    (hcurrent : ∀ path, t.SameUnder f.directory (current path)) :
    f.sourcesAcross listed current = f.sources t := by
  have hmatching : f.matching listed = f.matching t := by
    unfold matching
    rw [hlisted.listed]
  unfold sourcesAcross sources
  rw [hmatching]
  cases hpaths : f.matching t with
  | error error => rfl
  | ok paths =>
    refine congrArg Except.ok (List.filterMap_congr fun path hpath => ?_)
    obtain ⟨entries, hentries, e, he, rfl⟩ := exists_entry_of_matching hpaths hpath
    unfold readTable
    rw [(hcurrent _).read entries hentries e he]

theorem sources_eq_of_sameUnder {u : FileTree} (h : t.SameUnder f.directory u) :
    f.sources u = f.sources t := by
  show f.sourcesAcross u (fun _ => u) = _
  exact sourcesAcross_eq h fun _ => h

/-- A load may read all files at one moment. -/
theorem loadsDuring_of_mem {moments : List FileTree} (h : t ∈ moments) :
    f.LoadsDuring moments (.ofResult (f.sources t)) :=
  ⟨t, h, fun _ => t, fun _ => h, rfl⟩

theorem LoadsDuring.eq_ofResult {moments : List FileTree} {loaded : Loaded}
    (h : f.LoadsDuring moments loaded) (hsame : ∀ m ∈ moments, t.SameUnder f.directory m) :
    loaded = .ofResult (f.sources t) := by
  obtain ⟨listed, hlisted, current, hcurrent, rfl⟩ := h
  rw [sourcesAcross_eq (hsame listed hlisted) fun path => hsame _ (hcurrent path)]

theorem loadOne_toProvider (f : FileSelection) (limit : Duration) (number : Nat)
    (files : FileTree) : f.toProvider.loadOne limit number files = f.sources files := by
  unfold Provider.loadOne toProvider
  dsimp only
  cases f.sources files <;> rfl

theorem loadAll_toProvider (f : FileSelection) (limit : Duration) (number : Nat)
    (files : FileTree) :
    Provider.loadAll [f.toProvider] limit number files = .ofResult (f.sources files) := by
  unfold Provider.loadAll
  rw [List.map_singleton, loadOne_toProvider]
  cases f.sources files with
  | ok sources => simp [Loaded.ofResult, Result.skip]
  | error error => rfl

theorem loadsDuring_load {setup : Setup} (hp : setup.providers = [f.toProvider]) (number : Nat)
    (files : FileTree) : f.LoadsDuring [files] (setup.load number files) := by
  unfold Setup.load
  rw [hp, loadAll_toProvider]
  exact loadsDuring_of_mem (List.mem_singleton_self _)

end FileSelection

end LayeredConfig
