import LayeredConfig.Proofs.Format.TableOrder
import Mathlib.Data.List.Dedup
import Mathlib.Data.List.Sigma

/-! # Leaves under their paths

The way from the root of a tree to a leaf is told by keys and numbers (`Value.IsLeafAt`), and where
keys are distinct it tells the leaf (`Value.IsLeafAt.unique`). Laid out flat, a tree has for each
leaf an entry whose key is the way joined by points (`leaves_eq`). Joining forgets where a key ends:
`a.b` is the path of the leaf `b` in the table `a` and of a leaf with the key `a.b`. So the flat
form has the leaves of the tree one for one exactly if no two of them have one path
(`keepsLeaves_iff`), as is sure where no key has a point in it. -/

namespace LayeredConfig

namespace Text

/-- Texts that are joined by a separator that is in none of them are cut apart again. -/
theorem pieces_intercalate {sep : Char} {ps : List (List Char)} (hne : ps ≠ [])
    (h : ∀ piece ∈ ps, sep ∉ piece) : pieces sep ([sep].intercalate ps) = ps := by
  induction ps with
  | nil => exact absurd rfl hne
  | cons piece rest ih =>
    obtain ⟨hpiece, hrest⟩ := List.forall_mem_cons.1 h
    cases rest with
    | nil => simpa using pieces_of_not_mem hpiece
    | cons next rest =>
      rw [List.intercalate_cons_cons, List.append_assoc, List.singleton_append, pieces_append,
        pieces_of_not_mem hpiece, ih (List.cons_ne_nil _ _) hrest, List.singleton_append]

end Text

namespace KeyMap

variable {α : Type} (pairs : List (String × α))

theorem contains_ofList_iff (key : String) :
    (ofList pairs).contains key ↔ key ∈ pairs.map (·.1) := by
  unfold contains
  rw [get?_ofList, List.lookup_isSome_iff]
  simp only [List.mem_reverse, List.mem_map, beq_iff_eq, eq_comm (a := key)]

/-- A map has an entry for each different key of its list. -/
theorem size_ofList : (ofList pairs).size = (pairs.map (·.1)).dedup.length := by
  have hperm : (ofList pairs).keys.Perm (pairs.map (·.1)).dedup := by
    refine (List.perm_ext_iff_of_nodup (nodup_keys _) (List.nodup_dedup _)).2 fun key => ?_
    rw [mem_keys_iff, List.mem_dedup]
    exact contains_ofList_iff pairs key
  rw [← hperm.length_eq]
  exact (List.length_map _).symm

theorem get?_ofList_append_cons {before behind : List (String × α)} {p : String × α}
    (h : ∀ q ∈ behind, q.1 ≠ p.1) :
    (ofList (before ++ p :: behind)).get? p.1 = some p.2 := by
  rw [get?_ofList]
  refine List.lookup_eq_some_iff.2 ⟨behind.reverse, before.reverse, by simp, fun q hq => ?_⟩
  simpa using Ne.symm (h q (List.mem_reverse.1 hq))

end KeyMap

namespace Toml

/-! ### Ways to leaves -/

/-- A step from a table or an array to a value in it. -/
inductive Step
  | key (name : String)
  | number (n : Nat)
  deriving DecidableEq

def Step.text : Step → String
  | key name => name
  | number n => toString n

theorem Step.number_text_inj {m n : Nat} (h : (Step.number m).text = (Step.number n).text) :
    m = n := by
  have hdigits : Nat.toDigits 10 m = Nat.toDigits 10 n := by
    rw [← Nat.toList_repr, ← Nat.toList_repr]
    exact congrArg String.toList h
  rw [← Nat.ofDigitChars_ten_toDigits (n := m), hdigits, Nat.ofDigitChars_ten_toDigits]

theorem Step.not_mem_number_text (n : Nat) : '.' ∉ (Step.number n).text.toList := by
  intro h
  have hdigit : '.' ∈ Nat.toDigits 10 n := by simpa [Step.text, Nat.repr] using h
  exact absurd (Nat.isDigit_of_mem_toDigits (by omega) (by omega) hdigit) (by decide)

/-- The path that a way becomes: its steps joined by points. -/
def dotted (way : List Step) : String := ".".intercalate (way.map Step.text)

/-- The path of a way that goes on from a path. -/
def under (path : String) (way : List Step) : String :=
  ".".intercalate (path :: way.map Step.text)

/-- Ways whose steps have no point in them are told by their paths. -/
theorem map_text_eq_of_dotted {way way' : List Step} (hway : ∀ s ∈ way, '.' ∉ s.text.toList)
    (hway' : ∀ s ∈ way', '.' ∉ s.text.toList) (hne : way ≠ []) (hne' : way' ≠ [])
    (h : dotted way = dotted way') : way.map Step.text = way'.map Step.text := by
  -- Cut at its points, a path falls into the texts of the steps.
  have hpieces {w : List Step} (hw : ∀ s ∈ w, '.' ∉ s.text.toList) (hwne : w ≠ []) :
      Text.pieces '.' (dotted w).toList = (w.map Step.text).map String.toList := by
    unfold dotted
    rw [String.toList_intercalate]
    refine Text.pieces_intercalate (by simpa using hwne) fun piece hpiece => ?_
    obtain ⟨text, htext, rfl⟩ := List.mem_map.1 hpiece
    obtain ⟨s, hs, rfl⟩ := List.mem_map.1 htext
    exact hw s hs
  have hsame := hpieces hway hne
  rw [h, hpieces hway' hne'] at hsame
  exact (List.map_injective_iff.2 (fun _ _ => String.toList_injective) hsame).symm

namespace Value

/-- Whether a way from a value ends at a scalar. -/
inductive IsLeafAt : Value → List Step → Scalar → Prop
  | scalar (s : Scalar) : IsLeafAt (.scalar s) [] s
  | item {ofTables : Bool} {items : List Value} {n : Nat} {v : Value} {way : List Step}
    {s : Scalar} (hv : items[n]? = some v) (h : IsLeafAt v way s) :
    IsLeafAt (.array ofTables items) (.number n :: way) s
  | entry {style : TableStyle} {entries : Entries} {key : String} {v : Value} {way : List Step}
    {s : Scalar} (hv : (key, v) ∈ entries) (h : IsLeafAt v way s) :
    IsLeafAt (.table style entries) (.key key :: way) s

/-- Where keys are distinct, the texts of the steps tell the way and the leaf at its end. -/
theorem IsLeafAt.unique {v : Value} {way way' : List Step} {s s' : Scalar}
    (hv : v.EachTable HasDistinctKeys) (h : v.IsLeafAt way s) (h' : v.IsLeafAt way' s')
    (htexts : way.map Step.text = way'.map Step.text) : way = way' ∧ s = s' := by
  -- The value decides what its steps are, so a number is never taken for a key with its digits.
  induction h generalizing way' with
  | scalar s =>
    cases h'
    exact ⟨rfl, rfl⟩
  | item hitem _ ih =>
    cases h' with
    | item hitem' h' =>
      obtain ⟨hnumber, hrest⟩ := List.cons.inj htexts
      cases Step.number_text_inj hnumber
      cases hitem.symm.trans hitem'
      cases hv with
      | array hitems =>
        obtain ⟨rfl, rfl⟩ := ih (hitems _ (List.mem_of_getElem? hitem)) h' hrest
        exact ⟨rfl, rfl⟩
  | entry hentry _ ih =>
    cases h' with
    | entry hentry' h' =>
      obtain ⟨hkey, hrest⟩ := List.cons.inj htexts
      cases hv with
      | table hkeys hvalues =>
        have hsame := List.inj_on_of_nodup_map (List.pairwise_map.2 hkeys) hentry hentry' hkey
        cases hsame
        obtain ⟨rfl, rfl⟩ := ih (hvalues _ hentry) h' hrest
        exact ⟨rfl, rfl⟩

/-- What holds of a tree if it holds of the trees in it holds of every tree. -/
@[induction_eliminator]
theorem treeInduction {P : Value → Prop} (scalar : ∀ s, P (.scalar s))
    (array : ∀ ofTables items, (∀ v ∈ items, P v) → P (.array ofTables items))
    (table : ∀ style entries, (∀ e ∈ entries, P e.2) → P (.table style entries)) (v : Value) :
    P v :=
  @Value.rec P (fun items => ∀ v ∈ items, P v) (fun entries => ∀ e ∈ entries, P e.2)
    (fun e => P e.2) scalar array table (fun _ h => absurd h List.not_mem_nil)
    (fun _ _ hv hvs => List.forall_mem_cons.2 ⟨hv, hvs⟩) (fun _ h => absurd h List.not_mem_nil)
    (fun _ _ he hes => List.forall_mem_cons.2 ⟨he, hes⟩) (fun _ _ hv => hv) v

mutual

/-- The leaves with the ways to them, in the order of the tree. -/
def placed : Value → List (List Step × Scalar)
  | scalar s => [([], s)]
  | array _ items => placedItems 0 items
  | table _ entries => placedEntries entries

/-- The leaves of the elements of an array from the one with the given number on. -/
def placedItems (number : Nat) : List Value → List (List Step × Scalar)
  | [] => []
  | item :: items =>
    (placed item).map (fun p => (.number number :: p.1, p.2)) ++ placedItems (number + 1) items

def placedEntries : List (String × Value) → List (List Step × Scalar)
  | [] => []
  | (key, value) :: entries =>
    (placed value).map (fun p => (.key key :: p.1, p.2)) ++ placedEntries entries

end

theorem placedItems_eq (number : Nat) (items : List Value) : placedItems number items =
    (items.zipIdx number).flatMap fun i => i.1.placed.map fun p => (.number i.2 :: p.1, p.2) := by
  induction items generalizing number with
  | nil => rfl
  | cons item items ih => rw [placedItems, ih, List.zipIdx_cons, List.flatMap_cons]

theorem placedEntries_eq (entries : Entries) : placedEntries entries =
    entries.flatMap fun e => e.2.placed.map fun p => (.key e.1 :: p.1, p.2) := by
  induction entries with
  | nil => rfl
  | cons e entries ih => rw [placedEntries, ih, List.flatMap_cons]

theorem leavesOfItems_eq (path : String) (number : Nat) (items : List Value) :
    leavesOfItems path number items =
      (items.zipIdx number).flatMap fun i => leaves (path ++ "." ++ toString i.2) i.1 := by
  induction items generalizing number with
  | nil => rfl
  | cons item items ih => rw [leavesOfItems, ih, List.zipIdx_cons, List.flatMap_cons]

theorem leavesOfEntries_eq (lead : String) (entries : Entries) :
    leavesOfEntries lead entries = entries.flatMap fun e => leaves (lead ++ e.1) e.2 := by
  induction entries with
  | nil => rfl
  | cons e entries ih => rw [leavesOfEntries, ih, List.flatMap_cons]

theorem mem_placed_iff {v : Value} {way : List Step} {s : Scalar} :
    (way, s) ∈ v.placed ↔ v.IsLeafAt way s := by
  induction v generalizing way with
  | scalar t =>
    rw [placed, List.mem_singleton, Prod.mk.injEq]
    constructor
    · rintro ⟨rfl, rfl⟩
      exact .scalar s
    · intro h
      cases h
      exact ⟨rfl, rfl⟩
  | array ofTables items ih =>
    rw [placed, placedItems_eq]
    simp only [List.mem_flatMap, List.mem_map, List.mem_zipIdx_iff_getElem?, Prod.exists]
    constructor
    · rintro ⟨v, n, hv, way, t, hleaf, heq⟩
      cases heq
      exact .item hv ((ih v (List.mem_of_getElem? hv)).1 hleaf)
    · intro h
      cases h with
      | item hv h => exact ⟨_, _, hv, _, _, (ih _ (List.mem_of_getElem? hv)).2 h, rfl⟩
  | table style entries ih =>
    rw [placed, placedEntries_eq]
    simp only [List.mem_flatMap, List.mem_map, Prod.exists]
    constructor
    · rintro ⟨key, v, hv, way, t, hleaf, heq⟩
      cases heq
      exact .entry hv ((ih _ hv).1 hleaf)
    · intro h
      cases h with
      | entry hv h => exact ⟨_, _, hv, _, _, (ih _ hv).2 h, rfl⟩

/-- Laid out flat, each leaf stands under the path of the way to it. -/
theorem leaves_eq (path : String) (v : Value) :
    v.leaves path = v.placed.map fun p => (under path p.1, p.2.write) := by
  induction v generalizing path with
  | scalar s => rfl
  | array ofTables items ih =>
    rw [leaves, leavesOfItems_eq, placed, placedItems_eq, List.map_flatMap]
    refine List.flatMap_congr fun i hi => ?_
    rw [ih i.1 (List.mem_of_getElem? (List.mem_zipIdx_iff_getElem?.1 hi)), List.map_map]
    rfl
  | table style entries ih =>
    rw [leaves, leavesOfEntries_eq, placed, placedEntries_eq, List.map_flatMap]
    refine List.flatMap_congr fun e he => ?_
    rw [ih e he, List.map_map]
    rfl

/-- The list of the leaves has each of them once. -/
theorem nodup_placed {v : Value} (hv : v.EachTable HasDistinctKeys) : v.placed.Nodup := by
  have hunder {step : Step} {v : Value} (h : v.placed.Nodup) :
      (v.placed.map fun p => (step :: p.1, p.2)).Nodup := by
    refine h.map fun p q heq => ?_
    obtain ⟨hway, hs⟩ := Prod.mk.inj heq
    exact Prod.ext (List.cons.inj hway).2 hs
  have hdisjoint {step step' : Step} {v v' : Value} (hne : step ≠ step') :
      List.Disjoint (v.placed.map fun p => (step :: p.1, p.2))
        (v'.placed.map fun p => (step' :: p.1, p.2)) := by
    intro p hp hp'
    obtain ⟨q, -, rfl⟩ := List.mem_map.1 hp
    obtain ⟨q', -, heq⟩ := List.mem_map.1 hp'
    exact hne (List.cons.inj (Prod.mk.inj heq).1).1.symm
  induction hv with
  | scalar s => exact List.nodup_singleton _
  | array hitems ih =>
    rw [placed, placedItems_eq, List.nodup_flatMap]
    refine ⟨fun i hi => ?_, ?_⟩
    · exact hunder (ih i.1 (List.mem_of_getElem? (List.mem_zipIdx_iff_getElem?.1 hi)))
    · refine (List.pairwise_map.1 (List.nodup_zipIdx_map_snd _)).imp fun hne => ?_
      exact hdisjoint fun heq => hne (Step.number.inj heq)
  | table hkeys hvalues ih =>
    rw [placed, placedEntries_eq, List.nodup_flatMap]
    refine ⟨fun e he => hunder (ih e he), hkeys.imp fun hne => ?_⟩
    exact hdisjoint fun heq => hne (Step.key.inj heq)

/-! ### Paths of leaves -/

/-- Whether no two leaves have one path. -/
def HasDistinctPaths (v : Value) : Prop :=
  ∀ way s way' s', v.IsLeafAt way s → v.IsLeafAt way' s' → dotted way = dotted way' →
    way = way' ∧ s = s'

theorem hasDistinctPaths_iff {v : Value} (hv : v.EachTable HasDistinctKeys) :
    v.HasDistinctPaths ↔ (v.placed.map fun p => dotted p.1).Nodup := by
  rw [List.nodup_map_iff_inj_on (nodup_placed hv)]
  constructor
  · intro h p hp q hq heq
    obtain ⟨hway, hs⟩ := h _ _ _ _ (mem_placed_iff.1 hp) (mem_placed_iff.1 hq) heq
    exact Prod.ext hway hs
  · intro h way s way' s' hleaf hleaf' heq
    exact Prod.mk.inj (h _ (mem_placed_iff.2 hleaf) _ (mem_placed_iff.2 hleaf') heq)

end Value

/-- How a map of texts has the leaves of a tree. -/
structure Value.IsLaidOutIn (v : Value) (m : Properties) : Prop where
  /-- The list of the leaves has each of them once. -/
  nodup_placed : v.placed.Nodup
  mem_placed_iff : ∀ way s, (way, s) ∈ v.placed ↔ v.IsLeafAt way s
  /-- The keys are the paths of the leaves. -/
  contains_iff : ∀ key, m.contains key ↔ ∃ way s, v.IsLeafAt way s ∧ dotted way = key
  /-- Of the leaves with one path the last has its text there. -/
  get?_last : ∀ before way s behind, v.placed = before ++ (way, s) :: behind →
    (∀ p ∈ behind, dotted p.1 ≠ dotted way) → m.get? (dotted way) = some s.write
  size_eq : m.size = (v.placed.map fun p => dotted p.1).dedup.length
  /-- There are as many keys as leaves exactly if no two leaves have one path. -/
  size_eq_iff : m.size = v.placed.length ↔ v.HasDistinctPaths
  /-- Then each leaf has its own text under its path. -/
  get?_eq : v.HasDistinctPaths → ∀ way s, v.IsLeafAt way s → m.get? (dotted way) = some s.write

namespace Value

variable {v : Value}

/-- The map that has the text of each leaf under its path. -/
def laidOut (v : Value) : Properties :=
  .ofList (v.placed.map fun p => (dotted p.1, p.2.write))

theorem size_laidOut : v.laidOut.size = (v.placed.map fun p => dotted p.1).dedup.length := by
  unfold laidOut
  rw [KeyMap.size_ofList, List.map_map]
  rfl

theorem contains_laidOut_iff (key : String) :
    v.laidOut.contains key ↔ ∃ way s, v.IsLeafAt way s ∧ dotted way = key := by
  unfold laidOut
  rw [KeyMap.contains_ofList_iff, List.map_map, List.mem_map]
  simp only [Prod.exists, Function.comp_apply, mem_placed_iff]

theorem get?_laidOut_last {before behind : List (List Step × Scalar)} {way : List Step}
    {s : Scalar} (hplaced : v.placed = before ++ (way, s) :: behind)
    (hlast : ∀ p ∈ behind, dotted p.1 ≠ dotted way) :
    v.laidOut.get? (dotted way) = some s.write := by
  unfold laidOut
  rw [hplaced, List.map_append, List.map_cons]
  refine KeyMap.get?_ofList_append_cons (p := (dotted way, s.write)) fun q hq => ?_
  obtain ⟨p, hp, rfl⟩ := List.mem_map.1 hq
  exact hlast p hp

theorem isLaidOutIn_laidOut (hv : v.EachTable HasDistinctKeys) : v.IsLaidOutIn v.laidOut where
  nodup_placed := nodup_placed hv
  mem_placed_iff _ _ := mem_placed_iff
  contains_iff := contains_laidOut_iff
  get?_last _ _ _ _ := get?_laidOut_last
  size_eq := size_laidOut
  size_eq_iff := by
    rw [hasDistinctPaths_iff hv, ← List.dedup_eq_self, size_laidOut]
    constructor
    · intro h
      exact (List.dedup_sublist _).eq_of_length (h.trans (List.length_map _).symm)
    · intro h
      rw [h, List.length_map]
  get?_eq hpaths way s hleaf := by
    have hnodup := List.pairwise_map.1 ((hasDistinctPaths_iff hv).1 hpaths)
    refine (KeyMap.get?_ofList_eq_some (List.pairwise_map.2 hnodup)).2 ?_
    exact List.mem_map_of_mem (mem_placed_iff.2 hleaf)

/-- Where no key on the way to a leaf has a point in it, paths are distinct. -/
theorem hasDistinctPaths_of_not_mem {style : TableStyle} {entries : Entries}
    (hkeys : (Value.table style entries).EachTable HasDistinctKeys)
    (h : ∀ way s name, (Value.table style entries).IsLeafAt way s → .key name ∈ way →
      '.' ∉ name.toList) : (Value.table style entries).HasDistinctPaths := by
  have hplain {way : List Step} {s : Scalar} (hleaf : (Value.table style entries).IsLeafAt way s) :
      (∀ step ∈ way, '.' ∉ step.text.toList) ∧ way ≠ [] := by
    refine ⟨fun step hstep => ?_, ?_⟩
    · cases step with
      | key name => exact h way s name hleaf hstep
      | number n => exact Step.not_mem_number_text n
    · cases hleaf
      exact List.cons_ne_nil _ _
  intro way s way' s' hleaf hleaf' hpath
  obtain ⟨hway, hne⟩ := hplain hleaf
  obtain ⟨hway', hne'⟩ := hplain hleaf'
  exact hleaf.unique hkeys hleaf' (map_text_eq_of_dotted hway hway' hne hne' hpath)

end Value

/-! ### Documents -/

open Value

theorem flatten_eq (style : TableStyle) (entries : Entries) :
    flatten entries = (Value.table style entries).laidOut := by
  unfold flatten laidOut
  refine congrArg KeyMap.ofList ?_
  rw [leavesOfEntries_eq, placed, placedEntries_eq, List.map_flatMap]
  refine List.flatMap_congr fun e _ => ?_
  rw [leaves_eq, String.empty_append, List.map_map]
  rfl

theorem parseBy_eq_ok_iff {read? : String → Option Entries} {origin text : String}
    {m : Properties} : parseBy read? origin text = .ok m ↔
      ∃ entries, read? text = some entries ∧ flatten entries = m := by
  unfold parseBy
  cases read? text with
  | none => simp
  | some entries => simp

/-- **The leaves of a document** are laid out flat one for one exactly if no two of them have one
path, as is so where no key has a point. Of the leaves with one path the last stays, in the order of
the keys. So it is with every reader of documents whose tables have distinct keys, and with the one
that is used here, whose tables come in key order. -/
theorem keepsLeaves_iff :
    (∀ entries, (Value.table .header entries).EachTable HasDistinctKeys →
      (Value.table .header entries).IsLaidOutIn (flatten entries) ∧
      ((∀ way s name, (Value.table .header entries).IsLeafAt way s → .key name ∈ way →
        '.' ∉ name.toList) → (Value.table .header entries).HasDistinctPaths)) ∧
    (∀ read? : String → Option Entries, (∀ text entries, read? text = some entries →
        (Value.table .header entries).EachTable HasDistinctKeys) →
      ∀ origin text m, parseBy read? origin text = .ok m → ∃ entries,
        read? text = some entries ∧ flatten entries = m ∧
        (Value.table .header entries).IsLaidOutIn m) ∧
    ∀ origin text m, parse origin text = .ok m → ∃ entries,
      read? text = some entries ∧ flatten entries = m ∧
      (Value.table .header entries).EachTable InKeyOrder ∧
      (Value.table .header entries).EachTable HasDistinctKeys := by
  have hflat (entries : Entries)
      (hkeys : (Value.table .header entries).EachTable HasDistinctKeys) :
      (Value.table .header entries).IsLaidOutIn (flatten entries) := by
    rw [flatten_eq .header]
    exact isLaidOutIn_laidOut hkeys
  refine ⟨fun entries hkeys => ⟨hflat entries hkeys, hasDistinctPaths_of_not_mem hkeys⟩,
    fun read? hread? origin text m h => ?_, fun origin text m h => ?_⟩
  · obtain ⟨entries, hread, rfl⟩ := parseBy_eq_ok_iff.1 h
    exact ⟨entries, hread, rfl, hflat entries (hread? text entries hread)⟩
  · obtain ⟨entries, hread, hm⟩ := parseBy_eq_ok_iff.1 h
    have horder := inKeyOrder_of_read? hread
    exact ⟨entries, hread, hm, horder, horder.mono fun _ => InKeyOrder.hasDistinctKeys⟩

/-- A document whose keys have no points. -/
def plainDocument : String :=
  "_ordinal = 50\nname = \"svc\"\n[db]\nport = 5432\nhosts = [\"a\", \"b\"]\n"

theorem keepsLeaves_plainDocument : ∃ entries,
    read? plainDocument = some entries ∧
    (Value.table .header entries).EachTable HasDistinctKeys ∧
    (Value.table .header entries).HasDistinctPaths ∧
    (Value.table .header entries).IsLeafAt [.key "db", .key "hosts", .number 1] (.text "b") ∧
    (flatten entries).get? "db.hosts.1" = some "b" ∧ (flatten entries).size = 5 := by
  have hleaves : (read? plainDocument).map placedEntries = some
      [([.key "_ordinal"], .integer 50), ([.key "db", .key "hosts", .number 0], .text "a"),
        ([.key "db", .key "hosts", .number 1], .text "b"),
        ([.key "db", .key "port"], .integer 5432), ([.key "name"], .text "svc")] := by
    decide +kernel
  obtain ⟨entries, hread, hplaced⟩ := Option.map_eq_some_iff.1 hleaves
  obtain ⟨entries', hread', -, -, hkeys⟩ := keepsLeaves_iff.2.2 "app.toml" plainDocument
    (flatten entries) (parseBy_eq_ok_iff.2 ⟨entries, hread, rfl⟩)
  cases hread.symm.trans hread'
  obtain ⟨hlaidOut, hplain⟩ := keepsLeaves_iff.1 entries hkeys
  have hpaths : (Value.table .header entries).HasDistinctPaths := by
    refine hplain fun way s name hleaf hname => ?_
    have hmem := mem_placed_iff.2 hleaf
    rw [placed, hplaced] at hmem
    exact (by decide : ∀ p ∈ _, ∀ step ∈ p.1, '.' ∉ step.text.toList) _ hmem _ hname
  have hleaf : (Value.table .header entries).IsLeafAt [.key "db", .key "hosts", .number 1]
      (.text "b") := by
    rw [← mem_placed_iff, placed, hplaced]
    decide
  refine ⟨entries, hread, hkeys, hpaths, hleaf, hlaidOut.get?_eq hpaths _ _ hleaf, ?_⟩
  rw [hlaidOut.size_eq_iff.2 hpaths, placed, hplaced]
  rfl

/-- A document with a leaf whose key looks like the way to another. -/
def overlapping : String := "\"a.b\" = 1\n[a]\nb = 2\n"

/-- Its two leaves have one path, so it loses one. -/
theorem parse_overlapping : ∃ entries,
    read? overlapping = some entries ∧
    (Value.table .header entries).EachTable HasDistinctKeys ∧
    (Value.table .header entries).IsLeafAt [.key "a", .key "b"] (.integer 2) ∧
    (Value.table .header entries).IsLeafAt [.key "a.b"] (.integer 1) ∧
    (Value.table .header entries).placed.length = 2 ∧
    parse "app.toml" overlapping = .ok (.ofList [("a.b", "1")]) ∧
    (flatten entries).size = 1 := by
  have hleaves : (read? overlapping).map placedEntries =
      some [([.key "a", .key "b"], .integer 2), ([.key "a.b"], .integer 1)] := by
    decide +kernel
  obtain ⟨entries, hread, hplaced⟩ := Option.map_eq_some_iff.1 hleaves
  have hflat : flatten entries = .ofList [("a.b", "1")] := by
    rw [flatten_eq .header]
    unfold laidOut
    rw [placed, hplaced]
    decide +kernel
  have hkeys := (inKeyOrder_of_read? hread).mono fun _ => InKeyOrder.hasDistinctKeys
  refine ⟨entries, hread, hkeys, ?_, ?_, ?_, ?_, ?_⟩
  · rw [← mem_placed_iff, placed, hplaced]
    decide
  · rw [← mem_placed_iff, placed, hplaced]
    decide
  · rw [placed, hplaced]
    rfl
  · exact parseBy_eq_ok_iff.2 ⟨entries, hread, hflat⟩
  · rw [hflat]
    decide

end Toml

end LayeredConfig
