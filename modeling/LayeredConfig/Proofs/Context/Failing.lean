import LayeredConfig.Proofs.Context.Registering
import LayeredConfig.Proofs.Live.Readings
import LayeredConfig.Proofs.Provider.Files
import LayeredConfig.Proofs.SourceSet.Replacement
import LayeredConfig.Proofs.View.Reading

/-! # Parts that fail

A part of a context that always fails is as good as absent. A source that fails adds nothing to a
merge and answers no look-up; a provider that gives no sources leaves those of the others; a filter
that fails, or changes the key, leaves the value as it is. So a context reads like the one put
together without these parts (`reads_without_failing`), and the list of sources is shorter by the
failing ones alone.

Leaving parts out is a filter on each list of parts. It commutes with what brings the parts into
order, as sorting a part of a list is a part of sorting the list (`Order.sort_filter`). -/

namespace LayeredConfig

/-! ### Sources -/

/-- A source that neither can be enumerated nor answers for any key. -/
structure Source.Fails (s : Source) : Prop where
  properties : ∃ e, s.properties = .error e
  get : ∀ key, ∃ e, s.get key = .error e

namespace Source.Fails

variable {s : Source} (h : s.Fails) (ordinal : Int)
include h

theorem lookup_eq_none (key : String) : (⟨s, ordinal⟩ : Registered).lookup key = none := by
  obtain ⟨e, he⟩ := h.get key
  unfold Registered.lookup
  dsimp only
  rw [he]
  rfl

theorem scan_eq_nil : (⟨s, ordinal⟩ : Registered).scan = [] := by
  obtain ⟨e, he⟩ := h.properties
  unfold Registered.scan
  dsimp only
  rw [he]
  split <;> rfl

end Source.Fails

/-- Dropping names before or after a choice of one source each comes to the same, if a name is
dropped with all of its sources. -/
theorem distinctNames_filter {p : Source → Bool} {sources : List Source}
    (h : ∀ s ∈ sources, ∀ t ∈ sources, s.name = t.name → p s = p t) :
    distinctNames (sources.filter p) = (distinctNames sources).filter p := by
  induction sources with
  | nil => rfl
  | cons s rest ih =>
    have hrest := ih fun t ht u hu =>
      h t (List.mem_cons_of_mem _ ht) u (List.mem_cons_of_mem _ hu)
    cases hs : p s with
    | true =>
      rw [List.filter_cons_of_pos hs, distinctNames, hrest, distinctNames,
        List.filter_cons_of_pos hs, List.filter_filter, List.filter_filter]
      simp only [Bool.and_comm]
    | false =>
      rw [List.filter_cons_of_neg (by simp [hs]), hrest, distinctNames,
        List.filter_cons_of_neg (by simp [hs]), List.filter_filter]
      refine List.filter_congr fun t ht => ?_
      have hmem := mem_of_mem_distinctNames ht
      cases ht' : p t with
      | false => rfl
      | true =>
        have hne : t.name ≠ s.name := by
          intro heq
          have hsame := h t (List.mem_cons_of_mem _ hmem) s List.mem_cons_self heq
          rw [hs, ht'] at hsame
          cases hsame
        simp [hne]

namespace SourceSet

/-- The set of some of the sources has the entries of these. -/
theorem entries_ofSources_filter {p : Source → Bool} {sources : List Source}
    (h : ∀ s ∈ sources, ∀ t ∈ sources, s.name = t.name → p s = p t) (version : Nat) :
    (ofSources (sources.filter p) version).entries =
      (ofSources sources version).entries.filter fun r => p r.source := by
  have hmap : ((distinctNames sources).filter p).map Registered.of =
      ((distinctNames sources).map Registered.of).filter fun r => p r.source := by
    rw [List.filter_map]
    rfl
  unfold ofSources
  dsimp only
  rw [distinctNames_filter h, hmap, Order.sort_filter Registered.notAbove_preorder]

section Absent

variable {a b : SourceSet} {p : Registered → Bool} (hentries : b.entries = a.entries.filter p)
include hentries

/-- Entries that answer no look-up are not missed. -/
theorem lookup_of_filter (hnone : ∀ r ∈ a.entries, p r = false → ∀ key, r.lookup key = none) :
    b.lookup = a.lookup := by
  funext key
  have hanswers : b.answers key = a.answers key := by
    unfold answers
    rw [hentries, ← List.filter_reverse, List.filterMap_filter]
    refine List.filterMap_congr fun r hr => ?_
    cases hp : p r with
    | true => rfl
    | false => exact (hnone r (List.mem_reverse.1 hr) hp key).symm
  unfold lookup
  rw [hanswers]

/-- Entries without values are not missed in a merge. -/
theorem merge_of_filter (hnil : ∀ r ∈ a.entries, p r = false → r.scan = []) :
    b.merge = a.merge := by
  have hfold : ∀ (rs : List Registered) (merged : KeyMap PropertyValue),
      (∀ r ∈ rs, p r = false → r.scan = []) →
      (rs.filter p).foldl (fun merged r => merged.insertAll r.scan) merged =
        rs.foldl (fun merged r => merged.insertAll r.scan) merged := by
    intro rs
    induction rs with
    | nil => exact fun _ _ => rfl
    | cons r rest ih =>
      intro merged h
      have hrest : ∀ r ∈ rest, p r = false → r.scan = [] :=
        fun r hr => h r (List.mem_cons_of_mem _ hr)
      cases hp : p r with
      | true => rw [List.filter_cons_of_pos hp, List.foldl_cons, ih _ hrest, List.foldl_cons]
      | false =>
        rw [List.filter_cons_of_neg (by simp [hp]), ih _ hrest, List.foldl_cons,
          h r List.mem_cons_self hp]
        rfl
  unfold merge LayeredConfig.merge
  rw [hentries]
  exact hfold a.entries ∅ hnil

end Absent

end SourceSet

/-! ### Filters -/

/-- A filter that always fails, or gives a value another key. -/
def Filter.IsIdle (f : Filter) : Prop :=
  ∀ v ctx, (∃ e, f.run v ctx = .error e) ∨ ∃ w, f.run v ctx = .ok (some w) ∧ w.key ≠ v.key

theorem Filter.IsIdle.step_eq {f : Filter} (h : f.IsIdle) (ctx : FilterContext)
    (v : PropertyValue) : f.step ctx v = some v := by
  unfold Filter.step Filter.handedOn
  rcases h v ctx with ⟨e, he⟩ | ⟨w, hw, hkey⟩
  · rw [he]
  · rw [hw]
    simp [hkey]

theorem Filter.not_isIdle_hideReserved : ¬ Filter.hideReserved.IsIdle := by
  intro h
  rcases h (.of "k" "" "") (.single (.of "k" "" "")) with ⟨e, he⟩ | ⟨w, hw, hkey⟩
  · cases he
  · cases hw
    exact hkey rfl

/-- A pipeline does the same without its idle filters. -/
theorem Pipeline.apply_ofFilters_filter {p : Filter → Bool} {fs : List Filter}
    (h : ∀ f ∈ fs, p f = false → f.IsIdle) :
    (ofFilters (fs.filter p)).apply = (ofFilters fs).apply := by
  have hfold : ∀ (gs : List Filter) (ctx : FilterContext) (v : PropertyValue),
      (∀ f ∈ gs, p f = false → f.IsIdle) →
      (gs.filter p).foldlM (fun v f => f.step ctx v) v = gs.foldlM (fun v f => f.step ctx v) v := by
    intro gs ctx
    induction gs with
    | nil => exact fun _ _ => rfl
    | cons f rest ih =>
      intro v h
      have hrest : ∀ f ∈ rest, p f = false → f.IsIdle :=
        fun f hf => h f (List.mem_cons_of_mem _ hf)
      cases hp : p f with
      | true =>
        rw [List.filter_cons_of_pos hp, List.foldlM_cons, List.foldlM_cons]
        exact bind_congr fun w => ih w hrest
      | false =>
        rw [List.filter_cons_of_neg (by simp [hp]), ih v hrest, List.foldlM_cons,
          (h f List.mem_cons_self hp).step_eq ctx v]
        rfl
  funext ctx v
  rw [apply_eq_foldlM, apply_eq_foldlM]
  unfold ofFilters
  dsimp only
  rw [Order.sort_filter Filter.notAfter_preorder]
  exact hfold _ ctx v fun f hf => h f (Order.mem_sort.1 hf)

/-! ### Providers -/

/-- What a load comes to without some sources. -/
def LoadOutcome.without (gone : Source → Bool) : LoadOutcome → LoadOutcome
  | loaded sources => .loaded (sources.filter fun s => !gone s)
  | outcome => outcome

namespace Provider

/-- The provider that leaves out some sources. -/
def without (gone : Source → Bool) (p : Provider) : Provider :=
  { p with load := fun number files => (p.load number files).without gone }

/-- The sources of a load. -/
def loadedBy (number : Nat) (files : FileTree) (p : Provider) : List Source :=
  match p.load number files with
  | .loaded sources => sources
  | _ => []

theorem sources_loadAll (ps : List Provider) (limit : Duration) (number : Nat) (files : FileTree) :
    (loadAll ps limit number files).sources = ps.flatMap (loadedBy number files) := by
  unfold loadAll
  dsimp only
  induction ps with
  | nil => rfl
  | cons p rest ih =>
    rw [List.flatMap_cons, ← ih, List.map_cons, List.filterMap_cons]
    unfold loadOne loadedBy
    cases p.load number files <;> rfl

theorem loadedBy_without (gone : Source → Bool) (number : Nat) (files : FileTree) (p : Provider) :
    loadedBy number files (p.without gone) = (loadedBy number files p).filter fun s => !gone s := by
  unfold loadedBy without
  dsimp only
  cases p.load number files <;> rfl

/-- Providers that give no sources are not missed, and sources may be left out provider by
provider. -/
theorem sources_loadAll_without {p : Provider → Bool} {ps : List Provider} {number : Nat}
    {files : FileTree} (h : ∀ q ∈ ps, p q = false → loadedBy number files q = [])
    (gone : Source → Bool) (limit : Duration) :
    (loadAll ((ps.filter p).map (without gone)) limit number files).sources =
      (loadAll ps limit number files).sources.filter fun s => !gone s := by
  rw [sources_loadAll, sources_loadAll]
  induction ps with
  | nil => rfl
  | cons q rest ih =>
    have hrest := ih fun q hq => h q (List.mem_cons_of_mem _ hq)
    rw [List.flatMap_cons, List.filter_append, ← hrest]
    cases hq : p q with
    | true => rw [List.filter_cons_of_pos hq, List.map_cons, List.flatMap_cons, loadedBy_without]
    | false => rw [List.filter_cons_of_neg (by simp [hq]), h q List.mem_cons_self hq]; rfl

end Provider

/-! ### Contexts -/

/-- A choice of parts of a context. -/
structure Choice where
  source : Source → Bool
  provider : Provider → Bool
  filter : Filter → Bool

namespace Builder

/-- The builder without the chosen parts. Sources are left out wherever they come from. -/
def without (b : Builder) (c : Choice) : Builder :=
  { b with
    sources := b.sources.filter fun s => !c.source s
    providers := (b.providers.filter fun p => !c.provider p).map (Provider.without c.source)
    filters := b.filters.filter fun f => !c.filter f }

/-- Whether chosen parts fail: sources whose names no others have, providers that give no sources
when they are first loaded, and filters that always fail or change the key. -/
structure Fail (b : Builder) (files : FileTree) (c : Choice) : Prop where
  sources : ∀ s ∈ b.firstSources files, c.source s = true → s.Fails
  names : ∀ s ∈ b.firstSources files, c.source s = true →
    ∀ t ∈ b.firstSources files, t.name = s.name → c.source t = true
  providers : ∀ p ∈ b.providers, c.provider p = true →
    ∀ sources, p.load 0 files ≠ .loaded sources
  filters : ∀ f ∈ b.filters, c.filter f = true → f.IsIdle

namespace Fail

variable {b : Builder} {files : FileTree} {c : Choice} (h : b.Fail files c)
include h

theorem firstSources_without :
    (b.without c).firstSources files = (b.firstSources files).filter fun s => !c.source s := by
  have hloaded : ∀ p ∈ b.providers, (!c.provider p) = false → p.loadedBy 0 files = [] := by
    intro p hp hgone
    have hno := h.providers p hp (by simpa using hgone)
    unfold Provider.loadedBy
    split
    · rename_i sources hload
      exact absurd hload (hno sources)
    · rfl
  unfold firstSources
  rw [List.filter_append]
  exact congrArg (_ ++ ·) (Provider.sources_loadAll_without hloaded c.source _)

theorem source_eq_of_name : ∀ s ∈ b.firstSources files, ∀ t ∈ b.firstSources files,
    s.name = t.name → (!c.source s) = !c.source t := by
  intro s hs t ht hname
  cases hc : c.source s with
  | true => rw [h.names s hs hc t ht hname.symm]
  | false =>
    cases hd : c.source t with
    | true =>
      rw [h.names t ht hd s hs hname] at hc
      cases hc
    | false => rfl

theorem entries_firstSet : ((b.without c).firstSet files).entries =
    (b.firstSet files).entries.filter fun r => !c.source r.source := by
  unfold firstSet
  rw [h.firstSources_without]
  exact SourceSet.entries_ofSources_filter h.source_eq_of_name 1

theorem fails_of_mem {r : Registered} (hr : r ∈ (b.firstSet files).entries)
    (hc : (!c.source r.source) = false) : r.source.Fails := by
  obtain ⟨s, hs, rfl⟩ := List.mem_map.1 (Order.mem_sort.1 hr)
  exact h.sources s (mem_of_mem_distinctNames hs) (by simpa using hc)

theorem lookup_firstSet : ((b.without c).firstSet files).lookup = (b.firstSet files).lookup := by
  refine SourceSet.lookup_of_filter h.entries_firstSet fun r hr hc key => ?_
  exact (h.fails_of_mem hr hc).lookup_eq_none r.ordinal key

theorem merge_firstSet : ((b.without c).firstSet files).merge = (b.firstSet files).merge := by
  refine SourceSet.merge_of_filter h.entries_firstSet fun r hr hc => ?_
  exact (h.fails_of_mem hr hc).scan_eq_nil r.ordinal

/-- The names of the chosen sources are missing in the list of sources, and nothing else is. -/
theorem summary_firstSet : ((b.without c).firstSet files).summary =
    (b.firstSet files).summary.filter fun e =>
      e.1 ∉ ((b.firstSources files).filter c.source).map (·.name) := by
  unfold SourceSet.summary
  rw [h.entries_firstSet, List.filter_map]
  refine congrArg _ (List.filter_congr fun r hr => ?_)
  obtain ⟨s, hs, rfl⟩ := List.mem_map.1 (Order.mem_sort.1 hr)
  have hmem := mem_of_mem_distinctNames hs
  have hiff : c.source s = true ↔
      s.name ∈ ((b.firstSources files).filter c.source).map (·.name) := by
    constructor
    · intro hc
      exact List.mem_map.2 ⟨s, List.mem_filter.2 ⟨hmem, hc⟩, rfl⟩
    · intro hname
      obtain ⟨t, ht, heq⟩ := List.mem_map.1 hname
      obtain ⟨htmem, htc⟩ := List.mem_filter.1 ht
      exact h.names t htmem htc s hmem heq.symm
  show (!c.source s) = decide (s.name ∉ _)
  simp only [← hiff]
  cases c.source s <;> rfl

open Classical in
theorem apply_quiet :
    ((b.without c).quiet files).pipeline.apply = (b.quiet files).pipeline.apply := by
  -- the filter that hides reserved keys stays, even if it looks like a chosen one
  have hstages : (b.without c).stages =
      b.stages.filter fun f => !(c.filter f && decide f.IsIdle) := by
    have hown : (b.filters.filter fun f => !c.filter f) =
        b.filters.filter fun f => !(c.filter f && decide f.IsIdle) := by
      refine List.filter_congr fun f hf => ?_
      cases hc : c.filter f with
      | true => simp [h.filters f hf hc]
      | false => rfl
    unfold stages
    rw [List.filter_append, ← hown]
    refine congrArg (_ ++ ·) ?_
    show (if b.hidesReserved then [Filter.hideReserved] else []) = _
    split
    · simp [Filter.not_isIdle_hideReserved]
    · rfl
  rw [pipeline_quiet, pipeline_quiet, hstages]
  refine Pipeline.apply_ofFilters_filter fun f _ hf => ?_
  simp only [Bool.not_eq_false', Bool.and_eq_true, decide_eq_true_eq] at hf
  exact hf.2

/-- Everything but the list of sources is read as in the context without the chosen parts. -/
theorem answer_without {reading : Reading} (hreading : reading ≠ .sources) :
    reading.answer ((b.without c).quiet files) ((b.without c).firstSet files) =
      reading.answer (b.quiet files) (b.firstSet files) := by
  have happly := h.apply_quiet
  have hevaluator : ((b.without c).quiet files).evaluator = (b.quiet files).evaluator := rfl
  have hmask : ((b.without c).quiet files).mask = (b.quiet files).mask := rfl
  have hversion : ((b.without c).firstSet files).version = (b.firstSet files).version := rfl
  refine Reading.answer_congr ?_ hevaluator hmask ?_ hversion hreading
  · funext key
    unfold View.lookup Pipeline.applySingle
    rw [h.lookup_firstSet, happly]
  · unfold View.visible Pipeline.applyBulk
    rw [h.merge_firstSet, happly]

end Fail

variable {b : Builder} {files : FileTree} {c : Choice}

/-- **A failing part is as good as absent.** Where a context and the one without sources, providers
and filters that fail are both built, both are read alike, and only the names of the failing sources
are missing in the list of sources. In the same way the files of a directory give the sources that
they give without the files that cannot be read or do not follow their format. -/
theorem reads_without_failing (h : b.Fail files c) (hbuilt : (b.build files).isOk = true)
    (hbuilt' : ((b.without c).build files).isOk = true) :
    (∀ readings : List Reading, .sources ∉ readings →
      (b.without c).told files (readings.map Reading.call) =
        b.told files (readings.map Reading.call)) ∧
    (∃ summary, b.told files [.sources] = .ok ([.sources summary], []) ∧
      (b.without c).told files [.sources] = .ok ([.sources (summary.filter fun e =>
        e.1 ∉ ((b.firstSources files).filter c.source).map (·.name))], [])) ∧
    ∀ (f : FileSelection) (t : FileTree) (gone : String → Bool),
      (∀ key, gone key = true →
        ∃ place name, f.Spoiled t place name ∧ key = FileTree.keyOf (name :: place)) →
      f.sources (t.without gone) = f.sources t := by
  have htold : ∀ readings : List Reading, b.told files (readings.map Reading.call) =
      .ok (readings.map (Reading.answer (b.quiet files) (b.firstSet files)), []) := by
    intro readings
    rw [isOk_build, Bool.not_eq_true'] at hbuilt
    rw [told_readings, hbuilt, if_neg Bool.false_ne_true]
  have htold' : ∀ readings : List Reading, (b.without c).told files (readings.map Reading.call) =
      .ok (readings.map (Reading.answer ((b.without c).quiet files)
        ((b.without c).firstSet files)), []) := by
    intro readings
    rw [isOk_build, Bool.not_eq_true'] at hbuilt'
    rw [told_readings, hbuilt', if_neg Bool.false_ne_true]
  refine ⟨fun readings hreadings => ?_, ⟨(b.firstSet files).summary, htold [.sources], ?_⟩,
    fun f t gone => FileSelection.sources_without⟩
  · rw [htold, htold']
    refine congrArg (fun answers => Except.ok (answers, [])) (List.map_congr_left fun r hr => ?_)
    exact h.answer_without fun hsources => hreadings (hsources ▸ hr)
  · rw [← h.summary_firstSet]
    exact htold' [.sources]

/-- A filter that gives every key a prefix. -/
def prefixing : Filter := ⟨"Prefixing", 3, fun v _ => .ok (some { v with key := "new " ++ v.key })⟩

/-- A source that fails. -/
def unreadable : Source := .ofPairs (.object 1) "bad" (some 9) [] true

/-- A context with a source, providers and filters that fail, beside a source and a provider that do
not. -/
def faulty : Builder where
  sources := [.ofPairs (.object 0) "good" none [("x", "1"), ("y", "<${x}>")] false, unreadable]
  providers := [⟨"down", fun _ _ => .failed (.sourceFailed "down" "no answer"), []⟩,
    ⟨"slow", fun _ _ => .silent, []⟩,
    .fixed "up" [.ofPairs (.object 2) "late" (some 5) [("z", "${y}"), ("x", "2")] false]]
  filters := [⟨"Broken", 5, fun _ _ => .error (.sourceFailed "filter" "broken")⟩, prefixing]
  resolvers := [.function .conf]

/-- The parts of it that fail. -/
def failing : Choice where
  source s := s.name = "bad"
  provider p := p.name = "down" || p.name = "slow"
  filter _ := true

theorem fail_faulty : faulty.Fail .empty failing where
  sources s hs hc := by
    have hname : s.name = "bad" := of_decide_eq_true hc
    have hsources : faulty.firstSources .empty = [
        .ofPairs (.object 0) "good" none [("x", "1"), ("y", "<${x}>")] false, unreadable,
        .ofPairs (.object 2) "late" (some 5) [("z", "${y}"), ("x", "2")] false] := rfl
    rw [hsources] at hs
    rcases List.mem_cons.1 hs with rfl | hs
    · exact absurd hname (by decide)
    rcases List.mem_cons.1 hs with rfl | hs
    · exact ⟨⟨_, rfl⟩, fun key => ⟨_, rfl⟩⟩
    · cases List.mem_singleton.1 hs
      exact absurd hname (by decide)
  names s _ hc t _ hname := by
    have hbad : s.name = "bad" := of_decide_eq_true hc
    exact decide_eq_true (hname.trans hbad)
  providers p hp hc sources := by
    rcases List.mem_cons.1 hp with rfl | hp
    · exact nofun
    rcases List.mem_cons.1 hp with rfl | hp
    · exact nofun
    · cases List.mem_singleton.1 hp
      cases hc
  filters f hf _ := by
    rcases List.mem_cons.1 hf with rfl | hf
    · exact fun v ctx => .inl ⟨_, rfl⟩
    · cases List.mem_singleton.1 hf
      refine fun v ctx => .inr ⟨_, rfl, fun heq => ?_⟩
      have hlength := congrArg String.length heq
      rw [String.length_append] at hlength
      have hpos : "new ".length = 4 := rfl
      omega

/-- A directory with a file of settings and one that is no text. -/
def halfSpoiled : FileTree :=
  ⟨.ofList [("", .directory, 0), ("d", .directory, 1), ("d/a", .file (.text "k=v"), 2),
    ("d/b", .file (.binary 3), 3)], 3⟩

def everyFile : FileSelection := { directory := "d", selects := fun _ => true, format := .keyValue }

theorem spoiled_binary : everyFile.Spoiled halfSpoiled ["d"] "b" where
  resolves := by rfl
  isDirectory := ⟨1, by decide +kernel⟩
  isFile := ⟨.binary 3, by decide +kernel⟩
  isMatching := by decide +kernel
  fails := ⟨_, rfl⟩

/-- The values of a faulty context are those of the parts that work, which a reference leads
through, and its list of sources has one name more; the files of a directory are those that can be
read. -/
theorem reads_without_failing_faulty :
    (∃ answers, (faulty.without failing).told .empty [.get "z", .get "x", .properties] =
        .ok (answers, []) ∧
      faulty.told .empty [.get "z", .get "x", .properties] = .ok (answers, []) ∧
      (answers.filterMap fun
        | .text text => text
        | _ => none) = ["<2>", "2"]) ∧
    faulty.told .empty [.sources] = .ok ([.sources [("good", 0), ("late", 5), ("bad", 9)]], []) ∧
    (faulty.without failing).told .empty [.sources] =
      .ok ([.sources [("good", 0), ("late", 5)]], []) ∧
    everyFile.sources (halfSpoiled.without (· = "d/b")) = everyFile.sources halfSpoiled ∧
    ((everyFile.sources halfSpoiled).map (·.map (·.name))).toOption = some ["d/a"] := by
  obtain ⟨hreadings, ⟨summary, hsummary, hsummary'⟩, hfiles⟩ :=
    reads_without_failing fail_faulty rfl rfl
  have hread := hreadings [.text "z", .text "x", .snapshot] (by simp)
  have htold := told_readings faulty .empty [.text "z", .text "x", .snapshot]
  have hstarved : faulty.isStarved .empty = false := rfl
  rw [hstarved, if_neg Bool.false_ne_true] at htold
  have hlist : summary = [("good", 0), ("late", 5), ("bad", 9)] := by
    have hfirst : (faulty.firstSet .empty).summary = [("good", 0), ("late", 5), ("bad", 9)] := by
      decide +kernel
    have hsources := told_readings faulty .empty [.sources]
    rw [hstarved, if_neg Bool.false_ne_true] at hsources
    cases hsummary.symm.trans hsources
    exact hfirst
  have hnames : ((faulty.firstSources .empty).filter failing.source).map (·.name) = ["bad"] := rfl
  rw [hlist] at hsummary hsummary'
  rw [hnames] at hsummary'
  refine ⟨⟨_, hread.trans htold, htold, by decide +kernel⟩, hsummary, hsummary', ?_,
    by decide +kernel⟩
  refine hfiles everyFile halfSpoiled _ fun key hkey => ⟨["d"], "b", spoiled_binary, ?_⟩
  exact of_decide_eq_true hkey

end Builder

end LayeredConfig
