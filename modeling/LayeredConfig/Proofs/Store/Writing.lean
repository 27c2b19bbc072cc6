import LayeredConfig.Context
import LayeredConfig.Proofs.SourceSet.Highest
import LayeredConfig.Proofs.Store.Course
import Mathlib.Data.List.Find
import Mathlib.Logic.Relation

/-! # What is written is read

Commits go to the writable source of a store, and look-ups to the published set. That the one is in
the other is not kept anywhere: the source is found in the list of fixed sources and in the
published set by its identity, while a set takes sources by their names. All the same the three
stay together (`TakesPart`), whatever is committed, reloaded, published again or edited in place, if
the source was the first of its name to be registered. A write is then read back until a source
above it has a text for the key (`committed_writes_take_part`).

A source that is registered behind another one of its name is left out of the set, and nothing that
is written to it is ever read (`commit_to_shadowed`). -/

namespace LayeredConfig

/-! ### Batches of writes -/

namespace Change

/-- The key that a write is for. -/
def key : Change → String
  | put key _ => key
  | remove key => key

/-- The text that a write leaves behind. -/
def text? : Change → Option String
  | put _ text => some text
  | remove _ => none

theorem get?_apply (ps : Properties) (c : Change) (key : String) :
    (c.apply ps).get? key = if c.key = key then c.text? else ps.get? key := by
  cases c with
  | put k text => simp [apply, Change.key, text?, eq_comm]
  | remove k => simp [apply, Change.key, text?, eq_comm]

end Change

/-- The last write to a key in a batch. -/
def lastWrite? (changes : List Change) (key : String) : Option Change :=
  changes.reverse.find? fun c => c.key = key

/-- A batch leaves behind what the last write to each key does. -/
theorem Properties.get?_applyAll (ps : Properties) (changes : List Change) (key : String) :
    (ps.applyAll changes).get? key =
      ((lastWrite? changes key).map (·.text?)).getD (ps.get? key) := by
  induction changes generalizing ps with
  | nil => rfl
  | cons c rest ih =>
    have hlast : lastWrite? (c :: rest) key =
        (lastWrite? rest key).or (if c.key = key then some c else none) := by
      unfold lastWrite?
      rw [List.reverse_cons, List.find?_append, List.find?_singleton]
      simp
    show (applyAll (c.apply ps) rest).get? key = _
    rw [ih, hlast, Change.get?_apply]
    cases lastWrite? rest key with
    | some other => rfl
    | none => split <;> rfl

theorem Table.get_withChanges {t : Table} {changes : List Change} {key text : String}
    (h : lastWrite? changes key = some (.put key text)) :
    (t.withChanges changes).get key = some (.of key text t.name) := by
  unfold get withChanges
  rw [Properties.get?_applyAll, h]
  rfl

/-! ### Sets that hold a source -/

/-- A list keeps the first source of each name. -/
theorem mem_distinctNames_iff {s : Source} {sources : List Source} :
    s ∈ distinctNames sources ↔ sources.find? (fun t => t.name = s.name) = some s := by
  induction sources with
  | nil => simp [distinctNames]
  | cons t rest ih =>
    rw [distinctNames, List.mem_cons, List.mem_filter, ih, List.find?_cons]
    by_cases hname : t.name = s.name
    · simp [hname, eq_comm]
    · have hne : s ≠ t := fun h => hname (h ▸ rfl)
      simp [hname, hne, Ne.symm hname]

namespace SourceSet

variable {set : SourceSet} {source : Source}

/-- Whether a source is in a set, and nothing else under its name. -/
structure Holds (set : SourceSet) (source : Source) : Prop where
  entry : ∃ r ∈ set.entries, r.source = source
  only : ∀ r ∈ set.entries, r.name = source.name → r.source = source

theorem holds_ofSources {sources : List Source} (version : Nat)
    (h : sources.find? (fun t => t.name = source.name) = some source) :
    (ofSources sources version).Holds source where
  entry := ⟨.of source, Order.mem_sort.2 (List.mem_map_of_mem (mem_distinctNames_iff.2 h)), rfl⟩
  only r hr hname := by
    obtain ⟨s, hs, rfl⟩ := List.mem_map.1 (Order.mem_sort.1 hr)
    have hfirst := mem_distinctNames_iff.1 hs
    rw [show s.name = source.name from hname, h] at hfirst
    exact (Option.some.inj hfirst).symm

/-- What is put in the place of a source under its name is registered anew. -/
theorem Holds.replacing (h : set.Holds source) (new : Source) (hname : new.name = source.name)
    (version : Nat) :
    let replaced := set.replacing source.id new version
    .of new ∈ replaced.entries ∧ ∀ r ∈ replaced.entries, r.name = new.name → r = .of new := by
  refine ⟨?_, fun r hr hr' => ?_⟩
  · obtain ⟨r, hr, rfl⟩ := h.entry
    exact Order.mem_sort.2 (List.mem_map.2 ⟨r, hr, if_pos rfl⟩)
  · obtain ⟨t, ht, rfl⟩ := List.mem_map.1 (Order.mem_sort.1 hr)
    by_cases hid : t.source.id = source.id
    · exact if_pos hid
    · rw [if_neg hid] at hr'
      exact absurd (congrArg Source.id (h.only t ht (hr'.trans hname))) hid

/-- A source that is edited in place keeps its name. -/
def KeepsName (set : SourceSet) (source : Source) : Prop :=
  ∀ r ∈ set.entries, r.source.id = source.id → r.name = source.name

theorem Holds.edited (h : set.Holds source) {other : Source} (hother : set.KeepsName other) :
    (set.edited other).Holds (source.renewed other.id other) := by
  have hname : ∀ r ∈ set.entries,
      (if r.source.id = other.id then { r with source := other } else r : Registered).name =
        r.name := by
    intro r hr
    split
    · rename_i hid
      exact (hother r hr hid).symm
    · rfl
  have hsource : ∀ r : Registered,
      (if r.source.id = other.id then { r with source := other } else r : Registered).source =
        r.source.renewed other.id other := by
    intro r
    unfold Source.renewed
    split <;> rfl
  obtain ⟨r, hr, hentry⟩ := h.entry
  have hkept : (source.renewed other.id other).name = source.name := by
    rw [← hentry, ← hsource]
    exact hname r hr
  refine ⟨⟨_, List.mem_map_of_mem hr, by rw [hsource, hentry]⟩, fun t ht ht' => ?_⟩
  obtain ⟨u, hu, rfl⟩ := List.mem_map.1 ht
  rw [hname u hu, hkept] at ht'
  rw [hsource, h.only u hu ht']

/-- What is looked up is the value of a source, if nothing above it has a text. -/
theorem lookup_eq_of_top {key : String} {v : PropertyValue} {r : Registered}
    (hsorted : set.entries.Pairwise fun a b => Registered.notAbove a b = true)
    (hr : r ∈ set.entries) (honly : ∀ t ∈ set.entries, t.name = r.name → t = r)
    (hv : r.Answers key v) (htext : v.isNull = false)
    (habove : ∀ t ∈ set.entries, r.IsBelow t → t.hasText key = false) :
    set.lookup key = some (r.annotate v) := by
  have hhas : r.hasText key = true := Registered.hasText_iff.2 ⟨v, hv, htext⟩
  have hfound : (set.entries.reverse.find? (·.hasText key)).isSome :=
    List.find?_isSome.2 ⟨r, List.mem_reverse.2 hr, hhas⟩
  obtain ⟨t, ht⟩ := Option.isSome_iff_exists.1 hfound
  obtain ⟨htop, behind, before, hsplit, hbehind⟩ := List.find?_eq_some_iff_append.1 ht
  have hmem : t ∈ set.entries := List.mem_reverse.1 (List.mem_of_find?_eq_some ht)
  have hentries : set.entries = before.reverse ++ t :: behind.reverse := by
    rw [← List.reverse_reverse set.entries, hsplit]
    simp
  -- the first source with a text from the end is neither behind ours nor above it
  have htr : t = r := by
    rw [hentries] at hr hsorted
    rcases List.mem_append.1 hr with hr | hr
    · have hle := (List.pairwise_append.1 hsorted).2.2 r hr t List.mem_cons_self
      by_cases hname : r.name = t.name
      · exact honly t hmem hname.symm
      · rw [habove t hmem (Registered.isBelow_of_notAbove hle hname)] at htop
        cases htop
    · rcases List.mem_cons.1 hr with rfl | hr
      · rfl
      · have hnot := hbehind r (List.mem_reverse.1 hr)
        rw [hhas] at hnot
        cases hnot
  have hwinner : set.winner? key = some r := by
    unfold winner?
    rw [ht, htr]
    rfl
  rw [lookup_eq_winner, hwinner]
  exact Registered.lookup_eq_some_iff.2 ⟨v, hv, rfl⟩

end SourceSet

/-! ### Stores -/

namespace Store

variable {s t : Store} {w : Writable}

/-- Whether a source is the one that is written to and takes part in look-ups, now and when the
fixed sources are published again. -/
structure TakesPart (w : Writable) (s : Store) : Prop where
  writable : s.writable = some w
  first : s.fixed.find? (fun t => t.name = w.toSource.name) = some w.toSource
  held : s.published.Holds w.toSource

theorem TakesPart.congr (h : TakesPart w s) (hw : t.writable = s.writable)
    (hf : t.fixed = s.fixed) (hp : t.published.entries = s.published.entries) : TakesPart w t where
  writable := hw.trans h.writable
  first := hf ▸ h.first
  held := ⟨hp ▸ h.held.entry, hp ▸ h.held.only⟩

theorem TakesPart.seen (h : TakesPart w s) (v : View Id) : TakesPart w (s.seen v) :=
  h.congr (by simp) (by simp) (by simp)

theorem find?_map_of_name {f : Source → Source} {sources : List Source}
    (hf : ∀ t ∈ sources, (f t).name = t.name) (name : String) :
    (sources.map f).find? (fun t => t.name = name) =
      (sources.find? fun t => t.name = name).map f := by
  rw [List.find?_map]
  congr 1
  refine List.find?_congr fun t ht => ?_
  simp only [Function.comp, hf t ht]

/-- What takes the place of the first source of a name is the first of that name. -/
theorem find?_renewed {sources : List Source} (old new : Source) (hname : new.name = old.name)
    (h : sources.find? (fun t => t.name = old.name) = some old) :
    (sources.map fun t => t.renewed old.id new).find? (fun t => t.name = new.name) = some new := by
  induction sources with
  | nil => cases h
  | cons t rest ih =>
    rw [List.map_cons, List.find?_cons]
    rw [List.find?_cons] at h
    unfold Source.renewed at ih ⊢
    by_cases hid : t.id = old.id
    · simp [hid]
    · by_cases ht : t.name = old.name
      · simp only [ht, decide_true, Option.some.injEq] at h
        exact absurd (congrArg Source.id h) hid
      · simp only [ht, decide_false] at h
        simp only [hid, if_false, hname, ht, decide_false]
        exact hname ▸ ih h

/-- A commit writes to a copy, which takes the part of the source it was made of. -/
theorem TakesPart.commit (h : TakesPart w s) (v : View Id) (changes : List Change) :
    ∃ event s', s.commit v changes = (.ok event, s') ∧ TakesPart (s.written w changes) s' ∧
      s'.published = s.published.replacing w.id (s.written w changes).toSource (s.version + 1) := by
  have hpublished : (((s.seen v).replaceWritable w (s.written w changes)).seen v).published =
      s.published.replacing w.id (s.written w changes).toSource (s.version + 1) := by
    rw [published_seen]
    show (s.seen v).published.replacing _ _ ((s.seen v).version + 1) = _
    rw [published_seen, version_seen]
  refine ⟨_, _, commit_of_writable h.writable v changes, ⟨?_, ?_, ?_⟩, hpublished⟩
  · rw [writable_seen, writable_replaceWritable]
  · rw [fixed_seen]
    show ((s.seen v).fixed.map _).find? _ = _
    rw [fixed_seen]
    exact find?_renewed w.toSource (s.written w changes).toSource rfl h.first
  · obtain ⟨hmem, honly⟩ := h.held.replacing (s.written w changes).toSource rfl (s.version + 1)
    rw [hpublished]
    exact ⟨⟨_, hmem, rfl⟩, fun r hr hname => congrArg Registered.source (honly r hr hname)⟩

/-- What was registered comes in front of what is loaded. -/
theorem TakesPart.adopt (h : TakesPart w s) (number : Nat) (loaded : Loaded) :
    TakesPart w (s.adopt number loaded) where
  writable := h.writable
  first := h.first
  held := by
    refine SourceSet.holds_ofSources _ ?_
    rw [List.find?_append, h.first]
    rfl

theorem TakesPart.finishReload (h : TakesPart w s) (v : View Id) (providers : List Provider)
    (number : Nat) (loaded : Loaded) :
    TakesPart w (s.finishReload v providers number loaded).2 := by
  rcases finishReload_cases v providers number loaded s with hf | ⟨-, hf⟩ | ⟨event, -, hf, -⟩
  · rw [hf]
    exact h
  · rw [hf]
    exact h.seen v
  · rw [hf]
    exact ((h.seen v).adopt number loaded).seen v

/-- Whether a source that is edited in place has the name that it has in a store. -/
structure KeepsName (s : Store) (edit : Writable) : Prop where
  fixed : ∀ t ∈ s.fixed, t.id = edit.id → t.name = edit.table.name
  published : s.published.KeepsName edit.toSource

theorem TakesPart.edited (h : TakesPart w s) {edit : Writable} (hname : s.KeepsName edit) :
    TakesPart (if w.id = edit.id then edit else w) (s.edited edit) := by
  have hsource : (if w.id = edit.id then edit else w).toSource =
      w.toSource.renewed edit.id edit.toSource := apply_ite Writable.toSource _ _ _
  have hkept : (w.toSource.renewed edit.id edit.toSource).name = w.toSource.name := by
    obtain ⟨r, hr, hentry⟩ := h.held.entry
    refine Source.name_renewed fun hid => ?_
    rw [← hentry]
    exact hname.published r hr (by rw [hentry, hid]; rfl)
  refine ⟨?_, ?_, ?_⟩
  · show s.writable.map _ = _
    rw [h.writable]
    rfl
  · rw [hsource, hkept]
    show (s.fixed.map fun t => t.renewed edit.id edit.toSource).find? _ = _
    rw [find?_map_of_name fun t ht => Source.name_renewed (hname.fixed t ht), h.first]
    rfl
  · rw [hsource]
    exact h.held.edited hname.published

/-! ### Reachable states -/

/-- What may happen to a store: a step of a course, whatever the view and the providers are then, or
an edit in place of a source that it holds. -/
inductive Moves : Store → Store → Prop
  | step {v : View Id} {providers : List Provider} {os : List Occurrence} {o : Occurrence}
    {c d : Course} (h : Course.Step v providers os c o d) : Moves c.store d.store
  | edit {s : Store} {w : Writable} (h : s.KeepsName w) : Moves s (s.edited w)

theorem TakesPart.moves (h : TakesPart w s) (move : s.Moves t) : ∃ w', TakesPart w' t := by
  cases move with
  | edit hname => exact ⟨_, h.edited hname⟩
  | @step v providers os o c d step =>
    cases step with
    | commit changes =>
      obtain ⟨event, s', hcommit, htakes, -⟩ := h.commit v changes
      rw [hcommit]
      exact ⟨_, htakes⟩
    | refresh => exact ⟨w, h.congr rfl rfl rfl⟩
    | start => exact ⟨w, h.congr rfl rfl rfl⟩
    | finish loaded _ => exact ⟨w, h.finishReload v providers _ loaded⟩
    | read => exact ⟨w, h.seen v⟩
    | keep _ => exact ⟨w, h.congr (by simp) (by simp) (by simp)⟩

theorem TakesPart.reaches (h : TakesPart w s) (reached : Relation.ReflTransGen Moves s t) :
    ∃ w', TakesPart w' t := by
  induction reached with
  | refl => exact ⟨w, h⟩
  | tail _ move ih =>
    obtain ⟨w', hw'⟩ := ih
    exact hw'.moves move

/-- What a batch has written is looked up, unless a source above has a text. -/
theorem TakesPart.lookup_commit (h : TakesPart w s) (v : View Id) (changes : List Change) :
    ∃ event s' w', s.commit v changes = (.ok event, s') ∧ s'.writable = some w' ∧
      .of w'.toSource ∈ s'.published.entries ∧
      ∀ key text, lastWrite? changes key = some (.put key text) →
        (∀ t ∈ s'.published.entries, (Registered.of w'.toSource).IsBelow t →
          t.hasText key = false) →
        s'.published.lookup key =
          some ((Registered.of w'.toSource).annotate (.of key text w'.table.name)) := by
  obtain ⟨event, s', hcommit, htakes, hpublished⟩ := h.commit v changes
  obtain ⟨hmem, honly⟩ := h.held.replacing (s.written w changes).toSource rfl (s.version + 1)
  have hset : s.published.replacing w.toSource.id _ _ = s'.published := hpublished.symm
  rw [hset] at hmem honly
  refine ⟨event, s', _, hcommit, htakes.writable, hmem, fun key text hlast habove => ?_⟩
  refine SourceSet.lookup_eq_of_top ?_ hmem honly ?_ rfl habove
  · rw [hpublished]
    exact Order.pairwise_sort Registered.notAbove_preorder _
  · exact congrArg Except.ok (Table.get_withChanges hlast)

end Store

/-! ### Contexts -/

namespace Builder

open Store

theorem takesPart_of_build {b : Builder} {files : FileTree} {setup : Setup} {s : Store}
    (hbuild : b.build files = .ok (setup, s)) {w : Writable} {before after : List Source}
    (hw : b.writable = some w) (hsources : b.sources = before ++ w.toSource :: after)
    (hfree : ∀ t ∈ before, t.name ≠ w.table.name) : TakesPart w s := by
  have hinitial : s = .initial b.sources b.writable (b.setup.load 0 files) := by
    unfold build at hbuild
    dsimp only at hbuild
    split at hbuild
    · cases hbuild
    · cases hbuild
      rfl
  have hfirst : b.sources.find? (fun t => t.name = w.toSource.name) = some w.toSource := by
    have hnone : before.find? (fun t => t.name = w.toSource.name) = none :=
      List.find?_eq_none.2 fun t ht => decide_eq_true_iff.not.2 (hfree t ht)
    rw [hsources, List.find?_append, hnone, Option.none_or, List.find?_cons]
    simp
  subst hinitial
  refine ⟨hw, hfirst, SourceSet.holds_ofSources 1 ?_⟩
  rw [List.find?_append, hfirst]
  rfl

/-- **Committed writes take part in look-ups.** Take a context with a writable source, in front of
which no other source has its name. Whatever has happened to it, its published set has an entry of
the writable source as it is then. A commit succeeds, and for every key whose last write gave it a
text that text is looked up, unless a source above the writable one has a text for the key. -/
theorem committed_writes_take_part {b : Builder} {files : FileTree} {setup : Setup}
    {start s : Store} (hbuild : b.build files = .ok (setup, start)) {w : Writable}
    {before after : List Source} (hw : b.writable = some w)
    (hsources : b.sources = before ++ w.toSource :: after)
    (hfree : ∀ t ∈ before, t.name ≠ w.table.name)
    (reached : Relation.ReflTransGen Moves start s) :
    ∃ current, s.writable = some current ∧
      (∃ r ∈ s.published.entries, r.source = current.toSource) ∧
      ∀ v changes, ∃ event s' w', s.commit v changes = (.ok event, s') ∧ s'.writable = some w' ∧
        .of w'.toSource ∈ s'.published.entries ∧
        ∀ key text, lastWrite? changes key = some (.put key text) →
          (∀ t ∈ s'.published.entries, (Registered.of w'.toSource).IsBelow t →
            t.hasText key = false) →
          s'.published.lookup key =
            some ((Registered.of w'.toSource).annotate (.of key text w'.table.name)) := by
  obtain ⟨current, htakes⟩ := (takesPart_of_build hbuild hw hsources hfree).reaches reached
  exact ⟨current, htakes.writable, htakes.held.entry, htakes.lookup_commit⟩

/-- A view without filters and resolvers. -/
def plainView : View Id := ⟨.ofFilters [], .ofResolvers [], true⟩

/-- Overrides to write to, between defaults and a source that has the name of the overrides. -/
def layered : Builder :=
  (({} : Builder).withSource ((Table.ofPairs "defaults" [("port", "80")]).toSource (.object 0))
    |>.withWritable ⟨.object 1, .ofPairs "overrides" []⟩).withSource
      (((Table.ofPairs "overrides" [("port", "90")]).withOrdinal 50).toSource (.object 2))

/-- The overrides are read back once an ordinal has moved them up and the sources have been
published again. -/
theorem committed_writes_take_part_layered :
    ∃ s, Relation.ReflTransGen Moves (.initial layered.sources layered.writable ⟨[], 0⟩) s ∧
      ∃ event s', s.commit plainView [.put "port" "81", .put "port" "82"] = (.ok event, s') ∧
        (s'.published.lookup "port").bind (·.value) = some "82" := by
  let start : Course := .start (.initial layered.sources layered.writable ⟨[], 0⟩)
  let moved : Course := start.moved (start.store.commit plainView [.put ordinalKey "10"]).2
  have hcommit : start.store.Moves moved.store :=
    .step (@Course.Step.commit plainView [] [] start [.put ordinalKey "10"])
  have hrefresh : moved.store.Moves moved.store.refresh :=
    .step (@Course.Step.refresh plainView [] [] moved)
  have reached := (Relation.ReflTransGen.single hcommit).tail hrefresh
  obtain ⟨current, -, -, hcommits⟩ := @committed_writes_take_part layered .empty _ _ _ rfl
    ⟨.object 1, .ofPairs "overrides" []⟩ [_] [_] rfl rfl (by decide) reached
  obtain ⟨event, s', w', hs', hw', -, hlookup⟩ :=
    hcommits plainView [.put "port" "81", .put "port" "82"]
  obtain rfl := congrArg Prod.snd hs'
  obtain rfl := Option.some.inj hw'
  refine ⟨_, reached, event, _, hs', ?_⟩
  rw [hlookup "port" "82" rfl (by decide +kernel)]
  rfl

/-- A source to write to, behind one of its name. -/
def shadowed : Builder :=
  (({} : Builder).withSource ((Table.ofPairs "runtime" [("k", "old")]).toSource (.object 0)))
    |>.withWritable ⟨.object 1, (Table.ofPairs "runtime" []).withOrdinal 1000⟩

/-- The source that is written to is left out of the set because of its name. A commit succeeds, the
source has what was written, and no look-up finds it, though nothing stands above the source. -/
theorem commit_to_shadowed :
    let start : Store := .initial shadowed.sources shadowed.writable ⟨[], 0⟩
    let behind := (start.commit plainView [.put "k" "new"]).2
    shadowed.build .empty = .ok (shadowed.setup, start) ∧
    (start.commit plainView [.put "k" "new"]).1.toOption.isSome = true ∧
    lastWrite? [.put "k" "new"] "k" = some (.put "k" "new") ∧
    (behind.writable.bind fun w => w.table.pairs.get? "k") = some "new" ∧
    (∀ r ∈ start.published.entries, some r.source.id ≠ start.writable.map (·.id)) ∧
    (∀ r ∈ behind.published.entries, some r.source.id ≠ behind.writable.map (·.id)) ∧
    (∀ w ∈ behind.writable, ∀ t ∈ behind.published.entries,
      ¬ (Registered.of w.toSource).IsBelow t) ∧
    (behind.published.lookup "k").bind (·.value) = some "old" :=
  ⟨rfl, by decide +kernel⟩

end Builder

end LayeredConfig
