import LayeredConfig.Proofs.SourceSet.Replacement
import LayeredConfig.Proofs.Store.Course

/-! # What is published

A commit edits the published set, a reload sorts a new one, and a refresh stamps the old one anew.
Whatever the order in which they come, what is published is the fixed sources as they are now with
the sources of one load behind them, that of the reload whose number is the published one
(`published_eq_of_run`). The fixed sources are those of the beginning, with the writable one in the
state to which the committed batches have brought it, and the version counts the publications.

Sources are told apart by their identities. `Writable.IsAmong` and `Loaded.Tells` say that these
are the identities of objects: nothing has the identity of the writable source, or of a copy that
will be made of it, and another name. -/

namespace LayeredConfig

/-- A writable source among fixed ones, of which no copy was made yet. -/
structure Writable.IsAmong (w : Writable) (fixed : List Source) : Prop where
  mem : w.toSource ∈ fixed
  eq_of_id : ∀ s ∈ fixed, s.id = w.id → s = w.toSource
  not_copy : ∀ s ∈ fixed, ∀ n, s.id ≠ .copy n

/-- Whether the writable source and its copies have the name of `w` in what was loaded, if they are
there at all. -/
def Loaded.Tells (loaded : Loaded) (w : Writable) : Prop :=
  ∀ s ∈ loaded.sources, (s.id = w.id ∨ ∃ n, s.id = .copy n) → s.name = w.table.name

/-- A source that has been written to is the writable source of the beginning or a copy of it. -/
def Writable.StemsFrom (w' w : Writable) : Prop := w'.id = w.id ∨ ∃ n, w'.id = .copy n

namespace Course

variable {v : View Id} {providers : List Provider} {s : Store} {os : List Occurrence}
  {o : Occurrence} {c d : Course}

/-! ### Numbers of reloads -/

theorem Run.started_of_finished (run : Run v providers s os c) {number : Nat} {loaded : Loaded}
    {outcome : Result ChangeEvent} (h : .finished number loaded outcome ∈ os) :
    .started number ∈ os := by
  induction run with
  | nil => exact absurd h List.not_mem_nil
  | snoc _ step ih =>
    rcases List.mem_append.1 h with h | h
    · exact List.mem_append_left _ (ih h)
    · cases List.mem_singleton.1 h
      cases step with
      | finish _ hn => exact List.mem_append_left _ hn.1

theorem Run.pos_of_started (run : Run v providers s os c) {number : Nat}
    (h : .started number ∈ os) : 0 < number := by
  induction run with
  | nil => exact absurd h List.not_mem_nil
  | snoc _ step ih =>
    rcases List.mem_append.1 h with h | h
    · exact ih h
    · cases List.mem_singleton.1 h
      cases step with
      | start => exact Nat.succ_pos _

/-- A reload comes to its end once. -/
theorem Run.eq_of_finished (run : Run v providers s os c) {number : Nat} {a b : Loaded}
    {x y : Result ChangeEvent} (ha : .finished number a x ∈ os) (hb : .finished number b y ∈ os) :
    a = b := by
  induction run with
  | nil => exact absurd ha List.not_mem_nil
  | snoc _ step ih =>
    rcases List.mem_append.1 ha with ha' | ha'
    · rcases List.mem_append.1 hb with hb' | hb'
      · exact ih ha' hb'
      · cases List.mem_singleton.1 hb'
        cases step with
        | finish _ hn => exact absurd ha' (hn.2 a x)
    · cases List.mem_singleton.1 ha'
      rcases List.mem_append.1 hb with hb' | hb'
      · cases step with
        | finish _ hn => exact absurd hb' (hn.2 b y)
      · cases List.mem_singleton.1 hb'
        rfl

/-- What the load with a number has given; the first one has the number zero. -/
inductive LoadedBy (first : Loaded) (os : List Occurrence) : Nat → Loaded → Prop
  | first : LoadedBy first os 0 first
  | reload {number : Nat} {loaded : Loaded} {outcome : Result ChangeEvent}
    (h : .finished number loaded outcome ∈ os) : LoadedBy first os number loaded

theorem LoadedBy.append {first loaded : Loaded} {number : Nat} (h : LoadedBy first os number loaded)
    (o : Occurrence) : LoadedBy first (os ++ [o]) number loaded := by
  cases h with
  | first => exact .first
  | reload h => exact .reload (List.mem_append_left _ h)

theorem LoadedBy.unique {first a b : Loaded} {number : Nat} (run : Run v providers s os c)
    (ha : LoadedBy first os number a) (hb : LoadedBy first os number b) : a = b := by
  cases ha with
  | first =>
    cases hb with
    | first => rfl
    | reload hb => exact absurd (run.pos_of_started (run.started_of_finished hb)) (Nat.lt_irrefl 0)
  | reload ha =>
    cases hb with
    | first => exact absurd (run.pos_of_started (run.started_of_finished ha)) (Nat.lt_irrefl 0)
    | reload hb => exact run.eq_of_finished ha hb

/-! ### Versions -/

/-- A step goes on to the next version if it publishes, and else stays. -/
theorem Step.version (step : Step v providers os c o d) :
    d.store.version = c.store.version + if o.publishes then 1 else 0 := by
  cases step with
  | commit changes =>
    rcases Store.commit_cases v changes c.store with ⟨-, h⟩ | ⟨w, event, -, h, -⟩
    · simp [h, Occurrence.publishes]
    · simp [h, Occurrence.publishes]
  | refresh => rfl
  | start => rfl
  | @finish number loaded _ =>
    rcases Store.finishReload_cases v providers number loaded c.store with
      h | ⟨-, h⟩ | ⟨event, -, h, -, ho, hn⟩
    · simp [h, Occurrence.publishes]
    · simp [h, Occurrence.publishes, ChangeEvent.between]
    · simp [h, Occurrence.publishes, ho, hn]
  | read => simp [Occurrence.publishes]
  | keep _ => simp [Occurrence.publishes]

theorem Run.version (run : Run v providers s os c) :
    c.store.version = s.version + os.countP (·.publishes) := by
  induction run with
  | nil => rfl
  | snoc _ step ih =>
    rw [step.version, ih, List.countP_append, List.countP_singleton, Nat.add_assoc]

end Course

/-! ### A commit -/

theorem Source.renewed_of_id {s new : Source} {old : Identity} (h : s.id = old) :
    s.renewed old new = new := if_pos h

theorem Source.renewed_of_ne {s new : Source} {old : Identity} (h : s.id ≠ old) :
    s.renewed old new = s := if_neg h

/-- Putting a copy in the place of the writable source gives the set of the sources with the copy
among them. -/
theorem Store.published_replaceWritable (s : Store) (old new : Writable) {loaded : List Source}
    (hp : s.published = .ofSources (s.fixed ++ loaded) s.version)
    (hmem : old.toSource ∈ s.fixed) (hname : new.table.name = old.table.name)
    (hid : ∀ t ∈ s.fixed ++ loaded, t.id = old.id → t.name = old.table.name) :
    (s.replaceWritable old new).published =
      .ofSources ((s.replaceWritable old new).fixed ++ loaded) (s.version + 1) := by
  have hnew : ∀ t ∈ s.fixed ++ loaded, t.id = old.id → t.name = new.toSource.name :=
    fun t ht h => (hid t ht h).trans hname.symm
  have hfirst : ∃ t ∈ s.fixed.map fun t => t.renewed old.id new.toSource,
      t.name = new.toSource.name :=
    ⟨new.toSource, List.mem_map.2 ⟨_, hmem, Source.renewed_of_id rfl⟩, rfl⟩
  calc (s.replaceWritable old new).published
      = s.published.replacing old.id new.toSource (s.version + 1) := rfl
    _ = .ofSources ((s.fixed ++ loaded).map fun t => t.renewed old.id new.toSource)
          (s.version + 1) := by
        rw [hp]
        exact SourceSet.replacing_ofSources hnew _ _
    _ = .ofSources ((s.fixed.map fun t => t.renewed old.id new.toSource) ++ loaded)
          (s.version + 1) := by
        rw [List.map_append]
        exact SourceSet.ofSources_renewed_append hfirst
          (fun t ht => hnew t (List.mem_append_right _ ht)) _

namespace Writable.IsAmong

variable {w w' : Writable} {fixed : List Source}

theorem id_ne (hw : w.IsAmong fixed) (hs : w'.StemsFrom w) {s : Source} (hmem : s ∈ fixed)
    (hne : s.id ≠ w.id) : s.id ≠ w'.id := by
  intro h
  rcases hs with hs | ⟨n, hs⟩
  · exact hne (h.trans hs)
  · exact hw.not_copy s hmem n (h.trans hs)

theorem mem_renewed (hw : w.IsAmong fixed) :
    w'.toSource ∈ fixed.map fun s => s.renewed w.id w'.toSource :=
  List.mem_map.2 ⟨_, hw.mem, Source.renewed_of_id rfl⟩

theorem eq_of_id_renewed (hw : w.IsAmong fixed) (hs : w'.StemsFrom w) {s : Source}
    (hmem : s ∈ fixed.map fun s => s.renewed w.id w'.toSource) (h : s.id = w'.id) :
    s = w'.toSource := by
  obtain ⟨t, ht, rfl⟩ := List.mem_map.1 hmem
  by_cases hid : t.id = w.id
  · exact Source.renewed_of_id hid
  · rw [Source.renewed_of_ne hid] at h
    exact absurd h (hw.id_ne hs ht hid)

/-- Taking the place of a copy is taking the place of the source it was made of. -/
theorem renewed_renewed (hw : w.IsAmong fixed) (hs : w'.StemsFrom w) (new : Source) :
    (fixed.map fun s => s.renewed w.id w'.toSource).map (fun s => s.renewed w'.id new) =
      fixed.map fun s => s.renewed w.id new := by
  rw [List.map_map]
  refine List.map_congr_left fun s hmem => ?_
  by_cases hid : s.id = w.id
  · simp only [Function.comp, Source.renewed_of_id hid]
    exact Source.renewed_of_id rfl
  · simp only [Function.comp, Source.renewed_of_ne hid]
    exact Source.renewed_of_ne (hw.id_ne hs hmem hid)

/-- A source stands in its own place. -/
theorem renewed_self (hw : w.IsAmong fixed) :
    (fixed.map fun s => s.renewed w.id w.toSource) = fixed := by
  refine (List.map_congr_left fun s hmem => ?_).trans (List.map_id' fixed)
  by_cases hid : s.id = w.id
  · rw [Source.renewed_of_id hid, hw.eq_of_id s hmem hid]
  · exact Source.renewed_of_ne hid

end Writable.IsAmong

/-! ### What a course keeps -/

theorem Table.name_foldl_withChanges (t : Table) (batches : List (List Change)) :
    (batches.foldl Table.withChanges t).name = t.name := by
  induction batches generalizing t with
  | nil => rfl
  | cons batch rest ih => exact (ih _).trans (Table.name_withChanges t batch)

namespace Course

variable {v : View Id} {providers : List Provider} {os : List Occurrence} {o : Occurrence}
  {c d : Course} {fixed : List Source} {writable : Option Writable} {first : Loaded}

/-- What is published, written and registered for good after all that has occurred. -/
structure Accounts (fixed : List Source) (writable : Option Writable) (first : Loaded)
    (os : List Occurrence) (s : Store) : Prop where
  published : ∃ loaded, LoadedBy first os s.publishedReload loaded ∧
    s.published = .ofSources (s.fixed ++ loaded.sources) s.version
  unwritten : writable = none → s.writable = none ∧ s.fixed = fixed
  written : ∀ w, writable = some w → ∃ w', s.writable = some w' ∧ w'.StemsFrom w ∧
    w'.table = (batches os).foldl Table.withChanges w.table ∧
    s.fixed = fixed.map fun t => t.renewed w.id w'.toSource

/-- A step that leaves the sources, the numbers and the batches alone. -/
theorem Accounts.congr {s t : Store} (h : Accounts fixed writable first os s)
    (hb : o.batch? = none) (hf : t.fixed = s.fixed) (hw : t.writable = s.writable)
    (hr : t.publishedReload = s.publishedReload)
    (hp : t.published = s.published.withVersion t.version) :
    Accounts fixed writable first (os ++ [o]) t where
  published := by
    obtain ⟨loaded, hl, heq⟩ := h.published
    refine ⟨loaded, hr ▸ hl.append o, ?_⟩
    rw [hp, heq, hf]
    rfl
  unwritten hn := by
    rw [hw, hf]
    exact h.unwritten hn
  written w hs := by
    obtain ⟨w', hw', hstem, htable, hfixed⟩ := h.written w hs
    refine ⟨w', hw.trans hw', hstem, ?_, hf.trans hfixed⟩
    rw [batches_concat_of_none hb, htable]

theorem Accounts.commit {s : Store} (h : Accounts fixed writable first os s)
    (hw : ∀ w, writable = some w → w.IsAmong fixed)
    (hl : ∀ w, writable = some w → ∀ number loaded, LoadedBy first os number loaded →
      loaded.Tells w) (v : View Id) (changes : List Change) :
    Accounts fixed writable first (os ++ [.committed changes (s.commit v changes).1])
      (s.commit v changes).2 := by
  rcases Store.commit_cases v changes s with ⟨hn, hc⟩ | ⟨w', event, hw', hc, -⟩
  · -- without a source to write to nothing happens
    rw [hc]
    exact h.congr rfl rfl rfl rfl rfl
  rw [hc]
  cases hwr : writable with
  | none =>
    have := (h.unwritten hwr).1
    rw [hw'] at this
    cases this
  | some w =>
    obtain ⟨w'', hw'', hstem, htable, hfixed⟩ := h.written w hwr
    cases hw'.symm.trans hw''
    have hamong := hw w hwr
    have hname : w'.table.name = w.table.name := by
      rw [htable, Table.name_foldl_withChanges]
    obtain ⟨loaded, hload, hpub⟩ := h.published
    have hid : ∀ t ∈ s.fixed ++ loaded.sources, t.id = w'.id → t.name = w'.table.name := by
      intro t ht hid
      rcases List.mem_append.1 ht with ht | ht
      · rw [hfixed] at ht
        rw [hamong.eq_of_id_renewed hstem ht hid]
        rfl
      · rw [hname]
        refine hl w hwr _ _ hload t ht ?_
        rcases hstem with hs | ⟨n, hs⟩
        · exact .inl (hid.trans hs)
        · exact .inr ⟨n, hid.trans hs⟩
    have hmem : w'.toSource ∈ s.fixed := hfixed ▸ hamong.mem_renewed
    refine ⟨⟨loaded, ?_, ?_⟩, fun hn => by simp at hn, fun u hu => ?_⟩
    · simpa using hload.append _
    · have := Store.published_replaceWritable (s.seen v) w' (s.written w' changes)
        (by simpa using hpub) (by simpa using hmem) rfl (by simpa using hid)
      simpa using this
    · cases hu
      refine ⟨s.written w' changes, by simp, .inr ⟨_, rfl⟩, ?_, ?_⟩
      · rw [batches_concat_committed, List.foldl_append, ← htable]
        rfl
      · rw [Store.fixed_seen]
        refine Eq.trans ?_ (hamong.renewed_renewed hstem _)
        rw [← hfixed, ← Store.fixed_seen v s]
        rfl

theorem Accounts.finish {s : Store} (h : Accounts fixed writable first os s) (v : View Id)
    (providers : List Provider) (number : Nat) (loaded : Loaded) :
    Accounts fixed writable first
      (os ++ [.finished number loaded (s.finishReload v providers number loaded).1])
      (s.finishReload v providers number loaded).2 := by
  rcases Store.finishReload_cases v providers number loaded s with hf | ⟨-, hf⟩ | ⟨event, -, hf, -⟩
  · rw [hf]
    exact h.congr rfl rfl rfl rfl rfl
  · rw [hf]
    exact h.congr rfl (by simp) (by simp) (by simp) (by simp [Store.version])
  · rw [hf]
    refine ⟨⟨loaded, ?_, by simp⟩, ?_, fun w hw => ?_⟩
    · simpa using LoadedBy.reload (List.mem_append_right os List.mem_cons_self)
    · simpa using h.unwritten
    · obtain ⟨w', hw', hstem, htable, hfixed⟩ := h.written w hw
      refine ⟨w', by simpa using hw', hstem, ?_, by simpa using hfixed⟩
      rw [batches_concat_of_none rfl, htable]

theorem Accounts.step (h : Accounts fixed writable first os c.store)
    (hw : ∀ w, writable = some w → w.IsAmong fixed)
    (hl : ∀ w, writable = some w → ∀ number loaded, LoadedBy first os number loaded →
      loaded.Tells w) (step : Step v providers os c o d) :
    Accounts fixed writable first (os ++ [o]) d.store := by
  cases step with
  | commit changes => exact h.commit hw hl v changes
  | refresh => exact h.congr rfl rfl rfl rfl rfl
  | start => exact h.congr rfl rfl rfl rfl rfl
  | finish loaded _ => exact h.finish v providers _ loaded
  | read => exact h.congr rfl (by simp) (by simp) (by simp) (by simp [Store.version])
  | keep _ => exact h.congr rfl (by simp) (by simp) (by simp) (by simp [Store.version])

theorem Accounts.run (hw : ∀ w, writable = some w → w.IsAmong fixed)
    (run : Run v providers (.initial fixed writable first) os c)
    (hl : ∀ w, writable = some w → ∀ number loaded, LoadedBy first os number loaded →
      loaded.Tells w) : Accounts fixed writable first os c.store := by
  induction run with
  | nil =>
    refine ⟨⟨first, .first, rfl⟩, fun hn => ⟨hn, rfl⟩, fun w hs => ?_⟩
    exact ⟨w, hs, .inl rfl, rfl, (hw w hs).renewed_self.symm⟩
  | snoc _ step ih =>
    have hl' := fun w hs number loaded (h : LoadedBy first _ number loaded) =>
      hl w hs number loaded (h.append _)
    exact (ih hl').step hw hl' step

/-- **No update is lost.** Whatever happens to a context in whatever order, the published set is the
one that registering the fixed sources as they are now and the sources of the published load would
give; the writable source among the fixed ones holds what it held at first with all the committed
batches, in the order of the commits; and the version is one more than there were publications. -/
theorem published_eq_of_run (hw : ∀ w, writable = some w → w.IsAmong fixed)
    (run : Run v providers (.initial fixed writable first) os c)
    (hl : ∀ w, writable = some w → ∀ number loaded, LoadedBy first os number loaded →
      loaded.Tells w) :
    (∃ loaded, LoadedBy first os c.store.publishedReload loaded) ∧
    (∀ loaded, LoadedBy first os c.store.publishedReload loaded →
      c.store.published = .ofSources (c.store.fixed ++ loaded.sources) c.store.version) ∧
    (∀ w, writable = some w → ∃ w', c.store.writable = some w' ∧
      w'.table = (batches os).foldl Table.withChanges w.table ∧
      c.store.fixed = fixed.map fun t => t.renewed w.id w'.toSource) ∧
    (writable = none → c.store.fixed = fixed) ∧
    c.store.version = 1 + os.countP Occurrence.publishes := by
  have h := Accounts.run hw run hl
  obtain ⟨loaded, hload, hpub⟩ := h.published
  refine ⟨⟨loaded, hload⟩, fun other hother => ?_, fun w hs => ?_, fun hn => (h.unwritten hn).2, ?_⟩
  · rw [hother.unique run hload]
    exact hpub
  · obtain ⟨w', hw', -, htable, hfixed⟩ := h.written w hs
    exact ⟨w', hw', htable, hfixed⟩
  · exact run.version

/-- A source to write to, and one with defaults in front of it. -/
def overrides : Writable := ⟨.object 1, .ofPairs "overrides" [("port", "80")]⟩

def defaults : Source := (Table.ofPairs "defaults" [("port", "8080")]).toSource (.object 0)

/-- A load that gives a source of a file, and one whose name is taken. -/
def fileLoad : Loaded :=
  ⟨[(Table.ofPairs "a.conf" [("host", "a")]).toSource (.file "a.conf"),
    (Table.ofPairs "overrides" [("port", "90")]).toSource (.file "overrides")], 0⟩

theorem isAmong_overrides : overrides.IsAmong [defaults, overrides.toSource] where
  mem := List.mem_cons_of_mem _ List.mem_cons_self
  eq_of_id s hs h := by
    rcases List.mem_cons.1 hs with rfl | hs
    · exact absurd h (by decide)
    · exact List.mem_singleton.1 hs
  not_copy s hs n := by
    rcases List.mem_cons.1 hs with rfl | hs
    · exact Identity.noConfusion
    · cases List.mem_singleton.1 hs
      exact Identity.noConfusion

theorem tells_fileLoad : fileLoad.Tells overrides := by
  intro s hs h
  rcases List.mem_cons.1 hs with rfl | hs
  · rcases h with h | ⟨n, h⟩ <;> cases h
  · cases List.mem_singleton.1 hs
    rfl

/-- The source to write to with an ordinal of its own and another port, in the version published
next. -/
def lowered : Writable :=
  ⟨.copy 3, overrides.table.withChanges [.put ordinalKey "-5", .put "port" "81"]⟩

/-- Two reloads overlap: the second overtakes the first, whose end a commit of an ordinal
precedes. -/
theorem exists_overtaking_run : ∃ os c,
    Run ⟨⟨[]⟩, ⟨∅, []⟩, true⟩ []
      (.initial [defaults, overrides.toSource] (some overrides) ⟨[], 0⟩) os c ∧
    batches os = [[.put ordinalKey "-5", .put "port" "81"]] ∧
    c.store.publishedReload = 2 ∧ c.store.writable = some lowered ∧
    LoadedBy ⟨[], 0⟩ os 2 fileLoad ∧ os.countP Occurrence.publishes = 2 ∧
    ∀ number loaded, LoadedBy ⟨[], 0⟩ os number loaded → loaded = fileLoad ∨ loaded = ⟨[], 0⟩ := by
  refine ⟨_, _, .snoc (.snoc (.snoc (.snoc (.snoc .nil .start) .start)
    (@Step.finish _ _ _ _ 2 fileLoad (by simp [UnderWay, Store.startReload, Store.initial])))
    (.commit [.put ordinalKey "-5", .put "port" "81"]))
    (@Step.finish _ _ _ _ 1 ⟨[], 0⟩ (by simp [UnderWay, Store.startReload, Store.initial])),
    rfl, rfl, rfl, .reload (List.mem_append_left _ (List.mem_append_left _
      (List.mem_append_right _ List.mem_cons_self))), rfl, fun number loaded h => ?_⟩
  cases h with
  | first => exact .inr rfl
  | reload h =>
    simp only [List.mem_append, List.mem_singleton, List.not_mem_nil, reduceCtorEq, false_or,
      Occurrence.finished.injEq] at h
    rcases h with (⟨-, h, -⟩ | h) | ⟨-, h, -⟩
    · exact .inl h
    · exact h.elim
    · exact .inr h

/-- The set published in the end: the copy with the written pairs stands below the defaults, and the
source that was loaded under its name is left out. -/
theorem published_eq_of_overtaking_run :
    ∃ os c, Run ⟨⟨[]⟩, ⟨∅, []⟩, true⟩ []
        (.initial [defaults, overrides.toSource] (some overrides) ⟨[], 0⟩) os c ∧
      overrides.IsAmong [defaults, overrides.toSource] ∧ fileLoad.Tells overrides ∧
      batches os = [[.put ordinalKey "-5", .put "port" "81"]] ∧
      c.store.writable = some lowered ∧
      lowered.table = (batches os).foldl Table.withChanges overrides.table ∧
      lowered.table.pairs.entries = [(ordinalKey, "-5"), ("port", "81")] ∧
      c.store.fixed = [defaults, lowered.toSource] ∧
      c.store.publishedReload = 2 ∧ c.store.version = 3 ∧
      c.store.published = .ofSources ([defaults, lowered.toSource] ++ fileLoad.sources) 3 ∧
      c.store.published.summary = [("overrides", -5), ("a.conf", 0), ("defaults", 0)] := by
  obtain ⟨os, c, run, hbatch, hreload, hwritable, hload, hcount, hloads⟩ := exists_overtaking_run
  have hall : ∀ w, some overrides = some w → ∀ number loaded,
      LoadedBy ⟨[], 0⟩ os number loaded → loaded.Tells w := by
    intro w hw number loaded h
    cases hw
    rcases hloads number loaded h with rfl | rfl
    · exact tells_fileLoad
    · exact fun s hs => absurd hs List.not_mem_nil
  obtain ⟨-, hpublished, hwritten, -, hversion⟩ :=
    published_eq_of_run (fun w h => Option.some.inj h ▸ isAmong_overrides) run hall
  obtain ⟨w', hw', htable, hfixed⟩ := hwritten overrides rfl
  obtain rfl : lowered = w' := Option.some.inj (hwritable.symm.trans hw')
  rw [hcount] at hversion
  have hset := hpublished fileLoad (hreload ▸ hload)
  rw [hfixed, hversion] at hset
  refine ⟨os, c, run, isAmong_overrides, tells_fileLoad, hbatch, hwritable, htable,
    by decide +kernel, hfixed, hreload, hversion, hset, ?_⟩
  rw [hset]
  decide +kernel

end Course

end LayeredConfig
