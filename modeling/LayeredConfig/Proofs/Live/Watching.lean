import LayeredConfig.Proofs.Live.Unwritable
import LayeredConfig.Proofs.Provider.Loading
import Mathlib.Data.List.Nodup

/-! # Watching a directory

A context that is loaded from the files of a directory alone, and a watch that looks at the
directory again and again and reloads the context when it has changed. Files change at any time,
also between a look and the reload it leads to, and while a load goes from file to file. Meanwhile
the program reads the context and registers listeners.

The watch remembers what it saw last, not what was loaded. A load comes behind the look it belongs
to, so what it may have missed has changed since, and the next look sees that, if no fingerprint
comes back once the directory has changed (`Distinguishes`). The load of the build has no look in
front of it, so what changes between the two is not seen until something else changes
(`published_of_unchanged`, `not_published_of_unseen`). -/

namespace LayeredConfig

theorem Watch.eq_of_start {paths : List String} {interval : Duration} {files : FileTree} {w : Watch}
    (h : Watch.start paths interval files = .ok w) :
    w = ⟨paths, interval, files.fingerprint paths⟩ := by
  unfold Watch.start at h
  split at h
  · cases h
  · split at h
    · cases h
    · exact (Except.ok.inj h).symm

/-- Where the watch of a context is. -/
inductive WatchPhase
  /-- It waits for the time of its next look. -/
  | resting
  /-- It has found a change, and a reload is to come. -/
  | due
  /-- The reload with a number loads, while the files go through some trees. -/
  | loading (number : Nat) (moments : List FileTree)

/-- A context at work that is watched. -/
structure Watching where
  live : Live
  watch : Watch
  phase : WatchPhase := .resting

/-- The trees that a load has met, when the files have become another. -/
def WatchPhase.meet (files : FileTree) : WatchPhase → WatchPhase
  | resting => resting
  | due => due
  | loading number moments => loading number (moments ++ [files])

namespace Watching

open FileSelection

/-- Whether the watch would find the files as it remembers them. -/
def FindsNothing (s : Watching) : Prop := (s.watch.poll s.live.files).1 = false

instance (s : Watching) : Decidable s.FindsNothing :=
  inferInstanceAs (Decidable ((s.watch.poll s.live.files).1 = false))

theorem findsNothing_iff (s : Watching) :
    s.FindsNothing ↔ s.live.files.fingerprint s.watch.paths = s.watch.last := by
  simp [FindsNothing, Watch.poll]

/-- The files become another tree, which a load that is under way may meet. -/
def change (s : Watching) (files : FileTree) : Watching where
  live := { s.live with files }
  watch := s.watch
  phase := s.phase.meet files

/-- The watch looks and remembers what it sees. -/
def look (s : Watching) (phase : WatchPhase) : Watching where
  live := s.live
  watch := (s.watch.poll s.live.files).2
  phase := phase

/-- A reload takes its number and begins to load. -/
def start (s : Watching) : Watching where
  live := { s.live with store := s.live.store.startReload.2 }
  watch := s.watch
  phase := .loading s.live.store.startReload.1 [s.live.files]

/-- The context has been used by the program. -/
def use (s : Watching) (live : Live) : Watching := { s with live }

/-- The reload with a number ends with what it has loaded. -/
def finish (s : Watching) (number : Nat) (loaded : Loaded) : Watching where
  live := ((Live.finishReload number loaded).run s.live).2
  watch := s.watch

/-- What may happen next, with the trees that the files become. -/
inductive Turn (f : FileSelection) (s : Watching) : List FileTree → Watching → Prop
  | change (files : FileTree) : Turn f s [files] (s.change files)
  /-- A look that finds nothing is all there is to it. -/
  | pass (h : s.phase = .resting) (hnothing : s.FindsNothing) : Turn f s [] (s.look .resting)
  /-- A look that finds a change leads to a reload. -/
  | find (h : s.phase = .resting) (hchanged : ¬ s.FindsNothing) : Turn f s [] (s.look .due)
  | start (h : s.phase = .due) : Turn f s [] s.start
  /-- A snapshot is read, and kept. -/
  | read (built : Snapshot) :
    Turn f s [] (s.use { s.live with store := s.live.store.keep built })
  /-- Listeners come and go. -/
  | listen {live : Live} (hstays : s.live.Stays live) : Turn f s [] (s.use live)
  | finish {number : Nat} {moments : List FileTree} {loaded : Loaded}
    (h : s.phase = .loading number moments) (hloaded : f.LoadsDuring moments loaded) :
    Turn f s [] (s.finish number loaded)

/-- Any number of turns, one behind the other, with all trees that the files become. -/
inductive Run (f : FileSelection) (s : Watching) : List FileTree → Watching → Prop
  | nil : Run f s [] s
  | snoc {trees more : List FileTree} {t u : Watching} (run : Run f s trees t)
    (turn : Turn f t more u) : Run f s (trees ++ more) u

/-- Whether the sources that are published are those of a tree of files, if they can be read. -/
def Publishes (f : FileSelection) (store : Store) (files : FileTree) : Prop :=
  ∀ sources, f.sources files = .ok sources →
    store.published = .ofSources sources store.version

/-- Whether no fingerprint of a directory comes back in the course of time once the directory reads
otherwise. -/
def Distinguishes (directory : String) (history : List FileTree) : Prop :=
  ∀ before t between u behind, history = before ++ t :: (between ++ u :: behind) →
    u.fingerprint [directory] = t.fingerprint [directory] →
    ∀ m ∈ between ++ [u], t.SameUnder directory m

/-- Whether a context is what has been built of a selection of files alone, while these went through
some trees, but for the snapshot that is kept. -/
structure BuiltFrom (f : FileSelection) (moments : List FileTree) (l : Live) : Prop where
  providers : l.setup.providers = [f.toProvider]
  store : ∃ loaded, f.LoadsDuring moments loaded ∧
    { l.store with cached := none } = Store.initial [] none loaded
  armed : l.armed = none

/-- What holds of a store in a phase, if the watch remembers what it saw at the moment `t` and the
files have gone through the trees `since` from there on. -/
def Agrees (f : FileSelection) (fresh : Prop) (store : Store) (t : FileTree)
    (since : List FileTree) : WatchPhase → Prop
  | .resting => (fresh ∨ 0 < store.reloads) → (∀ m ∈ since, t.SameUnder f.directory m) →
    Publishes f store t
  | .due => True
  | .loading number moments => number = store.reloads ∧ ∀ m ∈ moments, m ∈ t :: since

/-- What holds of a watched context at any time. Between reloads the published sources are those of
the moment that the watch remembers, if the directory has stayed since, and what a reload reads has
been there since that moment. -/
structure Keeps (f : FileSelection) (fresh : Prop) (history : List FileTree) (s : Watching) :
    Prop where
  providers : s.live.setup.providers = [f.toProvider]
  paths : s.watch.paths = [f.directory]
  unwritable : s.live.Unwritable
  fixed : s.live.store.fixed = []
  numbers : s.live.store.publishedReload ≤ s.live.store.reloads
  moment : ∃ before t since, history = before ++ t :: since ∧
    s.watch.last = t.fingerprint [f.directory] ∧ s.live.files = since.getLast?.getD t ∧
    Agrees f fresh s.live.store t since s.phase

section

variable {f : FileSelection} {fresh : Prop} {history more : List FileTree} {s s' : Watching}
  {t : FileTree} {since : List FileTree}

theorem Agrees.meet {store : Store} {phase : WatchPhase} (h : Agrees f fresh store t since phase)
    (files : FileTree) : Agrees f fresh store t (since ++ [files]) (phase.meet files) := by
  cases phase with
  | resting => exact fun hfresh hsame => h hfresh fun m hm => hsame m (List.mem_append_left _ hm)
  | due => trivial
  | loading number moments =>
    obtain ⟨hnumber, hmoments⟩ := h
    refine ⟨hnumber, fun m hm => ?_⟩
    rw [← List.cons_append]
    rcases List.mem_append.1 hm with hm | hm
    · exact List.mem_append_left _ (hmoments m hm)
    · exact List.mem_append_right _ hm

theorem Agrees.congr {store store' : Store} {phase : WatchPhase}
    (h : Agrees f fresh store t since phase) (hpublished : store'.published = store.published)
    (hreloads : store'.reloads = store.reloads) : Agrees f fresh store' t since phase := by
  cases phase with
  | resting =>
    intro hfresh hsame sources hsources
    rw [hreloads] at hfresh
    unfold Store.version
    rw [hpublished]
    exact h hfresh hsame sources hsources
  | due => trivial
  | loading number moments => exact ⟨h.1.trans hreloads.symm, h.2⟩

/-- A load of the directory as it is publishes its sources. -/
theorem publishes_finishReload {store : Store} {v : View Id} {number : Nat}
    (hfixed : store.fixed = []) (hnumber : store.publishedReload ≤ number) :
    Publishes f (store.finishReload v [f.toProvider] number (.ofResult (f.sources t))).2 t := by
  intro sources hsources
  rw [hsources]
  have hsome : (Provider.allFailed [f.toProvider] (.ofResult (.ok sources)) &&
      store.fixed.isEmpty) = false := by
    simp [Provider.allFailed, Loaded.ofResult]
  rw [Store.finishReload_of_new v hsome hnumber]
  simp [hfixed, Loaded.ofResult]

theorem exists_front (t : FileTree) (since : List FileTree) :
    ∃ front, t :: since = front ++ [since.getLast?.getD t] := by
  rcases List.eq_nil_or_concat' since with rfl | ⟨front, last, rfl⟩
  · exact ⟨[], rfl⟩
  · exact ⟨t :: front, by simp⟩

/-- Each turn keeps what holds. -/
theorem Keeps.turn (h : Keeps f fresh history s) (turn : Turn f s more s') :
    Keeps f fresh (history ++ more) s' := by
  obtain ⟨before, t, since, hhistory, hlast, hfiles, hagrees⟩ := h.moment
  have hpoll : (s.watch.poll s.live.files).2.last = s.live.files.fingerprint [f.directory] := by
    show s.live.files.fingerprint s.watch.paths = _
    rw [h.paths]
  cases turn with
  | change files =>
    refine ⟨h.providers, h.paths, ⟨h.unwritable.armed, h.unwritable.writable⟩, h.fixed, h.numbers,
      before, t, since ++ [files], ?_, hlast, ?_, hagrees.meet files⟩
    · rw [hhistory, List.append_assoc, List.cons_append]
    · rw [List.getLast?_concat, Option.getD_some]
      rfl
  | pass hphase hnothing =>
    rw [hphase] at hagrees
    rw [List.append_nil]
    have hsame : s.live.files.fingerprint s.watch.paths = s.watch.last :=
      (findsNothing_iff s).1 hnothing
    exact ⟨h.providers, h.paths, h.unwritable, h.fixed, h.numbers, before, t, since, hhistory,
      hsame.trans hlast, hfiles, hagrees⟩
  | find hphase hchanged =>
    -- What the files are now is the moment of what is remembered from here on.
    obtain ⟨front, hfront⟩ := exists_front t since
    rw [List.append_nil]
    refine ⟨h.providers, h.paths, h.unwritable, h.fixed, h.numbers, before ++ front,
      s.live.files, [], ?_, hpoll, rfl, trivial⟩
    rw [hhistory, hfront, ← hfiles, List.append_assoc]
  | start hphase =>
    rw [List.append_nil]
    refine ⟨h.providers, h.paths, ⟨h.unwritable.armed, h.unwritable.writable⟩, h.fixed,
      Nat.le_succ_of_le h.numbers, before, t, since, hhistory, hlast, hfiles, rfl, ?_⟩
    rw [List.forall_mem_singleton, hfiles]
    obtain ⟨front, hfront⟩ := exists_front t since
    rw [hfront]
    exact List.mem_append_right _ (List.mem_singleton_self _)
  | read built =>
    rw [List.append_nil]
    have hreloads := Store.reloads_keep s.live.store built
    refine ⟨h.providers, h.paths, ⟨h.unwritable.armed, ?_⟩, ?_, ?_, before, t, since, hhistory,
      hlast, hfiles, hagrees.congr (Store.published_keep _ built) hreloads⟩
    · exact (Store.writable_keep _ built).trans h.unwritable.writable
    · exact (Store.fixed_keep _ built).trans h.fixed
    · show (s.live.store.keep built).publishedReload ≤ (s.live.store.keep built).reloads
      rw [hreloads, Store.publishedReload_keep]
      exact h.numbers
  | @listen live hstays =>
    rw [List.append_nil]
    refine ⟨hstays.setup ▸ h.providers, h.paths, Live.staying.keeps h.unwritable hstays, ?_, ?_,
      before, t, since, hhistory, hlast, hstays.files.trans hfiles, ?_⟩
    · exact hstays.store ▸ h.fixed
    · exact hstays.store ▸ h.numbers
    · exact hstays.store ▸ hagrees
  | @finish number moments loaded hphase hloaded =>
    rw [hphase] at hagrees
    obtain ⟨rfl, hmoments⟩ := hagrees
    obtain ⟨hunwritable, hstays⟩ := h.unwritable.finishReload_stays s.live.store.reloads loaded
    have hstore : (s.finish s.live.store.reloads loaded).live.store = _ := hstays.store
    rw [List.append_nil]
    refine ⟨hstays.setup ▸ h.providers, h.paths, hunwritable, ?_, ?_, before, t, since, hhistory,
      hlast, hstays.files.trans hfiles, fun _ hsame => ?_⟩
    · rw [hstore]
      exact (Store.fixed_finishReload _ _ _ _ _).trans h.fixed
    · rw [hstore, Store.reloads_finishReload]
      exact Store.publishedReload_finishReload_le _ _ _ h.numbers (Nat.le_refl _)
    · have hread : ∀ m ∈ moments, t.SameUnder f.directory m := fun m hm => by
        rcases List.mem_cons.1 (hmoments m hm) with rfl | hm
        · exact .refl _ _
        · exact hsame m hm
      rw [hstore, h.providers, hloaded.eq_ofResult hread]
      exact publishes_finishReload h.fixed h.numbers

theorem Keeps.run (h : Keeps f fresh history s) {trees : List FileTree} (run : Run f s trees s') :
    Keeps f fresh (history ++ trees) s' := by
  induction run with
  | nil => rwa [List.append_nil]
  | snoc _ turn ih =>
    rw [← List.append_assoc]
    exact ih.turn turn

/-- If the watch finds nothing, the directory has stayed since the moment of what it remembers. -/
theorem Keeps.publishes (h : Keeps f fresh history s) (hresting : s.phase = .resting)
    (hnothing : s.FindsNothing) (hdistinct : Distinguishes f.directory history)
    (hfresh : fresh ∨ 0 < s.live.store.reloads) : Publishes f s.live.store s.live.files := by
  obtain ⟨before, t, since, hhistory, hlast, hfiles, hagrees⟩ := h.moment
  rw [hresting] at hagrees
  have hsame : s.live.files.fingerprint [f.directory] = t.fingerprint [f.directory] := by
    rw [← hlast, ← h.paths]
    exact (findsNothing_iff s).1 hnothing
  have hstayed : ∀ m ∈ since, t.SameUnder f.directory m := by
    rcases List.eq_nil_or_concat' since with rfl | ⟨between, u, rfl⟩
    · exact fun m hm => absurd hm List.not_mem_nil
    · rw [List.getLast?_concat, Option.getD_some] at hfiles
      rw [hfiles] at hsame
      exact hdistinct before t between u [] hhistory hsame
  have hnow : t.SameUnder f.directory s.live.files := by
    rw [hfiles]
    cases hlast : since.getLast? with
    | none => exact .refl _ _
    | some u => exact hstayed u (List.mem_of_getLast? hlast)
  intro sources hsources
  rw [sources_eq_of_sameUnder hnow] at hsources
  exact hagrees hfresh hstayed sources hsources

theorem Keeps.getLast?_eq (h : Keeps f fresh history s) : history.getLast? = some s.live.files := by
  obtain ⟨before, t, since, rfl, -, hfiles, -⟩ := h.moment
  obtain ⟨front, hfront⟩ := exists_front t since
  rw [hfront, ← List.append_assoc, List.getLast?_concat, hfiles]

theorem BuiltFrom.keeps {l : Live} {w : Watch} {moments : List FileTree} {interval : Duration}
    (h : BuiltFrom f moments l) (hstart : Watch.start [f.directory] interval l.files = .ok w) :
    Keeps f (∀ m ∈ moments, l.files.SameUnder f.directory m) [l.files]
      { live := l, watch := w } := by
  obtain ⟨loaded, hloaded, hstore⟩ := h.store
  obtain rfl := Watch.eq_of_start hstart
  have hpublished : l.store.published = .ofSources ([] ++ loaded.sources) 1 :=
    congrArg Store.published hstore
  have hreloads : l.store.reloads = 0 := congrArg Store.reloads hstore
  have hnumbers : l.store.publishedReload ≤ l.store.reloads := by
    rw [hreloads]
    exact Nat.le_of_eq (congrArg Store.publishedReload hstore)
  have hpublishes (hfresh : (∀ m ∈ moments, l.files.SameUnder f.directory m) ∨
      0 < l.store.reloads) : Publishes f l.store l.files := by
    intro sources hsources
    rw [hreloads] at hfresh
    unfold Store.version
    rw [hpublished, hloaded.eq_ofResult (hfresh.resolve_right (Nat.lt_irrefl 0)), hsources]
    rfl
  exact ⟨h.providers, rfl, ⟨h.armed, congrArg Store.writable hstore⟩, congrArg Store.fixed hstore,
    hnumbers, [], l.files, [], rfl, rfl, rfl, fun hfresh _ => hpublishes hfresh⟩

end

/-! ### What a context and its watch do -/

/-- A build from a single provider of files is made of them alone. -/
theorem builtFrom_of_build {f : FileSelection} {b : Builder} {files : FileTree} {l : Live}
    (hsources : b.sources = []) (hwritable : b.writable = none)
    (hproviders : b.providers = [f.toProvider])
    (hbuild : b.build files = .ok (l.setup, l.store)) (harmed : l.armed = none) :
    BuiltFrom f [files] l := by
  have hsetup : b.setup.providers = [f.toProvider] := hproviders
  unfold Builder.build at hbuild
  dsimp only at hbuild
  split at hbuild
  · cases hbuild
  · obtain ⟨hl, hstore⟩ := Prod.mk.inj (Except.ok.inj hbuild)
    refine ⟨(congrArg Setup.providers hl).symm.trans hsetup, ⟨b.setup.load 0 files, ?_, ?_⟩,
      harmed⟩
    · exact loadsDuring_load hsetup _ _
    · rw [← hstore, hsources, hwritable]
      rfl

theorem reload_run_of_toProvider {f : FileSelection} {l : Live}
    (hp : l.setup.providers = [f.toProvider]) :
    Live.reload.run l = (Live.finishReload l.store.startReload.1
      (l.setup.load l.store.startReload.1 l.files)).run
        { l with store := l.store.startReload.2 } := by
  unfold Live.reload
  rw [StateT.run_bind, StateT.run_get, pure_bind, hp]
  show (Live.reloadWithin 0).run l = _
  unfold Live.reloadWithin
  dsimp only
  rw [StateT.run_bind, Live.onStore_run, pure_bind, StateT.run_bind, StateT.run_get, pure_bind]

/-- Where the files do not change on the way, a look and the reload it leads to are turns. -/
theorem run_pollOnce {f : FileSelection} {s : Watching} (h : s.phase = .resting)
    (hp : s.live.setup.providers = [f.toProvider]) :
    ∃ w l, (Live.pollOnce s.watch).run s.live = pure (w, l) ∧
      Run f s [] { live := l, watch := w } := by
  unfold Live.pollOnce
  rw [StateT.run_bind, StateT.run_get, pure_bind]
  dsimp only
  cases hfound : (s.watch.poll s.live.files).1 with
  | false =>
    refine ⟨_, s.live, rfl, ?_⟩
    exact Run.nil.snoc (.pass h hfound)
  | true =>
    refine ⟨_, (Live.reload.run s.live).2, rfl, ?_⟩
    have hchanged : ¬ s.FindsNothing := by simp [FindsNothing, hfound]
    rw [reload_run_of_toProvider hp]
    exact ((Run.nil.snoc (.find h hchanged)).snoc (.start rfl)).snoc
      (.finish rfl (loadsDuring_load hp _ _))

/-- **The watch leaves no change behind**, once the directory has not changed between the load of
the build and the start of the watch, or the watch has found a change. Let no fingerprint come back
when the directory has changed. Whatever becomes of the files, and whenever, at a look that finds
nothing the published sources are those of the files as they are, if these can be loaded. -/
theorem published_of_unchanged {f : FileSelection} {l : Live} {w : Watch} {interval : Duration}
    {moments trees : List FileTree} {s : Watching} (hbuilt : BuiltFrom f moments l)
    (hstart : Watch.start [f.directory] interval l.files = .ok w)
    (run : Run f { live := l, watch := w } trees s)
    (hdistinct : Distinguishes f.directory (l.files :: trees)) (hresting : s.phase = .resting)
    (hnothing : s.FindsNothing)
    (hfresh : (∀ m ∈ moments, l.files.SameUnder f.directory m) ∨ 0 < s.live.store.reloads) :
    ∀ sources, f.sources s.live.files = .ok sources →
      s.live.store.published = .ofSources sources s.live.store.version :=
  ((hbuilt.keeps hstart).run run).publishes hresting hnothing hdistinct hfresh

/-! ### A file that is watched

It is written, edited, edited again or removed, and created anew. -/

/-- Fingerprints that all differ tell any two moments apart. -/
theorem distinguishes_of_nodup {directory : String} {history : List FileTree}
    (h : (history.map (·.fingerprint [directory])).Nodup) : Distinguishes directory history := by
  rintro before t between u behind rfl hsame
  rw [List.map_append, List.map_cons, List.map_append, List.map_cons] at h
  have ht := (List.nodup_cons.1 (List.nodup_append.1 h).2.1).1
  refine absurd (List.mem_append_right _ ?_) ht
  rw [← hsame]
  exact List.mem_cons_self

/-- The settings in a single file. -/
def appConf : FileSelection where
  directory := "conf"
  selects := fun name => name = "app.conf"
  format := .keyValue

def withAppConf (t : FileTree) (text : String) : FileTree :=
  t.put "conf/app.conf" (.file (.text text))

def written : FileTree := withAppConf .empty "k=1\n"

def edited : FileTree := withAppConf written "k=22\n"

def editedAgain : FileTree := withAppConf edited "k=333\n"

def removed : FileTree := (edited.remove "conf/app.conf").2

def created : FileTree := withAppConf removed "k=4444\n"

def appBuilder : Builder := { providers := [appConf.toProvider] }

/-- A context that was built from one tree of files, and is watched from another one on. -/
def watched (built files : FileTree) : Watching where
  live :=
    { setup := appBuilder.setup
      store := .initial [] none (appBuilder.setup.load 0 built)
      files }
  watch := ⟨["conf"], .ofMilliseconds 10, files.fingerprint ["conf"]⟩

theorem build_watched (files : FileTree) : appBuilder.build written =
    .ok ((watched written files).live.setup, (watched written files).live.store) := by
  unfold Builder.build
  exact if_neg (by decide +kernel)

theorem start_watched (built files : FileTree) :
    Watch.start ["conf"] (.ofMilliseconds 10) files = .ok (watched built files).watch :=
  (if_neg (by decide)).trans (if_neg (by decide))

/-- The text of the setting in a set of sources. -/
def textIn (set : SourceSet) : Option String := (set.lookup "k").bind (·.value)

/-- The text of the setting in what is loaded from a tree of files. -/
def textOf (files : FileTree) : Option String :=
  (appConf.sources files).toOption.bind fun sources => textIn (.ofSources sources 1)

theorem Publishes.textIn_eq {store : Store} {files : FileTree} {text : String}
    (h : Publishes appConf store files) (htext : textOf files = some text) :
    textIn store.published = some text := by
  unfold textOf at htext
  cases hsources : appConf.sources files with
  | error error =>
    rw [hsources] at htext
    cases htext
  | ok sources =>
    rw [hsources] at htext
    rw [h sources hsources]
    exact htext

/-- The file is edited and taken away before the reload begins, and a new one is put there before
the reload ends. -/
def missed : Watching :=
  (((watched written written).change edited).look .due |>.change removed |>.start
    |>.change created).finish 1 (.ofResult (appConf.sources removed))

/-- Another look has led to another reload. -/
def caughtUp : Watching :=
  ((missed.look .due).start).finish 2 (.ofResult (appConf.sources created))

theorem run_missed : Run appConf (watched written written) [edited, removed, created] missed := by
  have hfound : ¬ ((watched written written).change edited).FindsNothing := by decide +kernel
  have hremoved := ((Run.nil.snoc (.change edited)).snoc (.find (f := appConf) rfl hfound)).snoc
    (.change removed)
  exact ((hremoved.snoc (.start rfl)).snoc (.change created)).snoc
    (.finish rfl (loadsDuring_of_mem List.mem_cons_self))

theorem run_caughtUp :
    Run appConf (watched written written) [edited, removed, created] caughtUp := by
  have hfound : ¬ missed.FindsNothing := by decide +kernel
  exact ((run_missed.snoc (.find rfl hfound)).snoc (.start rfl)).snoc
    (.finish rfl (loadsDuring_of_mem List.mem_cons_self))

theorem published_of_unchanged_caughtUp :
    Run appConf (watched written written) [edited, removed, created] caughtUp ∧
    Distinguishes "conf" [written, edited, removed, created] ∧
    caughtUp.phase = .resting ∧ caughtUp.FindsNothing ∧ caughtUp.live.files = created ∧
    textIn caughtUp.live.store.published = some "4444" := by
  have hbuilt : BuiltFrom appConf [written] (watched written written).live :=
    builtFrom_of_build rfl rfl rfl (build_watched written) rfl
  have hstart := start_watched written written
  have hdistinct : Distinguishes "conf" [written, edited, removed, created] :=
    distinguishes_of_nodup (by decide +kernel)
  have hnothing : caughtUp.FindsNothing := by decide +kernel
  have hfiles : created = caughtUp.live.files :=
    Option.some.inj ((hbuilt.keeps hstart).run run_caughtUp).getLast?_eq
  have hpublishes : Publishes appConf caughtUp.live.store caughtUp.live.files :=
    published_of_unchanged hbuilt hstart run_caughtUp hdistinct rfl hnothing
      (.inr (by decide +kernel))
  have htext : textOf caughtUp.live.files = some "4444" := by
    rw [← hfiles]
    decide +kernel
  exact ⟨run_caughtUp, hdistinct, rfl, hnothing, hfiles.symm, hpublishes.textIn_eq htext⟩

/-- The file is edited after a look, and is as it was at that look when the reload has ended. -/
def overtaken : Watching :=
  (((watched written written).change edited).look .due |>.change editedAgain |>.start
    |>.change edited).finish 1 (.ofResult (appConf.sources editedAgain))

/-- The directory is gone, and the reload has failed. -/
def emptied : Watching :=
  (((watched written written).change .empty).look .due).start.finish 1
    (.ofResult (appConf.sources .empty))

theorem run_overtaken :
    Run appConf (watched written written) [edited, editedAgain, edited] overtaken := by
  have hfound : ¬ ((watched written written).change edited).FindsNothing := by decide +kernel
  have hedited := ((Run.nil.snoc (.change edited)).snoc (.find (f := appConf) rfl hfound)).snoc
    (.change editedAgain)
  exact ((hedited.snoc (.start rfl)).snoc (.change edited)).snoc
    (.finish rfl (loadsDuring_of_mem List.mem_cons_self))

theorem run_emptied : Run appConf (watched written written) [.empty] emptied := by
  have hfound : ¬ ((watched written written).change .empty).FindsNothing := by decide +kernel
  exact (((Run.nil.snoc (.change .empty)).snoc (.find rfl hfound)).snoc (.start rfl)).snoc
    (.finish rfl (loadsDuring_of_mem List.mem_cons_self))

/-- What has changed between the build and the start of the watch is not seen, nor is what only a
load has met. Where there is nothing to load, what is published stays. -/
theorem not_published_of_unseen :
    (appBuilder.build written =
        .ok ((watched written edited).live.setup, (watched written edited).live.store) ∧
      Watch.start ["conf"] (.ofMilliseconds 10) edited = .ok (watched written edited).watch ∧
      Distinguishes "conf" [written, edited] ∧ (watched written edited).FindsNothing ∧
      ¬ Publishes appConf (watched written edited).live.store edited) ∧
    (Run appConf (watched written written) [edited, editedAgain, edited] overtaken ∧
      (∀ t ∈ [written, edited, editedAgain], ∀ u ∈ [written, edited, editedAgain],
        u.fingerprint ["conf"] = t.fingerprint ["conf"] → t.SameUnder "conf" u) ∧
      overtaken.phase = .resting ∧ overtaken.FindsNothing ∧
      ¬ Publishes appConf overtaken.live.store edited) ∧
    Run appConf (watched written written) [.empty] emptied ∧
      emptied.phase = .resting ∧ emptied.FindsNothing ∧
      (∃ e, appConf.sources .empty = .error e) ∧
      textIn emptied.live.store.published = some "1" := by
  have htext : textOf edited = some "22" := by decide +kernel
  have hnodup : ([written, edited, editedAgain].map (·.fingerprint ["conf"])).Nodup := by
    decide +kernel
  have hfails : (appConf.sources .empty).toOption.isNone := by decide +kernel
  refine ⟨⟨build_watched edited, start_watched written edited, ?_, by decide +kernel, fun h => ?_⟩,
    ⟨run_overtaken, fun t ht u hu hsame => ?_, rfl, by decide +kernel, fun h => ?_⟩,
    run_emptied, rfl, by decide +kernel, ?_, by decide +kernel⟩
  · exact distinguishes_of_nodup (hnodup.sublist (List.sublist_append_left [_, _] [_]))
  · exact absurd (h.textIn_eq htext) (by decide +kernel)
  · rw [List.inj_on_of_nodup_map hnodup hu ht hsame]
    exact .refl _ _
  · exact absurd (h.textIn_eq htext) (by decide +kernel)
  · cases hread : appConf.sources .empty with
    | error e => exact ⟨e, rfl⟩
    | ok sources =>
      rw [hread] at hfails
      cases hfails

end Watching

end LayeredConfig
