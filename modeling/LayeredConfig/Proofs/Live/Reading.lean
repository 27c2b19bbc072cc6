import LayeredConfig.Live
import LayeredConfig.Proofs.Evaluator.Following
import LayeredConfig.Proofs.Store.Access

/-! # Reading a context at work

Reading a context at work may change it: a hook on the way commits, the commit is told to listeners,
and these read and commit in turn. All the same, what is read is what the set gives that was
published at the call (`snapshotBy_run`, `getValueBy_run`, `getBy_run`), as long as an armed hook
has a source to write to. Whatever is done on the way is accesses to what readers and writers share
(`GoesOn`), and what a change tells of is no newer than what it leaves behind (`commit_run`,
`reload_run`).

Commits and reloads end in the same way, with a step of the store of which the listeners are told
(`announced`). A listener may be called wherever it may do all that it does then
(`Passage.passes_call`). -/

namespace LayeredConfig

/-! ### Steps that are told of -/

namespace Live

variable {write : Write} {step : Store → Result ChangeEvent × Store} {l l' : Live}

/-- A step of the store of which the listeners are told. -/
def announced (write : Write) (step : Store → Result ChangeEvent × Store) :
    StateM Live (Result ChangeEvent) := do
  match ← onStore step with
  | .ok event =>
    announce write event
    return .ok event
  | .error error => return .error error

theorem announced_run_of_error {error : ConfigError} (h : (step l.store).1 = .error error) :
    (announced write step).run l =
      pure (.error error, { l with store := (step l.store).2 }) := by
  unfold announced
  rw [StateT.run_bind, onStore_run, pure_bind, h]
  rfl

theorem announced_run_of_ok {event : ChangeEvent} (h : (step l.store).1 = .ok event)
    (hannounce : (announce write event).run { l with store := (step l.store).2 } = pure ((), l')) :
    (announced write step).run l = pure (.ok event, l') := by
  unfold announced
  rw [StateT.run_bind, onStore_run, pure_bind, h]
  simp only [StateT.run_bind, hannounce]
  rfl

theorem commitWithin_succ_run (fuel : Nat) (changes : List Change) (l : Live) :
    (commitWithin (fuel + 1) changes).run l =
      (announced (commitWithin fuel) (Store.commit l.quiet changes)).run l := by
  unfold commitWithin
  rw [StateT.run_bind, StateT.run_get, pure_bind]
  rfl

theorem commit_eq_announced (changes : List Change) (l : Live) :
    (commit changes).run l =
      (announced (commitWithin l.pending) (Store.commit l.quiet changes)).run l := by
  unfold commit
  rw [StateT.run_bind, StateT.run_get, pure_bind]
  exact commitWithin_succ_run l.pending changes l

theorem finishReload_eq_announced (number : Nat) (loaded : Loaded) (l : Live) :
    (finishReload number loaded).run l =
      (announced commit (Store.finishReload l.quiet l.setup.providers number loaded)).run l := by
  unfold finishReload
  rw [StateT.run_bind, StateT.run_get, pure_bind]
  rfl

end Live

/-! ### Computations that come to an end -/

namespace Passage

variable {σ α β : Type} {P : Passage σ}

/-- Whether a computation comes to an end in any world, which it changes only as it may. -/
def Passes (P : Passage σ) (x : StateM σ α) : Prop :=
  ∀ w, P.holds w → ∃ a w', x.run w = pure (a, w') ∧ P.leads w w'

theorem Gives.passes {x : StateM σ α} {a : α} (h : P.Gives x a) : P.Passes x := by
  intro w hw
  obtain ⟨w', hrun, hlead⟩ := h w hw
  exact ⟨a, w', hrun, hlead⟩

theorem Passes.pure (a : α) : P.Passes (Pure.pure a) := (Gives.pure a).passes

theorem Passes.bind {x : StateM σ α} {f : α → StateM σ β} (hx : P.Passes x)
    (hf : ∀ a, P.Passes (f a)) : P.Passes (x >>= f) := by
  intro w hw
  obtain ⟨a, w', hxw, hlead⟩ := hx w hw
  obtain ⟨b, w'', hfw, hlead'⟩ := hf a w' (P.keeps hw hlead)
  refine ⟨b, w'', ?_, P.trans hlead hlead'⟩
  rw [StateT.run_bind, hxw]
  exact hfw

theorem Passes.get : P.Passes get := fun w _ => ⟨w, w, rfl, P.refl w⟩

theorem Passes.modify {f : σ → σ} (h : ∀ w, P.leads w (f w)) : P.Passes (modify f) :=
  fun w _ => ⟨(), f w, rfl, h w⟩

theorem Passes.mapM {f : α → StateM σ β} (h : ∀ a, P.Passes (f a)) (as : List α) :
    P.Passes (as.mapM f) := by
  induction as with
  | nil => exact .pure _
  | cons a rest ih =>
    rw [List.mapM_cons]
    exact (h a).bind fun _ => ih.bind fun _ => .pure _

theorem Passes.forM {f : α → StateM σ PUnit} {as : List α} (h : ∀ a ∈ as, P.Passes (f a)) :
    P.Passes (as.forM f) := by
  induction as with
  | nil => exact .pure _
  | cons a rest ih =>
    exact (h a List.mem_cons_self).bind fun _ => ih fun b hb => h b (List.mem_cons_of_mem _ hb)

section Telling

open Live

variable {Q : Passage Live} {write : Write} {event : ChangeEvent}

/-- A listener may be called if it may do all that it does then. -/
theorem passes_call {listener : Listener} (hread : ∀ key, Q.Passes (getBy write key))
    (hheard : ∀ read, Q.Passes (record (.heard listener.label event read)))
    (hleave : Q.Passes (dismiss listener.number))
    (hanswer : Q.Passes (answer write listener.number)) : Q.Passes (call write event listener) := by
  unfold call
  refine .bind (.mapM (fun key => .bind (hread key) fun _ => .pure _) _) fun read => ?_
  refine .bind (hheard read) fun _ => ?_
  split
  · exact .bind hleave fun _ => hanswer
  · exact hanswer

theorem passes_announce (h : ∀ listener, Q.Passes (call write event listener)) :
    Q.Passes (announce write event) := by
  unfold announce
  split
  · exact .pure _
  · exact .bind .get fun _ => .forM fun listener _ => h listener

/-- A step of the store is made, and what is told of it comes to an end. -/
theorem exists_announced_run {step : Store → Result ChangeEvent × Store} {l : Live}
    (h : ∀ event, Q.Passes (announce write event))
    (hl : Q.holds { l with store := (step l.store).2 }) :
    ∃ l', (announced write step).run l = pure ((step l.store).1, l') ∧
      Q.leads { l with store := (step l.store).2 } l' := by
  cases houtcome : (step l.store).1 with
  | error error => exact ⟨_, announced_run_of_error houtcome, Q.refl _⟩
  | ok event =>
    obtain ⟨_, l', hannounce, hleads⟩ := h event _ hl
    exact ⟨l', announced_run_of_ok houtcome hannounce, hleads⟩

end Telling

end Passage

namespace Live

variable {l l' l'' : Live}

/-- A context at work whose store a course has led to, and whose hook, if it is armed, has a source
to write to. -/
structure Sound (l : Live) : Prop where
  reached : ∃ c : Course, c.Sound l.quiet ∧ c.store = l.store
  armed : l.armed.isSome → l.store.writable.isSome

/-- A context at work that goes on by accesses to its store. -/
structure GoesOn (l l' : Live) : Prop where
  setup : l'.setup = l.setup
  files : l'.files = l.files
  armed : l'.armed.isSome → l.armed.isSome
  store : ∀ c : Course, c.Sound l.quiet → c.store = l.store →
    ∃ accesses, (c.after l.quiet accesses).store = l'.store

namespace GoesOn

theorem quiet (h : l.GoesOn l') : l'.quiet = l.quiet := by
  unfold Live.quiet
  rw [h.setup, h.files]

/-- Nothing that readers and writers share is touched. -/
theorem of_store (hsetup : l'.setup = l.setup) (hfiles : l'.files = l.files)
    (harmed : l'.armed.isSome → l.armed.isSome) (hstore : l'.store = l.store) : l.GoesOn l' :=
  ⟨hsetup, hfiles, harmed, fun _ _ hc => ⟨[], hc.trans hstore.symm⟩⟩

theorem refl (l : Live) : l.GoesOn l := of_store rfl rfl id rfl

theorem trans (h : l.GoesOn l') (h' : l'.GoesOn l'') : l.GoesOn l'' where
  setup := h'.setup.trans h.setup
  files := h'.files.trans h.files
  armed hsome := h.armed (h'.armed hsome)
  store c hc hstore := by
    obtain ⟨as, has⟩ := h.store c hc hstore
    obtain ⟨bs, hbs⟩ := h'.store _ (h.quiet ▸ hc.after as) has
    rw [h.quiet] at hbs
    exact ⟨as ++ bs, by rw [Course.after_append]; exact hbs⟩

theorem sound (h : l.GoesOn l') (hl : l.Sound) : l'.Sound := by
  obtain ⟨c, hc, hstore⟩ := hl.reached
  obtain ⟨accesses, haccesses⟩ := h.store c hc hstore
  refine ⟨⟨_, h.quiet ▸ hc.after accesses, haccesses⟩, fun hsome => ?_⟩
  rw [← haccesses, Course.isSome_writable_after, hstore]
  exact hl.armed (h.armed hsome)

theorem version_le (h : l.GoesOn l') (hl : l.Sound) : l.store.version ≤ l'.store.version := by
  obtain ⟨c, hc, hstore⟩ := hl.reached
  obtain ⟨accesses, haccesses⟩ := h.store c hc hstore
  rw [← haccesses, ← hstore]
  exact Course.version_le_after _ c accesses

/-- A step of a course is accesses. -/
theorem of_step {s : Store} (h : ∀ past, ∃ os o,
    Course.Step l.quiet l.setup.providers os ⟨l.store, past⟩ o (Course.moved ⟨l.store, past⟩ s)) :
    l.GoesOn { l with store := s } := by
  refine ⟨rfl, rfl, id, fun c hc hstore => ?_⟩
  obtain ⟨store, past⟩ := c
  cases hstore
  obtain ⟨os, o, step⟩ := h past
  obtain ⟨accesses, haccesses⟩ := step.accesses hc
  exact ⟨accesses, by rw [← haccesses]; rfl⟩

theorem commit (l : Live) (changes : List Change) :
    l.GoesOn { l with store := (l.store.commit l.quiet changes).2 } :=
  of_step fun _ => ⟨[], _, .commit changes⟩

theorem refresh (l : Live) : l.GoesOn { l with store := l.store.refresh } :=
  of_step fun _ => ⟨[], _, .refresh⟩

theorem startReload (l : Live) : l.GoesOn { l with store := l.store.startReload.2 } :=
  of_step fun _ => ⟨[], _, .start⟩

theorem finishReload (l : Live) (number : Nat) (loaded : Loaded) :
    l.GoesOn
      { l with store := (l.store.finishReload l.quiet l.setup.providers number loaded).2 } :=
  of_step fun _ => ⟨[.started number], _, .finish loaded (by simp [Course.UnderWay])⟩

end GoesOn

/-- Sound contexts, which go on by accesses. -/
def passage : Passage Live where
  holds := Sound
  leads := GoesOn
  refl := GoesOn.refl
  trans := GoesOn.trans
  keeps hl h := h.sound hl

/-- What a change has told of, if it has: of versions from that before it to that behind it. -/
def Tells (l : Live) (outcome : Result ChangeEvent) (l' : Live) : Prop :=
  ∀ event, outcome = .ok event → l.store.version ≤ event.oldVersion ∧
    event.oldVersion ≤ event.newVersion ∧ event.newVersion ≤ l'.store.version

/-- Whether writes are committed if there is a source to write to. -/
def Commits (write : Write) : Prop :=
  ∀ changes l, l.Sound → ∃ outcome l', (write changes).run l = pure (outcome, l') ∧ l.GoesOn l' ∧
    (l.store.writable.isSome → ∃ event, outcome = .ok event ∧ event.oldVersion < event.newVersion) ∧
    l.Tells outcome l'

/-! ### Reading -/

section Reading

variable {write : Write}

theorem passes_record (entry : LogEntry) : passage.Passes (record entry) :=
  .modify fun _ => .of_store rfl rfl id rfl

/-- An armed hook is disarmed and commits what it was armed with. -/
theorem atHook_run {changes : List Change} (harmed : l.armed = some changes) {event : ChangeEvent}
    (hwrite : (write changes).run { l with armed := none } = pure (.ok event, l')) :
    (atHook write).run l = pure (.ok (), { l' with log := l'.log ++ [.hookCommitted event] }) := by
  unfold atHook
  rw [StateT.run_bind, StateT.run_get, pure_bind, harmed]
  simp only [StateT.run_bind, StateT.run_modify, pure_bind, hwrite]
  rfl

theorem atHook_run_of_none (harmed : l.armed = none) :
    (atHook write).run l = pure (.ok (), l) := by
  unfold atHook
  rw [StateT.run_bind, StateT.run_get, pure_bind, harmed]
  rfl

/-- A hook answers, whatever it commits. -/
theorem gives_atHook (h : Commits write) : passage.Gives (atHook write) (.ok ()) := by
  intro l hl
  cases harmed : l.armed with
  | none => exact ⟨l, atHook_run_of_none harmed, .refl l⟩
  | some changes =>
    have hdisarm : l.GoesOn { l with armed := none } := .of_store rfl rfl (fun h => by cases h) rfl
    obtain ⟨outcome, l', hwrite, hon, hok, -⟩ := h changes _ (hdisarm.sound hl)
    obtain ⟨event, rfl, -⟩ := hok (hl.armed (by rw [harmed]; rfl))
    exact ⟨_, atHook_run harmed hwrite, (hdisarm.trans hon).trans (.of_store rfl rfl id rfl)⟩

/-- Resolvers answer as they do where nothing acts, if a hook always answers. -/
theorem follows_resolver {P : Passage Live} (files : FileTree)
    (h : P.Gives (atHook write) (.ok ())) (r : Registration) :
    (r.resolver files (atHook write)).Follows P (r.resolver files (pure (.ok ()))) := by
  cases r with
  | function r => exact r.follows_lift P
  | files => exact (Resolver.file files).follows_lift P
  | hook id =>
    refine ⟨rfl, rfl, rfl, fun expression scope => ?_⟩
    exact Passage.Gives.bind (f := fun answer => pure (answer.map fun _ => some ""))
      h (.pure (Except.ok (some "")))

/-- Reading from outside is reading where nothing acts. -/
theorem follows_view {P : Passage Live} (h : P.Gives (atHook write) (.ok ())) (l : Live) :
    (l.view write).Follows P l.quiet where
  pipeline := rfl
  evaluator := Evaluator.follows_ofResolvers (follows_resolver l.files h) _
  mask := rfl

theorem getValueBy_run (h : Commits write) (hl : l.Sound) (key : String) :
    ∃ l', (getValueBy write key).run l =
        pure ((l.quiet.getValue l.store.published key).run, l') ∧ l.GoesOn l' := by
  unfold getValueBy
  rw [StateT.run_bind, StateT.run_get, pure_bind]
  exact (follows_view (gives_atHook h) l).gives_getValue l.store.published key l hl

theorem getBy_run (h : Commits write) (hl : l.Sound) (key : String) :
    ∃ l', (getBy write key).run l = pure ((l.quiet.get l.store.published key).run, l') ∧
      l.GoesOn l' := by
  unfold getBy
  rw [StateT.run_bind, StateT.run_get, pure_bind]
  exact (follows_view (gives_atHook h) l).gives_get l.store.published key l hl

/-- A snapshot that was kept is read as it is. -/
theorem snapshotBy_run_of_kept (write : Write) {kept : Snapshot}
    (hkept : l.store.cached = some kept) (hversion : kept.version = l.store.version) :
    (snapshotBy write).run l = pure (kept, l) := by
  have hpublished : (return (← get).store.published : StateM Live _).run l =
      pure (l.store.published, l) := rfl
  have hcached : (return (← get).store.cached : StateM Live _).run l =
      pure (l.store.cached, l) := rfl
  unfold snapshotBy
  rw [StateT.run_bind, StateT.run_get, pure_bind]
  exact Store.readSnapshot_of_kept hpublished hcached hkept hversion

/-- A snapshot that was not kept is built, and kept by the store that the building leaves. -/
theorem snapshotBy_run_of_built {built : Snapshot}
    (hnone : ∀ kept, l.store.cached = some kept → kept.version ≠ l.store.version)
    (hbuild : ((l.view write).build l.store.published).run l = pure (built, l')) :
    (snapshotBy write).run l = pure (built, { l' with store := l'.store.keep built }) := by
  have hpublished : (return (← get).store.published : StateM Live _).run l =
      pure (l.store.published, l) := rfl
  have hcached : (return (← get).store.cached : StateM Live _).run l =
      pure (l.store.cached, l) := rfl
  unfold snapshotBy
  rw [StateT.run_bind, StateT.run_get, pure_bind]
  exact Store.readSnapshot_of_built hpublished hcached hnone hbuild rfl

/-- If building a snapshot leaves the context as it is, reading one is a step of the store. -/
theorem snapshotBy_run_of_still {v : View Id}
    (hbuild : ((l.view write).build l.store.published).run l =
      pure ((v.build l.store.published).run, l)) :
    (snapshotBy write).run l = pure (l.store.snapshot v, { l with store := l.store.seen v }) := by
  cases hcurrent : l.store.current? with
  | some kept =>
    obtain ⟨hkept, hversion⟩ := Store.eq_of_current? hcurrent
    rw [Store.snapshot_of_current? hcurrent, Store.seen_of_current? hcurrent]
    exact snapshotBy_run_of_kept write hkept hversion
  | none =>
    rw [Store.seen_eq_keep, Store.snapshot_of_not_current hcurrent]
    exact snapshotBy_run_of_built (fun _ => Store.version_ne_of_current? hcurrent) hbuild

/-- The snapshot is the build of the set that was published at the call. -/
theorem snapshotBy_run (h : Commits write) (hl : l.Sound) :
    ∃ l', (snapshotBy write).run l = pure ((l.quiet.build l.store.published).run, l') ∧
      l.GoesOn l' := by
  obtain ⟨c, hc, hstore⟩ := hl.reached
  have hmem : l.store.published ∈ c.past := hstore ▸ hc.published_mem
  cases hcurrent : l.store.current? with
  | some kept =>
    obtain ⟨hkept, hversion⟩ := Store.eq_of_current? hcurrent
    refine ⟨l, ?_, .refl l⟩
    rw [← hc.kept_eq_build (hstore ▸ hkept) hmem hversion]
    exact snapshotBy_run_of_kept write hkept hversion
  | none =>
    obtain ⟨l₂, hbuild, hon⟩ := (follows_view (gives_atHook h) l).gives_build l.store.published l hl
    refine ⟨_, snapshotBy_run_of_built (fun _ => Store.version_ne_of_current? hcurrent) hbuild,
      hon.setup, hon.files, hon.armed, fun d hd hdstore => ?_⟩
    obtain ⟨accesses, haccesses⟩ := hon.store d hd hdstore
    have hpast : l.store.published ∈ (d.after l.quiet accesses).past :=
      (Course.past_suffix_after _ d accesses).mem (hdstore ▸ hd.published_mem)
    obtain ⟨age, hage⟩ := Course.exists_access_keep l.quiet hpast
    refine ⟨accesses ++ [.keep age], ?_⟩
    rw [Course.after_append, ← haccesses]
    exact congrArg Course.store hage

end Reading

/-! ### Telling of changes -/

section Telling

variable {write : Write}

theorem passes_write (h : Commits write) (changes : List Change) :
    passage.Passes (write changes) := by
  intro l hl
  obtain ⟨outcome, l', hrun, hon, -⟩ := h changes l hl
  exact ⟨outcome, l', hrun, hon⟩

theorem passes_getBy (h : Commits write) (key : String) : passage.Passes (getBy write key) := by
  intro l hl
  obtain ⟨l', hrun, hon⟩ := getBy_run h hl key
  exact ⟨_, l', hrun, hon⟩

theorem passes_answer (h : Commits write) (number : Nat) :
    passage.Passes (answer write number) := by
  unfold answer
  refine .bind .get fun l => ?_
  split
  · exact .pure _
  · refine .bind (.modify fun _ => .of_store rfl rfl id rfl) fun _ => ?_
    exact .bind (passes_write h _) fun _ => .pure _

theorem passes_announce (h : Commits write) (event : ChangeEvent) :
    passage.Passes (announce write event) :=
  Passage.passes_announce fun _ => Passage.passes_call (passes_getBy h) (fun _ => passes_record _)
    (.modify fun _ => .of_store rfl rfl id rfl) (passes_answer h _)

end Telling

/-! ### Changes -/

theorem Tells.goesOn {outcome : Result ChangeEvent} (h : l.Tells outcome l') (hl : l'.Sound)
    (hon : l'.GoesOn l'') : l.Tells outcome l'' := by
  intro event hevent
  obtain ⟨hold, hnew, hle⟩ := h event hevent
  exact ⟨hold, hnew, Nat.le_trans hle (hon.version_le hl)⟩

/-- A step of the store that is told to the listeners. -/
theorem announced_run {write : Write} (h : Commits write) (hl : l.Sound)
    {step : Store → Result ChangeEvent × Store}
    (hon : l.GoesOn { l with store := (step l.store).2 })
    (htells : l.Tells (step l.store).1 { l with store := (step l.store).2 }) :
    ∃ l', (announced write step).run l = pure ((step l.store).1, l') ∧ l.GoesOn l' ∧
      l.Tells (step l.store).1 l' := by
  obtain ⟨l', hrun, hannounce⟩ :=
    Passage.exists_announced_run (passes_announce h) (hon.sound hl)
  exact ⟨l', hrun, hon.trans hannounce, htells.goesOn (hon.sound hl) hannounce⟩

theorem tells_commit (l : Live) (changes : List Change) :
    l.Tells (l.store.commit l.quiet changes).1
      { l with store := (l.store.commit l.quiet changes).2 } := by
  intro event hevent
  rcases Store.commit_cases l.quiet changes l.store with ⟨-, h⟩ | ⟨w, event', -, h, hold, hnew⟩
  · rw [h] at hevent
    cases hevent
  · rw [h] at hevent ⊢
    cases hevent
    refine ⟨Nat.le_of_eq hold.symm, by omega, Nat.le_of_eq (hnew.trans ?_)⟩
    simp

theorem exists_event_commit (hw : l.store.writable.isSome) (changes : List Change) :
    ∃ event, (l.store.commit l.quiet changes).1 = .ok event ∧
      event.oldVersion < event.newVersion := by
  rcases Store.commit_cases l.quiet changes l.store with ⟨hn, -⟩ | ⟨w, event, -, h, hold, hnew⟩
  · rw [hn] at hw
    cases hw
  · exact ⟨event, by rw [h], by omega⟩

/-- Commits are made, whatever is committed on the way. -/
theorem commits_commitWithin (fuel : Nat) : Commits (commitWithin fuel) := by
  induction fuel with
  | zero =>
    intro changes l hl
    refine ⟨_, _, ?_, .commit l changes, fun hw => exists_event_commit hw changes,
      tells_commit l changes⟩
    unfold commitWithin
    rw [StateT.run_bind, StateT.run_get, pure_bind]
    rfl
  | succ fuel ih =>
    intro changes l hl
    obtain ⟨l', hrun, hon, htells⟩ :=
      announced_run ih hl (.commit l changes) (tells_commit l changes)
    exact ⟨_, l', (commitWithin_succ_run fuel changes l).trans hrun, hon,
      fun hw => exists_event_commit hw changes, htells⟩

theorem commits_commit : Commits commit := by
  intro changes l hl
  unfold commit
  rw [StateT.run_bind, StateT.run_get, pure_bind]
  exact commits_commitWithin _ changes l hl

theorem tells_finishReload (l : Live) (number : Nat) (loaded : Loaded) :
    l.Tells (l.store.finishReload l.quiet l.setup.providers number loaded).1
      { l with store := (l.store.finishReload l.quiet l.setup.providers number loaded).2 } := by
  intro event hevent
  rcases Store.finishReload_cases l.quiet l.setup.providers number loaded l.store with
    h | ⟨-, h⟩ | ⟨event', -, h, -, hold, hnew⟩
  · rw [h] at hevent
    cases hevent
  · rw [h] at hevent ⊢
    cases hevent
    simp [ChangeEvent.between]
  · rw [h] at hevent ⊢
    cases hevent
    refine ⟨Nat.le_of_eq hold.symm, by omega, Nat.le_of_eq (hnew.trans ?_)⟩
    simp

theorem finishReload_run (hl : l.Sound) (number : Nat) (loaded : Loaded) :
    ∃ outcome l', (finishReload number loaded).run l = pure (outcome, l') ∧ l.GoesOn l' ∧
      l.Tells outcome l' := by
  obtain ⟨l', hrun, hon, htells⟩ := announced_run commits_commit hl
    (.finishReload l number loaded) (tells_finishReload l number loaded)
  exact ⟨_, l', (finishReload_eq_announced number loaded l).trans hrun, hon, htells⟩

/-- A reload tells of versions from that of the call on, whatever happens in its loads. -/
theorem loaded_run (hl : l.Sound) {loading : Nat → StateM Live Unit}
    (hloading : ∀ number, passage.Passes (loading number)) :
    ∃ outcome l', (do
      let number ← onStore Store.startReload
      loading number
      let l ← get
      finishReload number (l.setup.load number l.files) :
        StateM Live (Result ChangeEvent)).run l = pure (outcome, l') ∧ l.GoesOn l' ∧
      l.Tells outcome l' := by
  have hstart : (onStore Store.startReload).run l =
      pure (l.store.startReload.1, { l with store := l.store.startReload.2 }) := rfl
  have hon := GoesOn.startReload l
  obtain ⟨_, l₁, hload, hon₁⟩ := hloading l.store.startReload.1 _ (hon.sound hl)
  have hon₁ := hon.trans hon₁
  obtain ⟨outcome, l', hfinish, hon', htells⟩ := finishReload_run (hon₁.sound hl)
    l.store.startReload.1 (l₁.setup.load l.store.startReload.1 l₁.files)
  refine ⟨outcome, l', ?_, hon₁.trans hon', fun event hevent => ?_⟩
  · rw [StateT.run_bind, hstart, pure_bind, StateT.run_bind, hload, pure_bind, StateT.run_bind,
      StateT.run_get, pure_bind]
    exact hfinish
  · obtain ⟨hold, hnew⟩ := htells event hevent
    exact ⟨Nat.le_trans (hon₁.version_le hl) hold, hnew⟩

theorem reloadWithin_run (fuel : Nat) (hl : l.Sound) :
    ∃ outcome l', (reloadWithin fuel).run l = pure (outcome, l') ∧ l.GoesOn l' ∧
      l.Tells outcome l' := by
  induction fuel generalizing l with
  | zero =>
    have h := @loaded_run l hl (fun _ => pure ()) fun _ => .pure ()
    simp only [pure_bind] at h
    unfold reloadWithin
    dsimp only
    exact h
  | succ fuel ih =>
    have hnested : passage.Passes (reloadWithin fuel) := by
      intro l hl
      obtain ⟨outcome, l', hrun, hon, -⟩ := ih hl
      exact ⟨outcome, l', hrun, hon⟩
    have hprovider : ∀ number, ∀ p : Provider, passage.Passes (do
        if number ∈ p.nested then record (.nestedReload (← reloadWithin fuel))) := by
      intro number p
      split
      · exact hnested.bind fun _ => passes_record _
      · exact .pure ()
    have h := loaded_run hl fun number =>
      Passage.Passes.get.bind fun l => .forM fun p (_ : p ∈ l.setup.providers) => hprovider number p
    simp only [bind_assoc] at h
    unfold reloadWithin
    dsimp only
    exact h

theorem reload_run (hl : l.Sound) :
    ∃ outcome l', reload.run l = pure (outcome, l') ∧ l.GoesOn l' ∧ l.Tells outcome l' := by
  unfold reload
  rw [StateT.run_bind, StateT.run_get, pure_bind]
  exact reloadWithin_run _ hl

/-! ### Behind a course -/

/-- A context at work that is read by a view and is where a course has led to. -/
structure IsAt (l : Live) (v : View Id) (c : Course) : Prop where
  quiet : l.quiet = v
  store : l.store = c.store
  armed : l.armed.isSome → l.store.writable.isSome

theorem IsAt.sound {v : View Id} {c : Course} (h : l.IsAt v c) (hc : c.Sound v) : l.Sound :=
  ⟨⟨c, h.quiet ▸ hc, h.store.symm⟩, h.armed⟩

/-- The course leads on. -/
theorem IsAt.goesOn {v : View Id} {c : Course} (h : l.IsAt v c) (hc : c.Sound v)
    (hon : l.GoesOn l') : ∃ accesses, l'.IsAt v (c.after v accesses) := by
  obtain ⟨accesses, haccesses⟩ := hon.store c (h.quiet ▸ hc) h.store.symm
  rw [h.quiet] at haccesses
  exact ⟨accesses, hon.quiet.trans h.quiet, haccesses.symm, (hon.sound (h.sound hc)).armed⟩

end Live

end LayeredConfig
