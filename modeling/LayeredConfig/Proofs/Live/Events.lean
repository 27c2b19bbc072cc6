import LayeredConfig.Proofs.Live.Hearing
import Mathlib.Data.List.Nodup

/-! # The events of a context at work

Commits and reloads tell of what they have changed, whoever makes them: the program, a hook on the
way of a reading, a listener that is told of another change, or a load that asks for a reload of its
own. All of these events together lead from the values at the beginning to those at the end, and a
listener that stays hears of each of them that has changes, once (`events_tell_the_story`).

`Recounts` says this of one computation inside of a call, and `perform_run` of a call as a whole. -/

namespace LayeredConfig

theorem Passage.passes_readAfter {σ : Type} {P : Passage σ} {get : KeyReader (StateM σ)}
    (h : ∀ key, P.Passes (get key)) (values : Properties) (fields : List Field) :
    P.Passes (Bound.readAfter get values fields) := by
  induction fields generalizing values with
  | nil => exact .pure _
  | cons field rest ih =>
    refine .bind (h field.key) fun found => ?_
    split
    · exact ih _
    · split
      · exact .pure _
      · exact ih _

/-- Whether a call leaves a listener alone, arms no hook that could not write, and edits no source
behind the back of the context. -/
def Call.Spares (x : Listener) (isWritable : Bool) : Call → Prop
  | listen label _ _ _ => label ≠ x.label
  | leave label => label ≠ x.label
  | arm _ => isWritable
  | edit _ => False
  | _ => True

namespace Live

variable {x : Listener} {n : Nat} {l l' : Live} {α : Type}

/-! ### Changes -/

/-- Whether a computation comes to an end, and the event that it gives back, if it does, is one of
those that the listener hears of on the way. -/
def Recounts (x : Listener) (n : Nat) (event? : α → Option ChangeEvent) (y : StateM Live α) :
    Prop :=
  ∀ l, Ready x n l → ∃ a l' os, y.run l = pure (a, l') ∧ Progress x l os (toldBy os) l' ∧
    Calmer l l' ∧ (event? a).toList.Sublist (events os)

theorem Recounts.passes {event? : α → Option ChangeEvent} {y : StateM Live α}
    (h : Recounts x n event? y) : (hearing x n).Passes y := by
  intro l hl
  obtain ⟨a, l', os, hrun, hprogress, hcalm, -⟩ := h l hl
  exact ⟨a, l', hrun, ⟨os, hprogress⟩, hcalm⟩

theorem recounts_of_passes {y : StateM Live α} (h : (hearing x n).Passes y) :
    Recounts x n (fun _ => none) y := by
  intro l hl
  obtain ⟨a, l', hrun, ⟨os, hprogress⟩, hcalm⟩ := h l hl
  exact ⟨a, l', os, hrun, hprogress, hcalm, List.nil_sublist _⟩

/-- A step of the store is told to the listeners, once. -/
theorem told_run {write : Write} (h : Reports x n write) (hl : Ready x n l)
    {step : Store → Result ChangeEvent × Store} {o : Occurrence} {before : List Occurrence}
    (hstep : ∀ past, Course.Step l.quiet l.setup.providers before ⟨l.store, past⟩ o
      (Course.moved ⟨l.store, past⟩ (step l.store).2))
    (htold : withChanges (step l.store).1.toOption.toList = toldBy [o]) :
    ∃ l' os, (announced write step).run l = pure ((step l.store).1, l') ∧
      Progress x l ([o] ++ os) (toldBy ([o] ++ os)) l' ∧ Calmer l l' := by
  have hmoved : Progress x l [o] [] { l with store := (step l.store).2 } := .of_step hstep
  have hready := hl.goesOn hmoved ⟨Nat.le_refl _, id⟩
  cases houtcome : (step l.store).1 with
  | error error =>
    rw [houtcome] at htold
    refine ⟨_, [], announced_run_of_error houtcome, ?_, ⟨Nat.le_refl _, id⟩⟩
    rw [List.append_nil, ← htold]
    exact hmoved
  | ok event =>
    rw [houtcome] at htold
    obtain ⟨l', os, hannounce, hprogress, hcalm⟩ := announce_run h event hready
    refine ⟨l', os, announced_run_of_ok houtcome hannounce, ?_, hcalm.pending, hcalm.armed⟩
    rw [toldBy_append, ← htold]
    exact hmoved.trans hprogress

/-- Commits are told of, as long as no more are to come on the way than the bound allows. -/
theorem reports_commitWithin (x : Listener) (fuel : Nat) : Reports x fuel (commitWithin fuel) := by
  induction fuel with
  | zero => exact fun _ _ _ _ hlt => absurd hlt (Nat.not_lt_zero _)
  | succ fuel ih =>
    intro changes l hl hx hpending
    have hstep : ∀ past, Course.Step l.quiet l.setup.providers [] ⟨l.store, past⟩
        (.committed changes (l.store.commit l.quiet changes).1)
        (Course.moved ⟨l.store, past⟩ (l.store.commit l.quiet changes).2) :=
      fun _ => .commit changes
    have htold : withChanges (l.store.commit l.quiet changes).1.toOption.toList =
        toldBy [.committed changes (l.store.commit l.quiet changes).1] := by
      rw [toldBy, events_singleton]
      rfl
    obtain ⟨l', os, hrun, hprogress, hcalm⟩ :=
      told_run ih ⟨hl, hx, Nat.le_of_lt_succ hpending⟩ hstep htold
    refine ⟨(l.store.commit l.quiet changes).1, l', _,
      (commitWithin_succ_run fuel changes l).trans hrun, hprogress, hcalm, fun hw => ?_, ?_⟩
    · obtain ⟨event, hevent, -⟩ := exists_event_commit hw changes
      exact ⟨event, hevent⟩
    · rw [events_append, events_singleton]
      exact List.sublist_append_left _ _

theorem reports_commit (x : Listener) (n : Nat) : Reports x n commit := by
  intro changes l hl hx _
  unfold commit
  rw [StateT.run_bind, StateT.run_get, pure_bind]
  exact reports_commitWithin x _ changes l hl hx (Nat.lt_succ_self _)

theorem recounts_commit (x : Listener) (n : Nat) (changes : List Change) :
    Recounts x n Except.toOption (commit changes) := by
  intro l hl
  obtain ⟨outcome, l', os, hrun, hprogress, hcalm, -, hsublist⟩ :=
    reports_commit x (n + 1) changes l hl.sound hl.listens (Nat.lt_succ_of_le hl.pending)
  exact ⟨outcome, l', os, hrun, hprogress, hcalm, hsublist⟩

/-- The event of a reload that was passed over has no changes. -/
theorem withChanges_finishReload (v : View Id) (providers : List Provider) (number : Nat)
    (loaded : Loaded) (s : Store) :
    withChanges (s.finishReload v providers number loaded).1.toOption.toList =
      toldBy [.finished number loaded (s.finishReload v providers number loaded).1] := by
  rw [toldBy, events_singleton]
  show _ = withChanges (publishedEvent? _).toList
  rcases Store.finishReload_cases v providers number loaded s with
    h | ⟨-, h⟩ | ⟨event, -, h, -, hold, hnew⟩
  · rw [h]
    rfl
  · have hempty : (ChangeEvent.between (s.snapshot v) (s.snapshot v)).isEmpty := by
      rw [ChangeEvent.between_self]
      rfl
    rw [h, publishedEvent?_between_self]
    simp [withChanges, Except.toOption, hempty]
  · have hsome : publishedEvent? (.ok event) = some event := publishedEvent?_of_lt (by omega)
    rw [h, hsome]
    rfl

theorem recounts_finishReload (x : Listener) (n number : Nat) (loaded : Loaded) :
    Recounts x n publishedEvent? (finishReload number loaded) := by
  intro l hl
  have hstep : ∀ past, Course.Step l.quiet l.setup.providers [.started number] ⟨l.store, past⟩
      (.finished number loaded (l.store.finishReload l.quiet l.setup.providers number loaded).1)
      (Course.moved ⟨l.store, past⟩
        (l.store.finishReload l.quiet l.setup.providers number loaded).2) :=
    fun _ => .finish loaded (by simp [Course.UnderWay])
  obtain ⟨l', os, hrun, hprogress, hcalm⟩ :=
    told_run (reports_commit x n) hl hstep (withChanges_finishReload ..)
  refine ⟨(l.store.finishReload l.quiet l.setup.providers number loaded).1, l', _,
    (finishReload_eq_announced number loaded l).trans hrun, hprogress, hcalm, ?_⟩
  rw [events_append, events_singleton]
  exact List.sublist_append_left _ _

/-- The store may go a step that has no event. -/
theorem passes_onStore {step : Store → α × Store}
    (h : ∀ l : Live, ∃ o before, o.event? = none ∧
      ∀ past, Course.Step l.quiet l.setup.providers before ⟨l.store, past⟩ o
        (Course.moved ⟨l.store, past⟩ (step l.store).2)) :
    (hearing x n).Passes (onStore step) := by
  intro l _
  obtain ⟨o, before, hnone, hstep⟩ := h l
  have htold : toldBy [o] = [] := by
    rw [toldBy, events_singleton, hnone]
    rfl
  refine ⟨_, _, rfl, ⟨[o], ?_⟩, Nat.le_refl _, id⟩
  rw [htold]
  exact .of_step hstep

theorem passes_startReload : (hearing x n).Passes (onStore Store.startReload) :=
  passes_onStore fun l => ⟨.started (l.store.reloads + 1), [], rfl, fun _ => .start⟩

theorem passes_refresh : (hearing x n).Passes refresh :=
  passes_onStore fun _ => ⟨.refreshed, [], rfl, fun _ => .refresh⟩

/-- A computation behind another one. -/
theorem Recounts.after {β : Type} {y : StateM Live β} {event? : α → Option ChangeEvent}
    {z : β → StateM Live α} (hy : (hearing x n).Passes y) (hz : ∀ b, Recounts x n event? (z b)) :
    Recounts x n event? (y >>= z) := by
  intro l hl
  obtain ⟨b, l₁, hrun, ⟨os, hprogress⟩, hcalm⟩ := hy l hl
  obtain ⟨a, l', rest, hrun', hprogress', hcalm', hsublist⟩ :=
    hz b l₁ (hl.goesOn hprogress hcalm)
  refine ⟨a, l', os ++ rest, ?_, toldBy_append os rest ▸ hprogress.trans hprogress',
    hcalm.trans hcalm', ?_⟩
  · rw [StateT.run_bind, hrun]
    exact hrun'
  · rw [events_append]
    exact hsublist.trans (List.sublist_append_right _ _)

theorem recounts_reloadWithin (x : Listener) (n fuel : Nat) :
    Recounts x n publishedEvent? (reloadWithin fuel) := by
  induction fuel with
  | zero =>
    unfold reloadWithin
    refine .after passes_startReload fun number => ?_
    exact .after .get fun l => recounts_finishReload x n number _
  | succ fuel ih =>
    have hprovider : ∀ number, ∀ p : Provider, (hearing x n).Passes (do
        if number ∈ p.nested then record (.nestedReload (← reloadWithin fuel))) := by
      intro number p
      split
      · exact ih.passes.bind fun _ => passes_record_other rfl
      · exact .pure ()
    unfold reloadWithin
    refine .after passes_startReload fun number => ?_
    refine .after .get fun l => .after (.forM fun p _ => hprovider number p) fun _ => ?_
    exact .after .get fun l => recounts_finishReload x n number _

theorem recounts_reload (x : Listener) (n : Nat) : Recounts x n publishedEvent? reload :=
  .after .get fun _ => recounts_reloadWithin x n _

/-! ### Calls -/

theorem passes_getValue (x : Listener) (n : Nat) (key : String) :
    (hearing x n).Passes (getValue key) :=
  .bind .get fun l =>
    ((follows_view (gives_atHook_hearing (reports_commit x n)) l).gives_getValue _ key).passes

theorem passes_bind (x : Listener) (n : Nat) (fields : List Field) :
    (hearing x n).Passes (Bound.read read fields) :=
  Passage.passes_readAfter (passes_getBy_hearing (reports_commit x n)) ∅ fields

/-- A call whose answer carries the event of a computation. -/
theorem Recounts.answer_run {event? : α → Option ChangeEvent} {y : StateM Live α}
    (h : Recounts x l.pending event? y) (hl : l.Sound) (hx : l.Listens x) (f : α → Answer)
    (hf : ∀ a, (f a).event? = event? a) :
    ∃ answer l' os, (do return f (← y) : StateM Live Answer).run l = pure (answer, l') ∧
      Progress x l os (toldBy os) l' ∧ l'.Sound ∧ answer.event?.toList.Sublist (events os) := by
  have hready : Ready x l.pending l := ⟨hl, hx, Nat.le_refl _⟩
  obtain ⟨a, l', os, hrun, hprogress, hcalm, hsublist⟩ := h l hready
  refine ⟨f a, l', os, ?_, hprogress, (hready.goesOn hprogress hcalm).sound, hf a ▸ hsublist⟩
  rw [StateT.run_bind, hrun]
  rfl

/-- A listener comes behind the others, with a number that no other has. -/
theorem Listens.listen (hx : l.Listens x) {label : String} (hlabel : label ≠ x.label)
    (reads : List String) (leaves : Bool) (answer : Option Change) :
    ((listen label reads leaves answer).run l).2.Listens x := by
  obtain ⟨before, after, hlisteners, hothers⟩ := hx.among
  refine ⟨hx.stays, Nat.lt_succ_of_lt hx.numbered, before,
    after ++ [⟨l.nextListener, label, reads, leaves⟩], ?_, fun y hy => ?_⟩
  · show l.listeners ++ _ = _
    rw [hlisteners, List.append_assoc]
    rfl
  · rw [← List.append_assoc] at hy
    rcases List.mem_append.1 hy with hy | hy
    · exact hothers y hy
    · cases List.mem_singleton.1 hy
      exact ⟨hlabel, (Nat.ne_of_lt hx.numbered).symm⟩

/-- Another label finds another listener. -/
theorem Listens.number_ne_of_find (hx : l.Listens x) {label : String} (hlabel : label ≠ x.label)
    {y : Listener} (hfind : (l.listeners.reverse.find? fun y => y.label = label) = some y) :
    y.number ≠ x.number := by
  obtain ⟨before, after, hlisteners, hothers⟩ := hx.among
  have hfound : y.label = label := of_decide_eq_true (List.find?_some hfind :)
  have hne : y ≠ x := fun h => hlabel (hfound ▸ h ▸ rfl)
  have hmem := List.mem_reverse.1 (List.mem_of_find?_eq_some hfind)
  rw [hlisteners] at hmem
  refine (hothers y ?_).2
  rcases List.mem_append.1 hmem with hmem | hmem
  · exact List.mem_append_left _ hmem
  · exact List.mem_append_right _ ((List.mem_cons.1 hmem).resolve_left hne)

theorem passes_dismissLabel {label : String} (hlabel : label ≠ x.label) :
    (hearing x n).Passes (dismissLabel label) := by
  intro l hl
  unfold dismissLabel
  rw [StateT.run_bind, StateT.run_get, pure_bind]
  cases hfind : l.listeners.reverse.find? fun y => y.label = label with
  | none => exact ⟨false, l, rfl, (hearing x n).refl l⟩
  | some y =>
    have hnumber := hl.listens.number_ne_of_find hlabel hfind
    exact ⟨true, _, rfl, leads_dismiss hnumber l⟩

/-- A call is answered. The event of its answer is among those that the listener hears of. -/
theorem perform_run (hl : l.Sound) (hx : l.Listens x) {call : Call}
    (hcall : call.Spares x l.store.writable.isSome) :
    ∃ answer l' os, (perform call).run l = pure (answer, l') ∧
      Progress x l os (toldBy os) l' ∧ l'.Sound ∧ answer.event?.toList.Sublist (events os) := by
  have hpasses {α : Type} {y : StateM Live α} (hy : (hearing x l.pending).Passes y)
      (f : α → Answer) (hf : ∀ a, (f a).event? = none) :=
    (recounts_of_passes hy).answer_run hl hx f hf
  have hcommit := reports_commit x l.pending
  cases call with
  | commit changes => exact (recounts_commit x _ changes).answer_run hl hx _ fun _ => rfl
  | reload => exact (recounts_reload x _).answer_run hl hx _ fun _ => rfl
  | startReload => exact hpasses passes_startReload _ fun _ => rfl
  | finishReload number loaded =>
    exact (recounts_finishReload x _ number loaded).answer_run hl hx _ fun _ => rfl
  | refresh => exact hpasses passes_refresh _ fun _ => rfl
  | getValue key => exact hpasses (passes_getValue x _ key) _ fun _ => rfl
  | get key => exact hpasses (passes_getBy_hearing hcommit key) _ fun _ => rfl
  | properties => exact hpasses (passes_snapshotBy_hearing hcommit) _ fun _ => rfl
  | sources => exact hpasses .get _ fun _ => rfl
  | bind fields => exact hpasses (passes_bind x _ fields) _ fun _ => rfl
  | listen label reads leaves answer =>
    refine ⟨.done, _, [], rfl, .still rfl rfl (fun hx => hx.listen hcall ..) rfl rfl, ?_,
      List.nil_sublist _⟩
    exact ⟨hl.reached, hl.armed⟩
  | leave label => exact hpasses (passes_dismissLabel hcall) _ fun _ => rfl
  | arm changes =>
    exact ⟨.done, _, [], rfl, .still rfl rfl (fun hx => hx.congr rfl rfl) rfl rfl,
      ⟨hl.reached, fun _ => hcall⟩, List.nil_sublist _⟩
  | edit w => exact hcall.elim

/-- Any number of calls are answered, one behind the other. -/
theorem performAll_run (hl : l.Sound) (hx : l.Listens x) {calls : List Call}
    (hcalls : ∀ call ∈ calls, call.Spares x l.store.writable.isSome) :
    ∃ answers l' os, (performAll calls).run l = pure (answers, l') ∧
      Progress x l os (toldBy os) l' ∧ l'.Sound ∧
      (answers.filterMap Answer.event?).Sublist (events os) := by
  induction calls generalizing l with
  | nil => exact ⟨[], l, [], rfl, .refl x l, hl, List.Sublist.refl _⟩
  | cons call rest ih =>
    obtain ⟨answer, l₁, os, hrun, hprogress, hl₁, hsublist⟩ :=
      perform_run hl hx (hcalls call List.mem_cons_self)
    have hrest : ∀ call ∈ rest, call.Spares x l₁.store.writable.isSome := by
      intro call hmem
      rw [hprogress.isSome_writable hl]
      exact hcalls call (List.mem_cons_of_mem _ hmem)
    obtain ⟨answers, l', more, hrun', hprogress', hl', hsublist'⟩ :=
      ih hl₁ (hprogress.listens hx) hrest
    refine ⟨answer :: answers, l', os ++ more, ?_,
      toldBy_append os more ▸ hprogress.trans hprogress', hl', ?_⟩
    · unfold performAll at hrun' ⊢
      rw [List.mapM_cons, StateT.run_bind, hrun, pure_bind, StateT.run_bind, hrun']
      rfl
    · have hcons : (answer :: answers).filterMap Answer.event? =
          answer.event?.toList ++ answers.filterMap Answer.event? := by
        rw [List.filterMap_cons]
        cases answer.event? <;> rfl
      rw [hcons, events_append]
      exact hsublist.append hsublist'

/-- From its first set of sources on, the events of a context, ordered by the versions that they
lead to, go forward one behind the other and lead from the first values to the last. This holds of
whatever steps the store has made. While a context answers calls, the answers tell of events of such
steps, and a listener that stays registered hears of each event that has changes, once, and of none
without. -/
theorem events_tell_the_story (fixed : List Source) (writable : Option Writable) (first : Loaded)
    (v : View Id) (providers : List Provider) (os : List Occurrence) (c : Course)
    (stretch : Course.Stretch v providers (.start (.initial fixed writable first)) os c) :
    (∀ es : List ChangeEvent, es.Perm (events os) →
      es.Pairwise (fun a b => a.newVersion ≤ b.newVersion) →
      (∀ event ∈ es, event.oldVersion < event.newVersion) ∧
      es.Pairwise (fun a b => a.newVersion ≤ b.oldVersion) ∧
      (es.map ChangeEvent.newVersion).Nodup ∧
      es.foldlM ChangeEvent.replay? (v.build (.ofSources (fixed ++ first.sources) 1)).run.values =
        some (c.store.snapshot v).values) ∧
    ∀ (l : Live) (x : Listener) (calls : List Call), l.quiet = v → l.setup.providers = providers →
      l.store = c.store → (l.armed.isSome → l.store.writable.isSome) → l.Listens x →
      (∀ call ∈ calls, call.Spares x l.store.writable.isSome) →
      ∃ answers l' more d entries,
        (performAll calls).run l = pure (answers, l') ∧
        c.Stretch v providers more d ∧ d.store = l'.store ∧
        (∃ l'', snapshot.run l' = pure (d.store.snapshot v, l'')) ∧
        (answers.filterMap Answer.event?).Sublist (events more) ∧
        l'.log = l.log ++ entries ∧
        (heard x.label entries).Perm ((events more).filter fun event => !event.isEmpty) := by
  have hstart : (Course.start (.initial fixed writable first)).Sound v := .start rfl
  have hc := stretch.sound hstart
  refine ⟨fun es hperm hsorted => ?_, fun l x calls hquiet hproviders hstore harmed hx hcalls => ?_⟩
  · have hstory := stretch.story hstart
    have hordered : (events os).Pairwise fun a b => a.newVersion < b.newVersion := by
      refine hstory.ordered.imp_of_mem fun {a b} _ hb hle => ?_
      exact Nat.lt_of_le_of_lt hle (hstory.forward b hb)
    have hnodup : ((events os).map ChangeEvent.newVersion).Nodup :=
      List.pairwise_map.2 (hordered.imp Nat.ne_of_lt)
    have hes : es = events os := by
      refine hperm.eq_of_pairwise (fun a b ha hb hle hge => ?_) hsorted (hordered.imp Nat.le_of_lt)
      exact List.inj_on_of_nodup_map hnodup (hperm.subset ha) hb (Nat.le_antisymm hle hge)
    subst hes
    refine ⟨hstory.forward, hstory.ordered, hnodup, ?_⟩
    rw [hc.snapshot_eq_build]
    exact hstory.replayed
  · have hl : l.Sound := ⟨⟨c, hquiet ▸ hc, hstore.symm⟩, harmed⟩
    obtain ⟨answers, l', more, hrun, hprogress, hl', hsublist⟩ := performAll_run hl hx hcalls
    obtain ⟨d, hd, hdstore⟩ := hprogress.store c (hquiet ▸ hc) hstore.symm
    obtain ⟨entries, hlog, hheard⟩ := hprogress.log
    obtain ⟨l'', hsnapshot, -⟩ := snapshotBy_run commits_commit hl'
    rw [hquiet, hproviders] at hd
    refine ⟨answers, l', more, d, entries, hrun, hd, hdstore, ⟨l'', ?_⟩, hsublist, hlog, hheard⟩
    rw [(hd.sound hc).snapshot_eq_build, hdstore, ← hquiet, ← hprogress.quiet]
    exact hsnapshot

/-- A source to write to. -/
def overheardTable : Writable := ⟨.object 0, .ofPairs "table" [("port", "80")]⟩

/-- A context with a source to write to, a listener that is told and stays, and one before it that
answers its first change with a write. -/
def overheard : Live where
  setup := ⟨[], defaultTimeout, .ofFilters [], [], true⟩
  store := .initial [overheardTable.toSource] (some overheardTable) ⟨[], 0⟩
  files := .empty
  listeners := [⟨0, "echo", [], false⟩, ⟨1, "ear", ["port"], false⟩]
  nextListener := 2
  answers := [(0, .put "echo" "on")]

/-- Both commits are heard of, the one that the other listener makes on the way before the one that
it answers, and neither the refresh nor the reload, which has no changes. -/
theorem heard_of_commit_overheard :
    ∃ answers l' os d entries,
      (performAll [.commit [.put "port" "81"], .refresh, .reload]).run overheard =
        pure (answers, l') ∧
      Course.Stretch overheard.quiet [] (.start overheard.store) os d ∧ d.store = l'.store ∧
      (heard "ear" entries).map (fun event => (event.oldVersion, event.newVersion)) =
        [(2, 3), (1, 2)] ∧
      (heard "ear" entries).Perm ((events os).filter fun event => !event.isEmpty) ∧
      ∀ es : List ChangeEvent, es.Perm (events os) →
        es.Pairwise (fun a b => a.newVersion ≤ b.newVersion) →
        es.foldlM ChangeEvent.replay?
            (overheard.quiet.build (.ofSources [overheardTable.toSource] 1)).run.values =
          some (d.store.snapshot overheard.quiet).values := by
  have hlistens : overheard.Listens ⟨1, "ear", ["port"], false⟩ := by
    refine ⟨rfl, by decide, [⟨0, "echo", [], false⟩], [], rfl, fun y hy => ?_⟩
    cases List.mem_singleton.1 hy
    decide
  have hstory := events_tell_the_story [overheardTable.toSource] (some overheardTable) ⟨[], 0⟩
    overheard.quiet []
  obtain ⟨answers, l', os, d, entries, hrun, hd, hstore, -, -, hlog, hheard⟩ :=
    (hstory [] _ .nil).2 overheard ⟨1, "ear", ["port"], false⟩
      [.commit [.put "port" "81"], .refresh, .reload] rfl rfl rfl (fun h => by cases h) hlistens
      (fun call hmem => by simp at hmem; rcases hmem with rfl | rfl | rfl <;> exact trivial)
  refine ⟨answers, l', os, d, entries, hrun, hd, hstore, ?_, hheard, fun es hperm hsorted => ?_⟩
  · have hentries : entries =
        ((performAll [.commit [.put "port" "81"], .refresh, .reload]).run overheard).2.log := by
      rw [hrun]
      exact hlog.symm
    rw [hentries]
    decide +kernel
  · exact ((hstory os d hd).1 es hperm hsorted).2.2.2

end Live

end LayeredConfig
