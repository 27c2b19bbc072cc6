import LayeredConfig.Proofs.Hiding.Steps
import LayeredConfig.Proofs.Live.Calm
import LayeredConfig.Proofs.Live.Coupling

/-! # Programs and hidden keys

Two contexts may be put together alike, but for filters in the second one that drop keys from
snapshots. Then a program may make calls of both: every key has one value in both, the snapshots of
the second one are those of the first one without the hidden keys, and so are the changes that
commits and reloads tell of (`told_restricts`).

The two run side by side (`Live.Alongside`, `Coupled`). Nobody may act on the way (`Call.IsCalm`): a
hook that is met in the value of a hidden key is not met on the other side, and a listener that
would write or leave hears of a change to a hidden key on one side only. -/

namespace LayeredConfig

open List (Forall₂)

variable {hidden : String → Bool} {v v' : View Id}

/-! ### The log -/

/-- What is told without the changes of hidden keys. Listeners do not hear of an event without
changes. -/
def LogEntry.without? (hidden : String → Bool) : LogEntry → Option LogEntry
  | heard listener event read =>
    if (event.without hidden).isEmpty then none
    else some (.heard listener (event.without hidden) read)
  | hookCommitted event => some (.hookCommitted (event.without hidden))
  | nestedReload outcome => some (.nestedReload (outcome.map (·.without hidden)))

namespace Live

variable {l l' : Live}

/-- Contexts at work in which nobody acts, read through two views, that are alike but for what the
second view hides. -/
structure Alongside (hidden : String → Bool) (v v' : View Id) (l l' : Live) : Prop where
  quiet : l.quiet = v
  quiet' : l'.quiet = v'
  providers : l'.setup.providers = l.setup.providers
  timeout : l'.setup.timeout = l.setup.timeout
  files : l'.files = l.files
  store : l.store.Alongside v v' l'.store
  calm : l.Calm
  calm' : l'.Calm
  listeners : l'.listeners = l.listeners
  nextListener : l'.nextListener = l.nextListener
  log : l'.log = l.log.filterMap (LogEntry.without? hidden)

/-- Events of which the second one tells what the first one does, but for hidden keys. -/
def Restricted (hidden : String → Bool) (outcome outcome' : Result ChangeEvent) : Prop :=
  outcome' = outcome.map (·.without hidden)

namespace Alongside

variable (h : l.Alongside hidden v v' l')
include h

theorem withStore {s s' : Store} (hs : s.Alongside v v' s') :
    Alongside hidden v v' { l with store := s } { l' with store := s' } :=
  { h with
    store := hs
    calm := h.calm.withStore s
    calm' := h.calm'.withStore s' }

theorem record {entries entries' : List LogEntry}
    (hentries : entries' = entries.filterMap (LogEntry.without? hidden)) :
    Alongside hidden v v' { l with log := l.log ++ entries }
      { l' with log := l'.log ++ entries' } :=
  { h with
    calm := h.calm.withLog _
    calm' := h.calm'.withLog _
    log := by
      show l'.log ++ entries' = (l.log ++ entries).filterMap _
      rw [List.filterMap_append, h.log, hentries] }

/-- Listeners hear of the same changes but those of hidden keys, and read the same. -/
theorem entriesOf (hv : v.Veils hidden v') (event : ChangeEvent) :
    l'.entriesOf (event.without hidden) =
      (l.entriesOf event).filterMap (LogEntry.without? hidden) := by
  have hread : ∀ key, l'.quiet.get l'.store.published key = l.quiet.get l.store.published key := by
    intro key
    rw [h.quiet, h.quiet', h.store.published, hv.get]
  have hentry : ∀ x, l'.entryOf (event.without hidden) x =
      .heard x.label (event.without hidden) (x.reads.map fun key =>
        (key, (l.quiet.get l.store.published key).run)) := by
    intro x
    unfold entryOf
    simp only [hread]
  unfold Live.entriesOf
  rw [h.listeners]
  cases hempty : (event.without hidden).isEmpty with
  | true =>
    have hnone : ∀ x, LogEntry.without? hidden (l.entryOf event x) = none := fun x => if_pos hempty
    have hall : (l.listeners.map (l.entryOf event)).filterMap (LogEntry.without? hidden) = [] := by
      simp [hnone]
    rw [if_pos rfl]
    split
    · rfl
    · exact hall.symm
  | false =>
    have hsome : ∀ x, LogEntry.without? hidden (l.entryOf event x) =
        some (l'.entryOf (event.without hidden) x) := by
      intro x
      rw [hentry]
      exact if_neg (by simp [hempty])
    have hwhole : event.isEmpty = false := by
      refine Bool.eq_false_iff.2 fun hwhole => ?_
      rw [ChangeEvent.isEmpty_without hwhole] at hempty
      cases hempty
    simp [hwhole, List.filterMap_map, hsome]

theorem after (hv : v.Veils hidden v') {step step' : Result ChangeEvent × Store}
    (hstep : step'.1 = step.1.map (·.without hidden) ∧ step.2.Alongside v v' step'.2) :
    (l.after step).Alongside hidden v v' (l'.after step') := by
  have hstore := h.withStore hstep.2
  refine hstore.record ?_
  rw [hstep.1]
  cases step.1 with
  | error error => rfl
  | ok event => simpa [Except.map, Except.toOption] using hstore.entriesOf hv event

end Alongside

/-! ### Changes -/

theorem coupled_startReload :
    Coupled (Alongside hidden v v') Eq (onStore Store.startReload) (onStore Store.startReload) := by
  intro l l' h
  have hstart := h.store.startReload
  exact ⟨_, _, _, _, rfl, rfl, hstart.1.symm, h.withStore hstart.2⟩

theorem coupled_refresh : Coupled (Alongside hidden v v') Eq refresh refresh := by
  intro l l' h
  have hversion : l.store.refresh.version = l'.store.refresh.version :=
    congrArg Nat.succ h.store.version.symm
  exact ⟨_, _, _, _, rfl, rfl, hversion, h.withStore h.store.refresh⟩

theorem coupled_record {entry entry' : LogEntry} (h : entry.without? hidden = some entry') :
    Coupled (Alongside hidden v v') Eq (record entry) (record entry') :=
  .modify fun l l' hl => hl.record (by simp [h])

section Changes

variable (hv : v.Veils hidden v')
include hv

theorem coupled_commit (changes : List Change) :
    Coupled (Alongside hidden v v') (Restricted hidden) (commit changes) (commit changes) := by
  intro l l' h
  have hcommit := h.store.commit hv changes
  have hrun := h.calm.commit_run changes
  have hrun' := h.calm'.commit_run changes
  rw [h.quiet] at hrun
  rw [h.quiet'] at hrun'
  exact ⟨_, _, _, _, hrun, hrun', hcommit.1, h.after hv hcommit⟩

theorem coupled_finishReload (number : Nat) (loaded : Loaded) :
    Coupled (Alongside hidden v v') (Restricted hidden) (finishReload number loaded)
      (finishReload number loaded) := by
  intro l l' h
  have hfinish := h.store.finishReload hv l.setup.providers number loaded
  have hrun := h.calm.finishReload_run number loaded
  have hrun' := h.calm'.finishReload_run number loaded
  rw [h.quiet] at hrun
  rw [h.quiet', h.providers] at hrun'
  exact ⟨_, _, _, _, hrun, hrun', hfinish.1, h.after hv hfinish⟩

/-- What has been loaded is the same, so the reload ends alike. -/
theorem coupled_load (number : Nat) :
    Coupled (Alongside hidden v v') (Restricted hidden)
      (do let l ← get; finishReload number (l.setup.load number l.files))
      (do let l ← get; finishReload number (l.setup.load number l.files)) := by
  refine Coupled.get.bind fun l l' h => ?_
  have hload : l'.setup.load number l'.files = l.setup.load number l.files := by
    unfold Setup.load
    rw [h.providers, h.timeout, h.files]
  rw [hload]
  exact coupled_finishReload hv number _

theorem coupled_reloadWithin (fuel : Nat) :
    Coupled (Alongside hidden v v') (Restricted hidden) (reloadWithin fuel)
      (reloadWithin fuel) := by
  induction fuel with
  | zero =>
    unfold reloadWithin
    refine coupled_startReload.bind ?_
    rintro number _ rfl
    exact coupled_load hv number
  | succ fuel ih =>
    unfold reloadWithin
    refine coupled_startReload.bind ?_
    rintro number _ rfl
    refine Coupled.get.bind fun l l' h => ?_
    rw [h.providers]
    refine Coupled.bind (.forM (fun p => ?_) _) fun _ _ _ => coupled_load hv number
    split
    · refine ih.bind ?_
      rintro outcome _ rfl
      exact coupled_record rfl
    · exact .pure rfl

theorem coupled_reload : Coupled (Alongside hidden v v') (Restricted hidden) reload reload := by
  unfold reload
  refine Coupled.get.bind fun l l' h => ?_
  rw [h.providers]
  exact coupled_reloadWithin hv _

end Changes

/-! ### Reading -/

theorem coupled_snapshot : Coupled (Alongside hidden v v') (SameBuild v v') snapshot snapshot := by
  intro l l' h
  have hrun : snapshot.run l = _ := snapshotBy_run_unarmed h.calm.armed
  have hrun' : snapshot.run l' = _ := snapshotBy_run_unarmed h.calm'.armed
  rw [h.quiet] at hrun
  rw [h.quiet'] at hrun'
  exact ⟨_, _, _, _, hrun, hrun', h.store.snapshot, h.withStore h.store.seen⟩

section Reading

variable (hv : v.Veils hidden v')
include hv

theorem coupled_getValue (key : String) :
    Coupled (Alongside hidden v v') Eq (getValue key) (getValue key) := by
  intro l l' h
  have hrun : (getValue key).run l = _ := getValueBy_run_unarmed h.calm.armed key
  have hrun' : (getValue key).run l' = _ := getValueBy_run_unarmed h.calm'.armed key
  refine ⟨_, _, _, _, hrun, hrun', ?_, h⟩
  rw [h.quiet, h.quiet', h.store.published, hv.getValue]

theorem coupled_read (key : String) : Coupled (Alongside hidden v v') Eq (read key) (read key) := by
  intro l l' h
  have hrun : (read key).run l = _ := getBy_run_unarmed h.calm.armed key
  have hrun' : (read key).run l' = _ := getBy_run_unarmed h.calm'.armed key
  refine ⟨_, _, _, _, hrun, hrun', ?_, h⟩
  rw [h.quiet, h.quiet', h.store.published, hv.get]

end Reading

/-! ### Listeners -/

/-- A listener that neither writes nor leaves may be registered. -/
theorem coupled_listen (label : String) (reads : List String) :
    Coupled (Alongside hidden v v') Eq (listen label reads false none)
      (listen label reads false none) := by
  refine .modify fun l l' h => ?_
  have hcalm {m : Live} (hm : m.Calm) : Calm { m with
      listeners := m.listeners ++ [⟨m.nextListener, label, reads, false⟩]
      nextListener := m.nextListener + 1
      answers := m.answers ++ ((none : Option Change).map (m.nextListener, ·)).toList } := by
    refine ⟨hm.armed, by simp [hm.answers], fun x hx => ?_⟩
    rcases List.mem_append.1 hx with hx | hx
    · exact hm.stay x hx
    · rw [List.mem_singleton.1 hx]
  exact { h with
    calm := hcalm h.calm
    calm' := hcalm h.calm'
    listeners := by
      dsimp only
      rw [h.listeners, h.nextListener]
    nextListener := congrArg Nat.succ h.nextListener }

theorem coupled_dismiss (number : Nat) :
    Coupled (Alongside hidden v v') Eq (dismiss number) (dismiss number) := by
  refine .modify fun l l' h => ?_
  have hcalm {m : Live} (hm : m.Calm) :
      Calm { m with listeners := m.listeners.filter fun x => x.number ≠ number } :=
    ⟨hm.armed, hm.answers, fun x hx => hm.stay x (List.mem_filter.1 hx).1⟩
  exact { h with
    calm := hcalm h.calm
    calm' := hcalm h.calm'
    listeners := congrArg (List.filter _) h.listeners }

theorem coupled_dismissLabel (label : String) :
    Coupled (Alongside hidden v v') Eq (dismissLabel label) (dismissLabel label) := by
  unfold dismissLabel
  refine Coupled.get.bind fun l l' h => ?_
  rw [h.listeners]
  split
  · exact .pure rfl
  · exact (coupled_dismiss _).bind fun _ _ _ => .pure rfl

/-! ### Calls -/

theorem coupled_edit (w : Writable) :
    Coupled (Alongside hidden v v') Eq (edit w) (edit w) :=
  .modify fun _ _ h => h.withStore (h.store.edited w)

end Live

/-- A call after which nobody acts: it arms no hook, and a listener that it registers neither writes
nor leaves. -/
def Call.IsCalm : Call → Prop
  | listen _ _ leaves answer => leaves = false ∧ answer = none
  | arm _ => False
  | _ => True

/-- Answers of which the second one is the first one without hidden keys, `v` being how the context
is read that gives the first one. -/
def Answer.Restricts (v : View Id) (hidden : String → Bool) : Answer → Answer → Prop
  | committed whole, committed part => Live.Restricted hidden whole part
  | reloaded whole, reloaded part => Live.Restricted hidden whole part
  | snapshot whole, snapshot part =>
    ∃ set, whole = (v.build set).run ∧ Snapshot.Restricts hidden (v.visible set) whole part
  | answer, answer' => answer' = answer

namespace Live

/-- A call is answered alike, but for hidden keys. -/
theorem coupled_perform (hv : v.Veils hidden v') {call : Call} (hcall : call.IsCalm) :
    Coupled (Alongside hidden v v') (Answer.Restricts v hidden) (perform call) (perform call) := by
  cases call with
  | commit changes => exact (coupled_commit hv changes).bind fun _ _ h => .pure h
  | reload => exact (coupled_reload hv).bind fun _ _ h => .pure h
  | startReload => exact coupled_startReload.bind fun _ _ h => .pure (congrArg _ h.symm)
  | finishReload number loaded =>
    exact (coupled_finishReload hv number loaded).bind fun _ _ h => .pure h
  | refresh => exact coupled_refresh.bind fun _ _ h => .pure (congrArg _ h.symm)
  | getValue key => exact (coupled_getValue hv key).bind fun _ _ h => .pure (congrArg _ h.symm)
  | get key => exact (coupled_read hv key).bind fun _ _ h => .pure (congrArg _ h.symm)
  | properties =>
    refine coupled_snapshot.bind ?_
    rintro _ _ ⟨set, rfl, rfl⟩
    exact .pure ⟨set, rfl, hv.restricts_build set⟩
  | sources =>
    refine Coupled.get.bind fun l l' h => .pure ?_
    rw [h.store.published]
    rfl
  | bind fields =>
    exact (Coupled.readAfter (coupled_read hv) ∅ fields).bind fun _ _ h =>
      .pure (congrArg _ h.symm)
  | listen label reads leaves answer =>
    obtain ⟨rfl, rfl⟩ := hcall
    exact (coupled_listen label reads).bind fun _ _ _ => .pure rfl
  | leave label => exact (coupled_dismissLabel label).bind fun _ _ h => .pure (congrArg _ h.symm)
  | arm changes => exact hcall.elim
  | edit w => exact (coupled_edit w).bind fun _ _ _ => .pure rfl

theorem coupled_performAll (hv : v.Veils hidden v') {calls : List Call}
    (hcalls : ∀ call ∈ calls, call.IsCalm) :
    Coupled (Alongside hidden v v') (Forall₂ (Answer.Restricts v hidden)) (performAll calls)
      (performAll calls) :=
  .mapM fun call hmem => coupled_perform hv (hcalls call hmem)

end Live

/-! ### Programs -/

namespace Builder

/-- Builders that are alike, but that the second one has filters that hide keys among the filters of
the first one. -/
structure Hides (marked : List MarkedFilter) (b b' : Builder) : Prop where
  stages : b.stages = MarkedFilter.others marked
  stages' : b'.stages = MarkedFilter.filters marked
  rest : b' = { b with filters := b'.filters, hidesReserved := b'.hidesReserved }

namespace Hides

variable {marked : List MarkedFilter} {b b' : Builder} (h : b.Hides marked b')
include h

theorem veils (files : FileTree) :
    (b.quiet files).Veils (MarkedFilter.hidden marked) (b'.quiet files) where
  apply ctx x := by
    show (Pipeline.ofFilters b'.stages).apply ctx x =
      if _ then none else (Pipeline.ofFilters b.stages).apply ctx x
    rw [h.stages, h.stages']
    exact MarkedFilter.apply_ofFilters marked ctx x
  evaluator := by
    rw [h.rest]
    rfl
  mask := by
    rw [h.rest]
    rfl

/-- Both builders fail, or the contexts are alongside each other. -/
theorem build (files : FileTree) :
    (∃ e, b.build files = .error e ∧ b'.build files = .error e) ∨
    ∃ built built', b.build files = .ok built ∧ b'.build files = .ok built' ∧
      Live.Alongside (MarkedFilter.hidden marked) (b.quiet files) (b'.quiet files)
        { setup := built.1, store := built.2, files }
        { setup := built'.1, store := built'.2, files } := by
  have hproviders : b'.providers = b.providers := by rw [h.rest]
  have hsources : b'.sources = b.sources := by rw [h.rest]
  have hwritable : b'.writable = b.writable := by rw [h.rest]
  have htimeout : b'.timeout = b.timeout := by rw [h.rest]
  have hloaded : b'.setup.load 0 files = b.setup.load 0 files := by
    unfold Setup.load setup
    rw [hproviders, htimeout]
  unfold Builder.build
  dsimp only
  rw [hloaded, hproviders, hsources, hwritable]
  split
  · exact .inl ⟨_, rfl, rfl⟩
  · exact .inr ⟨_, _, rfl, rfl, {
      quiet := rfl
      quiet' := rfl
      providers := hproviders
      timeout := htimeout
      files := rfl
      store := ⟨.none, rfl⟩
      calm := ⟨rfl, rfl, nofun⟩
      calm' := ⟨rfl, rfl, nofun⟩
      listeners := rfl
      nextListener := rfl
      log := rfl }⟩

end Hides

variable {marked : List MarkedFilter} {b b' : Builder}

/-- **Hiding changes nothing that stays.** Let two builders be alike, but that the second one has
filters that drop keys from snapshots among the filters of the first one. Whatever a program asks of
their contexts, every key has one value in both, and snapshots and the changes that are told of
leave out the hidden keys in the second one, and nothing else. Left out are armed hooks and
listeners that write or leave: they act where a hidden key is read or changed, and so on one side
only. -/
theorem told_restricts (h : b.Hides marked b') (files : FileTree) {calls : List Call}
    (hcalls : ∀ call ∈ calls, call.IsCalm) :
    (∃ e, b.told files calls = .error e ∧ b'.told files calls = .error e) ∨
    ∃ answers answers' log, b.told files calls = .ok (answers, log) ∧
      b'.told files calls =
        .ok (answers', log.filterMap (LogEntry.without? (MarkedFilter.hidden marked))) ∧
      Forall₂ (Answer.Restricts (b.quiet files) (MarkedFilter.hidden marked)) answers answers' := by
  unfold told
  rcases h.build files with ⟨e, he, he'⟩ | ⟨built, built', hb, hb', hl⟩
  · rw [he, he']
    exact .inl ⟨e, rfl, rfl⟩
  · obtain ⟨answers, answers', m, m', hrun, hrun', hanswers, hm⟩ :=
      Live.coupled_performAll (h.veils files) hcalls _ _ hl
    refine .inr ⟨answers, answers', m.log, ?_, ?_, hanswers⟩
    · rw [hb]
      simp only [Except.map, hrun]
      rfl
    · rw [hb', ← hm.log]
      simp only [Except.map, hrun']
      rfl

/-- A table with an address, which a token goes into, which a reserved key goes into. -/
def site : Table :=
  .ofPairs "site" [("_salt", "s"), ("token", "t-${conf:_salt}"), ("url", "db://${conf:token}@host")]

/-- A context of that table, which masks the reserved key and hides nothing. -/
def opened : Builder where
  sources := [site.toSource (.object 0)]
  writable := some ⟨.object 0, site⟩
  filters := [Masking.toFilter { tests := [fun key => key = "_salt"] }]
  hidesReserved := false
  resolvers := [.function .conf]

/-- The same context, which hides the token ahead of the mask, and reserved keys. -/
def closed : Builder :=
  { opened with
    filters := [KeySelection.toFilter { inclusions := [], exclusions := [fun key => key = "token"] },
      Masking.toFilter { tests := [fun key => key = "_salt"] }]
    hidesReserved := true }

/-- The filters of the second context. -/
def closedFilters : List MarkedFilter :=
  [.hider (.selection [] [fun key => key = "token"] 0),
    .other (Masking.toFilter { tests := [fun key => key = "_salt"] }), .hider .reserved]

/-- What a program asks of both. -/
def siteCalls : List Call :=
  [.listen "ear" ["token"] false none, .get "url", .properties,
    .edit ⟨.object 0, site.put "token" "e-${conf:_salt}"⟩, .get "url",
    .commit [.put "token" "u", .put "url" "db://${conf:token}@there"], .commit [.put "token" "w"],
    .get "url"]

/-- The address is told by both contexts with the token in it; that the token itself has changed is
told by the first one only. -/
theorem told_restricts_site :
    ∃ answers answers' log, opened.told .empty siteCalls = .ok (answers, log) ∧
      closed.told .empty siteCalls =
        .ok (answers', log.filterMap (LogEntry.without? (MarkedFilter.hidden closedFilters))) ∧
      Forall₂ (Answer.Restricts (opened.quiet .empty) (MarkedFilter.hidden closedFilters))
        answers answers' ∧
      (answers.filterMap fun
        | .text text => text
        | _ => none) = ["db://t-*****@host", "db://e-*****@host", "db://w@there"] ∧
      (answers.filterMap Answer.event?).map (·.changes.map (·.key)) =
        [["token", "url"], ["token", "url"]] ∧
      (answers'.filterMap Answer.event?).map (·.changes.map (·.key)) = [["url"], ["url"]] := by
  have hhides : opened.Hides closedFilters closed := ⟨rfl, rfl, rfl⟩
  have hcalm : ∀ call ∈ siteCalls, call.IsCalm := by
    simp [siteCalls, Call.IsCalm]
  have hopened : ((opened.told .empty siteCalls).map fun told =>
      (told.1.filterMap fun
        | .text text => text
        | _ => none, (told.1.filterMap Answer.event?).map (·.changes.map (·.key)))).toOption =
      some (["db://t-*****@host", "db://e-*****@host", "db://w@there"],
        [["token", "url"], ["token", "url"]]) := by
    decide +kernel
  have hclosed : ((closed.told .empty siteCalls).map fun told =>
      (told.1.filterMap Answer.event?).map (·.changes.map (·.key))).toOption =
      some [["url"], ["url"]] := by decide +kernel
  rcases told_restricts hhides .empty hcalm with
    ⟨e, he, -⟩ | ⟨answers, answers', log, htold, htold', hanswers⟩
  · rw [he] at hopened
    cases hopened
  · rw [htold] at hopened
    rw [htold'] at hclosed
    obtain ⟨htexts, hchanges⟩ := Prod.mk.inj (Option.some.inj hopened)
    exact ⟨answers, answers', log, htold, htold', hanswers, htexts, hchanges,
      Option.some.inj hclosed⟩

end Builder

end LayeredConfig
