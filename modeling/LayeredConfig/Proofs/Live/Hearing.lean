import LayeredConfig.Proofs.Live.Calls
import LayeredConfig.Proofs.Live.Reading

/-! # What a listener hears

A listener that stays registered hears of an event that has changes, once, whatever happens while
it is told (`announce_run`): it may read what a hook on the way changes, it may write (`call_run`),
and the listeners before and behind it may do the same or leave. Of all that is changed on the way
it hears as well.

`Progress` says which steps the store has made and which events a listener has heard of. A commit
owes the listener an event until it is announced. There are never more commits to come on the way
than are pending (`Reports`), so the bound on nested commits is never met. -/

namespace LayeredConfig

/-- The events that listeners of a label have heard of. -/
def heard (label : String) (log : List LogEntry) : List ChangeEvent :=
  log.filterMap fun
    | .heard listener event _ => if listener = label then some event else none
    | _ => none

theorem heard_append (label : String) (a b : List LogEntry) :
    heard label (a ++ b) = heard label a ++ heard label b := List.filterMap_append

/-- The events with changes. -/
def withChanges (es : List ChangeEvent) : List ChangeEvent := es.filter fun event => !event.isEmpty

theorem withChanges_append (es fs : List ChangeEvent) :
    withChanges (es ++ fs) = withChanges es ++ withChanges fs := List.filter_append _ _

/-- The events with changes that some steps have told of. -/
def toldBy (os : List Occurrence) : List ChangeEvent := withChanges (events os)

theorem toldBy_append (os rest : List Occurrence) :
    toldBy (os ++ rest) = toldBy os ++ toldBy rest := by
  rw [toldBy, events_append, withChanges_append]
  rfl

namespace Live

variable {x : Listener} {l l' l'' : Live} {os rest : List Occurrence} {es fs : List ChangeEvent}
  {n : Nat} {write : Write}

/-- A listener that is registered for good, under a label and a number of its own. -/
structure Listens (l : Live) (x : Listener) : Prop where
  stays : x.leaves = false
  numbered : x.number < l.nextListener
  among : ∃ before after, l.listeners = before ++ x :: after ∧
    ∀ y ∈ before ++ after, y.label ≠ x.label ∧ y.number ≠ x.number

theorem Listens.congr (h : l.Listens x) (hl : l'.listeners = l.listeners)
    (hn : l'.nextListener = l.nextListener) : l'.Listens x :=
  ⟨h.stays, hn ▸ h.numbered, hl ▸ h.among⟩

/-- Another listener may leave. -/
theorem Listens.dismiss (h : l.Listens x) {number : Nat} (hne : number ≠ x.number) :
    Listens { l with listeners := l.listeners.filter fun y => y.number ≠ number } x := by
  obtain ⟨before, after, hl, hother⟩ := h.among
  refine ⟨h.stays, h.numbered, before.filter fun y => y.number ≠ number,
    after.filter fun y => y.number ≠ number, ?_, fun y hy => hother y ?_⟩
  · have hkept : decide (x.number ≠ number) = true := decide_eq_true hne.symm
    show l.listeners.filter _ = _
    rw [hl, List.filter_append, List.filter_cons, if_pos hkept]
  · rw [← List.filter_append] at hy
    exact (List.mem_filter.1 hy).1

/-! ### Progress -/

/-- A context that goes on by steps of its store, while a listener hears of events. -/
structure Progress (x : Listener) (l : Live) (os : List Occurrence) (es : List ChangeEvent)
    (l' : Live) : Prop where
  setup : l'.setup = l.setup
  files : l'.files = l.files
  listens : l.Listens x → l'.Listens x
  log : ∃ entries, l'.log = l.log ++ entries ∧ (heard x.label entries).Perm es
  store : ∀ c : Course, c.Sound l.quiet → c.store = l.store →
    ∃ d, c.Stretch l.quiet l.setup.providers os d ∧ d.store = l'.store

namespace Progress

theorem quiet (h : Progress x l os es l') : l'.quiet = l.quiet := by
  unfold Live.quiet
  rw [h.setup, h.files]

/-- The store stays as it is. -/
theorem of_store {entries : List LogEntry} (hsetup : l'.setup = l.setup)
    (hfiles : l'.files = l.files) (hlistens : l.Listens x → l'.Listens x)
    (hlog : l'.log = l.log ++ entries) (hstore : l'.store = l.store) :
    Progress x l [] (heard x.label entries) l' :=
  ⟨hsetup, hfiles, hlistens, ⟨entries, hlog, .refl _⟩,
    fun c _ hc => ⟨c, .nil, hc.trans hstore.symm⟩⟩

/-- An entry of the log is what is heard of. -/
theorem record (x : Listener) (l : Live) (entry : LogEntry) :
    Progress x l [] (heard x.label [entry]) { l with log := l.log ++ [entry] } :=
  of_store rfl rfl (fun hx => hx.congr rfl rfl) rfl rfl

/-- Nobody hears of anything. -/
theorem still (hsetup : l'.setup = l.setup) (hfiles : l'.files = l.files)
    (hlistens : l.Listens x → l'.Listens x) (hlog : l'.log = l.log)
    (hstore : l'.store = l.store) : Progress x l [] [] l' :=
  of_store hsetup hfiles hlistens (hlog.trans (List.append_nil _).symm) hstore

theorem refl (x : Listener) (l : Live) : Progress x l [] [] l := still rfl rfl id rfl rfl

theorem trans (h : Progress x l os es l') (h' : Progress x l' rest fs l'') :
    Progress x l (os ++ rest) (es ++ fs) l'' where
  setup := h'.setup.trans h.setup
  files := h'.files.trans h.files
  listens hx := h'.listens (h.listens hx)
  log := by
    obtain ⟨first, hfirst, hes⟩ := h.log
    obtain ⟨second, hsecond, hfs⟩ := h'.log
    refine ⟨first ++ second, by rw [hsecond, hfirst, List.append_assoc], ?_⟩
    rw [heard_append]
    exact hes.append hfs
  store c hc hstore := by
    obtain ⟨d, hd, hdstore⟩ := h.store c hc hstore
    obtain ⟨e, he, hestore⟩ := h'.store d (h.quiet ▸ hd.sound hc) hdstore
    rw [h.quiet, h.setup] at he
    exact ⟨e, hd.append he, hestore⟩

theorem perm (h : Progress x l os es l') (hperm : es.Perm fs) : Progress x l os fs l' := by
  obtain ⟨entries, hlog, hheard⟩ := h.log
  exact ⟨h.setup, h.files, h.listens, ⟨entries, hlog, hheard.trans hperm⟩, h.store⟩

/-- A step of the store, of which nobody has heard yet. -/
theorem of_step {s : Store} {o : Occurrence} {before : List Occurrence}
    (h : ∀ past, Course.Step l.quiet l.setup.providers before ⟨l.store, past⟩ o
      (Course.moved ⟨l.store, past⟩ s)) : Progress x l [o] [] { l with store := s } := by
  refine ⟨rfl, rfl, fun hx => hx.congr rfl rfl, ⟨[], (List.append_nil _).symm, .refl _⟩,
    fun c _ hc => ?_⟩
  obtain ⟨store, past⟩ := c
  cases hc
  exact ⟨_, .single (h past), rfl⟩

theorem isSome_writable (h : Progress x l os es l') (hl : l.Sound) :
    l'.store.writable.isSome = l.store.writable.isSome := by
  obtain ⟨c, hc, hstore⟩ := hl.reached
  obtain ⟨d, hd, hdstore⟩ := h.store c hc hstore
  obtain ⟨accesses, rfl⟩ := hd.accesses hc
  rw [← hdstore, Course.isSome_writable_after, hstore]

theorem sound (h : Progress x l os es l') (harmed : l'.armed.isSome → l'.store.writable.isSome)
    (hl : l.Sound) : l'.Sound := by
  obtain ⟨c, hc, hstore⟩ := hl.reached
  obtain ⟨d, hd, hdstore⟩ := h.store c hc hstore
  exact ⟨⟨d, h.quiet ▸ hd.sound hc, hdstore⟩, harmed⟩

end Progress

/-! ### On the way of a call -/

/-- No more commits are to come than before, and no hook is armed on the way. -/
structure Calmer (l l' : Live) : Prop where
  pending : l'.pending ≤ l.pending
  armed : l'.armed.isSome → l.armed.isSome

theorem Calmer.refl (l : Live) : Calmer l l := ⟨Nat.le_refl _, id⟩

theorem Calmer.trans (h : Calmer l l') (h' : Calmer l' l'') : Calmer l l'' :=
  ⟨Nat.le_trans h'.pending h.pending, fun hsome => h.armed (h'.armed hsome)⟩

/-- A sound context with a listener, and with a bound on the commits that are still to come. -/
structure Ready (x : Listener) (n : Nat) (l : Live) : Prop where
  sound : l.Sound
  listens : l.Listens x
  pending : l.pending ≤ n

theorem Ready.goesOn (h : Ready x n l) (hprogress : Progress x l os es l') (hcalm : Calmer l l') :
    Ready x n l' where
  sound := by
    refine hprogress.sound (fun hsome => ?_) h.sound
    rw [hprogress.isSome_writable h.sound]
    exact h.sound.armed (hcalm.armed hsome)
  listens := hprogress.listens h.listens
  pending := Nat.le_trans hcalm.pending h.pending

/-- Contexts in which a listener hears of what the steps of the store tell. -/
def hearing (x : Listener) (n : Nat) : Passage Live where
  holds := Ready x n
  leads l l' := (∃ os, Progress x l os (toldBy os) l') ∧ Calmer l l'
  refl l := ⟨⟨[], .refl x l⟩, .refl l⟩
  trans := by
    rintro a b c ⟨⟨os, hab⟩, hcalm⟩ ⟨⟨rest, hbc⟩, hcalm'⟩
    exact ⟨⟨os ++ rest, toldBy_append os rest ▸ hab.trans hbc⟩, hcalm.trans hcalm'⟩
  keeps := by
    rintro a b ha ⟨⟨os, hab⟩, hcalm⟩
    exact ha.goesOn hab hcalm

/-- Whether writes are committed and told of, as long as fewer commits than a bound are to come. -/
def Reports (x : Listener) (n : Nat) (write : Write) : Prop :=
  ∀ changes l, l.Sound → l.Listens x → l.pending < n →
    ∃ outcome l' os, (write changes).run l = pure (outcome, l') ∧
      Progress x l os (toldBy os) l' ∧ Calmer l l' ∧
      (l.store.writable.isSome → ∃ event, outcome = .ok event) ∧
      outcome.toOption.toList.Sublist (events os)

section Reading

/-- An entry that is not for the listener. -/
theorem leads_record_other {entry : LogEntry} (h : heard x.label [entry] = []) (l : Live) :
    (hearing x n).leads l { l with log := l.log ++ [entry] } := by
  have hprogress := Progress.record x l entry
  rw [h] at hprogress
  exact ⟨⟨[], hprogress⟩, Nat.le_refl _, id⟩

theorem passes_record_other {entry : LogEntry} (h : heard x.label [entry] = []) :
    (hearing x n).Passes (record entry) := .modify (leads_record_other h)

/-- Another listener leaves. -/
theorem leads_dismiss {number : Nat} (hne : number ≠ x.number) (l : Live) :
    (hearing x n).leads l
      { l with listeners := l.listeners.filter fun y => y.number ≠ number } :=
  ⟨⟨[], .still rfl rfl (fun hx => hx.dismiss hne) rfl rfl⟩, Nat.le_refl _, id⟩

/-- A hook answers, and what it commits is told of. -/
theorem gives_atHook_hearing (h : Reports x n write) :
    (hearing x n).Gives (atHook write) (.ok ()) := by
  intro l hl
  cases harmed : l.armed with
  | none => exact ⟨l, atHook_run_of_none harmed, (hearing x n).refl l⟩
  | some changes =>
    have hcalm : Calmer l { l with armed := none } := by
      refine ⟨?_, fun h => by cases h⟩
      show l.answers.length + 0 ≤ l.answers.length + _
      omega
    have hdisarm : Progress x l [] [] { l with armed := none } :=
      .still rfl rfl (fun hx => hx.congr rfl rfl) rfl rfl
    have hready := hl.goesOn hdisarm hcalm
    have hpending : Live.pending { l with armed := none } < n := by
      have hl := hl.pending
      unfold Live.pending at hl ⊢
      rw [harmed] at hl
      simp at hl ⊢
      omega
    obtain ⟨outcome, l', os, hwrite, hprogress, hcalm', hok, -⟩ :=
      h changes _ hready.sound hready.listens hpending
    obtain ⟨event, rfl⟩ := hok (hl.sound.armed (by rw [harmed]; rfl))
    refine ⟨_, atHook_run harmed hwrite,
      (hearing x n).trans ⟨⟨[] ++ os, hdisarm.trans hprogress⟩, hcalm.trans hcalm'⟩ ?_⟩
    exact leads_record_other rfl l'

theorem passes_getBy_hearing (h : Reports x n write) (key : String) :
    (hearing x n).Passes (getBy write key) :=
  .bind .get fun l => ((follows_view (gives_atHook_hearing h) l).gives_get _ key).passes

/-- A listener's write is one of those that were pending. -/
theorem passes_answer_hearing (h : Reports x n write) (number : Nat) :
    (hearing x n).Passes (answer write number) := by
  intro l hl
  unfold answer
  rw [StateT.run_bind, StateT.run_get, pure_bind]
  cases hlookup : l.answers.lookup number with
  | none => exact ⟨(), l, rfl, (hearing x n).refl l⟩
  | some change =>
    obtain ⟨before, after, hanswers, -⟩ := List.lookup_eq_some_iff.1 hlookup
    have hlt : (l.answers.filter fun a => a.1 ≠ number).length < l.answers.length := by
      refine List.length_filter_lt_length_iff_exists.2 ⟨(number, change), ?_, by simp⟩
      rw [hanswers]
      exact List.mem_append_right _ List.mem_cons_self
    let l₁ : Live := { l with answers := l.answers.filter fun a => a.1 ≠ number }
    have hpending : l₁.pending < l.pending := Nat.add_lt_add_right hlt _
    have hcalm : Calmer l l₁ := ⟨Nat.le_of_lt hpending, id⟩
    have hspent : Progress x l [] [] l₁ :=
      .still rfl rfl (fun hx => hx.congr rfl rfl) rfl rfl
    have hready := hl.goesOn hspent hcalm
    obtain ⟨outcome, l', os, hwrite, hprogress, hcalm', -⟩ :=
      h [change] l₁ hready.sound hready.listens (Nat.lt_of_lt_of_le hpending hl.pending)
    refine ⟨(), l', ?_, ⟨[] ++ os, hspent.trans hprogress⟩, hcalm.trans hcalm'⟩
    simp only [StateT.run_bind, StateT.run_modify, pure_bind]
    show ((fun _ => ()) <$> write [change] : StateM Live Unit).run l₁ = _
    rw [StateT.run_map, hwrite]
    rfl

/-- The snapshot that is built on the way is kept. -/
theorem passes_snapshotBy_hearing (h : Reports x n write) :
    (hearing x n).Passes (snapshotBy write) := by
  intro l hl
  cases hcurrent : l.store.current? with
  | some kept =>
    obtain ⟨hkept, hversion⟩ := Store.eq_of_current? hcurrent
    exact ⟨kept, l, snapshotBy_run_of_kept write hkept hversion, (hearing x n).refl l⟩
  | none =>
    obtain ⟨l₂, hbuild, ⟨os, hprogress⟩, hcalm⟩ :=
      (follows_view (gives_atHook_hearing h) l).gives_build l.store.published l hl
    refine ⟨_, _, snapshotBy_run_of_built (fun _ => Store.version_ne_of_current? hcurrent) hbuild,
      ⟨os ++ [.kept (l.quiet.build l.store.published).run], ?_⟩, hcalm.pending, hcalm.armed⟩
    rw [toldBy_append]
    refine ⟨hprogress.setup, hprogress.files, fun hx => (hprogress.listens hx).congr rfl rfl, ?_,
      fun c hc hstore => ?_⟩
    · exact (List.append_nil (toldBy os)).symm ▸ hprogress.log
    · obtain ⟨⟨store, past⟩, hd, hdstore⟩ := hprogress.store c hc hstore
      cases hdstore
      obtain ⟨accesses, haccesses⟩ := hd.accesses hc
      have hpast : l.store.published ∈ (c.after l.quiet accesses).past :=
        (Course.past_suffix_after _ c accesses).mem (hstore ▸ hc.published_mem)
      rw [← haccesses] at hpast
      have step : Course.Step l.quiet l.setup.providers [] ⟨l₂.store, past⟩
          (.kept (l.quiet.build l.store.published).run) _ := .keep hpast
      exact ⟨_, .snoc hd step, rfl⟩

end Reading

/-! ### Telling of an event -/

section Telling

theorem passes_call_other (h : Reports x n write) (event : ChangeEvent) {y : Listener}
    (hlabel : y.label ≠ x.label) (hnumber : y.number ≠ x.number) :
    (hearing x n).Passes (call write event y) := by
  have hother (read) : heard x.label [.heard y.label event read] = [] := by
    simp [heard, hlabel]
  exact Passage.passes_call (passes_getBy_hearing h) (fun read => passes_record_other (hother read))
    (.modify (leads_dismiss hnumber)) (passes_answer_hearing h _)

/-- The listener hears of the event, and of those that its own reading and writing lead to. -/
theorem call_run (h : Reports x n write) (event : ChangeEvent) (hl : Ready x n l) :
    ∃ l' os, (call write event x).run l = pure ((), l') ∧
      Progress x l os (event :: toldBy os) l' ∧ Calmer l l' := by
  have hread : (hearing x n).Passes
      (x.reads.mapM fun key => do return (key, ← getBy write key)) :=
    .mapM (fun key => .bind (passes_getBy_hearing h key) fun _ => .pure _) _
  obtain ⟨read, l₁, hreadrun, ⟨os, hprogress⟩, hcalm⟩ := hread l hl
  let l₂ : Live := { l₁ with log := l₁.log ++ [.heard x.label event read] }
  have htold : Progress x l₁ [] [event] l₂ := by
    have hheard : heard x.label [.heard x.label event read] = [event] := by simp [heard]
    have hrecord := Progress.record x l₁ (.heard x.label event read)
    rwa [hheard] at hrecord
  have hready := (hl.goesOn hprogress hcalm).goesOn htold ⟨Nat.le_refl _, id⟩
  obtain ⟨_, l', hanswer, ⟨rest, hprogress'⟩, hcalm'⟩ :=
    passes_answer_hearing h x.number l₂ hready
  refine ⟨l', os ++ ([] ++ rest), ?_, ?_, hcalm.trans ⟨hcalm'.pending, hcalm'.armed⟩⟩
  · unfold call
    rw [StateT.run_bind, hreadrun, pure_bind, hl.listens.stays]
    exact hanswer
  · refine (hprogress.trans (htold.trans hprogress')).perm ?_
    rw [List.nil_append, toldBy_append]
    exact List.perm_middle

/-- The listener is told of the event if anything has changed. -/
theorem announce_run (h : Reports x n write) (event : ChangeEvent) (hl : Ready x n l) :
    ∃ l' os, (announce write event).run l = pure ((), l') ∧
      Progress x l os (withChanges [event] ++ toldBy os) l' ∧ Calmer l l' := by
  unfold announce
  cases hempty : event.isEmpty with
  | true =>
    have hnone : withChanges [event] = [] := by simp [withChanges, hempty]
    refine ⟨l, [], rfl, ?_, .refl l⟩
    rw [hnone]
    exact .refl x l
  | false =>
    have hsome : withChanges [event] = [event] := by simp [withChanges, hempty]
    obtain ⟨before, after, hlisteners, hothers⟩ := hl.listens.among
    have hpasses : ∀ ys : List Listener, (∀ y ∈ ys, y ∈ before ++ after) →
        (hearing x n).Passes (ys.forM (call write event)) := by
      intro ys hys
      refine .forM fun y hy => ?_
      obtain ⟨hlabel, hnumber⟩ := hothers y (hys y hy)
      exact passes_call_other h event hlabel hnumber
    obtain ⟨_, l₁, hrun₁, ⟨os₁, hprogress₁⟩, hcalm₁⟩ :=
      hpasses before (fun _ => List.mem_append_left _) l hl
    have hready₁ := hl.goesOn hprogress₁ hcalm₁
    obtain ⟨l₂, os₂, hrun₂, hprogress₂, hcalm₂⟩ := call_run h event hready₁
    have hready₂ := hready₁.goesOn hprogress₂ hcalm₂
    obtain ⟨_, l₃, hrun₃, ⟨os₃, hprogress₃⟩, hcalm₃⟩ :=
      hpasses after (fun _ => List.mem_append_right _) l₂ hready₂
    refine ⟨l₃, os₁ ++ (os₂ ++ os₃), ?_, ?_, hcalm₁.trans (hcalm₂.trans hcalm₃)⟩
    · have hsplit : (before ++ x :: after).forM (call write event) =
          (do before.forM (call write event); call write event x; after.forM (call write event)) :=
        List.forM_append
      rw [if_neg Bool.false_ne_true, StateT.run_bind, StateT.run_get, pure_bind, hlisteners, hsplit,
        StateT.run_bind, hrun₁, pure_bind, StateT.run_bind, hrun₂, pure_bind]
      exact hrun₃
    · refine (hprogress₁.trans (hprogress₂.trans hprogress₃)).perm ?_
      rw [hsome, toldBy_append, toldBy_append]
      exact List.perm_middle

end Telling

end Live

end LayeredConfig
