import LayeredConfig.Proofs.Live.Readings

/-! # Contexts in which nobody acts

Where no hook is armed, and listeners neither write nor leave, nothing happens on the way of a
change: it is one step of the store, and what the listeners have heard of it is put into the log
(`commit_run`, `finishReload_run`). -/

namespace LayeredConfig.Live

variable {l : Live} {write : Write}

/-- A context at work whose hook is not armed, with listeners that neither write nor leave. -/
structure Calm (l : Live) : Prop where
  armed : l.armed = none
  answers : l.answers = []
  stay : ∀ x ∈ l.listeners, x.leaves = false

/-- What is told by a listener that hears of an event. -/
def entryOf (l : Live) (event : ChangeEvent) (x : Listener) : LogEntry :=
  .heard x.label event (x.reads.map fun key => (key, (l.quiet.get l.store.published key).run))

/-- What is told by all listeners about an event. -/
def entriesOf (l : Live) (event : ChangeEvent) : List LogEntry :=
  if event.isEmpty then [] else l.listeners.map (l.entryOf event)

/-- The context after a step of the store, of whose outcome the listeners have heard. -/
def after (l : Live) (step : Result ChangeEvent × Store) : Live :=
  { l with
    store := step.2
    log := l.log ++ step.1.toOption.toList.flatMap ({ l with store := step.2 } : Live).entriesOf }

namespace Calm

theorem withStore (h : l.Calm) (s : Store) : Calm { l with store := s } :=
  ⟨h.armed, h.answers, h.stay⟩

theorem withLog (h : l.Calm) (log : List LogEntry) : Calm { l with log } :=
  ⟨h.armed, h.answers, h.stay⟩

theorem after (h : l.Calm) (step : Result ChangeEvent × Store) : (l.after step).Calm :=
  ⟨h.armed, h.answers, h.stay⟩

/-! ### Telling of changes -/

theorem reads_run (h : l.Calm) (keys : List String) :
    (keys.mapM fun key => do return (key, ← getBy write key) : StateM Live _).run l =
      pure (keys.map fun key => (key, (l.quiet.get l.store.published key).run), l) := by
  induction keys with
  | nil => rfl
  | cons key rest ih =>
    simp only [List.mapM_cons, List.map_cons, StateT.run_bind, getBy_run_unarmed h.armed, ih,
      StateT.run_pure, pure_bind]

/-- A listener reads, and tells what it has heard. -/
theorem call_run (h : l.Calm) (event : ChangeEvent) {x : Listener} (hx : x.leaves = false) :
    (call write event x).run l = pure ((), { l with log := l.log ++ [l.entryOf event x] }) := by
  have hanswer (m : Live) (hm : m.answers = []) : (answer write x.number).run m = pure ((), m) := by
    unfold answer
    rw [StateT.run_bind, StateT.run_get, pure_bind, hm]
    rfl
  unfold call
  rw [StateT.run_bind, h.reads_run, pure_bind, StateT.run_bind, hx]
  exact hanswer { l with log := l.log ++ [l.entryOf event x] } h.answers

theorem calls_run (h : l.Calm) (event : ChangeEvent) {xs : List Listener}
    (hxs : ∀ x ∈ xs, x.leaves = false) :
    (xs.forM (call write event)).run l =
      pure ((), { l with log := l.log ++ xs.map (l.entryOf event) }) := by
  induction xs generalizing l with
  | nil => simp
  | cons x rest ih =>
    have hrest := ih (h.withLog (l.log ++ [l.entryOf event x])) fun y hy =>
      hxs y (List.mem_cons_of_mem _ hy)
    rw [List.append_assoc] at hrest
    show (call write event x >>= fun _ => rest.forM (call write event)).run l = _
    rw [StateT.run_bind, h.call_run event (hxs x List.mem_cons_self), pure_bind]
    exact hrest

theorem announce_run (h : l.Calm) (event : ChangeEvent) :
    (announce write event).run l = pure ((), { l with log := l.log ++ l.entriesOf event }) := by
  unfold announce entriesOf
  cases event.isEmpty with
  | true => simp
  | false => exact h.calls_run event h.stay

/-! ### Changes -/

/-- A step of the store that is told to the listeners. -/
theorem told_run (h : l.Calm) (step : Store → Result ChangeEvent × Store) :
    (announced write step).run l = pure ((step l.store).1, l.after (step l.store)) := by
  unfold Live.after
  cases houtcome : (step l.store).1 with
  | error error =>
    rw [announced_run_of_error houtcome]
    simp [Except.toOption]
  | ok event =>
    rw [announced_run_of_ok houtcome ((h.withStore _).announce_run event)]
    simp [Except.toOption]

theorem commit_run (h : l.Calm) (changes : List Change) :
    (commit changes).run l =
      pure ((l.store.commit l.quiet changes).1, l.after (l.store.commit l.quiet changes)) :=
  (commit_eq_announced changes l).trans (h.told_run _)

theorem finishReload_run (h : l.Calm) (number : Nat) (loaded : Loaded) :
    (finishReload number loaded).run l =
      pure ((l.store.finishReload l.quiet l.setup.providers number loaded).1,
        l.after (l.store.finishReload l.quiet l.setup.providers number loaded)) :=
  (finishReload_eq_announced number loaded l).trans (h.told_run _)

end Calm

end LayeredConfig.Live
