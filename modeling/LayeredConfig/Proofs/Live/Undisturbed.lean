import LayeredConfig.Proofs.Live.Readings

/-! # Contexts in which nobody writes

Where no hook is armed and no listener has a write to make, a change is one step of the store:
listeners read, tell what they have heard and leave, and the store stays as the step has left it
(`told_run`, `commit_run`). So contexts may be compared by their stores alone. -/

namespace LayeredConfig.Live

variable {l l' l'' : Live} {write : Write}

/-- A context at work in which neither a hook nor a listener will write. -/
structure Undisturbed (l : Live) : Prop where
  armed : l.armed = none
  answers : l.answers = []

/-- A context at work that has gone on but for what concerns its store and who writes to it. -/
structure Rests (l l' : Live) : Prop where
  setup : l'.setup = l.setup
  files : l'.files = l.files
  store : l'.store = l.store
  armed : l'.armed = l.armed
  answers : l'.answers = l.answers

theorem Rests.refl (l : Live) : l.Rests l := ⟨rfl, rfl, rfl, rfl, rfl⟩

theorem Rests.trans (h : l.Rests l') (h' : l'.Rests l'') : l.Rests l'' where
  setup := h'.setup.trans h.setup
  files := h'.files.trans h.files
  store := h'.store.trans h.store
  armed := h'.armed.trans h.armed
  answers := h'.answers.trans h.answers

theorem Rests.quiet (h : l.Rests l') : l'.quiet = l.quiet := by
  unfold Live.quiet
  rw [h.setup, h.files]

theorem Undisturbed.rests (h : l.Undisturbed) (hrests : l.Rests l') : l'.Undisturbed :=
  ⟨hrests.armed.trans h.armed, hrests.answers.trans h.answers⟩

/-- Contexts in which nobody writes, with stores that stay. -/
def resting : Passage Live where
  holds := Undisturbed
  leads := Rests
  refl := Rests.refl
  trans := Rests.trans
  keeps h hrests := h.rests hrests

/-! ### Telling of changes -/

theorem passes_getBy_resting (key : String) : resting.Passes (getBy write key) :=
  fun l h => ⟨_, l, getBy_run_unarmed h.armed key, .refl l⟩

theorem passes_answer_resting (number : Nat) : resting.Passes (answer write number) := by
  intro l h
  refine ⟨(), l, ?_, .refl l⟩
  unfold answer
  rw [StateT.run_bind, StateT.run_get, pure_bind, h.answers]
  rfl

theorem passes_announce_resting (event : ChangeEvent) :
    resting.Passes (announce write event) := by
  have hstays {f : Live → Live} (hf : ∀ l : Live, l.Rests (f l)) : resting.Passes (modify f) :=
    .modify hf
  exact Passage.passes_announce fun listener =>
    Passage.passes_call passes_getBy_resting (fun _ => hstays fun _ => ⟨rfl, rfl, rfl, rfl, rfl⟩)
      (hstays fun _ => ⟨rfl, rfl, rfl, rfl, rfl⟩) (passes_answer_resting listener.number)

/-! ### Changes -/

namespace Undisturbed

theorem withStore (h : l.Undisturbed) (s : Store) : Undisturbed { l with store := s } :=
  ⟨h.armed, h.answers⟩

/-- A step of the store that is told to the listeners. -/
theorem told_run (h : l.Undisturbed) (step : Store → Result ChangeEvent × Store) :
    ∃ l', (announced write step).run l = pure ((step l.store).1, l') ∧
      Rests { l with store := (step l.store).2 } l' :=
  resting.exists_announced_run passes_announce_resting (h.withStore _)

/-- A commit is one step of the store. -/
theorem commit_run (h : l.Undisturbed) (changes : List Change) :
    ∃ l', (commit changes).run l = pure ((l.store.commit l.quiet changes).1, l') ∧
      l'.Undisturbed ∧ l'.quiet = l.quiet ∧
      l'.store = (l.store.commit l.quiet changes).2 := by
  obtain ⟨l', hrun, hrests⟩ := h.told_run (Store.commit l.quiet changes)
  exact ⟨l', (commit_eq_announced changes l).trans hrun, (h.withStore _).rests hrests,
    hrests.quiet, hrests.store⟩

end Undisturbed

end LayeredConfig.Live
