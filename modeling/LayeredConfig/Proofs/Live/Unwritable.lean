import LayeredConfig.Proofs.Live.Readings

/-! # Contexts that cannot be written to

Where there is no source to write to, a commit is refused and changes nothing. What listeners do
when they are told of a reload then leaves the store as the reload has left it, also if they try to
write (`Unwritable.finishReload_stays`). -/

namespace LayeredConfig

namespace Store

theorem fixed_finishReload (v : View Id) (providers : List Provider) (number : Nat)
    (loaded : Loaded) (s : Store) :
    (s.finishReload v providers number loaded).2.fixed = s.fixed := by
  rcases finishReload_cases v providers number loaded s with h | ⟨-, h⟩ | ⟨event, -, h, -⟩
  · rw [h]
  · rw [h, fixed_seen]
  · rw [h, fixed_seen, fixed_adopt, fixed_seen]

theorem writable_finishReload (v : View Id) (providers : List Provider) (number : Nat)
    (loaded : Loaded) (s : Store) :
    (s.finishReload v providers number loaded).2.writable = s.writable := by
  rcases finishReload_cases v providers number loaded s with h | ⟨-, h⟩ | ⟨event, -, h, -⟩
  · rw [h]
  · rw [h, writable_seen]
  · rw [h, writable_seen, writable_adopt, writable_seen]

theorem publishedReload_finishReload_le (v : View Id) (providers : List Provider) {number n : Nat}
    (loaded : Loaded) {s : Store} (hs : s.publishedReload ≤ n) (hnumber : number ≤ n) :
    (s.finishReload v providers number loaded).2.publishedReload ≤ n := by
  rcases finishReload_cases v providers number loaded s with h | ⟨-, h⟩ | ⟨event, -, h, -⟩
  · rwa [h]
  · rwa [h, publishedReload_seen]
  · rwa [h, publishedReload_seen, publishedReload_adopt]

end Store

namespace Live

variable {l l' l'' : Live}

/-- A context at work that has no source to write to, and no hook that would try. -/
structure Unwritable (l : Live) : Prop where
  armed : l.armed = none
  writable : l.store.writable = none

/-- A context at work that has gone on but for its listeners and what they have heard. -/
structure Stays (l l' : Live) : Prop where
  setup : l'.setup = l.setup
  files : l'.files = l.files
  store : l'.store = l.store
  armed : l'.armed = l.armed

theorem Stays.refl (l : Live) : l.Stays l := ⟨rfl, rfl, rfl, rfl⟩

theorem Stays.trans (h : l.Stays l') (h' : l'.Stays l'') : l.Stays l'' where
  setup := h'.setup.trans h.setup
  files := h'.files.trans h.files
  store := h'.store.trans h.store
  armed := h'.armed.trans h.armed

/-- Contexts that cannot be written to, and stay as they are. -/
def staying : Passage Live where
  holds := Unwritable
  leads := Stays
  refl := Stays.refl
  trans := Stays.trans
  keeps h hstays := ⟨hstays.armed.trans h.armed, hstays.store ▸ h.writable⟩

theorem commitWithin_run_of_unwritable (h : l.Unwritable) (fuel : Nat) (changes : List Change) :
    (commitWithin fuel changes).run l = pure (.error Store.noWritable, l) := by
  have hstep : l.store.commit l.quiet changes = (.error Store.noWritable, l.store) := by
    unfold Store.commit
    rw [h.writable]
  cases fuel with
  | zero =>
    unfold commitWithin
    rw [StateT.run_bind, StateT.run_get, pure_bind, onStore_run, hstep]
  | succ fuel =>
    have houtcome : (l.store.commit l.quiet changes).1 = .error Store.noWritable := by rw [hstep]
    rw [commitWithin_succ_run, announced_run_of_error houtcome, hstep]

theorem passes_commit_staying (changes : List Change) : staying.Passes (commit changes) := by
  intro l h
  refine ⟨.error Store.noWritable, l, ?_, .refl l⟩
  unfold commit
  rw [StateT.run_bind, StateT.run_get, pure_bind]
  exact commitWithin_run_of_unwritable h _ changes

theorem passes_announce_staying (event : ChangeEvent) :
    staying.Passes (announce commit event) := by
  have hmodify {f : Live → Live} (hf : ∀ l : Live, l.Stays (f l)) : staying.Passes (modify f) :=
    .modify hf
  refine Passage.passes_announce fun listener => Passage.passes_call (fun key l h => ?_)
    (fun _ => hmodify fun _ => ⟨rfl, rfl, rfl, rfl⟩) (hmodify fun _ => ⟨rfl, rfl, rfl, rfl⟩) ?_
  · exact ⟨_, l, getBy_run_unarmed h.armed key, .refl l⟩
  · unfold answer
    refine .bind .get fun l => ?_
    split
    · exact .pure _
    · refine .bind (hmodify fun _ => ⟨rfl, rfl, rfl, rfl⟩) fun _ => ?_
      exact .bind (passes_commit_staying _) fun _ => .pure _

/-- What listeners do when they are told of a reload leaves the store as the reload has left it. -/
theorem Unwritable.finishReload_stays (h : l.Unwritable) (number : Nat) (loaded : Loaded) :
    ((finishReload number loaded).run l).2.Unwritable ∧
    Stays { l with store := (l.store.finishReload l.quiet l.setup.providers number loaded).2 }
      ((finishReload number loaded).run l).2 := by
  have hstep : Unwritable
      { l with store := (l.store.finishReload l.quiet l.setup.providers number loaded).2 } :=
    ⟨h.armed, (Store.writable_finishReload _ _ _ _ _).trans h.writable⟩
  obtain ⟨l', hrun, hstays⟩ := staying.exists_announced_run passes_announce_staying hstep
  rw [finishReload_eq_announced, hrun]
  exact ⟨staying.keeps hstep hstays, hstays⟩

end Live

end LayeredConfig
