import LayeredConfig.Proofs.Live.Renumbering

/-! # Moves

What happens to a context at work is calls, and that files change between them (`Move`). The
contexts that moves lead to, from one that was built, are the ones there are (`Live.Reached`); the
reload that they have published is one that was started (`Live.Reached.publishedReload_le`).

Moves make no difference between contexts that differ in the numbers of reloads alone
(`Renumbering.coupled_makeAll`). -/

namespace LayeredConfig

/-- What may happen to a context at work. -/
inductive Move
  | call (call : Call)
  /-- The files are others from now on. -/
  | change (files : FileTree)

/-- The call that finishes a reload names it by its number. -/
def Call.renumber (ρ : Nat → Nat) : Call → Call
  | finishReload number loaded => finishReload (ρ number) loaded
  | call => call

def Move.renumber (ρ : Nat → Nat) : Move → Move
  | call c => call (c.renumber ρ)
  | move => move

/-- The answer under other numbers: the one that starts a reload tells its number. -/
def Answer.renumber (ρ : Nat → Nat) : Move → Answer → Answer
  | .call .startReload, number n => number (ρ n)
  | _, answer => answer

/-- Whether a reload that a move finishes is among those that were started. -/
def Move.IsOrderly (reloads : Nat) : Move → Prop
  | call (.finishReload number _) => number ≤ reloads
  | _ => True

namespace Live

/-- Makes a move. -/
def make : Move → StateM Live Answer
  | .call call => perform call
  | .change files => do
    modify fun l => { l with files }
    return .done

/-- Makes moves, one behind the other. -/
def makeAll (moves : List Move) : StateM Live (List Answer) := moves.mapM make

theorem makeAll_cons_run {move : Move} {rest : List Move} {l l' l'' : Live} {answer : Answer}
    {answers : List Answer} (h : (make move).run l = pure (answer, l'))
    (hrest : (makeAll rest).run l' = pure (answers, l'')) :
    (makeAll (move :: rest)).run l = pure (answer :: answers, l'') := by
  unfold makeAll at hrest ⊢
  rw [List.mapM_cons, StateT.run_bind, h, pure_bind, StateT.run_bind, hrest, pure_bind]
  rfl

end Live

/-! ### Moves under other numbers -/

namespace Renumbering

open Live

variable {r : Renumbering} {k : Nat}

/-- Whether a move keeps what two contexts have in common. -/
def Allows (r : Renumbering) (k : Nat) (move : Move) : Prop :=
  (∀ files, move = .change files → r.files files) ∧ (r.isOrderly → move.IsOrderly k)

/-- A call is answered alike. -/
theorem coupled_perform {call : Call} (hcall : r.Allows k (.call call)) :
    Coupled (r.Relates k) (fun a b => a = Answer.renumber r.number (.call call) b)
      (perform (call.renumber r.number)) (perform call) := by
  cases call with
  | commit changes => exact (coupled_commit changes).bind fun _ _ h => .pure (congrArg _ h)
  | reload => exact coupled_reload.bind fun _ _ h => .pure (congrArg _ h)
  | startReload =>
    intro l l' h
    obtain ⟨hnumber, hlt, hstarted⟩ := h.startReload
    exact ⟨_, _, _, _, rfl, rfl, congrArg Answer.number hnumber,
      hstarted.mono (Nat.le_of_lt hlt)⟩
  | finishReload number loaded =>
    exact (coupled_finishReload hcall.2 loaded).bind fun _ _ h => .pure (congrArg _ h)
  | refresh => exact coupled_refresh.bind fun _ _ h => .pure (congrArg _ h)
  | getValue key => exact (coupled_getValue key).bind fun _ _ h => .pure (congrArg _ h)
  | get key => exact (coupled_read key).bind fun _ _ h => .pure (congrArg _ h)
  | properties =>
    exact (coupled_snapshotBy coupled_commit).bind fun _ _ h => .pure (congrArg _ h)
  | sources =>
    refine Coupled.get.bind fun l l' h => .pure ?_
    rw [h.published]
    rfl
  | bind fields =>
    exact (Coupled.readAfter coupled_read ∅ fields).bind fun _ _ h => .pure (congrArg _ h)
  | listen label reads leaves answer =>
    exact (coupled_listen label reads leaves answer).bind fun _ _ _ => .pure rfl
  | leave label => exact (coupled_dismissLabel label).bind fun _ _ h => .pure (congrArg _ h)
  | arm changes => exact (coupled_arm changes).bind fun _ _ _ => .pure rfl
  | edit w => exact (coupled_edit w).bind fun _ _ _ => .pure rfl

theorem coupled_make {move : Move} (hmove : r.Allows k move) :
    Coupled (r.Relates k) (fun a b => a = Answer.renumber r.number move b)
      (make (move.renumber r.number)) (make move) := by
  cases move with
  | call call => exact coupled_perform hmove
  | change files =>
    have hchange : Coupled (r.Relates k) Eq (modify fun l => { l with files })
        (modify fun l => { l with files }) :=
      coupled_modify (fun _ _ => rfl) (fun _ => rfl) (fun _ _ => hmove.1 files rfl) fun _ => rfl
    exact hchange.bind fun _ _ _ => .pure rfl

/-- **Numbers do not matter.** Moves are answered alike by contexts that differ in the numbers of
reloads alone, and such are the contexts after them. -/
theorem coupled_makeAll {moves : List Move} (hmoves : ∀ move ∈ moves, r.Allows k move) :
    Coupled (r.Relates k) (fun as bs => as = List.zipWith (Answer.renumber r.number) moves bs)
      (makeAll (moves.map (·.renumber r.number))) (makeAll moves) := by
  induction moves with
  | nil => exact .pure rfl
  | cons move rest ih =>
    unfold makeAll
    rw [List.map_cons, List.mapM_cons, List.mapM_cons]
    refine (coupled_make (hmoves move List.mem_cons_self)).bind ?_
    rintro _ b rfl
    refine (ih fun other hother => hmoves other (List.mem_cons_of_mem _ hother)).bind ?_
    rintro _ bs rfl
    exact .pure rfl

/-- A context beside itself, where only reloads are finished that were started. -/
def refl (l : Live) : Renumbering where
  number := id
  providers := l.setup.providers
  setup := l.setup
  hasFixed := !l.store.fixed.isEmpty
  files _ := True
  isOrderly := True
  lt_iff _ _ := Iff.rfl
  alike := List.forall₂_same.2 fun _ _ => ⟨rfl, fun _ => rfl, fun _ => Iff.rfl⟩

theorem relates_refl {l : Live} (h : l.store.publishedReload ≤ l.store.reloads) :
    (refl l).Relates l.store.reloads l l where
  lifted := ⟨l.store.reloads, rfl, fun _ => rfl⟩
  setup := rfl
  files := trivial
  hasFixed := (Bool.not_not _).symm
  started := Nat.le_refl _
  orderly _ := h

end Renumbering

/-! ### The contexts there are -/

namespace Live

/-- The contexts at work that moves may lead to. -/
inductive Reached : Live → Prop
  | built {b : Builder} {files : FileTree} {setup : Setup} {store : Store}
      (h : b.build files = .ok (setup, store)) : Reached { setup, store, files }
  | moved {l : Live} (h : Reached l) {move : Move} (hmove : move.IsOrderly l.store.reloads) :
      Reached ((make move).run l).2

/-- The reload that is published was started. -/
theorem Reached.publishedReload_le {l : Live} (h : l.Reached) :
    l.store.publishedReload ≤ l.store.reloads := by
  induction h with
  | @built b files setup store h =>
    unfold Builder.build at h
    dsimp only at h
    split at h
    · cases h
    · obtain ⟨-, rfl⟩ := Prod.mk.inj (Except.ok.inj h)
      exact Nat.le_refl _
  | @moved l _ move hmove ih =>
    obtain ⟨a, b, t, t', -, hrun, -, ht⟩ := Renumbering.coupled_make (r := .refl l)
      ⟨fun _ _ => trivial, fun _ => hmove⟩ _ _ (Renumbering.relates_refl ih)
    rw [hrun]
    exact ht.orderly trivial

end Live

end LayeredConfig
