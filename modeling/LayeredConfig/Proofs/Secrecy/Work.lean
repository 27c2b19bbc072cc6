import LayeredConfig.Proofs.Evaluator.Lifting
import LayeredConfig.Proofs.Live.Calls
import LayeredConfig.Proofs.Live.Reading
import LayeredConfig.Proofs.Secrecy.Steps

/-! # Contexts at work that are alike

Two contexts at work may be alike but for the texts of a key that their filters conceal. `Agree`
says of two computations, one in each context, that they give one result and leave contexts behind
that are alike again. Reading agrees (`agree_getValueBy`, `agree_snapshotBy`), and so do telling of
an event (`agree_announce`), commits and reloads (`writesAgree_commit`, `agree_reload`): the
listeners, what they write and the order of all this do not depend on the texts of the key. -/

namespace LayeredConfig

open List (Forall₂)

variable {k : String}

namespace Live

/-- Contexts at work that differ at most in the texts of one key, with filters that conceal it and
resolvers that are functions. -/
structure AlikeBut (k : String) (l l' : Live) : Prop where
  providers : Forall₂ (Provider.AlikeBut k l.files l'.files) l.setup.providers l'.setup.providers
  pipeline : l.setup.pipeline = l'.setup.pipeline
  resolvers : l.setup.resolvers = l'.setup.resolvers
  mask : l.setup.mask = l'.setup.mask
  conceals : l'.setup.pipeline.Conceals k
  functions : ∀ r ∈ l'.setup.resolvers, r.IsFunction l.files l'.files
  functions' : ∀ r ∈ l'.setup.resolvers, r.IsFunction l'.files l'.files
  store : l.store.AlikeBut k l'.store
  listeners : l.listeners = l'.listeners
  nextListener : l.nextListener = l'.nextListener
  answers : Forall₂ (fun a b => a.1 = b.1 ∧ a.2.AlikeBut k b.2) l.answers l'.answers
  armed : Option.Rel (Forall₂ (Change.AlikeBut k)) l.armed l'.armed
  log : l.log = l'.log

namespace AlikeBut

variable {l l' : Live}

/-- Both are read by one view, whatever is done where a resolver could act. -/
theorem setup_view_eq (h : l.AlikeBut k l') {m : Type → Type} [Monad m] (act : m (Result Unit)) :
    l.setup.view l.files act = l'.quiet.lift := by
  have hfunctions : ∀ r ∈ l.setup.resolvers, r.IsFunction l.files l'.files :=
    h.resolvers ▸ h.functions
  have hquiet : l.setup.quiet l'.files = l'.quiet := by
    unfold Live.quiet Setup.quiet Setup.view
    rw [h.pipeline, h.resolvers, h.mask]
  rw [Setup.view_eq_lift hfunctions, hquiet]

theorem setup_view_eq' (h : l.AlikeBut k l') {m : Type → Type} [Monad m] (act : m (Result Unit)) :
    l'.setup.view l'.files act = l'.quiet.lift := Setup.view_eq_lift h.functions' act

theorem view_eq (h : l.AlikeBut k l') (write : Write) : l.view write = l'.quiet.lift :=
  h.setup_view_eq _

theorem view_eq' (h : l.AlikeBut k l') (write : Write) : l'.view write = l'.quiet.lift :=
  h.setup_view_eq' _

theorem quiet_eq (h : l.AlikeBut k l') : l.quiet = l'.quiet :=
  calc
    l.quiet = l'.quiet.lift := h.setup_view_eq _
    _ = l'.quiet := (h.setup_view_eq' _).symm

theorem quiet_conceals (h : l.AlikeBut k l') : l'.quiet.pipeline.Conceals k := h.conceals

theorem withStore (h : l.AlikeBut k l') {s t : Store} (hst : s.AlikeBut k t) :
    AlikeBut k { l with store := s } { l' with store := t } :=
  { h with store := hst }

theorem pending (h : l.AlikeBut k l') : l.pending = l'.pending := by
  have harmed := h.armed
  unfold Live.pending
  rw [h.answers.length_eq]
  generalize l.armed = a, l'.armed = b at harmed ⊢
  cases harmed <;> rfl

end AlikeBut

/-! ### Computations that agree -/

/-- Whether two computations give one result and leave contexts behind that are alike. -/
def Agree {α : Type} (k : String) (l l' : Live) (y y' : StateM Live α) : Prop :=
  ∃ a m m', y.run l = pure (a, m) ∧ y'.run l' = pure (a, m') ∧ m.AlikeBut k m'

namespace Agree

variable {α β : Type} {l l' : Live}

theorem pure (h : l.AlikeBut k l') (a : α) : Agree k l l' (Pure.pure a) (Pure.pure a) :=
  ⟨a, l, l', rfl, rfl, h⟩

theorem bind {y y' : StateM Live α} {f f' : α → StateM Live β} (hy : Agree k l l' y y')
    (hf : ∀ a m m', m.AlikeBut k m' → Agree k m m' (f a) (f' a)) :
    Agree k l l' (y >>= f) (y' >>= f') := by
  obtain ⟨a, m, m', hrun, hrun', hm⟩ := hy
  obtain ⟨b, n, n', hnext, hnext', hn⟩ := hf a m m' hm
  refine ⟨b, n, n', ?_, ?_, hn⟩
  · rw [StateT.run_bind, hrun]
    exact hnext
  · rw [StateT.run_bind, hrun']
    exact hnext'

/-- What depends on the contexts themselves. -/
theorem get_bind {f f' : Live → StateM Live α} (h : Agree k l l' (f l) (f' l')) :
    Agree k l l' (get >>= f) (get >>= f') := h

theorem modify {f f' : Live → Live} (h : (f l).AlikeBut k (f' l')) :
    Agree k l l' (modify f) (modify f') := ⟨(), _, _, rfl, rfl, h⟩

theorem onStore {step step' : Store → α × Store} (h : l.AlikeBut k l')
    (hresult : (step l.store).1 = (step' l'.store).1)
    (hstore : (step l.store).2.AlikeBut k (step' l'.store).2) :
    Agree k l l' (onStore step) (onStore step') := by
  refine ⟨_, _, _, rfl, ?_, h.withStore hstore⟩
  rw [hresult]
  rfl

theorem mapM {f f' : α → StateM Live β}
    (hf : ∀ a m m', m.AlikeBut k m' → Agree k m m' (f a) (f' a)) (h : l.AlikeBut k l')
    (as : List α) : Agree k l l' (as.mapM f) (as.mapM f') := by
  induction as generalizing l l' with
  | nil => exact .pure h _
  | cons a rest ih =>
    rw [List.mapM_cons, List.mapM_cons]
    exact (hf a l l' h).bind fun b m m' hm => (ih hm).bind fun bs n n' hn => .pure hn _

theorem forM {f : α → StateM Live PUnit} {f' : β → StateM Live PUnit} {R : α → β → Prop}
    (hf : ∀ a b, R a b → ∀ m m', m.AlikeBut k m' → Agree k m m' (f a) (f' b))
    (h : l.AlikeBut k l') {as : List α} {bs : List β} (hab : Forall₂ R as bs) :
    Agree k l l' (as.forM f) (bs.forM f') := by
  induction hab generalizing l l' with
  | nil => exact .pure h _
  | cons hab _ ih => exact (hf _ _ hab l l' h).bind fun _ m m' hm => ih hm

end Agree

/-! ### Reading -/

section Reading

variable {l l' : Live}

theorem agree_getValueBy (write write' : Write) (h : l.AlikeBut k l') (key : String) :
    Agree k l l' (getValueBy write key) (getValueBy write' key) := by
  unfold getValueBy
  refine .get_bind ?_
  rw [h.view_eq, h.view_eq']
  have hread (set : SourceSet) := (@View.follows_lift Live l'.quiet).gives_getValue set key
  have hsame : l'.quiet.getValue l.store.published = l'.quiet.getValue l'.store.published :=
    View.getValue_eq h.quiet_conceals h.store.published
  refine ⟨_, l, l', (hread l.store.published).run_eq l, ?_, h⟩
  rw [hsame]
  exact (hread l'.store.published).run_eq l'

theorem agree_getBy (write write' : Write) (h : l.AlikeBut k l') (key : String) :
    Agree k l l' (getBy write key) (getBy write' key) := by
  unfold getBy
  refine .get_bind ?_
  rw [h.view_eq, h.view_eq']
  have hread (set : SourceSet) := (@View.follows_lift Live l'.quiet).gives_get set key
  have hsame : l'.quiet.get l.store.published = l'.quiet.get l'.store.published :=
    View.get_eq h.quiet_conceals h.store.published
  refine ⟨_, l, l', (hread l.store.published).run_eq l, ?_, h⟩
  rw [hsame]
  exact (hread l'.store.published).run_eq l'

/-- Where resolvers do not act, reading the snapshot is a step of the store. -/
theorem snapshotBy_run_of_lift {write : Write} {v : View Id} (hview : l.view write = v.lift) :
    (snapshotBy write).run l = pure (l.store.snapshot v, { l with store := l.store.seen v }) := by
  have hbuild := ((@View.follows_lift Live v).gives_build l.store.published).run_eq l
  rw [← hview] at hbuild
  exact snapshotBy_run_of_still hbuild

theorem agree_snapshotBy (write write' : Write) (h : l.AlikeBut k l') :
    Agree k l l' (snapshotBy write) (snapshotBy write') := by
  have hsnapshot := h.store.snapshot h.quiet_conceals
  have hseen := h.store.seen h.quiet_conceals
  refine ⟨_, _, _, snapshotBy_run_of_lift (h.view_eq write), ?_, h.withStore hseen⟩
  rw [hsnapshot]
  exact snapshotBy_run_of_lift (h.view_eq' write')

theorem agree_readAfter {get get' : KeyReader (StateM Live)}
    (hget : ∀ key m m', m.AlikeBut k m' → Agree k m m' (get key) (get' key)) (h : l.AlikeBut k l')
    (values : Properties) (fields : List Field) :
    Agree k l l' (Bound.readAfter get values fields) (Bound.readAfter get' values fields) := by
  induction fields generalizing values l l' with
  | nil => exact .pure h _
  | cons field rest ih =>
    unfold Bound.readAfter
    refine (hget field.key l l' h).bind fun found m m' hm => ?_
    split
    · exact ih hm _
    · split
      · exact .pure hm _
      · exact ih hm _

end Reading

/-! ### Changes -/

/-- Whether writes that are alike agree. -/
def WritesAgree (k : String) (write write' : Write) : Prop :=
  ∀ cs ds, Forall₂ (Change.AlikeBut k) cs ds → ∀ l l', l.AlikeBut k l' →
    Agree k l l' (write cs) (write' ds)

section Telling

variable {l l' : Live} {write write' : Write}

theorem agree_record (h : l.AlikeBut k l') (entry : LogEntry) :
    Agree k l l' (record entry) (record entry) :=
  .modify { h with log := congrArg (· ++ [entry]) h.log }

theorem agree_dismiss (h : l.AlikeBut k l') (number : Nat) :
    Agree k l l' (dismiss number) (dismiss number) :=
  .modify { h with listeners := congrArg (List.filter _) h.listeners }

theorem agree_answer (hwrite : WritesAgree k write write') (h : l.AlikeBut k l') (number : Nat) :
    Agree k l l' (answer write number) (answer write' number) := by
  unfold answer
  refine .get_bind ?_
  have hlookup : Option.Rel (Change.AlikeBut k) (l.answers.lookup number)
      (l'.answers.lookup number) := by
    have hanswers := h.answers
    generalize l.answers = as, l'.answers = bs at hanswers ⊢
    induction hanswers with
    | nil => exact .none
    | @cons a b _ _ hab _ ih =>
      obtain ⟨hnumber, hchange⟩ := hab
      rw [List.lookup_cons, List.lookup_cons, hnumber]
      split
      · exact .some hchange
      · exact ih
  generalize l.answers.lookup number = a, l'.answers.lookup number = b at hlookup ⊢
  cases hlookup with
  | none => exact .pure h _
  | some hab =>
    have hrest : Forall₂ (fun a b => a.1 = b.1 ∧ a.2.AlikeBut k b.2)
        (l.answers.filter fun a => a.1 ≠ number) (l'.answers.filter fun a => a.1 ≠ number) := by
      refine List.rel_filter (fun a b hab => ?_) h.answers
      show decide (a.1 ≠ number) = true ↔ decide (b.1 ≠ number) = true
      rw [hab.1]
    refine .bind (.modify { h with answers := hrest }) fun _ m m' hm => ?_
    exact (hwrite _ _ (.cons hab .nil) m m' hm).bind fun _ n n' hn => .pure hn ()

theorem agree_call (hwrite : WritesAgree k write write') (h : l.AlikeBut k l') (event : ChangeEvent)
    (listener : Listener) :
    Agree k l l' (call write event listener) (call write' event listener) := by
  unfold call
  have hread : Agree k l l' (listener.reads.mapM fun key => do return (key, ← getBy write key))
      (listener.reads.mapM fun key => do return (key, ← getBy write' key)) :=
    .mapM (fun key m m' hm =>
      (agree_getBy write write' hm key).bind fun _ n n' hn => .pure hn _) h _
  refine hread.bind fun read m m' hm => (agree_record hm _).bind fun _ n n' hn => ?_
  split
  · exact (agree_dismiss hn _).bind fun _ o o' ho => agree_answer hwrite ho _
  · exact agree_answer hwrite hn _

theorem agree_announce (hwrite : WritesAgree k write write') (h : l.AlikeBut k l')
    (event : ChangeEvent) : Agree k l l' (announce write event) (announce write' event) := by
  unfold announce
  split
  · exact .pure h _
  · refine .get_bind ?_
    rw [h.listeners]
    refine .forM (R := Eq) (fun a b hab m m' hm => ?_) h (List.forall₂_same.2 fun _ _ => rfl)
    rw [hab]
    exact agree_call hwrite hm event b

/-- A step of the store that is told to the listeners. -/
theorem agree_told (hwrite : WritesAgree k write write') (h : l.AlikeBut k l')
    {step step' : Store → Result ChangeEvent × Store}
    (hresult : (step l.store).1 = (step' l'.store).1)
    (hstore : (step l.store).2.AlikeBut k (step' l'.store).2) :
    Agree k l l' (announced write step) (announced write' step') := by
  unfold announced
  refine (Agree.onStore h hresult hstore).bind fun outcome m m' hm => ?_
  cases outcome with
  | error error => exact .pure hm _
  | ok event => exact (agree_announce hwrite hm event).bind fun _ n n' hn => .pure hn _

end Telling

variable {l l' : Live}

theorem writesAgree_commitWithin (hk : k ≠ ordinalKey) (fuel : Nat) :
    WritesAgree k (commitWithin fuel) (commitWithin fuel) := by
  induction fuel with
  | zero =>
    intro cs ds hcs l l' h
    obtain ⟨hresult, hstore⟩ := h.store.commit hk h.quiet_conceals hcs
    unfold commitWithin
    refine .get_bind ?_
    rw [h.quiet_eq]
    exact .onStore h hresult hstore
  | succ fuel ih =>
    intro cs ds hcs l l' h
    obtain ⟨hresult, hstore⟩ := h.store.commit hk h.quiet_conceals hcs
    unfold commitWithin
    refine .get_bind ?_
    rw [h.quiet_eq]
    exact agree_told ih h hresult hstore

theorem writesAgree_commit (hk : k ≠ ordinalKey) : WritesAgree k commit commit := by
  intro cs ds hcs l l' h
  unfold commit
  refine .get_bind ?_
  rw [h.pending]
  exact writesAgree_commitWithin hk _ cs ds hcs l l' h

theorem agree_finishReload (hk : k ≠ ordinalKey) (h : l.AlikeBut k l') (number : Nat)
    {a b : Loaded} (hab : a.AlikeBut k b) :
    Agree k l l' (finishReload number a) (finishReload number b) := by
  obtain ⟨hresult, hstore⟩ := h.store.finishReload hk h.quiet_conceals h.providers number hab
  unfold finishReload
  refine .get_bind ?_
  rw [h.quiet_eq]
  exact agree_told (writesAgree_commit hk) h hresult hstore

theorem agree_startReload (h : l.AlikeBut k l') :
    Agree k l l' (onStore Store.startReload) (onStore Store.startReload) :=
  .onStore h h.store.startReload.1 h.store.startReload.2

/-- The end of a reload with what its providers have loaded. -/
theorem agree_load (hk : k ≠ ordinalKey) (h : l.AlikeBut k l') (number : Nat) :
    Agree k l l' (do let l ← get; finishReload number (l.setup.load number l.files))
      (do let l ← get; finishReload number (l.setup.load number l.files)) :=
  .get_bind (agree_finishReload hk h number (Provider.alikeBut_loadAll h.providers _ _ number))

theorem agree_reloadWithin (hk : k ≠ ordinalKey) (h : l.AlikeBut k l') (fuel : Nat) :
    Agree k l l' (reloadWithin fuel) (reloadWithin fuel) := by
  induction fuel generalizing l l' with
  | zero =>
    unfold reloadWithin
    exact (agree_startReload h).bind fun number m m' hm => agree_load hk hm number
  | succ fuel ih =>
    unfold reloadWithin
    refine (agree_startReload h).bind fun number m m' hm => .get_bind ?_
    refine .bind (.forM (fun p q hpq n n' hn => ?_) hm hm.providers) fun _ n n' hn =>
      agree_load hk hn number
    rw [hpq.nested]
    split
    · exact (ih hn).bind fun outcome o o' ho => agree_record ho _
    · exact .pure hn ()

theorem agree_reload (hk : k ≠ ordinalKey) (h : l.AlikeBut k l') :
    Agree k l l' reload reload := by
  have hnested : l.setup.providers.flatMap (·.nested) = l'.setup.providers.flatMap (·.nested) := by
    have hproviders := h.providers
    generalize l.setup.providers = ps, l'.setup.providers = qs at hproviders
    induction hproviders with
    | nil => rfl
    | cons hpq _ ih => rw [List.flatMap_cons, List.flatMap_cons, hpq.nested, ih]
  unfold reload
  refine .get_bind ?_
  rw [hnested]
  exact agree_reloadWithin hk h _

theorem agree_refresh (h : l.AlikeBut k l') : Agree k l l' refresh refresh :=
  .onStore h (congrArg Nat.succ h.store.version) h.store.refresh

end Live

end LayeredConfig
