import LayeredConfig.Binding
import Mathlib.Data.List.Forall2

/-! # Computations side by side

Two computations in worlds of one kind are coupled if they begin in related worlds, and then give
related results and end in related worlds. Coupling goes through everything that computations are
made of, so that two runs of a program need only be compared at the steps where they differ. -/

namespace LayeredConfig

open List (Forall₂)

variable {σ α β γ δ : Type} {S : σ → σ → Prop} {R : α → β → Prop} {T : γ → δ → Prop}

/-- Whether two computations that begin in related worlds give related results and end in related
worlds. -/
def Coupled (S : σ → σ → Prop) (R : α → β → Prop) (y : StateM σ α) (y' : StateM σ β) : Prop :=
  ∀ s s', S s s' → ∃ a b t t', y.run s = pure (a, t) ∧ y'.run s' = pure (b, t') ∧ R a b ∧ S t t'

namespace Coupled

theorem pure {a : α} {b : β} (h : R a b) : Coupled S R (Pure.pure a) (Pure.pure b) :=
  fun s s' hs => ⟨a, b, s, s', rfl, rfl, h, hs⟩

theorem bind {y : StateM σ α} {y' : StateM σ β} {f : α → StateM σ γ} {f' : β → StateM σ δ}
    (hy : Coupled S R y y') (hf : ∀ a b, R a b → Coupled S T (f a) (f' b)) :
    Coupled S T (y >>= f) (y' >>= f') := by
  intro s s' hs
  obtain ⟨a, b, t, t', hrun, hrun', hab, ht⟩ := hy s s' hs
  obtain ⟨c, d, u, u', hnext, hnext', hcd, hu⟩ := hf a b hab t t' ht
  refine ⟨c, d, u, u', ?_, ?_, hcd, hu⟩
  · rw [StateT.run_bind, hrun]
    exact hnext
  · rw [StateT.run_bind, hrun']
    exact hnext'

/-- What depends on the worlds themselves. -/
theorem get : Coupled S S get get := fun s s' hs => ⟨s, s', s, s', rfl, rfl, hs, hs⟩

theorem modify {f f' : σ → σ} (h : ∀ s s', S s s' → S (f s) (f' s')) :
    Coupled S Eq (modify f) (modify f') :=
  fun s s' hs => ⟨(), (), f s, f' s', rfl, rfl, rfl, h s s' hs⟩

theorem forM {f f' : γ → StateM σ PUnit} (h : ∀ c, Coupled S Eq (f c) (f' c)) (cs : List γ) :
    Coupled S Eq (cs.forM f) (cs.forM f') := by
  induction cs with
  | nil => exact .pure rfl
  | cons c rest ih => exact (h c).bind fun _ _ _ => ih

/-- Along two lists, of which the elements belong together. -/
theorem forM_of_forall₂ {f : γ → StateM σ PUnit} {f' : δ → StateM σ PUnit} {cs : List γ}
    {ds : List δ} (hcs : Forall₂ T cs ds)
    (h : ∀ c ∈ cs, ∀ d ∈ ds, T c d → Coupled S Eq (f c) (f' d)) :
    Coupled S Eq (cs.forM f) (ds.forM f') := by
  induction hcs with
  | nil => exact .pure rfl
  | cons hcd _ ih =>
    refine (h _ List.mem_cons_self _ List.mem_cons_self hcd).bind fun _ _ _ => ?_
    exact ih fun c hc d hd => h c (List.mem_cons_of_mem _ hc) d (List.mem_cons_of_mem _ hd)

theorem mapM {f : γ → StateM σ α} {f' : γ → StateM σ β} {cs : List γ}
    (h : ∀ c ∈ cs, Coupled S R (f c) (f' c)) :
    Coupled S (Forall₂ R) (cs.mapM f) (cs.mapM f') := by
  induction cs with
  | nil => exact .pure .nil
  | cons c rest ih =>
    have hrest := ih fun d hd => h d (List.mem_cons_of_mem _ hd)
    rw [List.mapM_cons, List.mapM_cons]
    exact (h c List.mem_cons_self).bind fun _ _ hab =>
      hrest.bind fun _ _ habs => .pure (.cons hab habs)

/-- The fields of a table are read alike if keys are. -/
theorem readAfter {get : KeyReader (StateM σ)} (h : ∀ key, Coupled S Eq (get key) (get key))
    (values : Properties) (fields : List Field) :
    Coupled S Eq (Bound.readAfter get values fields) (Bound.readAfter get values fields) := by
  induction fields generalizing values with
  | nil => exact .pure rfl
  | cons field rest ih =>
    unfold Bound.readAfter
    refine (h field.key).bind ?_
    rintro found _ rfl
    split
    · exact ih _
    · split
      · exact .pure rfl
      · exact ih _

end Coupled

end LayeredConfig
