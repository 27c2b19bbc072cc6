import LayeredConfig.Context
import LayeredConfig.Proofs.Evaluator.Following

/-! # Resolvers that do not act

A hook acts on the world; the other resolvers are functions, also in a world. If a context has no
hook its view in a world is the view where nothing acts, brought there (`Setup.view_eq_lift`), and
reading through it leaves the world as it is (`View.follows_lift`). -/

namespace LayeredConfig

/-- Whether a resolver is a function of expression and scope, the same one for two trees of files.
The resolver of files is one as long as these read alike. -/
def Registration.IsFunction (tree tree' : FileTree) : Registration → Prop
  | .function _ => True
  | .files => ∀ path, tree.readText path = tree'.readText path
  | .hook _ => False

/-- A view in any world in which resolvers do not act. -/
def View.lift {m : Type → Type} [Monad m] (v : View Id) : View m :=
  ⟨v.pipeline, v.evaluator.map Resolver.lift, v.mask⟩

section Lifting

variable {m : Type → Type} [Monad m] {tree tree' : FileTree}

theorem Registration.IsFunction.right {r : Registration} (h : r.IsFunction tree tree') :
    r.IsFunction tree' tree' := by
  cases r with
  | function _ => exact trivial
  | files => exact fun _ => rfl
  | hook _ => exact h.elim

theorem Registration.resolver_eq_lift {r : Registration} (h : r.IsFunction tree tree')
    (act : m (Result Unit)) :
    r.resolver tree act = (r.resolver tree' (pure (.ok ()) : Id (Result Unit))).lift := by
  cases r with
  | function r => rfl
  | files =>
    have hread : tree.readText = tree'.readText := funext h
    have hfile : Resolver.file tree = Resolver.file tree' := by
      unfold Resolver.file
      simp only [hread]
    have hlift (r : Resolver Id) : (r.lift : Resolver m) = (r.lift : Resolver Id).lift := rfl
    simp only [resolver]
    rw [hfile]
    exact hlift _
  | hook id => exact h.elim

theorem Evaluator.ofResolvers_map_lift (rs : List (Resolver Id)) :
    (ofResolvers (rs.map Resolver.lift) : Evaluator m) = (ofResolvers rs).map Resolver.lift := by
  have hid : (ofResolvers (rs.map Resolver.lift) : Evaluator m).byId =
      ((ofResolvers rs).map Resolver.lift : Evaluator m).byId := byId_ofResolvers_map _ rs
  have hchain : (ofResolvers (rs.map Resolver.lift) : Evaluator m).chain =
      ((ofResolvers rs).map Resolver.lift : Evaluator m).chain := chain_ofResolvers_map _ rs
  generalize (ofResolvers (rs.map Resolver.lift) : Evaluator m) = a,
    ((ofResolvers rs).map Resolver.lift : Evaluator m) = b at hid hchain ⊢
  obtain ⟨byId, chain⟩ := a
  cases hid
  cases hchain
  rfl

theorem Setup.view_eq_lift {s : Setup} (h : ∀ r ∈ s.resolvers, r.IsFunction tree tree')
    (act : m (Result Unit)) : s.view tree act = (s.quiet tree').lift := by
  have hresolvers : s.resolvers.map (·.resolver tree act) =
      (s.resolvers.map (·.resolver tree' (pure (.ok ()) : Id (Result Unit)))).map
        Resolver.lift := by
    rw [List.map_map]
    exact List.map_congr_left fun r hr => r.resolver_eq_lift (h r hr) act
  unfold Setup.view
  rw [hresolvers, Evaluator.ofResolvers_map_lift]
  rfl

end Lifting

/-- Contexts that stay as they are. -/
def Passage.still (σ : Type) : Passage σ where
  holds _ := True
  leads a b := b = a
  refl _ := rfl
  trans hab hbc := hbc.trans hab
  keeps _ _ := trivial

/-- Where resolvers do not act reading leaves the world alone. -/
theorem View.follows_lift {σ : Type} (v : View Id) :
    (v.lift : View (StateM σ)).Follows (Passage.still σ) v where
  pipeline := rfl
  evaluator := Evaluator.follows_map (fun r => r.follows_lift _) _
  mask := rfl

theorem Passage.Gives.run_eq {σ α : Type} {x : StateM σ α} {a : α} (h : (still σ).Gives x a)
    (w : σ) : x.run w = Pure.pure (a, w) := by
  obtain ⟨w', hrun, hw⟩ := h w trivial
  rw [hrun, show w' = w from hw]

end LayeredConfig
