import LayeredConfig.Context
import LayeredConfig.Proofs.Evaluator.Bounds
import LayeredConfig.Proofs.Evaluator.Substitution

/-! # Cycles of configuration keys

The value of a key may refer to other keys, and through them to itself. `conf` looks up the key that
a reference names without the blanks at its ends; but evaluations under way are known by the texts
of references, blanks and all. So a reference is taken for a cycle by its text
(`View.conf_cycle_iff`), which comes to the same as being one if no reference has blanks at its
ends, and does not otherwise (`View.conf_cycle_blanks`). -/

namespace LayeredConfig

/-! ### The built-in resolver -/

namespace Evaluator

theorem not_mem_conf : ':' ∉ "conf".toList := by decide

/-- An evaluation of `conf` has the name of another one only if it is the same evaluation. -/
theorem conf_identity_eq_iff {q : Question} (hid : ':' ∉ q.id.toList) {expression : String} :
    q.identity = (⟨"conf", expression⟩ : Question).identity ↔ q = ⟨"conf", expression⟩ := by
  refine ⟨fun h => ?_, fun h => congrArg Question.identity h⟩
  obtain ⟨hconf, hexpression⟩ := identity_inj hid not_mem_conf h
  cases q
  cases hconf
  cases hexpression
  rfl

end Evaluator

namespace View

variable {m : Type → Type}

/-- Resolving the value of a key with the answers left open. -/
def dialogue (v : View m) (key raw : String) : Dialogue m Rendered :=
  v.evaluator.dialogue v.mask [Evaluator.identity "conf" key] raw

theorem resolve_eq_conduct [Monad m] [LawfulMonad m] (v : View m) (set : SourceSet)
    (key raw : String) :
    v.resolve set key raw =
      (fun out => String.ofList out.text) <$> (v.dialogue key raw).conduct (v.scope set) := by
  unfold dialogue
  rw [Evaluator.conduct_dialogue, ← bind_pure_comp]
  rfl

end View

/-- Whether the value of a key is being expanded: it is the one that rendering began with, or an
evaluation of `conf` under way has looked it up. -/
def InFlight (start : String) (enclosing : List Question) (key : String) : Prop :=
  key = start ∨ ∃ q ∈ enclosing, q.id = "conf" ∧ Text.trimmed q.expression = key

instance (start : String) (enclosing : List Question) (key : String) :
    Decidable (InFlight start enclosing key) := by
  unfold InFlight
  infer_instance

/-- The key that a request to `conf` looks up. -/
def Request.key {m : Type → Type} (q : Request m) : String := Text.trimmed q.expression

namespace Evaluator

variable {m : Type → Type} {ev : Evaluator m} {key : String} {e : Event m}

/-- A request to `conf` is a cycle if its text is the key that rendering began with, or is that of
an evaluation under way. -/
theorem Sound.isCycle_iff_text (h : ev.Sound [identity "conf" key] e)
    (he : e.request.resolver.id = "conf") :
    e.isCycle = true ↔ e.request.expression = key ∨
      ∃ q ∈ e.request.enclosing, q.identity = e.request.question.identity := by
  have hquestion : e.request.question = ⟨"conf", e.request.expression⟩ :=
    congrArg (Question.mk · e.request.expression) he
  rw [h.isCycle_iff, h.place.stack_eq, List.mem_append, List.mem_singleton, List.mem_map, or_comm]
  refine or_congr_left ?_
  show e.request.question.identity = (⟨"conf", key⟩ : Question).identity ↔ _
  rw [hquestion, conf_identity_eq_iff not_mem_conf]
  exact ⟨fun h => (Question.mk.inj h).2, fun h => congrArg _ h⟩

/-- If there are no colons in ids, only evaluations of `conf` have the names of such. -/
theorem Sound.isCycle_iff_mem (h : ev.Sound [identity "conf" key] e)
    (he : e.request.resolver.id = "conf") (hids : ∀ r, ev.Knows r → ':' ∉ r.id.toList) :
    e.isCycle = true ↔ e.request.expression = key ∨
      ⟨"conf", e.request.expression⟩ ∈ e.request.enclosing := by
  have hquestion : e.request.question = ⟨"conf", e.request.expression⟩ :=
    congrArg (Question.mk · e.request.expression) he
  rw [h.isCycle_iff_text he, hquestion]
  refine or_congr_right ⟨?_, fun hmem => ⟨_, hmem, rfl⟩⟩
  rintro ⟨q, hq, heq⟩
  obtain ⟨r, hr, hid⟩ := h.place.known q hq
  rwa [← (conf_identity_eq_iff (hid ▸ hids r hr)).1 heq]

end Evaluator

namespace View

open Evaluator

variable {m : Type → Type} [Monad m] [LawfulMonad m]

/-- **When a reference to a key is a cycle.** Resolving the value of a key, to read the key or to
build a snapshot, is a dialogue. In it a request to `conf` looks up the key that the text of the
request is without the blanks at its ends, and is a cycle if the text itself is the key that is
resolved, or if an evaluation of the same name is under way. When there are no colons in ids, that
is an evaluation of `conf` on the same text. A request found to be a cycle is then for a key in
flight, unless the key that is resolved has blanks at its ends; and where the texts of requests have
none, a request is a cycle if and only if its key is in flight. -/
theorem conf_cycle_iff (v : View m)
    (hconf : ∀ r, v.evaluator.Knows r → r.id = "conf" → r = Resolver.conf.lift)
    (set : SourceSet) (key raw : String) :
    v.resolve set key raw =
      (fun out => String.ofList out.text) <$> (v.dialogue key raw).conduct (v.scope set) ∧
    ∀ events out, (v.dialogue key raw).Runs events out →
      ∀ e ∈ events, e.request.resolver.id = "conf" →
        e.request.resolver.evaluate e.request.expression (v.scope set) =
          pure (.ok ((v.lookup set e.request.key).bind (·.value))) ∧
        (e.isCycle = true ↔ e.request.expression = key ∨
          ∃ q ∈ e.request.enclosing, q.identity = e.request.question.identity) ∧
        ((∀ r, v.evaluator.Knows r → ':' ∉ r.id.toList) →
          (e.isCycle = true ↔ e.request.expression = key ∨
            ⟨"conf", e.request.expression⟩ ∈ e.request.enclosing) ∧
          (Text.trimmed key = key → e.isCycle = true →
            InFlight key e.request.enclosing e.request.key) ∧
          ((∀ q ∈ e.request.question :: e.request.enclosing, q.id = "conf" →
              Text.trimmed q.expression = q.expression) →
            (e.isCycle = true ↔ InFlight key e.request.enclosing e.request.key))) := by
  refine ⟨v.resolve_eq_conduct set key raw, fun events out hr e hmem he => ?_⟩
  have h : v.evaluator.Sound [identity "conf" key] e := (sound_of_runs hr).2 e hmem
  refine ⟨?_, h.isCycle_iff_text he, fun hids => ?_⟩
  · rw [hconf _ h.known he]
    rfl
  have hiff := h.isCycle_iff_mem he hids
  refine ⟨hiff, fun hkey hcycle => ?_, fun hplain => ?_⟩
  · rcases hiff.1 hcycle with htext | hunder
    · exact .inl ((congrArg Text.trimmed htext).trans hkey)
    · exact .inr ⟨_, hunder, rfl, rfl⟩
  · have hwritten : e.request.key = e.request.expression :=
      hplain e.request.question List.mem_cons_self he
    rw [hiff, hwritten]
    refine or_congr_right ⟨fun hunder => ⟨_, hunder, rfl, hwritten⟩, ?_⟩
    rintro ⟨⟨id, expression⟩, hq, rfl, hexpression⟩
    rwa [← hexpression, hplain _ (List.mem_cons_of_mem _ hq) rfl]

/-- Keys that refer to one another, with blanks around and without. -/
def referring : SourceSet :=
  .ofSources [(Table.ofPairs "app" [("a", "$\x7bconf: a\x7dx"), (" b", "$\x7bconf: b\x7d"),
    ("b", "1"), ("c", "<$\x7bd\x7d>"), ("d", "$\x7bconf:c\x7d")]).toSource (.object 0)] 1

/-- The view of a context with the resolvers that come with the library. -/
def builtin : View Id := ((({} : Builder).withBuiltinResolvers .empty).setup).quiet .empty

/-- What happens when the value of a key is resolved. -/
def recounted (key raw : String) : List (Event Id) :=
  ((builtin.dialogue key raw).recount (builtin.scope referring)).1

/-- Written without blanks, the reference that leads back is a cycle and the other is not. -/
theorem conf_cycle_iff_builtin :
    (builtin.get referring "c").run = some "<?\x7bconf:c\x7d>" ∧
    (recounted "c" "<$\x7bd\x7d>").map (fun e => (e.request.key, e.isCycle)) =
      [("d", false), ("c", true)] ∧
    ∀ e ∈ recounted "c" "<$\x7bd\x7d>",
      e.isCycle = true ↔ InFlight "c" e.request.enclosing e.request.key := by
  have hknows : ∀ r, builtin.evaluator.Knows r → r = Resolver.conf.lift ∨
      r = (Resolver.env .empty).lift ∨ r = (Resolver.file .empty).lift := by
    intro r hr
    have hmem : r ∈ [Resolver.conf.lift, (Resolver.env .empty).lift, (Resolver.file .empty).lift] :=
      knows_ofResolvers hr
    simpa using hmem
  have hconf : ∀ r, builtin.evaluator.Knows r → r.id = "conf" → r = Resolver.conf.lift := by
    intro r hr hid
    rcases hknows r hr with rfl | rfl | rfl
    · rfl
    · exact absurd hid (by decide)
    · exact absurd hid (by decide)
  have hplain : ∀ e ∈ recounted "c" "<$\x7bd\x7d>", e.request.resolver.id = "conf" ∧
      ∀ q ∈ e.request.question :: e.request.enclosing, q.id = "conf" →
        Text.trimmed q.expression = q.expression := by
    decide +kernel
  obtain ⟨-, h⟩ := builtin.conf_cycle_iff hconf referring "c" "<$\x7bd\x7d>"
  refine ⟨by decide +kernel, by decide +kernel, fun e he => ?_⟩
  obtain ⟨hid, hwritten⟩ := hplain e he
  refine ((h _ _ (Dialogue.runs_recount _ _) e he hid).2.2 fun r hr => ?_).2.2 hwritten
  rcases hknows r hr with rfl | rfl | rfl <;> decide

/-- With a blank in the reference a value is expanded inside itself before the cycle is seen. With a
blank in the key a reference to another key is taken for a cycle. -/
theorem conf_cycle_blanks :
    (builtin.get referring "a").run = some "?\x7bconf: a\x7dxx" ∧
    (∃ e ∈ recounted "a" "$\x7bconf: a\x7dx", e.request.resolver.id = "conf" ∧ e.isAsked = true ∧
      InFlight "a" e.request.enclosing e.request.key) ∧
    (builtin.get referring "b").run = some "1" ∧
    (builtin.get referring " b").run = some "?\x7bconf: b\x7d" ∧
    ∃ e ∈ recounted " b" "$\x7bconf: b\x7d", e.request.resolver.id = "conf" ∧ e.isCycle = true ∧
      ¬ InFlight " b" e.request.enclosing e.request.key := by
  refine ⟨by decide +kernel, by decide +kernel, by decide +kernel, by decide +kernel, ?_⟩
  decide +kernel

end View

end LayeredConfig
