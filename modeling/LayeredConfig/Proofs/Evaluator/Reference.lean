import LayeredConfig.Evaluator

/-! # What a text stands for

The meaning of a text with placeholders, without stacks, levels and budgets: a placeholder's body is
rendered, the resolver that it names is asked, or else those of the default chain in turn, and the
answer is rendered in the same way. `Renders` derives what comes of a text, with the questions that
are asked on the way and the levels to which placeholders are nested, bodies and answers both
counting. A text has at most one derivation (`Renders.unique`); one whose answers lead on without
end has none. -/

namespace LayeredConfig

/-- A question to a resolver, which is known by its id. -/
structure Question where
  id : String
  expression : String
  deriving DecidableEq

/-! ### The resolvers there are -/

namespace Evaluator

variable {m : Type → Type} {resolvers : List (Resolver m)}

/-- Of the resolvers with one id the last one stays. -/
theorem get?_ofResolvers_iff {id : String} {r : Resolver m} :
    (ofResolvers resolvers).byId.get? id = some r ↔ ∃ before behind,
      resolvers = before ++ r :: behind ∧ r.id = id ∧ ∀ s ∈ behind, s.id ≠ id := by
  have hlookup : (ofResolvers resolvers).byId.get? id =
      (resolvers.map fun r => (r.id, r)).reverse.lookup id := KeyMap.get?_ofList _ id
  rw [hlookup, List.lookup_eq_some_iff]
  constructor
  · rintro ⟨behind, before, heq, hbehind⟩
    have hsplit : resolvers.map (fun r => (r.id, r)) =
        before.reverse ++ (id, r) :: behind.reverse := by
      rw [← List.reverse_reverse (resolvers.map _), heq]
      simp
    obtain ⟨front, rest, rfl, -, hrest⟩ := List.map_eq_append_iff.1 hsplit
    obtain ⟨s, back, rfl, hs, hback⟩ := List.map_eq_cons_iff.1 hrest
    cases hs
    refine ⟨front, back, rfl, rfl, fun t ht heq => ?_⟩
    have hmem : (t.id, t) ∈ behind := List.mem_reverse.1 (hback ▸ List.mem_map_of_mem ht)
    simpa [heq] using hbehind _ hmem
  · rintro ⟨before, behind, rfl, rfl, hbehind⟩
    refine ⟨(behind.map fun r => (r.id, r)).reverse, (before.map fun r => (r.id, r)).reverse,
      by simp, fun p hp => ?_⟩
    obtain ⟨s, hs, rfl⟩ := List.mem_map.1 (List.mem_reverse.1 hp)
    simpa using (hbehind s hs).symm

theorem mem_of_get?_ofResolvers {id : String} {r : Resolver m}
    (h : (ofResolvers resolvers).byId.get? id = some r) : r ∈ resolvers ∧ r.id = id := by
  obtain ⟨before, behind, rfl, hid, -⟩ := get?_ofResolvers_iff.1 h
  exact ⟨List.mem_append_right _ List.mem_cons_self, hid⟩

theorem mem_chain_iff {r : Resolver m} : r ∈ (ofResolvers resolvers).chain ↔
    (ofResolvers resolvers).byId.get? r.id = some r ∧ r.isInChain := by
  have hmem : r ∈ (ofResolvers resolvers).chain ↔
      r ∈ (ofResolvers resolvers).byId.values ∧ r.isInChain :=
    Order.mem_sort.trans List.mem_filter
  rw [hmem, KeyMap.mem_values_iff]
  refine and_congr_left fun _ => ⟨?_, fun h => ⟨_, h⟩⟩
  rintro ⟨id, h⟩
  rwa [(mem_of_get?_ofResolvers h).2]

/-- No two of the chain have one id. -/
theorem pairwise_chain_ne :
    (ofResolvers resolvers).chain.Pairwise fun r s => r.id ≠ s.id := by
  refine ((Order.sort_perm _).pairwise_iff fun h => h.symm).2 (List.Pairwise.filter _ ?_)
  refine List.pairwise_map.2 ((ofResolvers resolvers).byId.pairwise_entries_ne.imp_of_mem ?_)
  intro a b ha hb hne
  rw [(mem_of_get?_ofResolvers (KeyMap.mem_entries_iff.1 ha)).2,
    (mem_of_get?_ofResolvers (KeyMap.mem_entries_iff.1 hb)).2]
  exact hne

end Evaluator

/-- What an evaluator makes of resolvers: the last one of each id is found under it, and those of
them that are asked by default are asked by descending priority, among equals by id. -/
structure Evaluator.Registers (ev : Evaluator Id) (resolvers : List (Resolver Id)) : Prop where
  get?_iff : ∀ id r, ev.byId.get? id = some r ↔ ∃ before behind,
    resolvers = before ++ r :: behind ∧ r.id = id ∧ ∀ s ∈ behind, s.id ≠ id
  mem_chain_iff : ∀ r, r ∈ ev.chain ↔ ev.byId.get? r.id = some r ∧ r.isInChain
  sorted : ev.chain.Pairwise fun r s =>
    s.priority < r.priority ∨ (r.priority = s.priority ∧ r.id < s.id)

theorem Evaluator.registers_ofResolvers (resolvers : List (Resolver Id)) :
    (ofResolvers resolvers).Registers resolvers where
  get?_iff _ _ := get?_ofResolvers_iff
  mem_chain_iff _ := mem_chain_iff
  sorted := by
    have hle : (ofResolvers resolvers).chain.Pairwise fun r s => notAfter r s = true :=
      Order.pairwise_sort notAfter_preorder _
    refine (hle.and pairwise_chain_ne).imp fun {r s} h => ?_
    obtain ⟨hle, hne⟩ := h
    simp only [notAfter, Bool.or_eq_true, Bool.and_eq_true, decide_eq_true_eq] at hle
    exact hle.imp_right fun h => ⟨h.1, Std.lt_of_le_of_ne h.2 hne⟩

/-- Resolvers are found under their ids, in which there are no colons. -/
structure Evaluator.KnowsIds (ev : Evaluator Id) : Prop where
  id_of_get? : ∀ id r, ev.byId.get? id = some r → r.id = id
  get?_of_chain : ∀ r ∈ ev.chain, ev.byId.get? r.id = some r
  no_colon : ∀ id r, ev.byId.get? id = some r → ':' ∉ id.toList

theorem Evaluator.knowsIds_ofResolvers {resolvers : List (Resolver Id)}
    (h : ∀ r ∈ resolvers, ':' ∉ r.id.toList) : (ofResolvers resolvers).KnowsIds where
  id_of_get? id r hr := (mem_of_get?_ofResolvers hr).2
  get?_of_chain r hr := (mem_chain_iff.1 hr).1
  no_colon id r hr := by
    obtain ⟨hmem, rfl⟩ := mem_of_get?_ofResolvers hr
    exact h r hmem

namespace Resolver

/-- The answer of a resolver. A failure is none. -/
def answer? (r : Resolver Id) (expression : String) (scope : Scope) : Option String :=
  (r.evaluate expression scope).run.skip.join

/-- Asks resolvers in turn until one answers: the questions, and the answer. -/
def inquire (scope : Scope) (expression : String) :
    List (Resolver Id) → List Question × Option String
  | [] => ([], none)
  | r :: rest =>
    match r.answer? expression scope with
    | some answer => ([⟨r.id, expression⟩], some answer)
    | none => (⟨r.id, expression⟩ :: (inquire scope expression rest).1,
        (inquire scope expression rest).2)

theorem mem_inquire {scope : Scope} {expression : String} {resolvers : List (Resolver Id)}
    {questions : List Question} {answer : Option String}
    (h : inquire scope expression resolvers = (questions, answer)) {q : Question}
    (hq : q ∈ questions) : ∃ r ∈ resolvers, q = ⟨r.id, expression⟩ ∧
      (r.answer? expression scope = none ∨ r.answer? expression scope = answer) := by
  induction resolvers generalizing questions with
  | nil =>
    cases h
    cases hq
  | cons r rest ih =>
    unfold inquire at h
    cases hr : r.answer? expression scope with
    | some a =>
      rw [hr] at h
      cases h
      exact ⟨r, List.mem_cons_self, List.mem_singleton.1 hq, .inr hr⟩
    | none =>
      rw [hr] at h
      cases h
      rcases List.mem_cons.1 hq with rfl | hq
      · exact ⟨r, List.mem_cons_self, rfl, .inl hr⟩
      · obtain ⟨s, hs, heq⟩ := ih rfl hq
        exact ⟨s, List.mem_cons_of_mem _ hs, heq⟩

theorem length_pos_of_inquire {scope : Scope} {expression answer : String}
    {resolvers : List (Resolver Id)} {questions : List Question}
    (h : inquire scope expression resolvers = (questions, some answer)) : 0 < questions.length := by
  cases resolvers with
  | nil => cases h
  | cons r rest =>
    unfold inquire at h
    cases hr : r.answer? expression scope <;> rw [hr] at h <;> cases congrArg Prod.fst h <;>
      exact Nat.succ_pos _

end Resolver

namespace Evaluator

/-! ### Whom a text is for -/

/-- The resolvers that a text is for, and what they are asked. -/
inductive Turn (ev : Evaluator Id) : List Char → List (Resolver Id) → String → Prop
  /-- What stands before the first colon is the id of a resolver. -/
  | named {id rest : List Char} {r : Resolver Id} (hid : ':' ∉ id)
    (hr : ev.byId.get? (String.ofList id) = some r) :
    Turn ev (id ++ ':' :: rest) [r] (String.ofList rest)
  | chain {text : List Char} (h : ∀ id rest, ':' ∉ id → text = id ++ ':' :: rest →
      ev.byId.get? (String.ofList id) = none) :
    Turn ev text ev.chain (String.ofList text)

/-- The derivations of what a text stands for: with the questions asked, and the levels to which
placeholders are nested. Of a placeholder without an answer the body is left, in braces behind a
question mark, or nothing. -/
inductive Renders (ev : Evaluator Id) (scope : Scope) (mask : Bool) :
    List Segment → Rendered → List Question → Nat → Prop
  | done : Renders ev scope mask [] ⟨[], true⟩ [] 0
  | literal {text : List Char} {rest : List Segment} {out : Rendered} {asked : List Question}
    {levels : Nat} (hrest : Renders ev scope mask rest out asked levels) :
    Renders ev scope mask (.literal text :: rest) ⟨text ++ out.text, out.isComplete⟩ asked levels
  | escaped {rest : List Segment} {out : Rendered} {asked : List Question} {levels : Nat}
    (hrest : Renders ev scope mask rest out asked levels) :
    Renders ev scope mask (.escaped :: rest) ⟨'$' :: '\x7b' :: out.text, out.isComplete⟩ asked levels
  /-- A placeholder inside the body has no answer. -/
  | unready {body : List Char} {rest : List Segment} {inner out : Rendered}
    {inside behind : List Question} {deep levels : Nat}
    (hbody : Renders ev scope mask (Segment.split body) inner inside deep)
    (hinner : inner.isComplete = false) (hrest : Renders ev scope mask rest out behind levels) :
    Renders ev scope mask (.expression body :: rest)
      ⟨(if mask then ['?', '\x7b'] ++ body ++ ['\x7d'] else []) ++ out.text, false⟩
      (inside ++ behind) (max (deep + 1) levels)
  | unanswered {body : List Char} {rest : List Segment} {inner out : Rendered}
    {inside questions behind : List Question} {deep levels : Nat} {resolvers : List (Resolver Id)}
    {expression : String} (hbody : Renders ev scope mask (Segment.split body) inner inside deep)
    (hinner : inner.isComplete = true) (turn : Turn ev inner.text resolvers expression)
    (hasked : Resolver.inquire scope expression resolvers = (questions, none))
    (hrest : Renders ev scope mask rest out behind levels) :
    Renders ev scope mask (.expression body :: rest)
      ⟨(if mask then ['?', '\x7b'] ++ body ++ ['\x7d'] else []) ++ out.text, false⟩
      (inside ++ (questions ++ behind)) (max (deep + 1) levels)
  | answered {body : List Char} {rest : List Segment} {inner result out : Rendered}
    {inside questions within behind : List Question} {deep deeper levels : Nat}
    {resolvers : List (Resolver Id)} {expression answer : String}
    (hbody : Renders ev scope mask (Segment.split body) inner inside deep)
    (hinner : inner.isComplete = true) (turn : Turn ev inner.text resolvers expression)
    (hasked : Resolver.inquire scope expression resolvers = (questions, some answer))
    (hanswer : Renders ev scope mask (Segment.split answer.toList) result within deeper)
    (hrest : Renders ev scope mask rest out behind levels) :
    Renders ev scope mask (.expression body :: rest)
      ⟨result.text ++ out.text, result.isComplete && out.isComplete⟩
      (inside ++ (questions ++ within ++ behind)) (max (max deep deeper + 1) levels)

variable {ev : Evaluator Id} {scope : Scope} {mask : Bool}

theorem Turn.named?_cases {text : List Char} {resolvers : List (Resolver Id)} {expression : String}
    (h : Turn ev text resolvers expression) :
    (∃ r, ev.named? text = some (r, expression) ∧ resolvers = [r]) ∨
    (ev.named? text = none ∧ resolvers = ev.chain ∧ expression = String.ofList text) := by
  cases h with
  | @named id rest r hid hr =>
    refine .inl ⟨r, ?_, rfl⟩
    unfold named?
    rw [Text.cutAt?_char_eq_some_iff.2 ⟨hid, rfl⟩]
    show (ev.byId.get? (String.ofList id)).bind _ = _
    rw [hr]
    rfl
  | chain hnone =>
    refine .inr ⟨?_, rfl, rfl⟩
    unfold named?
    cases hcut : Text.cutAt? (· = ':') text with
    | none => rfl
    | some cut =>
      obtain ⟨hbefore, htext⟩ := Text.cutAt?_char_eq_some_iff.1 hcut
      show (ev.byId.get? (String.ofList cut.1)).bind _ = _
      rw [hnone cut.1 cut.2 hbefore htext]
      rfl

/-- A text without a colon is for the default chain. -/
theorem Turn.of_no_colon {text : List Char} (h : ':' ∉ text) :
    Turn ev text ev.chain (String.ofList text) := by
  refine .chain fun id rest _ htext => absurd ?_ h
  rw [htext]
  exact List.mem_append_right _ List.mem_cons_self

/-- A text without placeholders stands for itself. -/
theorem Renders.of_literal {text : List Char} (h : Segment.split text = [.literal text]) :
    Renders ev scope mask (Segment.split text) ⟨text, true⟩ [] 0 := by
  have hdone : Renders ev scope mask [.literal text]
      ((Rendered.verbatim text).append (.verbatim [])) [] 0 := .literal .done
  rw [Rendered.append, Rendered.verbatim, Rendered.verbatim, List.append_nil] at hdone
  rw [h]
  exact hdone

theorem Turn.unique {text : List Char} {rs rs' : List (Resolver Id)} {e e' : String}
    (h : Turn ev text rs e) (h' : Turn ev text rs' e') : rs = rs' ∧ e = e' := by
  rcases h.named?_cases with ⟨r, hn, rfl⟩ | ⟨hn, rfl, rfl⟩
  · rcases h'.named?_cases with ⟨r', hn', rfl⟩ | ⟨hn', -, -⟩
    · cases hn.symm.trans hn'
      exact ⟨rfl, rfl⟩
    · cases hn.symm.trans hn'
  · rcases h'.named?_cases with ⟨r', hn', rfl⟩ | ⟨hn', rfl, rfl⟩
    · cases hn.symm.trans hn'
    · exact ⟨rfl, rfl⟩

/-- A text stands for one thing, and the questions are the same. -/
theorem Renders.unique {segments : List Segment} {out out' : Rendered}
    {asked asked' : List Question} {levels levels' : Nat}
    (h : Renders ev scope mask segments out asked levels)
    (h' : Renders ev scope mask segments out' asked' levels') :
    out = out' ∧ asked = asked' := by
  induction h generalizing out' asked' levels' with
  | done =>
    cases h'
    exact ⟨rfl, rfl⟩
  | literal _ ih =>
    cases h' with
    | literal h' =>
      obtain ⟨rfl, rfl⟩ := ih h'
      exact ⟨rfl, rfl⟩
  | escaped _ ih =>
    cases h' with
    | escaped h' =>
      obtain ⟨rfl, rfl⟩ := ih h'
      exact ⟨rfl, rfl⟩
  | unready _ hinner _ ihbody ihrest =>
    cases h' with
    | unready hbody' _ hrest' =>
      obtain ⟨-, rfl⟩ := ihbody hbody'
      obtain ⟨rfl, rfl⟩ := ihrest hrest'
      exact ⟨rfl, rfl⟩
    | unanswered hbody' hinner' =>
      obtain ⟨rfl, -⟩ := ihbody hbody'
      cases hinner.symm.trans hinner'
    | answered hbody' hinner' =>
      obtain ⟨rfl, -⟩ := ihbody hbody'
      cases hinner.symm.trans hinner'
  | unanswered _ hinner turn hasked _ ihbody ihrest =>
    cases h' with
    | unready hbody' hinner' =>
      obtain ⟨rfl, -⟩ := ihbody hbody'
      cases hinner.symm.trans hinner'
    | unanswered hbody' _ turn' hasked' hrest' =>
      obtain ⟨rfl, rfl⟩ := ihbody hbody'
      obtain ⟨rfl, rfl⟩ := turn.unique turn'
      cases hasked.symm.trans hasked'
      obtain ⟨rfl, rfl⟩ := ihrest hrest'
      exact ⟨rfl, rfl⟩
    | answered hbody' _ turn' hasked' =>
      obtain ⟨rfl, -⟩ := ihbody hbody'
      obtain ⟨rfl, rfl⟩ := turn.unique turn'
      cases hasked.symm.trans hasked'
  | answered _ hinner turn hasked _ _ ihbody ihanswer ihrest =>
    cases h' with
    | unready hbody' hinner' =>
      obtain ⟨rfl, -⟩ := ihbody hbody'
      cases hinner.symm.trans hinner'
    | unanswered hbody' _ turn' hasked' =>
      obtain ⟨rfl, -⟩ := ihbody hbody'
      obtain ⟨rfl, rfl⟩ := turn.unique turn'
      cases hasked.symm.trans hasked'
    | answered hbody' _ turn' hasked' hanswer' hrest' =>
      obtain ⟨rfl, rfl⟩ := ihbody hbody'
      obtain ⟨rfl, rfl⟩ := turn.unique turn'
      cases hasked.symm.trans hasked'
      obtain ⟨rfl, rfl⟩ := ihanswer hanswer'
      obtain ⟨rfl, rfl⟩ := ihrest hrest'
      exact ⟨rfl, rfl⟩

end Evaluator

end LayeredConfig
