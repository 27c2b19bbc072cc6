import LayeredConfig.Proofs.Placeholder.Balance
import Mathlib.Data.List.Chain

/-! # The canonical segments of a text

A text is split character by character: what stands in front of a text without an opening at the cut
goes into the first literal (`split_cons`, `split_append`). So no literal is empty, none follows
another, the bodies of placeholders are balanced, and an opening that is in a literal is one that
the rest of the text does not close, for there would be a placeholder else (`isCanonical_split`).

`IsCanonical` says no more than this, and it says all: a text has no other segments of this kind
(`split_writeAll`). -/

namespace LayeredConfig.Segment

/-- Whether a segment may stand in front of another: no literal in front of a literal, nor one that
ends in a backslash in front of a placeholder. -/
def MayPrecede : Segment → Segment → Prop
  | literal _, literal _ => False
  | literal text, expression _ => text.getLast? ≠ some '\\'
  | _, _ => True

/-- What the segments of a text are like. -/
structure IsCanonical (segments : List Segment) : Prop where
  nonempty : ∀ text, literal text ∈ segments → text ≠ []
  neighbours : segments.IsChain MayPrecede
  balanced : ∀ body, expression body ∈ segments → IsBalanced body
  /-- A literal with an opening is the last segment. No backslash is in front of the first opening
  in it, and nothing behind that opening closes it. -/
  unclosed : ∀ front text behind, segments = front ++ literal text :: behind →
    opening <:+: text → behind = [] ∧ ∃ before rest, text = before ++ opening ++ rest ∧
      ¬ opening <:+: before ∧ (writeAll front ++ before).getLast? ≠ some '\\' ∧ LeavesOpen rest

variable {c : Char} {a cs body rest text : List Char} {s : Segment} {segments behind : List Segment}

/-! ### Splitting character by character -/

/-- The segments of a text with one more character in front that does not begin any. -/
def withChar (c : Char) : List Segment → List Segment
  | literal text :: behind => literal (c :: text) :: behind
  | segments => literal [c] :: segments

theorem splitAfter_placeholder (acc : List Char) (h : body? 0 cs = some (body, rest)) :
    splitAfter acc (opening ++ cs) = flush acc ++ expression body :: splitAfter [] rest := by
  refine (splitAfter.eq_3 acc cs).trans ?_
  split
  · rename_i heq
    cases h.symm.trans heq
    rfl
  · rename_i heq
    cases h.symm.trans heq

theorem splitAfter_unclosed (acc : List Char) (h : body? 0 cs = none) :
    splitAfter acc (opening ++ cs) = [literal (acc.reverse ++ (opening ++ cs))] := by
  refine (splitAfter.eq_3 acc cs).trans ?_
  split
  · rename_i heq
    cases h.symm.trans heq
  · rfl

theorem withChar_flush_append (c : Char) (acc : List Char)
    (h : ∀ text behind, segments ≠ literal text :: behind) :
    withChar c (flush acc ++ segments) = flush (acc ++ [c]) ++ segments := by
  cases acc with
  | nil =>
    cases segments with
    | nil => rfl
    | cons s behind =>
      cases s with
      | literal text => exact absurd rfl (h text behind)
      | escaped => rfl
      | expression body => rfl
  | cons d acc => simp [flush, withChar]

/-- What is read in front of a text only goes into its first literal. -/
theorem splitAfter_concat (acc : List Char) (c : Char) (cs : List Char) :
    splitAfter (acc ++ [c]) cs = withChar c (splitAfter acc cs) := by
  fun_induction splitAfter acc cs with
  | case1 acc =>
    rw [splitAfter.eq_1]
    have hflush := withChar_flush_append c acc (fun _ _ h => List.cons_ne_nil _ _ h.symm)
    simpa using hflush.symm
  | case2 acc rest ih =>
    rw [withChar_flush_append c acc (by simp)]
    exact splitAfter.eq_2 _ rest
  | case3 acc rest body rest' h ih =>
    rw [withChar_flush_append c acc (by simp)]
    exact splitAfter_placeholder _ h
  | case4 acc rest h =>
    refine (splitAfter_unclosed _ h).trans ?_
    rw [List.reverse_append]
    rfl
  | case5 acc d rest hescaped hopen ih =>
    rw [splitAfter.eq_4 _ d rest hescaped hopen]
    exact ih

theorem split_nil : split [] = [] := splitAfter.eq_1 []

theorem split_escaped (cs : List Char) : split (escapedOpening ++ cs) = escaped :: split cs :=
  splitAfter.eq_2 [] cs

theorem split_placeholder (h : IsBalanced body) (rest : List Char) :
    split (opening ++ (body ++ '\x7d' :: rest)) = expression body :: split rest :=
  splitAfter_placeholder [] (body?_append h rest)

theorem split_unclosed (h : LeavesOpen rest) :
    split (opening ++ rest) = [literal (opening ++ rest)] :=
  splitAfter_unclosed [] (body?_eq_none_iff.2 h)

theorem escapedOpening_prefix_cons_iff :
    escapedOpening <+: c :: cs ↔ c = '\\' ∧ opening <+: cs := by
  rw [eq_comm]
  exact List.cons_prefix_cons

theorem split_cons (hopen : ¬ opening <+: c :: cs) (hescaped : ¬ escapedOpening <+: c :: cs) :
    split (c :: cs) = withChar c (split cs) := by
  have hcs : splitAfter [] (c :: cs) = splitAfter [c] cs := by
    refine splitAfter.eq_4 [] c cs (fun rest hc hcs => ?_) (not_opening_prefix_iff.1 hopen)
    exact hescaped (escapedOpening_prefix_cons_iff.2 ⟨hc, rest, hcs.symm⟩)
  exact hcs.trans (splitAfter_concat [] c cs)

/-- What holds of a text because it holds of what follows its first segment, or its first
character. -/
theorem split_induction {motive : List Char → Prop} (nil : motive [])
    (escaped : ∀ cs, motive cs → motive (escapedOpening ++ cs))
    (placeholder : ∀ body rest, IsBalanced body → motive rest →
      motive (opening ++ (body ++ '\x7d' :: rest)))
    (unclosed : ∀ rest, LeavesOpen rest → motive (opening ++ rest))
    (other : ∀ c cs, ¬ opening <+: c :: cs → ¬ escapedOpening <+: c :: cs → motive cs →
      motive (c :: cs)) (cs : List Char) : motive cs := by
  fun_induction splitAfter [] cs with
  | case1 => exact nil
  | case2 _ rest ih => exact escaped rest ih
  | case3 _ rest body rest' h ih =>
    obtain ⟨rfl, hbody⟩ := body?_eq_some_iff.1 h
    exact placeholder body rest' hbody ih
  | case4 _ rest h => exact unclosed rest (body?_eq_none_iff.1 h)
  | case5 _ c rest hescaped hopen ih =>
    refine other c rest (not_opening_prefix_iff.2 hopen) (fun h => ?_) ih
    obtain ⟨hc, tail, htail⟩ := escapedOpening_prefix_cons_iff.1 h
    exact hescaped tail hc htail.symm

/-! ### Canonical segments -/

theorem writeAll_cons (s : Segment) (segments : List Segment) :
    writeAll (s :: segments) = s.write ++ writeAll segments :=
  List.flatMap_cons

theorem writeAll_append (front behind : List Segment) :
    writeAll (front ++ behind) = writeAll front ++ writeAll behind :=
  List.flatMap_append

theorem getLast?_append_ne {a b : List Char} {d : Char} (ha : a.getLast? ≠ some d)
    (hb : b.getLast? ≠ some d) : (a ++ b).getLast? ≠ some d := by
  cases b with
  | nil => rwa [List.append_nil]
  | cons x b => rwa [List.getLast?_append_of_ne_nil a (List.cons_ne_nil x b)]

theorem getLast?_ne_of_append {a b : List Char} {d : Char} (h : (a ++ b).getLast? ≠ some d) :
    b.getLast? ≠ some d := by
  cases b with
  | nil => nofun
  | cons x b => rwa [List.getLast?_append_of_ne_nil a (List.cons_ne_nil x b)] at h

theorem getLast?_write_ne (hs : ∀ text, s ≠ literal text) : s.write.getLast? ≠ some '\\' := by
  cases s with
  | literal text => exact absurd rfl (hs text)
  | escaped => decide
  | expression body => simp [write]

theorem mayPrecede_of_ne (hs : ∀ text, s ≠ literal text) (t : Segment) : MayPrecede s t := by
  cases s with
  | literal text => exact absurd rfl (hs text)
  | escaped => trivial
  | expression body => trivial

theorem isCanonical_nil : IsCanonical [] where
  nonempty _ h := absurd h List.not_mem_nil
  neighbours := .nil
  balanced _ h := absurd h List.not_mem_nil
  unclosed front _ behind h := by simp at h

namespace IsCanonical

theorem tail (h : IsCanonical (s :: segments)) : IsCanonical segments where
  nonempty text hmem := h.nonempty text (List.mem_cons_of_mem s hmem)
  neighbours := h.neighbours.tail
  balanced body hmem := h.balanced body (List.mem_cons_of_mem s hmem)
  unclosed front text behind heq hop := by
    obtain ⟨hbehind, before, rest, htext, hfirst, hlast, hopen⟩ :=
      h.unclosed (s :: front) text behind (congrArg (s :: ·) heq) hop
    rw [writeAll_cons, List.append_assoc] at hlast
    exact ⟨hbehind, before, rest, htext, hfirst, getLast?_ne_of_append hlast, hopen⟩

theorem cons (h : IsCanonical segments) (hs : ∀ text, s ≠ literal text)
    (hbody : ∀ body, s = expression body → IsBalanced body) : IsCanonical (s :: segments) where
  nonempty text hmem := by
    rcases List.mem_cons.1 hmem with heq | hmem
    · exact absurd heq.symm (hs text)
    · exact h.nonempty text hmem
  neighbours := List.isChain_cons.2 ⟨fun t _ => mayPrecede_of_ne hs t, h.neighbours⟩
  balanced body hmem := by
    rcases List.mem_cons.1 hmem with heq | hmem
    · exact hbody body heq.symm
    · exact h.balanced body hmem
  unclosed front text behind heq hop := by
    rcases List.cons_eq_append_iff.1 heq with ⟨-, heq⟩ | ⟨tail, rfl, htail⟩
    · exact absurd (List.cons.inj heq).1.symm (hs text)
    · obtain ⟨hbehind, before, rest, htext, hfirst, hlast, hopen⟩ :=
        h.unclosed tail text behind htail hop
      refine ⟨hbehind, before, rest, htext, hfirst, ?_, hopen⟩
      rw [writeAll_cons, List.append_assoc]
      exact getLast?_append_ne (getLast?_write_ne hs) hlast

/-- A literal in front of segments, which it may precede. -/
theorem literal (h : IsCanonical segments) (hne : text ≠ [])
    (hnext : ∀ t ∈ segments.head?, MayPrecede (.literal text) t)
    (hopen : opening <:+: text → segments = [] ∧ ∃ before rest, text = before ++ opening ++ rest ∧
      ¬ opening <:+: before ∧ before.getLast? ≠ some '\\' ∧ LeavesOpen rest) :
    IsCanonical (.literal text :: segments) where
  nonempty text' hmem := by
    rcases List.mem_cons.1 hmem with heq | hmem
    · cases heq
      exact hne
    · exact h.nonempty text' hmem
  neighbours := List.isChain_cons.2 ⟨hnext, h.neighbours⟩
  balanced body hmem := by
    rcases List.mem_cons.1 hmem with heq | hmem
    · cases heq
    · exact h.balanced body hmem
  unclosed front text' behind heq hop := by
    rcases List.cons_eq_append_iff.1 heq with ⟨rfl, heq⟩ | ⟨tail, rfl, htail⟩
    · cases heq
      exact hopen hop
    · obtain ⟨hbehind, before, rest, htext, hfirst, hlast, hrest⟩ :=
        h.unclosed tail text' behind htail hop
      refine ⟨hbehind, before, rest, htext, hfirst, ?_, hrest⟩
      -- between the two literals there is a segment, and the literal in front does not matter
      have hwritten : writeAll tail ++ before ≠ [] := by
        subst htail
        cases tail with
        | nil => exact (hnext _ rfl).elim
        | cons t tail =>
          cases t with
          | literal text'' => exact (hnext _ rfl).elim
          | escaped => exact List.cons_ne_nil _ _
          | expression body => exact List.cons_ne_nil _ _
      rwa [writeAll_cons, List.append_assoc, List.getLast?_append_of_ne_nil _ hwritten]

theorem of_unclosed (h : LeavesOpen rest) : IsCanonical [.literal (opening ++ rest)] :=
  isCanonical_nil.literal (List.cons_ne_nil _ _) (by simp) fun _ =>
    ⟨rfl, [], rest, rfl, by decide, nofun, h⟩

/-- A first literal may be longer by a character that does not begin a segment. -/
theorem cons_literal (h : IsCanonical (.literal text :: behind))
    (hopen : ¬ opening <+: c :: writeAll (.literal text :: behind))
    (hbackslash : c = '\\' → ¬ opening <+: writeAll (.literal text :: behind)) :
    IsCanonical (.literal (c :: text) :: behind) := by
  have hne := h.nonempty text List.mem_cons_self
  have hnext := (List.isChain_cons.1 h.neighbours).1
  refine h.tail.literal (List.cons_ne_nil c text) (fun t ht => ?_) fun hop => ?_
  · have hmay := hnext t ht
    cases t with
    | literal text' => exact hmay
    | escaped => trivial
    | expression body =>
      show ([c] ++ text).getLast? ≠ _
      rwa [List.getLast?_append_of_ne_nil _ hne]
  · have hprefix : ¬ opening <+: c :: text := fun hp => by
      rw [writeAll_cons, ← List.cons_append] at hopen
      exact hopen (hp.trans (List.prefix_append _ _))
    obtain ⟨hbehind, before, rest, rfl, hfirst, hlast, hrest⟩ :=
      h.unclosed [] text behind rfl ((List.infix_cons_iff.1 hop).resolve_left hprefix)
    refine ⟨hbehind, c :: before, rest, rfl, fun hc => ?_, ?_, hrest⟩
    · rcases List.infix_cons_iff.1 hc with hc | hc
      · rw [List.append_assoc, ← List.cons_append] at hprefix
        exact hprefix (hc.trans (List.prefix_append _ _))
      · exact hfirst hc
    · cases before with
      | nil =>
        intro hc
        refine hbackslash (Option.some.inj hc) ?_
        rw [writeAll_cons, write, List.append_assoc, List.append_assoc]
        exact List.prefix_append _ _
      | cons d before =>
        show ([c] ++ d :: before).getLast? ≠ _
        rwa [List.getLast?_append_of_ne_nil _ (List.cons_ne_nil d before)]

/-- A character that does not begin a segment goes into a literal. -/
theorem withChar (h : IsCanonical segments) (hopen : ¬ opening <+: c :: writeAll segments)
    (hescaped : ¬ escapedOpening <+: c :: writeAll segments) :
    IsCanonical (withChar c segments) := by
  have hsingle : ¬ opening <:+: [c] := fun hc => by simpa [opening] using hc.length_le
  have hbackslash : c = '\\' → ¬ opening <+: writeAll segments := fun hc hp =>
    hescaped (escapedOpening_prefix_cons_iff.2 ⟨hc, hp⟩)
  cases segments with
  | nil => exact h.literal (List.cons_ne_nil c []) (by simp) fun hop => absurd hop hsingle
  | cons s behind =>
    cases s with
    | escaped =>
      refine h.literal (List.cons_ne_nil c []) (fun t ht => ?_) fun hop => absurd hop hsingle
      cases ht
      trivial
    | expression body =>
      refine h.literal (List.cons_ne_nil c []) (fun t ht => ?_) fun hop => absurd hop hsingle
      cases ht
      intro hlast
      refine hbackslash (Option.some.inj hlast) ?_
      rw [writeAll_cons, write, List.append_assoc, List.append_assoc]
      exact List.prefix_append _ _
    | literal text => exact h.cons_literal hopen hbackslash

end IsCanonical

theorem isCanonical_split (cs : List Char) : IsCanonical (split cs) := by
  induction cs using split_induction with
  | nil => exact split_nil ▸ isCanonical_nil
  | escaped cs ih =>
    rw [split_escaped]
    exact ih.cons (by simp) nofun
  | placeholder body rest hbody ih =>
    rw [split_placeholder hbody]
    refine ih.cons (by simp) fun _ heq => ?_
    cases heq
    exact hbody
  | unclosed rest hrest =>
    rw [split_unclosed hrest]
    exact .of_unclosed hrest
  | other c cs hopen hescaped ih =>
    rw [split_cons hopen hescaped]
    rw [← write_split cs] at hopen hescaped
    exact ih.withChar hopen hescaped

/-! ### No other segments -/

theorem foldr_withChar_literal (a text : List Char) (segments : List Segment) :
    a.foldr withChar (literal text :: segments) = literal (a ++ text) :: segments := by
  induction a with
  | nil => rfl
  | cons c a ih =>
    rw [List.foldr_cons, ih]
    rfl

theorem foldr_withChar (hne : a ≠ []) (h : ∀ text behind, segments ≠ literal text :: behind) :
    a.foldr withChar segments = literal a :: segments := by
  have hchar (c : Char) : withChar c segments = literal [c] :: segments :=
    withChar_flush_append c [] h
  rw [← List.dropLast_append_getLast hne, List.foldr_append, List.foldr_cons, List.foldr_nil,
    hchar, foldr_withChar_literal]

/-- A text without an opening that neither begins one nor escapes one goes into a literal. -/
theorem split_append (hopen : ¬ opening <:+: a)
    (hcut : a.getLast? = some '$' → cs.head? ≠ some '\x7b')
    (hescaped : a.getLast? = some '\\' → ¬ opening <+: cs) :
    split (a ++ cs) = a.foldr withChar (split cs) := by
  induction a with
  | nil => rfl
  | cons c a ih =>
    have hprefix : ¬ opening <+: c :: (a ++ cs) :=
      not_opening_prefix_append (fun hp => hopen hp.isInfix) hcut
    have hprefix' : ¬ escapedOpening <+: c :: (a ++ cs) := by
      intro hp'
      obtain ⟨rfl, hp⟩ := escapedOpening_prefix_cons_iff.1 hp'
      cases a with
      | nil => exact hescaped rfl hp
      | cons d a =>
        refine not_opening_prefix_append (fun hd => hopen ?_) (fun hl => ?_) hp
        · exact List.infix_cons_iff.2 (.inr hd.isInfix)
        · exact hcut (getLast?_cons_of_eq_some hl)
    rw [List.cons_append, split_cons hprefix hprefix', List.foldr_cons]
    refine congrArg _ (ih (fun hc => hopen (List.infix_cons_iff.2 (.inr hc))) ?_ ?_)
    · exact fun hl => hcut (getLast?_cons_of_eq_some hl)
    · exact fun hl => hescaped (getLast?_cons_of_eq_some hl)

theorem head?_writeAll_ne (h : ∀ text behind, segments ≠ literal text :: behind) :
    (writeAll segments).head? ≠ some '\x7b' := by
  cases segments with
  | nil => nofun
  | cons s behind =>
    cases s with
    | literal text => exact absurd rfl (h text behind)
    | escaped => simp [writeAll_cons, write, escapedOpening]
    | expression body => simp [writeAll_cons, write, opening]

theorem exists_expression_of_opening_prefix (h : ∀ text behind, segments ≠ literal text :: behind)
    (hop : opening <+: writeAll segments) :
    ∃ body behind, segments = expression body :: behind := by
  cases segments with
  | nil => cases hop.length_le
  | cons s behind =>
    cases s with
    | literal text => exact absurd rfl (h text behind)
    | escaped => simp [writeAll_cons, write, escapedOpening, opening] at hop
    | expression body => exact ⟨body, behind, rfl⟩

/-- Canonical segments are those of the text that they are written as. -/
theorem split_writeAll (h : IsCanonical segments) : split (writeAll segments) = segments := by
  induction segments with
  | nil => exact split_nil
  | cons s behind ih =>
    have ih := ih h.tail
    rw [writeAll_cons]
    cases s with
    | escaped => rw [write, split_escaped, ih]
    | expression body =>
      have hbody := h.balanced body List.mem_cons_self
      rw [write, List.append_assoc, List.append_assoc, List.singleton_append,
        split_placeholder hbody, ih]
    | literal text =>
      have hne := h.nonempty text List.mem_cons_self
      have hnext := (List.isChain_cons.1 h.neighbours).1
      by_cases hop : opening <:+: text
      · obtain ⟨rfl, before, rest, rfl, hfirst, hlast, hrest⟩ := h.unclosed [] text behind rfl hop
        have hsplit : split (before ++ (opening ++ rest)) = before.foldr withChar _ :=
          split_append hfirst (fun _ => by simp [opening]) fun hl => absurd hl hlast
        rw [write, writeAll, List.flatMap_nil, List.append_nil, List.append_assoc, hsplit,
          split_unclosed hrest, foldr_withChar_literal]
      · have hbehind : ∀ text' tail, behind ≠ literal text' :: tail := by
          rintro text' tail rfl
          exact hnext _ rfl
        rw [write, split_append hop, ih, foldr_withChar hne hbehind]
        · exact fun _ => head?_writeAll_ne hbehind
        · intro hlast hop'
          obtain ⟨body, tail, rfl⟩ := exists_expression_of_opening_prefix hbehind hop'
          exact hnext _ rfl hlast

end LayeredConfig.Segment
