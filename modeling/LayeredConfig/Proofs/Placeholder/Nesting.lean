import LayeredConfig.Proofs.Placeholder.Canonical

/-! # Placeholders inside of placeholders

The search for the end of a placeholder counts the openings in its body, and the body is split anew
when it is rendered. The two agree: in a body every opening is closed (`IsBalanced.exists_group`),
and so splitting it leaves no opening as text. What an opening and its brace enclose is a group. An
opening behind a backslash makes no group, though it is counted and what it encloses may hold
groups.

Every group is a placeholder of the text, or it is strictly inside of one (`IsGroup.locate`), and
placeholders are groups that are not inside of one another. So the placeholders of a body are its
maximal groups (`hasPlaceholder_iff`). -/

namespace LayeredConfig.Segment

/-- The bodies of the placeholders in a text, in these bodies, and so on. -/
inductive Inside (text : List Char) : List Char → Prop
  | direct {body} (h : expression body ∈ split text) : Inside text body
  | deeper {body inner} (h : Inside text body) (hinner : expression inner ∈ split body) :
    Inside text inner

/-- A part of a text that begins with an opening, not behind a backslash, and ends with the brace
that closes it. -/
structure IsGroup (text before body after : List Char) : Prop where
  eq : text = before ++ (opening ++ (body ++ '\x7d' :: after))
  unescaped : before.getLast? ≠ some '\\'
  balanced : IsBalanced body

/-- A group that is not inside of another one. -/
def IsMaximal (text before body after : List Char) : Prop :=
  IsGroup text before body after ∧ ∀ before' body' after', IsGroup text before' body' after' →
    before'.length < before.length → ¬ after'.length < after.length

/-- Splitting the text yields a placeholder, with all that is written in front of it and behind. -/
def HasPlaceholder (text before body after : List Char) : Prop :=
  ∃ front behind, split text = front ++ expression body :: behind ∧
    writeAll front = before ∧ writeAll behind = after

variable {c : Char} {n m : Nat} {text cs before body after rest : List Char}

theorem Inside.isBalanced (h : Inside text body) : IsBalanced body := by
  cases h with
  | direct h => exact (isCanonical_split _).balanced _ h
  | deeper _ hinner => exact (isCanonical_split _).balanced _ hinner

/-! ### Every opening is closed -/

/-- What is counted in front of an opening does not matter to what is counted from it on. -/
theorem level?_append_opening (before rest : List Char) :
    level? n (before ++ (opening ++ rest)) =
      (level? n before).bind fun m => level? (m + 1) rest :=
  level?_append fun _ => by simp [opening]

theorem not_leavesOpen (before : List Char)
    (h : level? n (before ++ (opening ++ rest)) = some 0) : ¬ LeavesOpen rest := by
  rintro ⟨k, hk⟩
  rw [level?_append_opening] at h
  obtain ⟨m, -, hm⟩ := Option.bind_eq_some_iff.1 h
  have hadd := level?_add hk (m + 1)
  rw [Nat.zero_add, hm] at hadd
  cases hadd

theorem exists_body (h : level? n (before ++ (opening ++ rest)) = some 0) :
    ∃ body after, rest = body ++ '\x7d' :: after ∧ IsBalanced body := by
  cases hbody : body? 0 rest with
  | none => exact absurd (body?_eq_none_iff.1 hbody) (not_leavesOpen before h)
  | some r => exact ⟨r.1, r.2, body?_eq_some_iff.1 hbody⟩

theorem IsBalanced.exists_group (h : IsBalanced text) (heq : text = before ++ (opening ++ rest)) :
    before.getLast? = some '\\' ∨
      ∃ body after, rest = body ++ '\x7d' :: after ∧ IsGroup text before body after := by
  by_cases hlast : before.getLast? = some '\\'
  · exact .inl hlast
  · obtain ⟨body, after, rfl, hbody⟩ := exists_body (heq ▸ h)
    exact .inr ⟨body, after, rfl, heq, hlast, hbody⟩

theorem IsBalanced.not_opening_infix (h : IsBalanced text) {a : List Char}
    (ha : literal a ∈ split text) : ¬ opening <:+: a := by
  intro hop
  obtain ⟨front, behind, hsplit⟩ := List.append_of_mem ha
  obtain ⟨rfl, before, rest, rfl, -, -, hrest⟩ :=
    (isCanonical_split text).unclosed front a behind hsplit hop
  refine not_leavesOpen (n := 0) (writeAll front ++ before) ?_ hrest
  have htext : text = writeAll front ++ before ++ (opening ++ rest) := by
    rw [← write_split text, hsplit, writeAll_append]
    simp [writeAll, write]
  exact htext ▸ h

/-! ### Placeholders of a text -/

/-- No backslash is in front of a placeholder. -/
theorem IsCanonical.getLast?_ne {front behind : List Segment}
    (h : IsCanonical (front ++ expression body :: behind)) :
    (writeAll front).getLast? ≠ some '\\' := by
  rcases List.eq_nil_or_concat front with rfl | ⟨front, s, rfl⟩
  · nofun
  have hmay := (List.isChain_append.1 h.neighbours).2.2 s (by simp) _ rfl
  rw [List.concat_eq_append, writeAll_append]
  show (writeAll front ++ (s.write ++ [])).getLast? ≠ _
  rw [List.append_nil]
  cases s with
  | literal a =>
    have hne : a ≠ [] := h.nonempty a (by simp)
    rwa [write, List.getLast?_append_of_ne_nil _ hne]
  | escaped => simp [write, escapedOpening]
  | expression b => simp [write]

namespace HasPlaceholder

theorem isGroup (h : HasPlaceholder text before body after) : IsGroup text before body after := by
  obtain ⟨front, behind, hsplit, rfl, rfl⟩ := h
  have hcanonical := isCanonical_split text
  refine ⟨?_, (hsplit ▸ hcanonical).getLast?_ne, hcanonical.balanced body (by simp [hsplit])⟩
  rw [← write_split text, hsplit, writeAll_append, writeAll_cons, write]
  simp

theorem first (hbody : IsBalanced body) (rest : List Char) :
    HasPlaceholder (opening ++ (body ++ '\x7d' :: rest)) [] body rest :=
  ⟨[], split rest, split_placeholder hbody rest, rfl, write_split rest⟩

theorem escaped (h : HasPlaceholder cs before body after) :
    HasPlaceholder (escapedOpening ++ cs) (escapedOpening ++ before) body after := by
  obtain ⟨front, behind, hsplit, rfl, rfl⟩ := h
  exact ⟨.escaped :: front, behind, by rw [split_escaped, hsplit]; rfl, rfl, rfl⟩

theorem behind {front : List Char} (h : HasPlaceholder cs before body after)
    (hfront : IsBalanced front) :
    HasPlaceholder (opening ++ (front ++ '\x7d' :: cs)) (opening ++ (front ++ '\x7d' :: before))
      body after := by
  obtain ⟨segments, behind, hsplit, rfl, rfl⟩ := h
  refine ⟨expression front :: segments, behind, ?_, ?_, rfl⟩
  · rw [split_placeholder hfront, hsplit]
    rfl
  · simp [writeAll_cons, write]

theorem cons (h : HasPlaceholder cs before body after) (hopen : ¬ opening <+: c :: cs)
    (hescaped : ¬ escapedOpening <+: c :: cs) :
    HasPlaceholder (c :: cs) (c :: before) body after := by
  obtain ⟨front, behind, hsplit, rfl, rfl⟩ := h
  rw [HasPlaceholder, split_cons hopen hescaped, hsplit]
  cases front with
  | nil => exact ⟨[literal [c]], behind, rfl, rfl, rfl⟩
  | cons s front =>
    cases s with
    | literal a => exact ⟨literal (c :: a) :: front, behind, rfl, rfl, rfl⟩
    | escaped => exact ⟨literal [c] :: .escaped :: front, behind, rfl, rfl, rfl⟩
    | expression b => exact ⟨literal [c] :: expression b :: front, behind, rfl, rfl, rfl⟩

/-- Of two placeholders one is in front of the other. -/
theorem not_inside {before' body' after' : List Char} (h : HasPlaceholder text before body after)
    (h' : HasPlaceholder text before' body' after') (hbefore : before'.length < before.length) :
    ¬ after'.length < after.length := by
  obtain ⟨front, behind, hsplit, rfl, rfl⟩ := h
  obtain ⟨front', behind', hsplit', rfl, rfl⟩ := h'
  rcases List.append_eq_append_iff.1 (hsplit.symm.trans hsplit') with
    ⟨mid, rfl, hmid⟩ | ⟨mid, rfl, hmid⟩
  · simp only [writeAll_append, List.length_append] at hbefore
    omega
  · cases mid with
    | nil => simp at hbefore
    | cons s mid =>
      have hbehind : behind' = mid ++ expression body :: behind := (List.cons.inj hmid).2
      rw [hbehind, writeAll_append, writeAll_cons, List.length_append, List.length_append]
      omega

end HasPlaceholder

/-! ### Groups of a text -/

theorem eq_append_of_escaped (h : escapedOpening ++ cs = before ++ (opening ++ rest))
    (hlast : before.getLast? ≠ some '\\') :
    ∃ front, before = escapedOpening ++ front ∧ cs = front ++ (opening ++ rest) := by
  match before with
  | [] => simp [escapedOpening, opening] at h
  | [a] =>
    obtain ⟨rfl, -⟩ := List.cons.inj h
    exact absurd rfl hlast
  | [a, b] => simp [escapedOpening, opening] at h
  | a :: b :: d :: front =>
    simp only [escapedOpening, List.cons_append, List.nil_append, List.cons.injEq] at h
    obtain ⟨rfl, rfl, rfl, rfl⟩ := h
    exact ⟨front, rfl, rfl⟩

/-- An opening begins where another one does, or behind it. -/
theorem eq_append_of_opening (h : opening ++ cs = before ++ (opening ++ rest)) :
    before = [] ∧ cs = rest ∨ ∃ front, before = opening ++ front ∧
      cs = front ++ (opening ++ rest) := by
  match before with
  | [] => exact .inl ⟨rfl, List.append_cancel_left h⟩
  | [a] => simp [opening] at h
  | a :: b :: front =>
    simp only [opening, List.cons_append, List.nil_append, List.cons.injEq] at h
    obtain ⟨rfl, rfl, rfl⟩ := h
    exact .inr ⟨front, rfl, rfl⟩

/-- An opening is in front of a brace or behind it. -/
theorem append_closing_eq (h : body ++ '\x7d' :: cs = before ++ (opening ++ rest)) :
    (∃ front, before = body ++ '\x7d' :: front ∧ cs = front ++ (opening ++ rest)) ∨
      ∃ front, body = before ++ (opening ++ front) ∧ rest = front ++ '\x7d' :: cs := by
  rcases List.append_eq_append_iff.1 h with ⟨mid, rfl, hmid⟩ | ⟨mid, rfl, hmid⟩
  · cases mid with
    | nil => simp [opening] at hmid
    | cons d front =>
      obtain ⟨rfl, rfl⟩ := List.cons.inj hmid
      exact .inl ⟨front, rfl, rfl⟩
  · cases mid with
    | nil => simp [opening] at hmid
    | cons a tail =>
      cases tail with
      | nil => simp [opening] at hmid
      | cons b front =>
        simp only [opening, List.cons_append, List.nil_append, List.cons.injEq] at hmid
        obtain ⟨rfl, rfl, rfl⟩ := hmid
        exact .inr ⟨front, rfl, rfl⟩

theorem exists_level?_of_cons (h : level? n (c :: cs) = some m) (hopen : ¬ opening <+: c :: cs) :
    ∃ n', level? n' cs = some m := by
  by_cases hclose : c = '\x7d'
  · subst hclose
    cases n with
    | zero => rw [level?_zero_closing] at h; cases h
    | succ n => exact ⟨n, (level?_succ_closing n cs).symm.trans h⟩
  · exact ⟨n, (level?_cons hopen hclose).symm.trans h⟩

/-- A group is a placeholder, or it is strictly inside of one. -/
theorem IsGroup.locate (h : IsGroup text before body after) (hlevel : level? n text = some 0) :
    HasPlaceholder text before body after ∨ ∃ before' body' after',
      HasPlaceholder text before' body' after' ∧
        before'.length < before.length ∧ after'.length < after.length := by
  obtain ⟨heq, hlast, hbody⟩ := h
  induction text using split_induction generalizing n before with
  | nil => simp [opening] at heq
  | escaped cs ih =>
    -- the opening behind the backslash is none of a group
    obtain ⟨before, rfl, hcs⟩ := eq_append_of_escaped heq hlast
    have hlevel' : level? (n + 1) cs = some 0 := (level?.eq_2 n cs).symm.trans hlevel
    rcases ih hlevel' hcs (getLast?_ne_of_append hlast) with hcs | ⟨b, i, a, hcs, hb, ha⟩
    · exact .inl hcs.escaped
    · refine .inr ⟨_, i, a, hcs.escaped, ?_, ha⟩
      simpa using hb
  | placeholder front rest hfront ih =>
    rcases eq_append_of_opening heq with ⟨rfl, htail⟩ | ⟨before, rfl, htail⟩
    · -- both begin here, and end at the same brace
      have hend := body?_append hfront rest
      rw [htail, body?_append hbody after] at hend
      obtain ⟨rfl, rfl⟩ := Prod.mk.inj (Option.some.inj hend)
      exact .inl (.first hfront _)
    · rcases append_closing_eq htail with ⟨before, rfl, hrest⟩ | ⟨inner, rfl, hinner⟩
      · rw [level?_placeholder hfront] at hlevel
        rw [List.append_cons, ← List.append_assoc] at hlast
        rcases ih hlevel hrest (getLast?_ne_of_append hlast) with hcs | ⟨b, i, a, hcs, hb, ha⟩
        · exact .inl (hcs.behind hfront)
        · refine .inr ⟨_, i, a, hcs.behind hfront, ?_, ha⟩
          simpa using hb
      · -- the group begins in the body, which closes all that it opens
        obtain ⟨i, a, rfl, hi⟩ := exists_body hfront
        have hend := body?_append hbody after
        rw [hinner, List.append_assoc, List.cons_append, body?_append hi] at hend
        obtain ⟨rfl, rfl⟩ := Prod.mk.inj (Option.some.inj hend)
        refine .inr ⟨[], _, rest, .first hfront rest, ?_, ?_⟩
        · simp [opening]
        · rw [List.length_append, List.length_cons]
          omega
  | unclosed rest hrest => exact absurd hrest (not_leavesOpen [] hlevel)
  | other c cs hopen hescaped ih =>
    cases before with
    | nil => exact absurd ⟨_, heq.symm⟩ hopen
    | cons d before =>
      obtain ⟨rfl, hcs⟩ := List.cons.inj heq
      obtain ⟨m, hlevel'⟩ := exists_level?_of_cons hlevel hopen
      rcases ih hlevel' hcs fun hl => hlast (getLast?_cons_of_eq_some hl) with
        hcs | ⟨b, i, a, hcs, hb, ha⟩
      · exact .inl (hcs.cons hopen hescaped)
      · exact .inr ⟨_, i, a, hcs.cons hopen hescaped, Nat.succ_lt_succ hb, ha⟩

/-- The placeholders of a text in which every opening is closed are its maximal groups. -/
theorem hasPlaceholder_iff (h : IsBalanced text) :
    HasPlaceholder text before body after ↔ IsMaximal text before body after := by
  constructor
  · intro hplaceholder
    refine ⟨hplaceholder.isGroup, fun before' body' after' hgroup hbefore hafter => ?_⟩
    rcases hgroup.locate h with hhas | ⟨b, i, a, hhas, hb, ha⟩
    · exact hplaceholder.not_inside hhas hbefore hafter
    · exact hplaceholder.not_inside hhas (hb.trans hbefore) (ha.trans hafter)
  · rintro ⟨hgroup, hmaximal⟩
    rcases hgroup.locate h with hhas | ⟨b, i, a, hhas, hb, ha⟩
    · exact hhas
    · exact absurd ha (hmaximal b i a hhas.isGroup hb)

/-- A group is counted when the text is: one more is open from its opening up to its brace. -/
theorem IsGroup.exists_level? (h : IsGroup text before body after) (hbalanced : IsBalanced text) :
    ∃ n, level? 0 before = some n ∧ level? 0 (before ++ (opening ++ body)) = some (n + 1) ∧
      level? 0 (before ++ (opening ++ (body ++ ['\x7d']))) = some n := by
  have htext : level? 0 text = some 0 := hbalanced
  rw [h.eq, level?_append_opening] at htext
  obtain ⟨n, hn, -⟩ := Option.bind_eq_some_iff.1 htext
  refine ⟨n, hn, ?_, ?_⟩
  · rw [level?_append_opening, hn, Option.bind_some, h.balanced.level?_eq]
  · rw [level?_append fun _ => by simp [opening], hn, Option.bind_some,
      level?_placeholder h.balanced]
    rfl

/-- Splitting a body anew finds what was counted when its end was searched for: an opening in it is
escaped or begins a group, none is left in a literal, and the placeholders are the maximal groups.
-/
theorem nested_placeholders (h : Inside text body) :
    (∀ before rest, body = before ++ (opening ++ rest) → before.getLast? = some '\\' ∨
        ∃ inner after, rest = inner ++ '\x7d' :: after ∧ IsGroup body before inner after) ∧
      (∀ a, literal a ∈ split body → ¬ opening <:+: a) ∧
      (∀ before inner after, IsGroup body before inner after →
        ∃ n, level? 0 before = some n ∧ level? 0 (before ++ (opening ++ inner)) = some (n + 1) ∧
          level? 0 (before ++ (opening ++ (inner ++ ['\x7d']))) = some n) ∧
      ∀ before inner after,
        HasPlaceholder body before inner after ↔ IsMaximal body before inner after :=
  ⟨fun _ _ heq => h.isBalanced.exists_group heq, fun _ ha => h.isBalanced.not_opening_infix ha,
    fun _ _ _ hgroup => hgroup.exists_level? h.isBalanced,
    fun _ _ _ => hasPlaceholder_iff h.isBalanced⟩

/-- The body `a\${b${c}}`. -/
def escapedBody : List Char := "a\\$\x7bb$\x7bc\x7d\x7d".toList

/-- Two levels inside of a text, the group within escaped braces is maximal, and a placeholder. -/
theorem nested_placeholders_escaped :
    Inside ("$\x7bx$\x7b".toList ++ escapedBody ++ "\x7d\x7d".toList) escapedBody ∧
      HasPlaceholder escapedBody "a\\$\x7bb".toList ['c'] ['\x7d'] ∧
      IsMaximal escapedBody "a\\$\x7bb".toList ['c'] ['\x7d'] := by
  have hmiddle : Inside ("$\x7bx$\x7b".toList ++ escapedBody ++ "\x7d\x7d".toList)
      ("x$\x7b".toList ++ escapedBody ++ ['\x7d']) := .direct (by decide +kernel)
  have hinside : Inside _ escapedBody := hmiddle.deeper (by decide +kernel)
  have hhas : HasPlaceholder escapedBody "a\\$\x7bb".toList ['c'] ['\x7d'] :=
    ⟨[literal ['a'], escaped, literal ['b']], [literal ['\x7d']], by decide +kernel, rfl, rfl⟩
  exact ⟨hinside, hhas, ((nested_placeholders hinside).2.2.2 _ _ _).1 hhas⟩

end LayeredConfig.Segment
