import LayeredConfig.Placeholder

/-! # Openings and closing braces

Reading a text from the left, every opening, behind a backslash or not, is one more that is open,
and every closing brace closes one. `level?` counts them. The body of a placeholder is the text
before the first closing brace that closes more than the body has opened, and this is what the
search for the end of a placeholder finds (`body?_eq_some_iff`). It finds nothing if the text behind
an opening never closes it (`body?_eq_none_iff`).

Neither the count nor the search minds a backslash (`level?_backslash`, `body?_backslash`), so both
read a text opening by opening, brace by brace and else character by character
(`reading_induction`), and counts add up wherever a text is cut, but between the two characters of
an opening (`level?_append`). -/

namespace LayeredConfig.Segment

/-- How many openings are open behind a text, if `level` of them are in front of it. There is no
such number if a brace closes more than has been opened. -/
def level? (level : Nat) : List Char → Option Nat
  | [] => some level
  | '\\' :: '$' :: '\x7b' :: cs => level? (level + 1) cs
  | '$' :: '\x7b' :: cs => level? (level + 1) cs
  | '\x7d' :: cs =>
    match level with
    | 0 => none
    | n + 1 => level? n cs
  | _ :: cs => level? level cs

/-- Whether a text never closes more than it has opened, and ends with nothing open. -/
def IsBalanced (text : List Char) : Prop := level? 0 text = some 0

instance (text : List Char) : Decidable (IsBalanced text) := by
  unfold IsBalanced
  infer_instance

/-- Whether a text never closes the opening in front of it. -/
def LeavesOpen (text : List Char) : Prop := ∃ n, level? 0 text = some n

variable {n m : Nat} {c : Char} {a b cs body rest : List Char}

/-! ### Reading a text -/

theorem not_opening_prefix_iff :
    ¬ opening <+: c :: cs ↔ ∀ rest, c = '$' → cs = '\x7b' :: rest → False := by
  constructor
  · rintro h rest rfl rfl
    exact h ⟨rest, rfl⟩
  · rintro h ⟨rest, heq⟩
    obtain ⟨rfl, hcs⟩ := List.cons.inj heq
    exact h rest rfl hcs.symm

theorem not_opening_prefix_of_ne (h : c ≠ '$') : ¬ opening <+: c :: cs :=
  not_opening_prefix_iff.2 fun _ hc => absurd hc h

/-- What goes on behind an opening, behind a closing brace, and behind any other character goes on
to the end of a text. -/
theorem reading_induction {motive : List Char → Prop} (nil : motive [])
    (opened : ∀ cs, motive cs → motive (opening ++ cs))
    (closed : ∀ cs, motive cs → motive ('\x7d' :: cs))
    (other : ∀ c cs, ¬ opening <+: c :: cs → c ≠ '\x7d' → motive cs → motive (c :: cs)) :
    ∀ cs, motive cs
  | [] => nil
  | c :: cs => by
    by_cases hclose : c = '\x7d'
    · exact hclose ▸ closed cs (reading_induction nil opened closed other cs)
    by_cases hopen : opening <+: c :: cs
    · have hcs : c :: cs = opening ++ cs.tail := by
        obtain ⟨rest, heq⟩ := hopen
        rw [← heq, ← (List.cons.inj heq).2]
        rfl
      rw [hcs]
      exact opened _ (reading_induction nil opened closed other cs.tail)
    · exact other c cs hopen hclose (reading_induction nil opened closed other cs)
termination_by cs => cs.length
decreasing_by
  · exact Nat.lt_succ_self cs.length
  · rw [List.length_tail, List.length_cons]
    omega
  · exact Nat.lt_succ_self cs.length

theorem level?_opening (n : Nat) (cs : List Char) :
    level? n (opening ++ cs) = level? (n + 1) cs :=
  level?.eq_3 n cs

theorem level?_zero_closing (cs : List Char) : level? 0 ('\x7d' :: cs) = none := level?.eq_4 cs

theorem level?_succ_closing (n : Nat) (cs : List Char) :
    level? (n + 1) ('\x7d' :: cs) = level? n cs :=
  level?.eq_5 cs n

/-- A backslash makes no difference, also in front of an opening. -/
theorem level?_backslash (n : Nat) (cs : List Char) : level? n ('\\' :: cs) = level? n cs := by
  by_cases h : opening <+: cs
  · obtain ⟨rest, rfl⟩ := h
    exact (level?.eq_2 n rest).trans (level?_opening n rest).symm
  · refine level?.eq_6 n '\\' cs (fun rest _ hcs => h ⟨rest, hcs.symm⟩) ?_ ?_
    · exact fun _ hc => absurd hc (by decide)
    · exact fun hc => absurd hc (by decide)

theorem level?_cons (hopen : ¬ opening <+: c :: cs) (hclose : c ≠ '\x7d') :
    level? n (c :: cs) = level? n cs := by
  by_cases hc : c = '\\'
  · rw [hc, level?_backslash]
  · exact level?.eq_6 n c cs (fun _ h => absurd h hc) (not_opening_prefix_iff.1 hopen) hclose

/-! ### Counting -/

/-- An opening is not cut in two, and what follows does not make one of what is no opening. -/
theorem not_opening_prefix_append (hopen : ¬ opening <+: c :: a)
    (h : (c :: a).getLast? = some '$' → b.head? ≠ some '\x7b') : ¬ opening <+: c :: (a ++ b) := by
  refine not_opening_prefix_iff.2 fun rest hc hcs => ?_
  cases a with
  | nil =>
    subst hc
    exact h rfl (congrArg List.head? hcs)
  | cons d a =>
    obtain ⟨rfl, -⟩ := List.cons.inj hcs
    exact not_opening_prefix_iff.1 hopen a hc rfl

theorem getLast?_cons_of_eq_some {d : Char} (h : a.getLast? = some d) :
    (c :: a).getLast? = some d := by
  rw [List.getLast?_cons, h]
  rfl

/-- Counts add up where no opening is cut in two. -/
theorem level?_append (h : a.getLast? = some '$' → b.head? ≠ some '\x7b') :
    level? n (a ++ b) = (level? n a).bind fun m => level? m b := by
  induction a using reading_induction generalizing n with
  | nil => rfl
  | opened a ih =>
    rw [List.append_assoc, level?_opening, level?_opening]
    exact ih fun hl => h (getLast?_cons_of_eq_some (getLast?_cons_of_eq_some hl))
  | closed a ih =>
    cases n with
    | zero => rw [List.cons_append, level?_zero_closing, level?_zero_closing, Option.bind_none]
    | succ n =>
      rw [List.cons_append, level?_succ_closing, level?_succ_closing]
      exact ih fun hl => h (getLast?_cons_of_eq_some hl)
  | other c a hopen hclose ih =>
    rw [List.cons_append, level?_cons hopen hclose,
      level?_cons (not_opening_prefix_append hopen h) hclose]
    exact ih fun hl => h (getLast?_cons_of_eq_some hl)

/-- What is open in front of a text stays open in it. -/
theorem level?_add (h : level? n cs = some m) (k : Nat) : level? (n + k) cs = some (m + k) := by
  induction cs using reading_induction generalizing n with
  | nil =>
    cases h
    rfl
  | opened cs ih =>
    rw [level?_opening] at h ⊢
    rw [Nat.add_right_comm]
    exact ih h
  | closed cs ih =>
    cases n with
    | zero => rw [level?_zero_closing] at h; cases h
    | succ n =>
      rw [level?_succ_closing] at h
      rw [Nat.add_right_comm, level?_succ_closing]
      exact ih h
  | other c cs hopen hclose ih =>
    rw [level?_cons hopen hclose] at h ⊢
    exact ih h

theorem IsBalanced.level?_eq (h : IsBalanced cs) (n : Nat) : level? n cs = some n := by
  have hn := level?_add h n
  rwa [Nat.zero_add] at hn

/-- A placeholder leaves open what is open in front of it. -/
theorem level?_placeholder (h : IsBalanced body) (n : Nat) (rest : List Char) :
    level? n (opening ++ (body ++ '\x7d' :: rest)) = level? n rest := by
  rw [level?_opening, level?_append fun _ => by simp, h.level?_eq, Option.bind_some,
    level?_succ_closing]

/-! ### The end of a placeholder -/

theorem body?_opening (n : Nat) (cs : List Char) :
    body? n (opening ++ cs) = (body? (n + 1) cs).map fun r => (opening ++ r.1, r.2) :=
  body?.eq_3 n cs

theorem body?_zero_closing (cs : List Char) : body? 0 ('\x7d' :: cs) = some ([], cs) :=
  body?.eq_4 cs

theorem body?_succ_closing (n : Nat) (cs : List Char) :
    body? (n + 1) ('\x7d' :: cs) = (body? n cs).map fun r => ('\x7d' :: r.1, r.2) :=
  body?.eq_5 cs n

/-- A backslash makes no difference to where a placeholder ends. -/
theorem body?_backslash (n : Nat) (cs : List Char) :
    body? n ('\\' :: cs) = (body? n cs).map fun r => ('\\' :: r.1, r.2) := by
  by_cases h : opening <+: cs
  · obtain ⟨rest, rfl⟩ := h
    rw [body?_opening, Option.map_map]
    exact body?.eq_2 n rest
  · refine body?.eq_6 n '\\' cs (fun rest _ hcs => h ⟨rest, hcs.symm⟩) ?_ ?_
    · exact fun _ hc => absurd hc (by decide)
    · exact fun hc => absurd hc (by decide)

theorem body?_cons (hopen : ¬ opening <+: c :: cs) (hclose : c ≠ '\x7d') :
    body? n (c :: cs) = (body? n cs).map fun r => (c :: r.1, r.2) := by
  by_cases hc : c = '\\'
  · rw [hc, body?_backslash]
  · exact body?.eq_6 n c cs (fun _ h => absurd h hc) (not_opening_prefix_iff.1 hopen) hclose

theorem body?_append (h : level? n body = some 0) (rest : List Char) :
    body? n (body ++ '\x7d' :: rest) = some (body, rest) := by
  induction body using reading_induction generalizing n with
  | nil =>
    cases h
    exact body?_zero_closing rest
  | opened body ih =>
    rw [level?_opening] at h
    rw [List.append_assoc, body?_opening, ih h]
    rfl
  | closed body ih =>
    cases n with
    | zero => rw [level?_zero_closing] at h; cases h
    | succ n =>
      rw [level?_succ_closing] at h
      rw [List.cons_append, body?_succ_closing, ih h]
      rfl
  | other c body hopen hclose ih =>
    have hopen' : ¬ opening <+: c :: (body ++ '\x7d' :: rest) :=
      not_opening_prefix_append hopen fun _ => by simp
    rw [level?_cons hopen hclose] at h
    rw [List.cons_append, body?_cons hopen' hclose, ih h]
    rfl

theorem level?_of_body? (h : body? n cs = some (body, rest)) : level? n body = some 0 := by
  induction cs using reading_induction generalizing n body with
  | nil => cases h
  | opened cs ih =>
    rw [body?_opening] at h
    obtain ⟨⟨inner, _⟩, hinner, heq⟩ := Option.map_eq_some_iff.1 h
    cases heq
    rw [level?_opening]
    exact ih hinner
  | closed cs ih =>
    cases n with
    | zero =>
      rw [body?_zero_closing] at h
      cases h
      rfl
    | succ n =>
      rw [body?_succ_closing] at h
      obtain ⟨⟨inner, _⟩, hinner, heq⟩ := Option.map_eq_some_iff.1 h
      cases heq
      rw [level?_succ_closing]
      exact ih hinner
  | other c cs hopen hclose ih =>
    rw [body?_cons hopen hclose] at h
    obtain ⟨⟨inner, _⟩, hinner, heq⟩ := Option.map_eq_some_iff.1 h
    cases heq
    have hopen' : ¬ opening <+: c :: inner := fun hp => by
      rw [eq_of_body? hinner, ← List.cons_append] at hopen
      exact hopen (hp.trans (List.prefix_append _ _))
    rw [level?_cons hopen' hclose]
    exact ih hinner

/-- The body of a placeholder closes what it opens, and the brace behind it closes the placeholder.
-/
theorem body?_eq_some_iff :
    body? n cs = some (body, rest) ↔ cs = body ++ '\x7d' :: rest ∧ level? n body = some 0 := by
  constructor
  · exact fun h => ⟨eq_of_body? h, level?_of_body? h⟩
  · rintro ⟨rfl, h⟩
    exact body?_append h rest

/-- There is no body if the text never closes the opening in front of it. -/
theorem body?_eq_none_iff : body? n cs = none ↔ ∃ m, level? n cs = some m := by
  induction cs using reading_induction generalizing n with
  | nil => exact ⟨fun _ => ⟨n, rfl⟩, fun _ => rfl⟩
  | opened cs ih => rw [body?_opening, Option.map_eq_none_iff, level?_opening, ih]
  | closed cs ih =>
    cases n with
    | zero =>
      rw [body?_zero_closing, level?_zero_closing]
      exact iff_of_false nofun nofun
    | succ n => rw [body?_succ_closing, Option.map_eq_none_iff, level?_succ_closing, ih]
  | other c cs hopen hclose ih =>
    rw [body?_cons hopen hclose, Option.map_eq_none_iff, level?_cons hopen hclose, ih]

end LayeredConfig.Segment
