import LayeredConfig.Proofs.Placeholder.Canonical

/-! # Segments as slices of a text

A text is a sequence of bytes in UTF-8, and its segments are slices of it, from one position in the
bytes to another. `scan?` finds them with two cursors, at the start of the literal that is being
read and at the byte that is looked at, while `closing?` looks ahead for the brace that closes a
placeholder. Both compare bytes and step over the bytes of a character one by one, and a slice that
begins or ends inside of a character is none (`slice?`).

All slices that are taken are at the boundaries of characters, and they are the segments of the text
(`scan?_eq_splitAfter`): the first byte of a token is the first byte of a character, and none of the
others in a character is (`eq_of_skip`). -/

namespace LayeredConfig.Segment

/-! ### Positions in bytes -/

/-- The bytes of characters in UTF-8. -/
def utf8 (cs : List Char) : List UInt8 := cs.flatMap String.utf8EncodeChar

/-- The bytes of a text. -/
def bytesOf (text : String) : List UInt8 := text.toByteArray.data.toList

/-- The part of a text between two positions in its bytes. There is none if the positions are out of
order, or if one of them is not at the boundary of a character. -/
def slice? (text : String) (start stop : Nat) : Option String :=
  if h : start ≤ stop ∧
      String.Pos.Raw.IsValid text ⟨start⟩ ∧ String.Pos.Raw.IsValid text ⟨stop⟩ then
    some ⟨text.toByteArray.extract start stop,
      (String.Pos.Raw.isValidUTF8_extract_iff ⟨start⟩ ⟨stop⟩ h.1 h.2.2.le_rawEndPos).2 (.inr h.2)⟩
  else none

/-- The literal between two positions. There is none without characters. -/
def literal? (text : String) (start stop : Nat) : Option (List Segment) :=
  (slice? text start stop).map fun s => if s.toList.isEmpty then [] else [literal s.toList]

/-- The position of the brace that closes the last of `depth` openings, from a position on. -/
def closing? (bytes : List UInt8) (depth i : Nat) : Option Nat :=
  if i < bytes.length then
    if utf8 escapedOpening <+: bytes.drop i then closing? bytes (depth + 1) (i + 3)
    else if utf8 opening <+: bytes.drop i then closing? bytes (depth + 1) (i + 2)
    else if utf8 ['\x7d'] <+: bytes.drop i then
      if depth - 1 = 0 then some i else closing? bytes (depth - 1) (i + 1)
    else closing? bytes depth (i + 1)
  else none
termination_by bytes.length - i

theorem le_of_closing? {bytes : List UInt8} {depth i stop : Nat}
    (h : closing? bytes depth i = some stop) : i ≤ stop := by
  fun_induction closing? bytes depth i with
  | case1 depth i _ _ ih => have := ih h; omega
  | case2 depth i _ _ _ ih => have := ih h; omega
  | case3 => exact (Option.some.inj h).le
  | case4 depth i _ _ _ _ _ ih => have := ih h; omega
  | case5 depth i _ _ _ _ ih => have := ih h; omega
  | case6 => cases h

/-- The segments of a text from position `i` on, together with the literal in front of it, which
starts at `start`. -/
def scan? (text : String) (start i : Nat) : Option (List Segment) :=
  if i < (bytesOf text).length then
    if utf8 escapedOpening <+: (bytesOf text).drop i then do
      let front ← literal? text start i
      let behind ← scan? text (i + 3) (i + 3)
      return front ++ escaped :: behind
    else if utf8 opening <+: (bytesOf text).drop i then
      match _h : closing? (bytesOf text) 1 (i + 2) with
      | none => literal? text start (bytesOf text).length
      | some stop => do
        let front ← literal? text start i
        let body ← slice? text (i + 2) stop
        let behind ← scan? text (stop + 1) (stop + 1)
        return front ++ expression body.toList :: behind
    else scan? text start (i + 1)
  else literal? text start (bytesOf text).length
termination_by (bytesOf text).length - i
decreasing_by
  · omega
  · have := le_of_closing? _h
    omega
  · omega

variable {c : Char} {a b cs : List Char} {bytes : List UInt8} {i depth : Nat}

theorem utf8_append (a b : List Char) : utf8 (a ++ b) = utf8 a ++ utf8 b := List.flatMap_append

theorem bytesOf_ofList (cs : List Char) : bytesOf (String.ofList cs) = utf8 cs := by
  simp [bytesOf, String.ofList, List.utf8Encode, utf8]

theorem drop_utf8 (a b : List Char) : (utf8 (a ++ b)).drop (utf8 a).length = utf8 b := by
  rw [utf8_append, List.drop_left]

theorem size_ofList (cs : List Char) : (String.ofList cs).toByteArray.size = (utf8 cs).length := by
  simp [String.ofList, List.utf8Encode, utf8]

theorem isValid_ofList (a b : List Char) :
    String.Pos.Raw.IsValid (String.ofList (a ++ b)) ⟨(utf8 a).length⟩ := by
  refine String.Pos.Raw.isValid_iff_exists_append.2
    ⟨String.ofList a, String.ofList b, String.ofList_append, ?_⟩
  rw [← size_ofList]
  rfl

/-- What is between two characters is a slice. -/
theorem slice?_append (a b c : List Char) :
    slice? (String.ofList (a ++ (b ++ c))) (utf8 a).length (utf8 (a ++ b)).length =
      some (String.ofList b) := by
  have hle : (utf8 a).length ≤ (utf8 (a ++ b)).length := by
    rw [utf8_append, List.length_append]
    omega
  have hstop := List.append_assoc a b c ▸ isValid_ofList (a ++ b) c
  rw [slice?, dif_pos ⟨hle, isValid_ofList a (b ++ c), hstop⟩]
  refine congrArg some (String.toByteArray_inj.1 ?_)
  show (String.ofList (a ++ (b ++ c))).toByteArray.extract _ _ = _
  rw [String.ofList_append, String.ofList_append, String.toByteArray_append,
    String.toByteArray_append, utf8_append, List.length_append]
  exact (ByteArray.extract_append_size_add' (i := 0) (size_ofList a).symm).trans
    (ByteArray.extract_append_eq_left (size_ofList b).symm)

theorem literal?_append (a b c : List Char) :
    literal? (String.ofList (a ++ (b ++ c))) (utf8 a).length (utf8 (a ++ b)).length =
      some (flush b.reverse) := by
  rw [literal?, slice?_append, Option.map_some, String.toList_ofList, flush, List.reverse_reverse,
    List.isEmpty_reverse]

/-! ### Tokens -/

theorem utf8_prefix_iff : utf8 a <+: utf8 b ↔ a <+: b := by
  constructor
  · rintro ⟨rest, heq⟩
    refine List.isPrefix_of_utf8Encode_append_eq_utf8Encode rest.toByteArray ?_
    refine .trans ?_ (congrArg List.toByteArray heq)
    simp [List.utf8Encode, utf8]
  · rintro ⟨rest, rfl⟩
    exact utf8_append a rest ▸ List.prefix_append _ _

/-- The positions in front of a character and behind it. -/
theorem drop_add (h : bytes.drop i = utf8 (a ++ b)) :
    bytes.drop (i + (utf8 a).length) = utf8 b := by
  rw [← List.drop_drop, h, drop_utf8]

theorem length_utf8_pos (c : Char) (cs : List Char) : 0 < (utf8 (c :: cs)).length := by
  have hc := Char.utf8Size_pos c
  rw [utf8, List.flatMap_cons, List.length_append, String.length_utf8EncodeChar]
  omega

theorem isUTF8FirstByte_iff {j : Nat} {byte : UInt8} (hj : j < (utf8 [c]).length)
    (h : (utf8 (c :: cs))[j]? = some byte) : byte.IsUTF8FirstByte ↔ j = 0 := by
  rw [← List.singleton_append, utf8_append, List.getElem?_append_left hj] at h
  simp only [utf8, List.flatMap_singleton] at h hj
  rw [List.getElem?_eq_getElem hj] at h
  cases h
  exact UInt8.isUTF8FirstByte_getElem_utf8EncodeChar

/-- No character begins inside of a character. -/
theorem not_utf8_prefix_drop {j : Nat} (hpos : 0 < j) (hj : j < (utf8 [c]).length) (ha : a ≠ []) :
    ¬ utf8 a <+: (utf8 (c :: cs)).drop j := by
  rintro ⟨rest, heq⟩
  obtain ⟨d, a, rfl⟩ := List.exists_cons_of_ne_nil ha
  obtain ⟨byte, hbyte⟩ : ∃ byte, (utf8 (d :: a))[0]? = some byte :=
    ⟨_, List.getElem?_eq_getElem (length_utf8_pos d a)⟩
  have hinside : (utf8 (c :: cs))[j]? = some byte := by
    rw [← Nat.add_zero j, ← List.getElem?_drop, ← heq,
      List.getElem?_append_left (length_utf8_pos d a)]
    exact hbyte
  have hfirst := (isUTF8FirstByte_iff (length_utf8_pos d []) hbyte).2 rfl
  exact hpos.ne' ((isUTF8FirstByte_iff hj hinside).1 hfirst)

/-- What steps over a byte that does not begin a token steps over a character that does not begin
one. -/
theorem eq_of_skip {α : Type} {f : Nat → α} {tokens : List (List Char)} (hne : [] ∉ tokens)
    (hstep : ∀ i < bytes.length, (∀ token ∈ tokens, ¬ utf8 token <+: bytes.drop i) →
      f i = f (i + 1))
    (hdrop : bytes.drop i = utf8 (c :: cs)) (h : ∀ token ∈ tokens, ¬ token <+: c :: cs) :
    f i = f (i + (utf8 [c]).length) := by
  have hskip (j : Nat) (hj : j ≤ (utf8 [c]).length) : f i = f (i + j) := by
    induction j with
    | zero => rfl
    | succ j ih =>
      refine (ih (by omega)).trans (hstep (i + j) ?_ fun token htoken => ?_)
      · have hlen := congrArg List.length hdrop
        rw [← List.singleton_append, utf8_append, List.length_append, List.length_drop] at hlen
        omega
      · rw [← List.drop_drop, hdrop]
        rcases Nat.eq_zero_or_pos j with rfl | hpos
        · exact utf8_prefix_iff.not.2 (h token htoken)
        · exact not_utf8_prefix_drop hpos hj fun hnil => hne (hnil ▸ htoken)
  exact hskip _ le_rfl

theorem lt_length_of_drop (h : bytes.drop i = utf8 cs) (hne : cs ≠ []) : i < bytes.length := by
  obtain ⟨c, cs, rfl⟩ := List.exists_cons_of_ne_nil hne
  have hlen := congrArg List.length h
  have hpos := length_utf8_pos c cs
  rw [List.length_drop] at hlen
  omega

theorem not_escapedOpening_opening (cs : List Char) : ¬ escapedOpening <+: opening ++ cs := by
  simp [escapedOpening, opening]

/-! ### The closing brace -/

theorem closing?_opening (h : bytes.drop i = utf8 (opening ++ cs)) :
    closing? bytes depth i = closing? bytes (depth + 1) (i + 2) := by
  rw [closing?, if_pos (lt_length_of_drop h (List.cons_ne_nil _ _)), h,
    if_neg (utf8_prefix_iff.not.2 (not_escapedOpening_opening cs)),
    if_pos (utf8_prefix_iff.2 (List.prefix_append _ _))]

theorem closing?_closing (h : bytes.drop i = utf8 ('\x7d' :: cs)) :
    closing? bytes depth i =
      if depth - 1 = 0 then some i else closing? bytes (depth - 1) (i + 1) := by
  have hescaped : ¬ escapedOpening <+: '\x7d' :: cs := by simp [escapedOpening]
  have hopen : ¬ opening <+: '\x7d' :: cs := not_opening_prefix_of_ne (by decide)
  have hclose : ['\x7d'] <+: '\x7d' :: cs := List.prefix_append _ _
  rw [closing?, if_pos (lt_length_of_drop h (List.cons_ne_nil _ _)), h,
    if_neg (utf8_prefix_iff.not.2 hescaped), if_neg (utf8_prefix_iff.not.2 hopen),
    if_pos (utf8_prefix_iff.2 hclose)]

/-- An escaped opening is one more that is open, as if only the opening were there. -/
theorem closing?_cons (h : bytes.drop i = utf8 (c :: cs)) (hopen : ¬ opening <+: c :: cs)
    (hclose : c ≠ '\x7d') :
    closing? bytes depth i = closing? bytes depth (i + (utf8 [c]).length) := by
  by_cases hescaped : escapedOpening <+: c :: cs
  · obtain ⟨rfl, rest, rfl⟩ := escapedOpening_prefix_cons_iff.1 hescaped
    have hrest : bytes.drop (i + 1) = utf8 (opening ++ rest) := drop_add (a := ['\\']) h
    refine .trans ?_ (closing?_opening hrest).symm
    rw [closing?, if_pos (lt_length_of_drop h (List.cons_ne_nil _ _)), h,
      if_pos (utf8_prefix_iff.2 hescaped)]
  · have htokens : ∀ token ∈ [escapedOpening, opening, ['\x7d']], ¬ token <+: c :: cs := by
      simp [hescaped, hopen, hclose.symm]
    refine eq_of_skip (by decide) (fun j hj hnone => ?_) h htokens
    simp only [List.forall_mem_cons] at hnone
    rw [closing?, if_pos hj, if_neg hnone.1, if_neg hnone.2.1, if_neg hnone.2.2.1]

theorem map_length_append (i : Nat) (a : List Char) (found : Option (List Char × List Char)) :
    (found.map fun r => (a ++ r.1, r.2)).map (fun r => i + (utf8 r.1).length) =
      found.map fun r => i + (utf8 a).length + (utf8 r.1).length := by
  rw [Option.map_map]
  refine congrArg₂ _ (funext fun r => ?_) rfl
  show i + (utf8 (a ++ r.1)).length = _
  rw [utf8_append, List.length_append, Nat.add_assoc]

/-- Looking ahead finds the brace behind the body of the placeholder. -/
theorem closing?_eq (h : bytes.drop i = utf8 cs) :
    closing? bytes (depth + 1) i = (body? depth cs).map fun r => i + (utf8 r.1).length := by
  induction cs using reading_induction generalizing depth i with
  | nil =>
    rw [closing?, if_neg (Nat.not_lt.2 (List.drop_eq_nil_iff.1 h))]
    rfl
  | opened cs ih =>
    rw [closing?_opening h, body?_opening, map_length_append]
    exact ih (drop_add h)
  | closed cs ih =>
    rw [closing?_closing h]
    cases depth with
    | zero =>
      rw [body?_zero_closing]
      rfl
    | succ depth =>
      rw [body?_succ_closing, if_neg (by simp), Nat.add_sub_cancel]
      exact (ih (drop_add (a := ['\x7d']) h)).trans (map_length_append i ['\x7d'] _).symm
  | other c cs hopen hclose ih =>
    rw [closing?_cons h hopen hclose, body?_cons hopen hclose]
    exact (ih (drop_add (a := [c]) h)).trans (map_length_append i [c] _).symm

/-! ### The segments -/

theorem scan?_nil {text : String} {start : Nat} (h : (bytesOf text).drop i = []) :
    scan? text start i = literal? text start (bytesOf text).length := by
  rw [scan?, if_neg (Nat.not_lt.2 (List.drop_eq_nil_iff.1 h))]

theorem scan?_escaped {text : String} {start : Nat}
    (h : (bytesOf text).drop i = utf8 (escapedOpening ++ cs)) :
    scan? text start i = do
      let front ← literal? text start i
      let behind ← scan? text (i + 3) (i + 3)
      return front ++ escaped :: behind := by
  rw [scan?, if_pos (lt_length_of_drop h (List.cons_ne_nil _ _)), h,
    if_pos (utf8_prefix_iff.2 (List.prefix_append _ _))]

theorem scan?_placeholder {text : String} {start stop : Nat}
    (h : (bytesOf text).drop i = utf8 (opening ++ cs))
    (hclosing : closing? (bytesOf text) 1 (i + 2) = some stop) :
    scan? text start i = do
      let front ← literal? text start i
      let body ← slice? text (i + 2) stop
      let behind ← scan? text (stop + 1) (stop + 1)
      return front ++ expression body.toList :: behind := by
  rw [scan?, if_pos (lt_length_of_drop h (List.cons_ne_nil _ _)), h,
    if_neg (utf8_prefix_iff.not.2 (not_escapedOpening_opening cs)),
    if_pos (utf8_prefix_iff.2 (List.prefix_append _ _))]
  split
  · rename_i hnone
    cases hclosing.symm.trans hnone
  · rename_i hsome
    cases hclosing.symm.trans hsome
    rfl

theorem scan?_unclosed {text : String} {start : Nat}
    (h : (bytesOf text).drop i = utf8 (opening ++ cs))
    (hclosing : closing? (bytesOf text) 1 (i + 2) = none) :
    scan? text start i = literal? text start (bytesOf text).length := by
  rw [scan?, if_pos (lt_length_of_drop h (List.cons_ne_nil _ _)), h,
    if_neg (utf8_prefix_iff.not.2 (not_escapedOpening_opening cs)),
    if_pos (utf8_prefix_iff.2 (List.prefix_append _ _))]
  split
  · rfl
  · rename_i hsome
    cases hclosing.symm.trans hsome

theorem scan?_cons {text : String} {start : Nat} (h : (bytesOf text).drop i = utf8 (c :: cs))
    (hescaped : ¬ escapedOpening <+: c :: cs) (hopen : ¬ opening <+: c :: cs) :
    scan? text start i = scan? text start (i + (utf8 [c]).length) := by
  have htokens : ∀ token ∈ [escapedOpening, opening], ¬ token <+: c :: cs := by
    simp [hescaped, hopen]
  refine eq_of_skip (by decide) (fun j hj hnone => ?_) h htokens
  simp only [List.forall_mem_cons] at hnone
  rw [scan?, if_pos hj, if_neg hnone.1, if_neg hnone.2.1]

/-- Where the cursors are when `acc` has been read into the literal and `cs` is still to be read. -/
structure Cursors (text : String) (start i : Nat) (done acc cs : List Char) : Prop where
  text_eq : text = String.ofList (done ++ (acc.reverse ++ cs))
  start_eq : start = (utf8 done).length
  pos_eq : i = (utf8 (done ++ acc.reverse)).length

namespace Cursors

variable {text : String} {start : Nat} {done acc : List Char}

theorem drop_eq (h : Cursors text start i done acc cs) : (bytesOf text).drop i = utf8 cs := by
  rw [h.text_eq, h.pos_eq, ← List.append_assoc, bytesOf_ofList, drop_utf8]

theorem front (h : Cursors text start i done acc cs) :
    literal? text start i = some (flush acc) := by
  rw [h.text_eq, h.start_eq, h.pos_eq, literal?_append, List.reverse_reverse]

/-- What is left is the last literal. -/
theorem rest (h : Cursors text start i done acc cs) :
    literal? text start (bytesOf text).length = some (flush (acc.reverse ++ cs).reverse) := by
  rw [h.text_eq, h.start_eq, bytesOf_ofList, ← literal?_append done (acc.reverse ++ cs) [],
    List.append_nil]

/-- A token has been read. -/
theorem next (h : Cursors text start i done acc (a ++ cs)) {j : Nat}
    (hj : j = i + (utf8 a).length) : Cursors text j j (done ++ acc.reverse ++ a) [] cs where
  text_eq := by
    rw [h.text_eq, List.reverse_nil, List.nil_append, ← List.append_assoc, ← List.append_assoc]
  start_eq := by rw [hj, utf8_append _ a, List.length_append, ← h.pos_eq]
  pos_eq := by rw [hj, List.reverse_nil, List.append_nil, utf8_append _ a, List.length_append,
    ← h.pos_eq]

/-- A character of the literal has been read. -/
theorem step (h : Cursors text start i done acc (c :: cs)) :
    Cursors text start (i + (utf8 [c]).length) done (c :: acc) cs where
  text_eq := by rw [h.text_eq, List.reverse_cons, List.append_assoc _ [c], List.singleton_append]
  start_eq := h.start_eq
  pos_eq := by rw [List.reverse_cons, ← List.append_assoc, utf8_append _ [c], List.length_append,
    ← h.pos_eq]

/-- The body of a placeholder is a slice. -/
theorem slice?_eq (h : Cursors text start i done acc (a ++ (b ++ cs))) :
    slice? text (i + (utf8 a).length) (i + (utf8 a).length + (utf8 b).length) =
      some (String.ofList b) := by
  have hnext := h.next rfl
  rw [hnext.text_eq, hnext.start_eq, ← List.length_append, ← utf8_append]
  exact slice?_append _ b cs

end Cursors

/-- What is scanned at the boundary of a character is what the text is split into, and no slice is
taken inside of a character. -/
theorem scan?_eq_splitAfter {text : String} {start : Nat} {done acc : List Char}
    (h : Cursors text start i done acc cs) : scan? text start i = some (splitAfter acc cs) := by
  fun_induction splitAfter acc cs generalizing done start i with
  | case1 acc => rw [scan?_nil h.drop_eq, h.rest, List.append_nil, List.reverse_reverse]
  | case2 acc cs ih =>
    have hnext := h.next (a := escapedOpening) (j := i + 3) rfl
    rw [scan?_escaped h.drop_eq, h.front, ih hnext]
    rfl
  | case3 acc cs body cs' hbody ih =>
    obtain ⟨rfl, -⟩ := body?_eq_some_iff.1 hbody
    have hat : Cursors text start i done acc (opening ++ (body ++ (['\x7d'] ++ cs'))) := h
    have hclosing : closing? (bytesOf text) 1 (i + 2) = some (i + 2 + (utf8 body).length) :=
      (closing?_eq (drop_add hat.drop_eq)).trans (congrArg (Option.map _) hbody)
    have hslice : slice? text (i + 2) (i + 2 + (utf8 body).length) = some (String.ofList body) :=
      hat.slice?_eq
    have hnext := ((hat.next rfl).next rfl).next (j := i + 2 + (utf8 body).length + 1) rfl
    rw [scan?_placeholder hat.drop_eq hclosing, h.front, hslice, ih hnext]
    show some (flush acc ++ expression (String.ofList body).toList :: splitAfter [] cs') = _
    rw [String.toList_ofList]
  | case4 acc cs hbody =>
    have hat : Cursors text start i done acc (opening ++ cs) := h
    have hclosing : closing? (bytesOf text) 1 (i + 2) = none :=
      (closing?_eq (drop_add hat.drop_eq)).trans (congrArg (Option.map _) hbody)
    rw [scan?_unclosed hat.drop_eq hclosing, h.rest]
    simp [flush]
  | case5 acc c cs hescaped hopen ih =>
    have hescaped' : ¬ escapedOpening <+: c :: cs := fun hp => by
      obtain ⟨hc, rest, hrest⟩ := escapedOpening_prefix_cons_iff.1 hp
      exact hescaped rest hc hrest.symm
    rw [scan?_cons h.drop_eq hescaped' (not_opening_prefix_iff.2 hopen)]
    exact ih h.step

/-- All slices of a text are at the boundaries of characters, so that there is one for each segment.
Written one after another they are the text again, byte for byte, and no other canonical segments
are. -/
theorem segments_canonical (text : String) :
    scan? text 0 0 = some (split text.toList) ∧
      bytesOf (String.ofList (writeAll (split text.toList))) = bytesOf text ∧
      IsCanonical (split text.toList) ∧
      ∀ segments, IsCanonical segments → writeAll segments = text.toList →
        segments = split text.toList := by
  have hstart : Cursors text 0 0 [] [] text.toList := ⟨String.ofList_toList.symm, rfl, rfl⟩
  refine ⟨scan?_eq_splitAfter hstart, ?_, isCanonical_split _, fun segments hcanonical heq => ?_⟩
  · rw [write_split, String.ofList_toList]
  · rw [← heq, split_writeAll hcanonical]

end LayeredConfig.Segment
