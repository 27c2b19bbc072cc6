import LayeredConfig.Text.Lines

/-! # Placeholders

A value is text with placeholders, which open with a dollar sign and a brace and close with a
brace. A backslash in front takes the opening for text. `split` cuts a value into its segments, and
`write` puts them together again: nothing is lost (`write_split`). Inside a placeholder every
opening has a closing brace of its own, the openings behind a backslash too. An opening that is not
closed is text, and so is everything behind it. -/

namespace LayeredConfig

/-- A segment of a value. -/
inductive Segment
  /-- Text that stands for itself. -/
  | literal (text : List Char)
  /-- An opening behind a backslash. -/
  | escaped
  /-- The body of a placeholder. -/
  | expression (body : List Char)
  deriving DecidableEq

namespace Segment

/-- What opens a placeholder. -/
def opening : List Char := ['$', '\x7b']

/-- An opening that is meant as text. -/
def escapedOpening : List Char := ['\\', '$', '\x7b']

/-- The segment as it is written in a value. -/
def write : Segment → List Char
  | literal text => text
  | escaped => escapedOpening
  | expression body => opening ++ body ++ ['\x7d']

/-- A value from its segments. -/
def writeAll (segments : List Segment) : List Char := segments.flatMap write

/-- The body that ends at the brace closing the placeholder, and what follows. `depth` openings
inside the body are still open. -/
def body? (depth : Nat) : List Char → Option (List Char × List Char)
  | [] => none
  | '\\' :: '$' :: '\x7b' :: cs => (body? (depth + 1) cs).map fun r => (escapedOpening ++ r.1, r.2)
  | '$' :: '\x7b' :: cs => (body? (depth + 1) cs).map fun r => (opening ++ r.1, r.2)
  | '\x7d' :: cs =>
    match depth with
    | 0 => some ([], cs)
    | n + 1 => (body? n cs).map fun r => ('\x7d' :: r.1, r.2)
  | c :: cs => (body? depth cs).map fun r => (c :: r.1, r.2)

theorem eq_of_body? {depth : Nat} {cs body rest : List Char}
    (h : body? depth cs = some (body, rest)) : cs = body ++ '\x7d' :: rest := by
  fun_induction body? depth cs generalizing body rest <;> simp_all [escapedOpening, opening]
  all_goals obtain ⟨b, hb, rfl⟩ := h; simp_all

theorem length_of_body? {depth : Nat} {cs body rest : List Char}
    (h : body? depth cs = some (body, rest)) : rest.length < cs.length := by
  have := congrArg List.length (eq_of_body? h)
  simp only [List.length_append, List.length_cons] at this
  omega

/-- The literal of the characters read so far, which come backwards. There is none without
characters. -/
def flush (acc : List Char) : List Segment := if acc.isEmpty then [] else [literal acc.reverse]

/-- Cuts a text into segments; `acc` holds the literal before it backwards. -/
def splitAfter (acc : List Char) (cs : List Char) : List Segment :=
  match cs with
  | [] => flush acc
  | '\\' :: '$' :: '\x7b' :: rest => flush acc ++ escaped :: splitAfter [] rest
  | '$' :: '\x7b' :: rest =>
    match _h : body? 0 rest with
    | some (body, rest) => flush acc ++ expression body :: splitAfter [] rest
    | none => [literal (acc.reverse ++ '$' :: '\x7b' :: rest)]
  | c :: rest => splitAfter (c :: acc) rest
termination_by cs.length
decreasing_by
  all_goals simp_wf
  · omega
  · have := length_of_body? _h; omega

/-- The segments of a value. -/
def split (cs : List Char) : List Segment := splitAfter [] cs

theorem writeAll_flush (acc : List Char) : writeAll (flush acc) = acc.reverse := by
  cases acc <;> simp [flush, writeAll, write]

theorem writeAll_splitAfter (acc cs : List Char) :
    writeAll (splitAfter acc cs) = acc.reverse ++ cs := by
  fun_induction splitAfter acc cs <;>
    simp_all [writeAll, write, escapedOpening, opening]
  all_goals simp_all [← writeAll_flush, writeAll]
  rename_i h _
  exact (eq_of_body? h).symm

/-- Writing the segments of a value gives the value. -/
theorem write_split (cs : List Char) : writeAll (split cs) = cs := by
  simp [split, writeAll_splitAfter]

end Segment

end LayeredConfig
