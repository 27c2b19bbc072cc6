import LayeredConfig.Pattern.CharSet

/-! # Patterns

Regular patterns over text. A pattern is found in a text when some part of the text matches it; the
anchors tie a match to the ends of the text. `reach` gives the places where a match that begins at a
place can end. -/

namespace LayeredConfig

/-- A condition on a place between characters. -/
inductive Anchor
  | textStart
  | textEnd
  | lineStart
  | lineEnd
  | wordEdge
  | noWordEdge
  | wordStart
  | wordEnd
  deriving DecidableEq

/-- A regular pattern. -/
inductive Pattern
  | nothing
  | set (s : Pattern.CharSet)
  | anchor (a : Anchor)
  | seq (first second : Pattern)
  | alt (first second : Pattern)
  /-- At least `least` matches in a row, and at most `most` if it is given. -/
  | repeated (p : Pattern) (least : Nat) (most : Option Nat)

namespace Anchor

/-- Whether the condition holds at a place of a text. -/
def holds (a : Anchor) (text : Array Char) (i : Nat) : Bool :=
  let isWordAt (j : Nat) : Bool := (text[j]?.map Text.isWordChar).getD false
  let wordBefore := i ≠ 0 && isWordAt (i - 1)
  let wordBehind := isWordAt i
  match a with
  | textStart => i = 0
  | textEnd => i = text.size
  | lineStart => i = 0 || text[i - 1]? = some '\n'
  | lineEnd => i = text.size || text[i]? = some '\n'
  | wordEdge => wordBefore != wordBehind
  | noWordEdge => wordBefore == wordBehind
  | wordStart => !wordBefore && wordBehind
  | wordEnd => wordBefore && !wordBehind

end Anchor

namespace Pattern

/-- All places one step further on, without repetitions. -/
def advance (step : Nat → List Nat) (places : List Nat) : List Nat :=
  (places.flatMap step).eraseDups

/-- All places exactly `n` steps further on. -/
def advanceBy (step : Nat → List Nat) : Nat → List Nat → List Nat
  | 0, places => places
  | n + 1, places => if places.isEmpty then [] else advanceBy step n (advance step places)

/-- All places at most `n` steps further on; stops as soon as a step adds none. -/
def within (step : Nat → List Nat) : Nat → List Nat → List Nat
  | 0, places => places
  | n + 1, places =>
    let more := (places ++ advance step places).eraseDups
    if more.length = places.length then places else within step n more

/-- The places where a match that begins at `i` can end. -/
def reach (text : Array Char) : Pattern → Nat → List Nat
  | nothing, i => [i]
  | set s, i =>
    match text[i]? with
    | some c => if s.contains c then [i + 1] else []
    | none => []
  | anchor a, i => if a.holds text i then [i] else []
  | seq first second, i => advance (reach text second) (reach text first i)
  | alt first second, i => (reach text first i ++ reach text second i).eraseDups
  | repeated p least most, i =>
    let start := advanceBy (reach text p) least [i]
    within (reach text p) ((most.map (· - least)).getD (text.size + 1)) start

/-- Whether some part of a text matches. -/
def isFoundIn (p : Pattern) (text : String) : Bool :=
  let chars := text.toList.toArray
  (List.range (chars.size + 1)).any fun i => !(p.reach chars i).isEmpty

/-- The pattern that exactly one text matches, from end to end. -/
def exactly (text : String) : Pattern :=
  .seq (.anchor .textStart)
    (text.toList.foldr (fun c p => .seq (.set (.single c)) p) (.anchor .textEnd))

end Pattern

end LayeredConfig
