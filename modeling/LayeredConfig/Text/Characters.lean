/-! # Characters

A set of characters is a list of closed code point ranges, and a mapping between letters a list of
runs. Tables are short enough to be searched from the front.

A blank is a character with the white space property, of which there are twenty-five; it is more
than the handful in the ASCII range. Trimming takes the blanks off both ends of a text and leaves
those inside. -/

namespace LayeredConfig.Text

/-! ### Tables -/

/-- Closed ranges of code points. -/
abbrev Ranges := List (Nat × Nat)

/-- Whether a character lies in one of the ranges. -/
def Ranges.contains (ranges : Ranges) (c : Char) : Bool :=
  ranges.any fun r => r.1 ≤ c.toNat && c.toNat ≤ r.2

/-- First and last code point, the step between them, and the shift to the counterpart. -/
abbrev CaseRun := Nat × Nat × Nat × Int

/-- The counterpart of a character in a run that holds it. -/
def CaseRun.image? (run : CaseRun) (c : Char) : Option Char :=
  let (first, last, step, shift) := run
  if first ≤ c.toNat ∧ c.toNat ≤ last ∧ (c.toNat - first) % step = 0 then
    some (Char.ofNat (c.toNat + shift).toNat)
  else none

/-! ### Blanks -/

/-- Whether a character is white space. -/
def isBlank (c : Char) : Bool :=
  (9 ≤ c.toNat && c.toNat ≤ 13) || c.toNat == 32 || c.toNat == 0x85 || c.toNat == 0xA0
    || c.toNat == 0x1680 || (0x2000 ≤ c.toNat && c.toNat ≤ 0x200A) || c.toNat == 0x2028
    || c.toNat == 0x2029 || c.toNat == 0x202F || c.toNat == 0x205F || c.toNat == 0x3000

/-- Takes the blanks off the end. -/
def trimEnd (cs : List Char) : List Char := (cs.reverse.dropWhile isBlank).reverse

/-- Takes the blanks off both ends. -/
def trim (cs : List Char) : List Char := trimEnd (cs.dropWhile isBlank)

/-- The text without the blanks at its ends. -/
def trimmed (s : String) : String := String.ofList (trim s.toList)

@[simp] theorem trim_nil : trim [] = [] := rfl

end LayeredConfig.Text
